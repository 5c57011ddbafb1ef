/-
Asking a pool for registers until it has none left.  Each request starts where
the last one ended, so together they go round the allocatable registers once:
they hand out the free ones in the order in which they stand from the cursor
on.  Then all registers are busy, and the next request is refused.
-/
import SpimGen.Proofs.OnePassSearch
import SpimGen.Proofs.Ownership

namespace SpimGen

/-- A round from any of its positions is the round split there, its two parts
exchanged. -/
theorem Catalog.roundFrom_of_split {catalog : Catalog} {start position : Nat}
    {reg : Register} {before rest : List (Register × Nat)}
    (hround : catalog.roundFrom start = before ++ (reg, position) :: rest) :
    catalog.roundFrom position = (reg, position) :: rest ++ before := by
  have hlength : catalog.allocatable.zipIdx.length = catalog.capacity :=
    List.length_zipIdx
  have hbefore : before.length < catalog.allocatable.zipIdx.length := by
    have hall := catalog.length_roundFrom start
    simp only [hround, List.length_append, List.length_cons] at hall
    omega
  have hentry : (catalog.roundFrom start)[before.length]? =
      some (reg, position) := by
    simp [hround]
  have hposition : position =
      (before.length + start) % catalog.allocatable.zipIdx.length := by
    rw [roundFrom, List.getElem?_rotate hbefore, List.getElem?_zipIdx,
      Option.map_eq_some_iff] at hentry
    obtain ⟨_, _, hpair⟩ := hentry
    simpa using (congrArg Prod.snd hpair).symm
  calc catalog.roundFrom position
      = (catalog.roundFrom start).rotate before.length := by
        rw [roundFrom, roundFrom, hposition, List.rotate_mod,
          List.rotate_rotate, Nat.add_comm]
    _ = (reg, position) :: rest ++ before := by
        rw [hround, List.rotate_append_length_eq]

namespace Pool

variable {catalog : Catalog}

/-- The free registers in the order in which they stand from the cursor on. -/
def idle (pool : Pool catalog) : List Register :=
  (catalog.allocatable.rotate pool.cursor).filter
    fun reg => pool.isFree reg = .ok true

section

variable {pool : Pool catalog} {held : Finset Register}
  (hpositional : catalog.Positional) (htracks : pool.Tracks held)

include htracks

theorem Tracks.steady : pool.Steady where
  toSound := htracks.sound
  freeCount_of_empty hempty := by
    rw [htracks.freeCount_eq, List.length_eq_zero_iff.mp hempty]
    rfl

include hpositional

theorem Tracks.stopsAt_eq {reg : Register}
    (hreg : reg ∈ catalog.allocatable) :
    pool.stopsAt reg = decide (reg ∉ held) := by
  obtain ⟨hmem, hallocatable⟩ := Catalog.mem_allocatable_iff.mp hreg
  rw [stopsAt, htracks.busy_getElem? hpositional hmem]
  simp [isBusyWith, hallocatable]

theorem Tracks.idle_eq :
    pool.idle =
      ((catalog.roundFrom pool.cursor).map Prod.fst).filter
        fun reg => reg ∉ held := by
  rw [idle, Catalog.map_fst_roundFrom]
  apply List.filter_congr
  intro reg hreg
  obtain ⟨hmem, hallocatable⟩ :=
    Catalog.mem_allocatable_iff.mp (List.mem_rotate.mp hreg)
  simp [htracks.isFree_eq hpositional hmem, hallocatable]

theorem Tracks.length_idle : pool.idle.length = pool.freeCount := by
  rw [htracks.idle_eq hpositional, Catalog.map_fst_roundFrom,
    ← List.countP_eq_length_filter, (List.rotate_perm _ _).countP_eq,
    htracks.freeCount_eq]

/-- The first free register has only held ones between the cursor and itself. -/
theorem Tracks.exists_split_of_idle {first : Register} {rest : List Register}
    (hidle : pool.idle = first :: rest) :
    ∃ before position after,
      catalog.roundFrom pool.cursor = before ++ (first, position) :: after ∧
      (∀ entry ∈ before, entry.1 ∈ held) ∧ first ∉ held ∧
      (after.map Prod.fst).filter (fun reg => reg ∉ held) = rest := by
  rw [htracks.idle_eq hpositional, List.filter_eq_cons_iff] at hidle
  obtain ⟨busy, others, hround, hbusy, hfirst, hrest⟩ := hidle
  obtain ⟨before, entries, hsplit, hbefore, hentries⟩ :=
    List.map_eq_append_iff.mp hround
  obtain ⟨⟨reg, position⟩, after, rfl, rfl, rfl⟩ :=
    List.map_eq_cons_iff.mp hentries
  refine ⟨before, position, after, hsplit, ?_, by simpa using hfirst, hrest⟩
  intro entry hentry
  have hheld := hbusy entry.1 (hbefore ▸ List.mem_map_of_mem hentry)
  simpa using hheld

theorem Tracks.allocate_of_split {first : Register} {position : Nat}
    {before after : List (Register × Nat)}
    (hround : catalog.roundFrom pool.cursor =
      before ++ (first, position) :: after)
    (hbefore : ∀ entry ∈ before, entry.1 ∈ held) (hfirst : first ∉ held) :
    (Pool.allocate pool).result = .ok first ∧
      (Pool.allocate pool).state = pool.take position first := by
  have hmem : ∀ entry ∈ catalog.roundFrom pool.cursor,
      entry.1 ∈ catalog.allocatable := fun entry hentry =>
    List.mem_of_getElem? (Catalog.getElem?_of_mem_roundFrom hentry)
  have hallocatable : first ∈ catalog.allocatable :=
    hmem (first, position) (by simp [hround])
  have hinside : first.index < pool.busy.length := by
    rw [htracks.sound.busy_length]
    exact hpositional.index_lt first hallocatable
  have hcount : pool.freeCount ≠ 0 := fun hzero =>
    hfirst (htracks.freeCount_eq_zero_iff.mp hzero first hallocatable)
  have hstop : pool.firstStop? (catalog.roundFrom pool.cursor) =
      some (first, position) := by
    rw [firstStop?, List.find?_eq_some_iff_append]
    constructor
    · simp [htracks.stopsAt_eq hpositional hallocatable, hfirst]
    · refine ⟨before, after, hround, ?_⟩
      intro entry hentry
      rw [htracks.stopsAt_eq hpositional (hmem entry (by simp [hround, hentry]))]
      simp [hbefore entry hentry]
  rw [htracks.steady.allocate_eq, allocateInOnePass, if_neg hcount, hstop]
  simp only [if_pos hinside]
  trivial

/-- A request hands out the first free register from the cursor on, and leaves
the others as they are. -/
theorem Tracks.allocate_of_idle {first : Register} {rest : List Register}
    (hidle : pool.idle = first :: rest) :
    (Pool.allocate pool).result = .ok first ∧
      (Pool.allocate pool).state.Tracks (insert first held) ∧
      (Pool.allocate pool).state.idle = rest ∧
      (Pool.allocate pool).state.cursorRegister? = some first := by
  obtain ⟨before, position, after, hround, hbefore, hfirst, hrest⟩ :=
    htracks.exists_split_of_idle hpositional hidle
  obtain ⟨hresult, hstate⟩ :=
    htracks.allocate_of_split hpositional hround hbefore hfirst
  have hentry : (first, position) ∈ catalog.roundFrom pool.cursor := by
    simp [hround]
  have hposition : catalog.allocatable[position]? = some first :=
    Catalog.getElem?_of_mem_roundFrom hentry
  have htaken : (pool.take position first).Tracks (insert first held) := by
    obtain ⟨hmem, hallocatable⟩ :=
      Catalog.mem_allocatable_iff.mp (List.mem_of_getElem? hposition)
    apply htracks.take hpositional hposition
    rw [htracks.busy_getElem? hpositional hmem]
    simp [isBusyWith, hallocatable, hfirst]
  have hafter : first ∉ after.map Prod.fst := by
    have hnodup : ((catalog.roundFrom pool.cursor).map Prod.fst).Nodup := by
      rw [Catalog.map_fst_roundFrom, List.nodup_rotate]
      exact hpositional.registers_nodup.filter _
    rw [hround, List.map_append, List.map_cons] at hnodup
    exact (List.nodup_cons.mp hnodup.of_append_right).1
  have hpassed : (before.map Prod.fst).filter
      (fun reg => reg ∉ insert first held) = [] := by
    rw [List.filter_eq_nil_iff]
    simpa [not_or] using fun reg other hmem _ => hbefore (reg, other) hmem
  have hothers : (after.map Prod.fst).filter
      (fun reg => reg ∉ insert first held) = rest := by
    rw [← hrest]
    apply List.filter_congr
    intro reg hreg
    have hne : reg ≠ first := fun heq => hafter (heq ▸ hreg)
    simp [hne]
  rw [hstate]
  refine ⟨hresult, htaken, ?_, hposition⟩
  -- From the new cursor on, the register itself comes first, then what was
  -- behind it, and last the held registers that the search has passed.
  rw [htaken.idle_eq hpositional]
  change ((catalog.roundFrom position).map Prod.fst).filter _ = rest
  rw [Catalog.roundFrom_of_split hround, List.map_append, List.map_cons,
    List.filter_append, List.filter_cons_of_neg (by simp), hothers, hpassed,
    List.append_nil]

end

/-- The entry of a request that was granted in the history of a pool. -/
def granted (reg : Register) : PoolCall × Except Fault PoolReply :=
  (.allocate, .ok (.register reg))

/-- As many requests as there are free registers hand these out in order. -/
theorem Tracks.drain (hpositional : catalog.Positional) {pool : Pool catalog}
    {held : Finset Register} (htracks : pool.Tracks held)
    {idle : List Register} (hidle : pool.idle = idle) :
    let requests := List.replicate idle.length PoolCall.allocate
    pool.history requests = idle.map granted ∧
      (pool.follow requests).idle = [] ∧
      (pool.follow requests).cursorRegister? =
        idle.getLast?.or pool.cursorRegister? := by
  induction idle generalizing pool held with
  | nil => exact ⟨rfl, hidle, rfl⟩
  | cons first rest ih =>
      obtain ⟨hresult, htaken, hrest, hcursor⟩ :=
        htracks.allocate_of_idle hpositional hidle
      obtain ⟨hhistory, hempty, hlast⟩ := ih htaken hrest
      have hperform : PoolCall.allocate.perform pool =
          ⟨.ok (.register first), (Pool.allocate pool).state,
            (Pool.allocate pool).log⟩ := by
        rw [PoolCall.perform, Action.bind_pure_apply, hresult]
        rfl
      simp only [List.length_cons, List.replicate_succ, history,
        Pool.follow, hperform]
      refine ⟨?_, hempty, ?_⟩
      · rw [hhistory]
        rfl
      · rw [hlast, hcursor, List.getLast?_cons]
        cases rest.getLast? <;> rfl

/-- On a catalog numbered by position, a pool asked as often as it has free
registers hands out exactly these, in the order in which they stand from the
cursor on, and is then exhausted. -/
theorem drained_in_order (catalog : Catalog)
    (hpositional : catalog.Positional) (calls : List PoolCall) :
    let pool := after catalog calls
    let count := catalog.allocatable.countP fun reg => pool.isFree reg = .ok true
    let requests := List.replicate count PoolCall.allocate
    let drained := pool.follow requests
    pool.history requests = pool.idle.map granted ∧
    pool.idle.length = count ∧
    pool.idle.Nodup ∧
    (allocate drained).result = .error .poolExhausted ∧
    (allocate drained).state = drained ∧
    drained.freeCount = 0 ∧
    (∀ reg ∈ catalog.registers, drained.isFree reg = .ok false) ∧
    drained.cursorRegister? = pool.idle.getLast?.or pool.cursorRegister? ∧
    (count = 0 → drained.cursor = pool.cursor) := by
  intro pool count requests drained
  have htracks := after_tracks hpositional calls
  have hlength : pool.idle.length = count := by
    rw [idle, ← List.countP_eq_length_filter, (List.rotate_perm _ _).countP_eq]
  have hnodup : pool.idle.Nodup :=
    (List.nodup_rotate.mpr (hpositional.registers_nodup.filter _)).filter _
  obtain ⟨hhistory, hempty, hcursor⟩ := htracks.drain hpositional rfl
  rw [show (after catalog calls).idle.length = count from hlength]
    at hhistory hempty hcursor
  have hdrained := htracks.follow hpositional requests
  have hcount : drained.freeCount = 0 := by
    rw [← hdrained.length_idle hpositional, hempty]
    rfl
  have hexhausted := allocate_of_empty hcount
  refine ⟨hhistory, hlength, hnodup, by rw [hexhausted], by rw [hexhausted],
    hcount, ?_, hcursor, ?_⟩
  · intro reg hreg
    have hheld := hdrained.freeCount_eq_zero_iff.mp hcount reg
    rw [hdrained.isFree_eq hpositional hreg]
    by_cases hallocatable : reg.allocatable = true
    · have hmem := Catalog.mem_allocatable_iff.mpr ⟨hreg, hallocatable⟩
      simp [hheld hmem]
    · simp [hallocatable]
  · intro hzero
    rw [show drained = pool.follow (List.replicate count .allocate) from rfl,
      hzero]
    rfl

/-- With `$t2` held and the cursor on `$t1`, the requests wrap round to `$t0`. -/
theorem drained_in_order_wrapped :
    Mips.catalog.Positional ∧
    let pool := after Mips.catalog
      [.allocate, .allocate, .allocate, .freeIndex 8, .freeIndex 9]
    let drained := pool.follow (List.replicate 17 .allocate)
    pool.idle.head? = some (Mips.register "t1" 9) ∧
    pool.idle.getLast? = some (Mips.register "t0" 8) ∧
    pool.history (List.replicate 17 .allocate) = pool.idle.map granted ∧
    (allocate drained).result = .error .poolExhausted ∧
    drained.cursorRegister? = some (Mips.register "t0" 8) := by
  refine ⟨Mips.catalog_positional, ?_⟩
  intro pool drained
  have hcount : (Mips.catalog.allocatable.countP
      fun reg => pool.isFree reg = .ok true) = 17 := by decide
  have hlast : pool.idle.getLast? = some (Mips.register "t0" 8) := by decide
  obtain ⟨hhistory, _, _, hexhausted, _, _, _, hcursor, _⟩ :=
    drained_in_order Mips.catalog Mips.catalog_positional
      [.allocate, .allocate, .allocate, .freeIndex 8, .freeIndex 9]
  rw [show Mips.catalog.allocatable.countP _ = 17 from hcount]
    at hhistory hexhausted hcursor
  refine ⟨by decide, hlast, hhistory, hexhausted, hcursor.trans ?_⟩
  rw [show (after Mips.catalog _).idle.getLast? = _ from hlast]
  rfl

end Pool

end SpimGen

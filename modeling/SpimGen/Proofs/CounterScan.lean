/-
When the counter of a pool and its search can disagree.  The busy table is
filled in by catalog position and looked up by hardware number.  A position
whose entry starts out free although no allocatable register bears its number
is counted for ever and never found; without such a position the allocatable
numbers are a rearrangement of the allocatable positions, and the counter is
right in every state.
-/
import SpimGen.Proofs.PoolSearch
import Mathlib.Data.List.Perm.Subperm

namespace SpimGen

/-- The position holds an allocatable register, and no allocatable register
bears its number. -/
def Catalog.Orphan (catalog : Catalog) (position : Nat) : Prop :=
  (∃ reg, catalog.at? position = some reg ∧ reg.allocatable = true) ∧
    ∀ reg ∈ catalog.allocatable, reg.index ≠ position

namespace Pool

variable {catalog : Catalog}

/-- The pool counts a free register and yet refuses to hand one out. -/
def Stranded (pool : Pool catalog) : Prop :=
  0 < pool.freeCount ∧ (allocate pool).result = .error .poolExhausted

def idleSlots (pool : Pool catalog) : List Nat :=
  pool.busy.idxsOf false

theorem mem_idleSlots_iff {pool : Pool catalog} {slot : Nat} :
    slot ∈ pool.idleSlots ↔ pool.busy[slot]? = some false := by
  rw [idleSlots, List.mem_idxsOf_iff_exists_getElem_pos,
    List.getElem?_eq_some_iff]
  simp

theorem idleSlots_nodup (pool : Pool catalog) : pool.idleSlots.Nodup :=
  List.nodup_idxsOf

theorem Sound.length_idleSlots {pool : Pool catalog} (hsound : pool.Sound) :
    pool.idleSlots.length = pool.freeCount := by
  rw [idleSlots, List.length_idxsOf, hsound.freeCount_eq]

/-- In a new pool the free entries stand at the positions of allocatable
registers. -/
theorem mem_idleSlots_new_iff {slot : Nat} :
    slot ∈ (new catalog).idleSlots ↔
      ∃ reg, catalog.at? slot = some reg ∧ reg.allocatable = true := by
  rw [mem_idleSlots_iff, new, List.getElem?_map, Option.map_eq_some_iff]
  simp [Catalog.at?]

/-! ### A position that no register is numbered for -/

/-- No move touches the entry of an orphan. -/
theorem orphan_idle_of_move {position : Nat} (horphan : catalog.Orphan position)
    {pool next : Pool catalog} (hidle : pool.busy[position]? = some false)
    (hmove : pool.Move next) : next.busy[position]? = some false := by
  cases hmove with
  | stay => exact hidle
  | take hposition _ =>
      have hne := horphan.2 _ (List.mem_of_getElem? hposition)
      rwa [take, List.getElem?_set_ne hne]
  | giveBack hposition _ =>
      have hne := horphan.2 _ (List.mem_of_getElem? hposition)
      rwa [giveBack, List.getElem?_set_ne hne]
  | startOver => exact mem_idleSlots_iff.mp (mem_idleSlots_new_iff.mpr horphan.1)

/-- A request is refused or leaves one register less. -/
theorem Sound.allocate_dichotomy
    (hinside : ∀ reg ∈ catalog.allocatable,
      reg.index < catalog.registers.length)
    {pool : Pool catalog} (hsound : pool.Sound) :
    (allocate pool).result = .error .poolExhausted ∨
      (allocate pool).state.freeCount < pool.freeCount := by
  by_cases hcount : pool.freeCount = 0
  · exact Or.inl (by rw [allocate_of_empty hcount])
  · cases hfound : pool.search catalog.capacity pool.cursor with
    | free position reg =>
        right
        rw [allocate_of_free hcount hfound, take]
        exact Nat.sub_one_lt hcount
    | nothing => exact Or.inl (by rw [allocate_of_nothing hcount hfound])
    | broken fault =>
        by_cases hcapacity : catalog.capacity = 0
        · rw [hcapacity, search] at hfound
          contradiction
        · obtain ⟨reg, hreg, hnone, _⟩ :=
            search_eq_broken (hsound.cursor_lt hcapacity) hfound
          have hlt := hinside reg hreg
          rw [List.getElem?_eq_none_iff, hsound.busy_length] at hnone
          exact absurd hlt (Nat.not_lt.mpr hnone)

/-- With an orphan around, asking for registers often enough ends in a refusal
while the orphan is still counted. -/
theorem exists_stranded_of_orphan
    (hinside : ∀ reg ∈ catalog.allocatable,
      reg.index < catalog.registers.length)
    {position : Nat} (horphan : catalog.Orphan position) (count : Nat)
    {pool : Pool catalog} (hcount : pool.freeCount = count)
    (hsound : pool.Sound) (hidle : pool.busy[position]? = some false) :
    ∃ times, (pool.follow (List.replicate times .allocate)).Stranded := by
  -- A request that is granted lowers the counter, so the refusal has to come.
  induction count using Nat.strongRecOn generalizing pool with
  | ind count ih =>
      rcases hsound.allocate_dichotomy hinside with hrefused | hless
      · have hpos : 0 < pool.freeCount := by
          rw [← hsound.length_idleSlots]
          exact List.length_pos_of_mem (mem_idleSlots_iff.mpr hidle)
        exact ⟨0, hpos, hrefused⟩
      · have hmove := allocate_move pool
        obtain ⟨times, hstranded⟩ := ih _ (hcount ▸ hless) rfl
          (hsound.move hmove) (orphan_idle_of_move horphan hidle hmove)
        refine ⟨times + 1, ?_⟩
        rwa [List.replicate_succ, follow, PoolCall.perform,
          Action.bind_pure_apply]

/-! ### No such position -/

/-- Without an orphan, the allocatable numbers are the allocatable positions in
some order. -/
theorem idleSlots_new_perm (hnone : ¬ ∃ position, catalog.Orphan position) :
    List.Perm (new catalog).idleSlots
      (catalog.allocatable.map Register.index) := by
  have hsubset : (new catalog).idleSlots ⊆
      catalog.allocatable.map Register.index := by
    intro slot hslot
    by_contra hmissing
    refine hnone ⟨slot, mem_idleSlots_new_iff.mp hslot, ?_⟩
    intro reg hreg hindex
    exact hmissing (List.mem_map.mpr ⟨reg, hreg, hindex⟩)
  have hsubperm := List.subperm_of_subset (idleSlots_nodup _) hsubset
  apply hsubperm.perm_of_length_le
  rw [new_sound.length_idleSlots, List.length_map]
  exact Nat.le_refl _

theorem index_nodup (hnone : ¬ ∃ position, catalog.Orphan position) :
    (catalog.allocatable.map Register.index).Nodup :=
  (idleSlots_new_perm hnone).nodup (idleSlots_nodup _)

/-- Without an orphan, every free entry belongs to an allocatable register. -/
theorem exists_of_mem_idleSlots (hnone : ¬ ∃ position, catalog.Orphan position)
    (calls : List PoolCall) {slot : Nat}
    (hslot : slot ∈ (after catalog calls).idleSlots) :
    ∃ reg ∈ catalog.allocatable, reg.index = slot := by
  revert slot
  refine follow_of_move (motive := fun pool : Pool catalog =>
    ∀ {slot}, slot ∈ pool.idleSlots →
      ∃ reg ∈ catalog.allocatable, reg.index = slot) ?_ ?_ calls
  · intro pool next hpool hmove slot hslot
    cases hmove with
    | stay => exact hpool hslot
    | @take position reg hposition hidle =>
        apply hpool
        rw [mem_idleSlots_iff, take] at hslot
        by_cases hindex : reg.index = slot
        · simp [hindex, List.getElem?_set_self'] at hslot
        · rw [List.getElem?_set_ne hindex] at hslot
          exact mem_idleSlots_iff.mpr hslot
    | @giveBack position reg hposition hbusy =>
        by_cases hindex : reg.index = slot
        · exact ⟨reg, List.mem_of_getElem? hposition, hindex⟩
        · apply hpool
          rw [mem_idleSlots_iff, giveBack, List.getElem?_set_ne hindex] at hslot
          exact mem_idleSlots_iff.mpr hslot
    | startOver =>
        exact List.mem_map.mp ((idleSlots_new_perm hnone).subset hslot)
  · intro slot hslot
    exact List.mem_map.mp ((idleSlots_new_perm hnone).subset hslot)

theorem isFree_eq_ok_true_iff {pool : Pool catalog} {reg : Register} :
    pool.isFree reg = .ok true ↔ pool.busy[reg.index]? = some false := by
  rw [isFree]
  cases pool.busy[reg.index]? with
  | none => simp
  | some busy => simp

theorem freeCount_eq_countP (hnone : ¬ ∃ position, catalog.Orphan position)
    (calls : List PoolCall) :
    (after catalog calls).freeCount =
      catalog.allocatable.countP
        (fun reg => (after catalog calls).isFree reg = .ok true) := by
  have hperm : List.Perm (after catalog calls).idleSlots
      ((catalog.allocatable.map Register.index).filter
        (fun slot => (after catalog calls).busy[slot]? = some false)) := by
    -- No entry repeats on either side, so it is enough to compare members.
    apply (List.perm_ext_iff_of_nodup (idleSlots_nodup _)
      ((index_nodup hnone).filter _)).mpr
    intro slot
    rw [List.mem_filter, List.mem_map, decide_eq_true_eq, ← mem_idleSlots_iff]
    exact ⟨fun hslot => ⟨exists_of_mem_idleSlots hnone calls hslot, hslot⟩,
      And.right⟩
  rw [← (after_sound catalog calls).length_idleSlots, hperm.length_eq,
    ← List.countP_eq_length_filter, List.countP_map]
  simp only [isFree_eq_ok_true_iff]
  rfl

theorem not_stranded_after
    (hinside : ∀ reg ∈ catalog.allocatable,
      reg.index < catalog.registers.length)
    (hnone : ¬ ∃ position, catalog.Orphan position) (calls : List PoolCall) :
    ¬ (after catalog calls).Stranded := by
  rintro ⟨hpos, hrefused⟩
  rw [freeCount_eq_countP hnone, List.countP_pos_iff] at hpos
  obtain ⟨idle, hmem, hidle⟩ := hpos
  rw [decide_eq_true_eq, isFree_eq_ok_true_iff] at hidle
  obtain ⟨reg, hok⟩ :=
    (after_sound catalog calls).exists_allocate_eq_ok hinside hmem hidle
  rw [hrefused] at hok
  cases hok

/-- Some run makes the counter and the search disagree exactly if the catalog
has an orphan; otherwise the counter is right after every run. -/
theorem stranded_run_iff_orphan (catalog : Catalog)
    (hinside : ∀ reg ∈ catalog.allocatable,
      reg.index < catalog.registers.length) :
    ((∃ calls : List PoolCall, (∀ call ∈ calls, call.isExchange = true) ∧
        (after catalog calls).Stranded) ↔
      ∃ position, catalog.Orphan position) ∧
    ((¬ ∃ position, catalog.Orphan position) →
      (catalog.allocatable.map Register.index).Nodup ∧
      ∀ calls : List PoolCall,
        (after catalog calls).freeCount =
          catalog.allocatable.countP
            (fun reg => (after catalog calls).isFree reg = .ok true) ∧
        (after catalog calls).freeCount ≤ catalog.capacity) := by
  refine ⟨⟨?_, ?_⟩, ?_⟩
  · rintro ⟨calls, _, hstranded⟩
    by_contra hnone
    exact not_stranded_after hinside hnone calls hstranded
  · rintro ⟨position, horphan⟩
    have hidle := mem_idleSlots_iff.mp (mem_idleSlots_new_iff.mpr horphan.1)
    obtain ⟨times, hstranded⟩ :=
      exists_stranded_of_orphan hinside horphan _ rfl new_sound hidle
    refine ⟨List.replicate times .allocate, ?_, hstranded⟩
    intro call hcall
    rw [List.eq_of_mem_replicate hcall]
    rfl
  · intro hnone
    refine ⟨index_nodup hnone, fun calls => ?_⟩
    have hcount := freeCount_eq_countP hnone calls
    exact ⟨hcount, hcount ▸ List.countP_le_length⟩

end Pool

/-- Two registers that share the number of the first. -/
def Catalog.sharedNumber : Catalog where
  registers := [⟨"a", 0, true⟩, ⟨"b", 0, true⟩]

/-- With a shared number the second position is an orphan, so some run ends
with a refusal while a register is counted. -/
theorem Pool.stranded_run_of_sharedNumber :
    (∀ reg ∈ Catalog.sharedNumber.allocatable,
      reg.index < Catalog.sharedNumber.registers.length) ∧
    ∃ calls : List PoolCall, (∀ call ∈ calls, call.isExchange = true) ∧
      (after Catalog.sharedNumber calls).Stranded := by
  have hinside : ∀ reg ∈ Catalog.sharedNumber.allocatable,
      reg.index < Catalog.sharedNumber.registers.length := by decide
  have hiff := (stranded_run_iff_orphan Catalog.sharedNumber hinside).1
  exact ⟨hinside, hiff.mpr ⟨1, ⟨⟨"b", 0, true⟩, rfl, rfl⟩, by decide⟩⟩

end SpimGen

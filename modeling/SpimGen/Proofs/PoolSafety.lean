/-
Pools on catalogs of any kind.  Nothing is assumed about hardware numbers here:
they may be shared, permuted or out of range, and there may be no register at
all.  The bookkeeping of a pool, and of every saved copy of it, is right
nevertheless.  So a request never counts below zero and never leaves the list of
allocatable registers; a step breaks off only over a register whose number the
busy table has no entry for, and then it has changed nothing.
-/
import SpimGen.PoolBench
import SpimGen.Proofs.PoolSearch

namespace SpimGen

/-! ### Pools -/

namespace Pool

variable {catalog : Catalog}

/-- Sound bookkeeping that counts nothing where nothing can be handed out. -/
structure Steady (pool : Pool catalog) : Prop extends pool.Sound where
  freeCount_of_empty : catalog.capacity = 0 → pool.freeCount = 0

theorem capacity_ne_zero {position : Nat} {reg : Register}
    (hposition : catalog.allocatable[position]? = some reg) :
    catalog.capacity ≠ 0 :=
  Nat.ne_of_gt (List.length_pos_of_mem (List.mem_of_getElem? hposition))

theorem new_steady : (new catalog).Steady where
  toSound := new_sound
  freeCount_of_empty := id

theorem Steady.move {pool next : Pool catalog} (hsteady : pool.Steady)
    (hmove : pool.Move next) : next.Steady := by
  refine ⟨hsteady.toSound.move hmove, fun hempty => ?_⟩
  cases hmove with
  | stay => exact hsteady.freeCount_of_empty hempty
  | take hposition _ => exact absurd hempty (capacity_ne_zero hposition)
  | giveBack hposition _ => exact absurd hempty (capacity_ne_zero hposition)
  | startOver => exact hempty

/-- As long as a register is counted, the cursor stands on one: where the list
is empty and the cursor no position of it, nothing is counted. -/
theorem Steady.cursor_lt_of_count {pool : Pool catalog} (hsteady : pool.Steady)
    (hcount : pool.freeCount ≠ 0) : pool.cursor < catalog.capacity :=
  hsteady.cursor_lt fun hempty => hcount (hsteady.freeCount_of_empty hempty)

/-- A request for a register keeps within bounds. -/
structure Bounded (pool : Pool catalog) : Prop where
  /-- A search has registers to go round. -/
  capacity_pos : pool.freeCount ≠ 0 → 0 < catalog.capacity
  /-- It never looks behind the last of them. -/
  search_inside : ∀ position,
    (allocate pool).result ≠ .error (.strayCursor position)
  /-- What is handed out was counted. -/
  freeCount_succ : ∀ reg, (allocate pool).result = .ok reg →
    (allocate pool).state.freeCount + 1 = pool.freeCount
  /-- No more registers are counted than there are. -/
  freeCount_le : pool.freeCount ≤ catalog.registers.length

/-- The fault reports that the table has no entry under the register's number. -/
def Lacks (pool : Pool catalog) (reg : Register) (fault : Fault) : Prop :=
  pool.busy[reg.index]? = none ∧ fault = .outsideTable reg.index

theorem Steady.allocate_eq_error {pool : Pool catalog} (hsteady : pool.Steady)
    {fault : Fault} (herror : (allocate pool).result = .error fault) :
    fault = .poolExhausted ∨ ∃ reg ∈ catalog.allocatable, pool.Lacks reg fault := by
  by_cases hcount : pool.freeCount = 0
  · rw [allocate_of_empty hcount] at herror
    cases herror
    exact Or.inl rfl
  · cases hfound : pool.search catalog.capacity pool.cursor with
    | free position reg => simp [allocate_of_free hcount hfound] at herror
    | nothing =>
        rw [allocate_of_nothing hcount hfound] at herror
        cases herror
        exact Or.inl rfl
    | broken other =>
        rw [allocate_of_broken hcount hfound] at herror
        cases herror
        have hcursor := hsteady.cursor_lt_of_count hcount
        exact Or.inr (search_eq_broken hcursor hfound)

theorem Steady.bounded {pool : Pool catalog} (hsteady : pool.Steady) :
    pool.Bounded where
  capacity_pos hcount := by
    apply Nat.pos_of_ne_zero
    intro hempty
    exact hcount (hsteady.freeCount_of_empty hempty)
  search_inside position hstray := by
    rcases hsteady.allocate_eq_error hstray with hfault | ⟨_, _, _, hfault⟩
    · cases hfault
    · cases hfault
  freeCount_succ reg hok := by
    obtain ⟨hcount, position, _, hstate⟩ := allocate_eq_ok hok
    rw [hstate, take]
    exact Nat.sub_one_add_one hcount
  freeCount_le := by
    rw [hsteady.freeCount_eq, ← hsteady.busy_length]
    exact List.count_le_length

theorem free_eq_error {pool : Pool catalog} {reg : Register} {fault : Fault}
    (herror : (free reg pool).result = .error fault) :
    fault = .invalidRegister reg.index ∨
      fault = .doubleFree reg.name reg.index ∨ pool.Lacks reg fault := by
  by_cases hreg : reg ∈ catalog.allocatable
  · cases hbusy : pool.busy[reg.index]? with
    | none =>
        rw [free_of_outside hreg hbusy] at herror
        cases herror
        exact Or.inr (Or.inr ⟨hbusy, rfl⟩)
    | some flag =>
        cases flag with
        | false =>
            rw [free_of_idle hreg hbusy] at herror
            cases herror
            exact Or.inr (Or.inl rfl)
        | true =>
            obtain ⟨position, hposition⟩ :=
              Option.isSome_iff_exists.mp (List.isSome_idxOf?.mpr hreg)
            simp [free_of_busy hposition hbusy] at herror
  · rw [free_of_notMem hreg] at herror
    cases herror
    exact Or.inl rfl

theorem isFree_eq_error {pool : Pool catalog} {reg : Register} {fault : Fault}
    (herror : pool.isFree reg = .error fault) : pool.Lacks reg fault := by
  rw [isFree] at herror
  split at herror
  · contradiction
  · rename_i hnone
    cases herror
    exact ⟨hnone, rfl⟩

theorem statusLine_eq_error {pool : Pool catalog} {reg : Register}
    {fault : Fault} (herror : pool.statusLine reg = .error fault) :
    pool.isFree reg = .error fault := by
  rw [statusLine] at herror
  cases hfree : pool.isFree reg with
  | error other =>
      rw [hfree] at herror
      cases herror
      rfl
  | ok flag =>
      rw [hfree] at herror
      cases herror

theorem dump_eq_error {pool : Pool catalog} {fault : Fault}
    (herror : pool.dump = .error fault) :
    ∃ reg ∈ catalog.registers, pool.Lacks reg fault := by
  rw [dump] at herror
  cases hlines : catalog.registers.mapM pool.statusLine with
  | ok lines =>
      rw [hlines] at herror
      cases herror
  | error other =>
      rw [hlines] at herror
      cases herror
      obtain ⟨before, reg, rest, hsplit, hreg, _⟩ :=
        exists_split_of_mapM_eq_error hlines
      refine ⟨reg, ?_, isFree_eq_error (statusLine_eq_error hreg)⟩
      rw [hsplit]
      exact List.mem_append_right before List.mem_cons_self

theorem logState_eq_error {verbosity : Verbosity} {pool : Pool catalog}
    {fault : Fault} (herror : (logState verbosity pool).result = .error fault) :
    pool.dump = .error fault := by
  rw [logState] at herror
  split at herror
  · split at herror
    · contradiction
    · rename_i other hdump
      cases herror
      exact hdump
  · contradiction

theorem logState_state (verbosity : Verbosity) (pool : Pool catalog) :
    (logState verbosity pool).state = pool := by
  rw [logState]
  split
  · split <;> rfl
  · rfl

end Pool

/-! ### Benches -/

/-- The registers whose busy flag a step may look up. -/
def PoolStep.lookups (catalog : Catalog) : PoolStep Register → List Register
  | .allocate _ => catalog.allocatable
  | .free reg => [reg]
  | .freeIndex position => (catalog.at? position).toList
  | .isFree reg => [reg]
  | .dump | .logState => catalog.registers
  | .reset | .save | .restore | .incomplete _ => []

namespace PoolBench

variable {catalog : Catalog}

/-- The bench after some steps, failed ones included. -/
def follow (verbosity : Verbosity) :
    PoolBench catalog → List (PoolStep Register) → PoolBench catalog
  | bench, [] => bench
  | bench, step :: steps =>
      (perform verbosity step bench).state.follow verbosity steps

def after (catalog : Catalog) (verbosity : Verbosity)
    (steps : List (PoolStep Register)) : PoolBench catalog :=
  (new catalog).follow verbosity steps

/-- The pool in use and the saved copies. -/
def pools (bench : PoolBench catalog) : List (Pool catalog) :=
  bench.pool :: bench.saved

inductive Move (bench next : PoolBench catalog) : Prop where
  /-- The pool in use is called. -/
  | call (hpool : bench.pool.Move next.pool) (hsaved : next.saved = bench.saved)
  | save (hpools : next.pools = bench.pool :: bench.pools)
  | restore (hpools : next.pools = bench.saved)

theorem allocate_of_ok (verbosity : Verbosity) {bench : PoolBench catalog}
    {reg : Register} (hok : (Pool.allocate bench.pool).result = .ok reg)
    (keepAs : Option String) :
    (perform verbosity (.allocate keepAs) bench).result = .ok (.text reg.name) ∧
      (perform verbosity (.allocate keepAs) bench).state.pool =
        (Pool.allocate bench.pool).state ∧
      (perform verbosity (.allocate keepAs) bench).state.saved =
        bench.saved := by
  have hpool : onPool Pool.allocate bench =
      ⟨.ok reg, { bench with pool := (Pool.allocate bench.pool).state },
        (Pool.allocate bench.pool).log⟩ := by
    rw [onPool, Action.within, hok]
  rw [perform, Action.bind_apply_of_ok hpool]
  cases keepAs with
  | none => exact ⟨rfl, rfl, rfl⟩
  | some name => exact ⟨rfl, rfl, rfl⟩

theorem allocate_of_error (verbosity : Verbosity) {bench : PoolBench catalog}
    {fault : Fault} (herror : (Pool.allocate bench.pool).result = .error fault)
    (keepAs : Option String) :
    (perform verbosity (.allocate keepAs) bench).result = .error fault ∧
      (perform verbosity (.allocate keepAs) bench).state = bench := by
  have hpool : onPool Pool.allocate bench =
      ⟨.error fault, bench, (Pool.allocate bench.pool).log⟩ := by
    rw [onPool, Action.within, herror, Pool.allocate_state_of_error herror]
  rw [perform, Action.bind_apply_of_error hpool]
  exact ⟨rfl, rfl⟩

theorem perform_move (verbosity : Verbosity) (step : PoolStep Register)
    (bench : PoolBench catalog) :
    bench.Move (perform verbosity step bench).state := by
  cases step with
  | allocate keepAs =>
      have hmove := Pool.allocate_move bench.pool
      cases hresult : (Pool.allocate bench.pool).result with
      | ok reg =>
          obtain ⟨_, hpool, hsaved⟩ := allocate_of_ok verbosity hresult keepAs
          exact .call (hpool ▸ hmove) hsaved
      | error fault =>
          rw [(allocate_of_error verbosity hresult keepAs).2]
          exact .call .stay rfl
  | free reg =>
      rw [perform, Action.bind_pure_apply]
      exact .call (Pool.free_move reg bench.pool) rfl
  | freeIndex position =>
      rw [perform, Action.bind_pure_apply]
      exact .call (Pool.freeIndex_move position bench.pool) rfl
  | isFree reg => exact .call .stay rfl
  | dump => exact .call .stay rfl
  | logState =>
      rw [perform, Action.bind_pure_apply]
      refine .call ?_ rfl
      change bench.pool.Move (Pool.logState verbosity bench.pool).state
      rw [Pool.logState_state]
      exact .stay
  | reset =>
      rw [perform, Action.bind_pure_apply]
      exact .call .startOver rfl
  | save => exact .save rfl
  | restore =>
      rw [perform, Action.bind_pure_apply, restore]
      cases hsaved : bench.saved with
      | nil => exact .call .stay rfl
      | cons pool saved => exact .restore hsaved.symm
  | incomplete known => exact .call .stay rfl

/-- What every move of a pool keeps, every move of a bench keeps for all of its
pools. -/
theorem Move.forall_pools {motive : Pool catalog → Prop}
    {bench next : PoolBench catalog} (hmove : bench.Move next)
    (hkept : ∀ pool moved : Pool catalog,
      motive pool → pool.Move moved → motive moved)
    (hall : ∀ pool ∈ bench.pools, motive pool) :
    ∀ pool ∈ next.pools, motive pool := by
  obtain ⟨hcurrent, hcopies⟩ := List.forall_mem_cons.mp hall
  cases hmove with
  | call hpool hsaved =>
      refine List.forall_mem_cons.mpr ⟨hkept _ _ hcurrent hpool, ?_⟩
      rw [hsaved]
      exact hcopies
  | save hpools =>
      rw [hpools]
      exact List.forall_mem_cons.mpr ⟨hcurrent, hall⟩
  | restore hpools =>
      rw [hpools]
      exact hcopies

/-- The bookkeeping of every pool of the bench is right. -/
def Steady (bench : PoolBench catalog) : Prop :=
  ∀ pool ∈ bench.pools, pool.Steady

theorem Steady.move {bench next : PoolBench catalog} (hsteady : bench.Steady)
    (hmove : bench.Move next) : next.Steady :=
  hmove.forall_pools (fun _ _ => Pool.Steady.move) hsteady

theorem new_steady : (new catalog).Steady :=
  List.forall_mem_cons.mpr ⟨Pool.new_steady, by simp [new]⟩

theorem Steady.follow {bench : PoolBench catalog} (hsteady : bench.Steady)
    (verbosity : Verbosity) (steps : List (PoolStep Register)) :
    (bench.follow verbosity steps).Steady := by
  induction steps generalizing bench with
  | nil => exact hsteady
  | cons step steps ih =>
      exact ih (hsteady.move (perform_move verbosity step bench))

/-- A step that only calls the pool fails as the call does. -/
theorem call_eq_error {α : Type} {action : Action (Pool catalog) α}
    {form : α → Value} {bench : PoolBench catalog} {fault : Fault}
    (herror : ((onPool action >>= fun value => pure (form value))
      bench).result = .error fault) :
    (action bench.pool).result = .error fault := by
  rw [Action.bind_pure_apply] at herror
  exact Pool.result_of_map_eq_error herror

theorem call_state_of_stay {α : Type} {action : Action (Pool catalog) α}
    {bench : PoolBench catalog}
    (hstay : (action bench.pool).state = bench.pool) (form : α → Value) :
    ((onPool action >>= fun value => pure (form value)) bench).state =
      bench := by
  rw [Action.bind_pure_apply, onPool, Action.within, hstay]

/-- A step that fails leaves the bench as it was. -/
theorem perform_state_of_error {verbosity : Verbosity}
    {step : PoolStep Register} {bench : PoolBench catalog} {fault : Fault}
    (herror : (perform verbosity step bench).result = .error fault) :
    (perform verbosity step bench).state = bench := by
  cases step with
  | allocate keepAs =>
      cases hresult : (Pool.allocate bench.pool).result with
      | ok reg =>
          rw [(allocate_of_ok verbosity hresult keepAs).1] at herror
          cases herror
      | error other => exact (allocate_of_error verbosity hresult keepAs).2
  | free reg =>
      exact call_state_of_stay (Pool.free_state_of_error (call_eq_error herror)) _
  | freeIndex position =>
      exact call_state_of_stay
        (Pool.freeIndex_state_of_error (call_eq_error herror)) _
  | isFree reg => rfl
  | dump => rfl
  | logState => exact call_state_of_stay (Pool.logState_state verbosity _) _
  | reset => cases herror
  | save => cases herror
  | restore =>
      rw [perform, Action.bind_pure_apply, restore] at herror ⊢
      cases hsaved : bench.saved with
      | nil => rfl
      | cons pool saved =>
          rw [hsaved] at herror
          cases herror
  | incomplete known => rfl

/-- A step breaks off only over a register that it looks up and that the busy
table has no entry for. -/
theorem Steady.exists_lacks {bench : PoolBench catalog} (hsteady : bench.Steady)
    {verbosity : Verbosity} {step : PoolStep Register} {fault : Fault}
    (herror : (perform verbosity step bench).result = .error fault)
    (hbreaks : fault.breaksOff = true) :
    ∃ reg ∈ step.lookups catalog, bench.pool.Lacks reg fault := by
  have hpool : bench.pool.Steady := hsteady bench.pool List.mem_cons_self
  cases step with
  | allocate keepAs =>
      cases hresult : (Pool.allocate bench.pool).result with
      | ok reg =>
          rw [(allocate_of_ok verbosity hresult keepAs).1] at herror
          cases herror
      | error other =>
          rw [(allocate_of_error verbosity hresult keepAs).1] at herror
          cases herror
          rcases hpool.allocate_eq_error hresult with rfl | hlacks
          · cases hbreaks
          · exact hlacks
  | free reg =>
      rcases Pool.free_eq_error (call_eq_error herror) with
        rfl | rfl | hlacks
      · cases hbreaks
      · cases hbreaks
      · exact ⟨reg, List.mem_cons_self, hlacks⟩
  | freeIndex position =>
      have hfault := call_eq_error herror
      cases hreg : catalog.at? position with
      | none =>
          rw [Pool.freeIndex_of_none hreg] at hfault
          cases hfault
          cases hbreaks
      | some reg =>
          rw [Pool.freeIndex_of_at? hreg] at hfault
          rcases Pool.free_eq_error hfault with rfl | rfl | hlacks
          · cases hbreaks
          · cases hbreaks
          · exact ⟨reg, by simp [PoolStep.lookups, hreg], hlacks⟩
  | isFree reg =>
      have hfault := Pool.result_of_map_eq_error herror
      exact ⟨reg, List.mem_cons_self, Pool.isFree_eq_error hfault⟩
  | dump => exact Pool.dump_eq_error (Pool.result_of_map_eq_error herror)
  | logState =>
      exact Pool.dump_eq_error (Pool.logState_eq_error (call_eq_error herror))
  | reset => cases herror
  | save => cases herror
  | restore =>
      rw [perform, Action.bind_pure_apply, restore] at herror
      cases hsaved : bench.saved with
      | nil =>
          rw [hsaved] at herror
          cases herror
          cases hbreaks
      | cons pool saved =>
          rw [hsaved] at herror
          cases herror
  | incomplete known =>
      cases herror
      cases hbreaks

/-- Whatever the catalog and the steps, the bookkeeping of the pool and of its
saved copies is right, and a step breaks off only over a number outside the
busy table, before it has changed anything. -/
theorem after_bookkeeping_sound (catalog : Catalog) (verbosity : Verbosity)
    (steps : List (PoolStep Register)) :
    (∀ pool ∈ (after catalog verbosity steps).pools,
      pool.Sound ∧ pool.Bounded) ∧
    ∀ (step : PoolStep Register) (fault : Fault),
      (perform verbosity step (after catalog verbosity steps)).result =
          .error fault →
        fault.breaksOff = true →
          (∃ reg ∈ step.lookups catalog, fault = .outsideTable reg.index ∧
            catalog.registers.length ≤ reg.index) ∧
          (perform verbosity step (after catalog verbosity steps)).state =
            after catalog verbosity steps := by
  have hsteady : (after catalog verbosity steps).Steady :=
    new_steady.follow verbosity steps
  refine ⟨fun pool hpool => ?_, ?_⟩
  · exact ⟨(hsteady pool hpool).toSound, (hsteady pool hpool).bounded⟩
  · intro step fault herror hbreaks
    obtain ⟨reg, hreg, hnone, hfault⟩ := hsteady.exists_lacks herror hbreaks
    have hsound := (hsteady _ List.mem_cons_self).toSound
    rw [List.getElem?_eq_none_iff, hsound.busy_length] at hnone
    exact ⟨⟨reg, hreg, hfault, hnone⟩, perform_state_of_error herror⟩

/-- A number out of range does break a step off. -/
example :
    let catalog : Catalog := { registers := [⟨"a", 7, true⟩] }
    (perform .quiet (.allocate none) (new catalog)).result =
      .error (.outsideTable 7) :=
  rfl

end PoolBench

end SpimGen

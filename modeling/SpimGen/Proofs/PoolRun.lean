/-
Runs of a register pool.  A run is a list of calls, made one after another
from a new pool; a call that fails does not end it.

Whatever is called, the pool stays as it is, takes a free register, gives a
busy one back, or starts over.  The facts that hold of every run are proved
from these four moves.
-/
import SpimGen.RegisterPool
import Mathlib.Data.List.Basic

namespace SpimGen

inductive PoolCall where
  | allocate
  | free (reg : Register)
  | freeIndex (position : Nat)
  | isFree (reg : Register)
  | reset
deriving Repr, DecidableEq

inductive PoolReply where
  | register (reg : Register)
  | flag (isFree : Bool)
  | nothing
deriving Repr, DecidableEq

def PoolCall.perform {catalog : Catalog} :
    PoolCall → Action (Pool catalog) PoolReply
  | .allocate => do return .register (← Pool.allocate)
  | .free reg => do
      Pool.free reg
      return .nothing
  | .freeIndex position => do
      Pool.freeIndex position
      return .nothing
  | .isFree reg => fun pool => ⟨(pool.isFree reg).map .flag, pool, []⟩
  | .reset => do
      Pool.reset
      return .nothing

/-- Whether the call hands a register out or takes one back. -/
def PoolCall.isExchange : PoolCall → Bool
  | .allocate => true
  | .free _ => true
  | .freeIndex _ => true
  | .isFree _ => false
  | .reset => false

theorem getElem?_of_idxOf? {α : Type} [DecidableEq α] {entry : α}
    {list : List α} {position : Nat}
    (hposition : list.idxOf? entry = some position) :
    list[position]? = some entry := by
  obtain ⟨hlt, hentry, _⟩ := List.idxOf?_eq_some_iff.mp hposition
  rw [List.getElem?_eq_getElem hlt, hentry]

namespace Pool

variable {catalog : Catalog}

def follow : Pool catalog → List PoolCall → Pool catalog
  | pool, [] => pool
  | pool, call :: calls => (call.perform pool).state.follow calls

def after (catalog : Catalog) (calls : List PoolCall) : Pool catalog :=
  (new catalog).follow calls

/-! ### What the operations do -/

theorem allocate_of_empty {pool : Pool catalog} (hcount : pool.freeCount = 0) :
    allocate pool = ⟨.error .poolExhausted, pool, [.poolEmpty]⟩ := by
  rw [allocate, if_pos hcount]

theorem allocate_of_free {pool : Pool catalog} {position : Nat} {reg : Register}
    (hcount : pool.freeCount ≠ 0)
    (hfound : pool.search catalog.capacity pool.cursor = .free position reg) :
    allocate pool =
      ⟨.ok reg, pool.take position reg,
        [.allocated reg.name (pool.take position reg).freeCount]⟩ := by
  rw [allocate, if_neg hcount, hfound]

theorem allocate_of_nothing {pool : Pool catalog} (hcount : pool.freeCount ≠ 0)
    (hfound : pool.search catalog.capacity pool.cursor = .nothing) :
    allocate pool =
      ⟨.error .poolExhausted, pool, [.searchFailed pool.freeCount]⟩ := by
  rw [allocate, if_neg hcount, hfound]

theorem allocate_of_broken {pool : Pool catalog} {fault : Fault}
    (hcount : pool.freeCount ≠ 0)
    (hfound : pool.search catalog.capacity pool.cursor = .broken fault) :
    allocate pool = ⟨.error fault, pool, []⟩ := by
  rw [allocate, if_neg hcount, hfound]

/-- A register is handed out only after a search that found it. -/
theorem allocate_eq_ok {pool : Pool catalog} {reg : Register}
    (hok : (allocate pool).result = .ok reg) :
    pool.freeCount ≠ 0 ∧ ∃ position,
      pool.search catalog.capacity pool.cursor = .free position reg ∧
      (allocate pool).state = pool.take position reg := by
  by_cases hcount : pool.freeCount = 0
  · simp [allocate_of_empty hcount] at hok
  · refine ⟨hcount, ?_⟩
    cases hfound : pool.search catalog.capacity pool.cursor with
    | free position found =>
        rw [allocate_of_free hcount hfound] at hok ⊢
        cases hok
        exact ⟨position, rfl, rfl⟩
    | nothing => simp [allocate_of_nothing hcount hfound] at hok
    | broken fault => simp [allocate_of_broken hcount hfound] at hok

/-- A request that is refused leaves the pool as it was. -/
theorem allocate_state_of_error {pool : Pool catalog} {fault : Fault}
    (herror : (allocate pool).result = .error fault) :
    (allocate pool).state = pool := by
  by_cases hcount : pool.freeCount = 0
  · rw [allocate_of_empty hcount]
  · cases hfound : pool.search catalog.capacity pool.cursor with
    | free position reg => simp [allocate_of_free hcount hfound] at herror
    | nothing => rw [allocate_of_nothing hcount hfound]
    | broken fault => rw [allocate_of_broken hcount hfound]

theorem free_of_notMem {pool : Pool catalog} {reg : Register}
    (hreg : reg ∉ catalog.allocatable) :
    free reg pool = ⟨.error (.invalidRegister reg.index), pool, []⟩ := by
  rw [free, List.idxOf?_eq_none_iff.mpr hreg]

theorem free_of_idle {pool : Pool catalog} {reg : Register}
    (hreg : reg ∈ catalog.allocatable)
    (hidle : pool.busy[reg.index]? = some false) :
    free reg pool = ⟨.error (.doubleFree reg.name reg.index), pool, []⟩ := by
  obtain ⟨position, hposition⟩ :=
    Option.isSome_iff_exists.mp (List.isSome_idxOf?.mpr hreg)
  simp only [free, hposition, hidle]

theorem free_of_outside {pool : Pool catalog} {reg : Register}
    (hreg : reg ∈ catalog.allocatable)
    (houtside : pool.busy[reg.index]? = none) :
    free reg pool = ⟨.error (.outsideTable reg.index), pool, []⟩ := by
  obtain ⟨position, hposition⟩ :=
    Option.isSome_iff_exists.mp (List.isSome_idxOf?.mpr hreg)
  simp only [free, hposition, houtside]

/-- A register is taken back at the first position that holds it. -/
theorem free_of_busy {pool : Pool catalog} {reg : Register} {position : Nat}
    (hposition : catalog.allocatable.idxOf? reg = some position)
    (hbusy : pool.busy[reg.index]? = some true) :
    free reg pool =
      ⟨.ok (), pool.giveBack position reg,
        [.freed reg.name (pool.giveBack position reg).freeCount]⟩ := by
  simp only [free, hposition, hbusy]

/-- Only an allocatable register that is marked busy is taken back. -/
theorem free_eq_ok {pool : Pool catalog} {reg : Register}
    (hok : (free reg pool).result = .ok ()) :
    ∃ position, catalog.allocatable[position]? = some reg ∧
      pool.busy[reg.index]? = some true ∧
      (free reg pool).state = pool.giveBack position reg := by
  by_cases hreg : reg ∈ catalog.allocatable
  · cases hbusy : pool.busy[reg.index]? with
    | none => simp [free_of_outside hreg hbusy] at hok
    | some flag =>
        cases flag with
        | false => simp [free_of_idle hreg hbusy] at hok
        | true =>
            obtain ⟨position, hposition⟩ :=
              Option.isSome_iff_exists.mp (List.isSome_idxOf?.mpr hreg)
            refine ⟨position, ?_, rfl, ?_⟩
            · exact getElem?_of_idxOf? hposition
            · rw [free_of_busy hposition hbusy]
  · simp [free_of_notMem hreg] at hok

theorem free_state_of_error {pool : Pool catalog} {reg : Register}
    {fault : Fault} (herror : (free reg pool).result = .error fault) :
    (free reg pool).state = pool := by
  by_cases hreg : reg ∈ catalog.allocatable
  · cases hbusy : pool.busy[reg.index]? with
    | none => rw [free_of_outside hreg hbusy]
    | some flag =>
        cases flag with
        | false => rw [free_of_idle hreg hbusy]
        | true =>
            obtain ⟨position, hposition⟩ :=
              Option.isSome_iff_exists.mp (List.isSome_idxOf?.mpr hreg)
            simp [free_of_busy hposition hbusy] at herror
  · rw [free_of_notMem hreg]

/-- Taking back by position is taking back the register that stands there. -/
theorem freeIndex_of_at? {pool : Pool catalog} {position : Nat} {reg : Register}
    (hreg : catalog.at? position = some reg) :
    freeIndex position pool = free reg pool := by
  have hlook : (Action.ofExcept (catalog.lookUp position) :
      Action (Pool catalog) Register) pool = ⟨.ok reg, pool, []⟩ := by
    simp [Action.ofExcept, Catalog.lookUp, hreg]
  rw [freeIndex, Action.bind_apply_of_ok hlook]
  rfl

theorem freeIndex_of_none {pool : Pool catalog} {position : Nat}
    (hnone : catalog.at? position = none) :
    freeIndex position pool =
      ⟨.error (.invalidRegister position), pool, []⟩ := by
  apply Action.bind_apply_of_error
  simp [Action.ofExcept, Catalog.lookUp, hnone]

theorem freeIndex_state_of_error {pool : Pool catalog} {position : Nat}
    {fault : Fault} (herror : (freeIndex position pool).result = .error fault) :
    (freeIndex position pool).state = pool := by
  cases hreg : catalog.at? position with
  | none => rw [freeIndex_of_none hreg]
  | some reg =>
      rw [freeIndex_of_at? hreg] at herror ⊢
      exact free_state_of_error herror

theorem result_of_map_eq_error {α β : Type} {form : α → β} {result : Except Fault α}
    {fault : Fault} (herror : result.map form = .error fault) :
    result = .error fault := by
  cases result with
  | error other => simpa [Except.map] using herror
  | ok value => simp [Except.map] at herror

/-- A call that fails leaves the pool as it was. -/
theorem perform_state_of_error {call : PoolCall} {pool : Pool catalog}
    {fault : Fault} (herror : (call.perform pool).result = .error fault) :
    (call.perform pool).state = pool := by
  cases call with
  | allocate =>
      rw [PoolCall.perform, Action.bind_pure_apply] at herror ⊢
      exact allocate_state_of_error (result_of_map_eq_error herror)
  | free reg =>
      rw [PoolCall.perform, Action.bind_pure_apply] at herror ⊢
      exact free_state_of_error (result_of_map_eq_error herror)
  | freeIndex position =>
      rw [PoolCall.perform, Action.bind_pure_apply] at herror ⊢
      exact freeIndex_state_of_error (result_of_map_eq_error herror)
  | isFree reg => rfl
  | reset =>
      rw [PoolCall.perform, Action.bind_pure_apply] at herror
      simp [reset, Except.map] at herror

/-! ### Moves -/

inductive Move (pool : Pool catalog) : Pool catalog → Prop where
  | stay : pool.Move pool
  /-- A register that is marked free is handed out. -/
  | take {position : Nat} {reg : Register}
      (hposition : catalog.allocatable[position]? = some reg)
      (hidle : pool.busy[reg.index]? = some false) :
      pool.Move (pool.take position reg)
  /-- A register that is marked busy is taken back. -/
  | giveBack {position : Nat} {reg : Register}
      (hposition : catalog.allocatable[position]? = some reg)
      (hbusy : pool.busy[reg.index]? = some true) :
      pool.Move (pool.giveBack position reg)
  | startOver : pool.Move (new catalog)

theorem allocate_move (pool : Pool catalog) :
    pool.Move (allocate pool).state := by
  cases hresult : (allocate pool).result with
  | error fault =>
      rw [allocate_state_of_error hresult]
      exact .stay
  | ok reg =>
      obtain ⟨_, position, hfound, hstate⟩ := allocate_eq_ok hresult
      obtain ⟨hposition, hidle⟩ := search_eq_free hfound
      rw [hstate]
      exact .take hposition hidle

theorem free_move (reg : Register) (pool : Pool catalog) :
    pool.Move (free reg pool).state := by
  cases hresult : (free reg pool).result with
  | error fault =>
      rw [free_state_of_error hresult]
      exact .stay
  | ok _ =>
      obtain ⟨position, hposition, hbusy, hstate⟩ := free_eq_ok hresult
      rw [hstate]
      exact .giveBack hposition hbusy

theorem freeIndex_move (position : Nat) (pool : Pool catalog) :
    pool.Move (freeIndex position pool).state := by
  cases hreg : catalog.at? position with
  | none =>
      rw [freeIndex_of_none hreg]
      exact .stay
  | some reg =>
      rw [freeIndex_of_at? hreg]
      exact free_move reg pool

theorem perform_move (call : PoolCall) (pool : Pool catalog) :
    pool.Move (call.perform pool).state := by
  cases call with
  | allocate =>
      rw [PoolCall.perform, Action.bind_pure_apply]
      exact allocate_move pool
  | free reg =>
      rw [PoolCall.perform, Action.bind_pure_apply]
      exact free_move reg pool
  | freeIndex position =>
      rw [PoolCall.perform, Action.bind_pure_apply]
      exact freeIndex_move position pool
  | isFree reg => exact .stay
  | reset =>
      rw [PoolCall.perform, Action.bind_pure_apply]
      exact .startOver

/-- What every move keeps is kept by any calls. -/
theorem follow_of_move {motive : Pool catalog → Prop}
    (hmove : ∀ pool next : Pool catalog,
      motive pool → pool.Move next → motive next)
    {pool : Pool catalog} (hpool : motive pool) (calls : List PoolCall) :
    motive (pool.follow calls) := by
  induction calls generalizing pool with
  | nil => exact hpool
  | cons call calls ih =>
      exact ih (hmove pool _ hpool (perform_move call pool))

/-! ### The busy table, the counter and the cursor -/

/-- The bookkeeping of a pool: the table has an entry for each catalog
position, the counter counts its free entries, and the cursor stands on an
allocatable register if there is one. -/
structure Sound (pool : Pool catalog) : Prop where
  busy_length : pool.busy.length = catalog.registers.length
  freeCount_eq : pool.freeCount = pool.busy.count false
  cursor_valid : pool.cursor < catalog.capacity ∨
    catalog.capacity = 0 ∧ pool.cursor = 0

/-- The free entries of a table that is filled in register by register. -/
theorem count_false_map (isBusy : Register → Bool) (registers : List Register) :
    (registers.map isBusy).count false =
      registers.countP (fun reg => !isBusy reg) := by
  rw [List.count, List.countP_map]
  congr 1
  funext reg
  rw [Function.comp_apply]
  cases isBusy reg <;> rfl

theorem new_sound : (new catalog).Sound where
  busy_length := new_busy_length
  freeCount_eq := by
    simp [new, Catalog.capacity, Catalog.allocatable, count_false_map,
      List.countP_eq_length_filter]
  cursor_valid := by
    rcases Nat.eq_zero_or_pos catalog.capacity with hzero | hpos
    · exact Or.inr ⟨hzero, rfl⟩
    · exact Or.inl hpos

/-- Marking a free entry as busy leaves one free entry less. -/
theorem count_set_true {table : List Bool} {slot : Nat}
    (hidle : table[slot]? = some false) :
    (table.set slot true).count false = table.count false - 1 := by
  obtain ⟨hlt, hentry⟩ := List.getElem?_eq_some_iff.mp hidle
  simp [List.count_set hlt, hentry]

theorem count_set_false {table : List Bool} {slot : Nat}
    (hbusy : table[slot]? = some true) :
    (table.set slot false).count false = table.count false + 1 := by
  obtain ⟨hlt, hentry⟩ := List.getElem?_eq_some_iff.mp hbusy
  simp [List.count_set hlt, hentry]

theorem Sound.move {pool next : Pool catalog} (hsound : pool.Sound)
    (hmove : pool.Move next) : next.Sound := by
  cases hmove with
  | stay => exact hsound
  | take hposition hidle =>
      refine ⟨?_, ?_, Or.inl ?_⟩
      · rw [take_busy_length, hsound.busy_length]
      · simp only [take, hsound.freeCount_eq, count_set_true hidle]
      · exact (List.getElem?_eq_some_iff.mp hposition).1
  | giveBack hposition hbusy =>
      refine ⟨?_, ?_, Or.inl ?_⟩
      · rw [giveBack_busy_length, hsound.busy_length]
      · simp only [giveBack, hsound.freeCount_eq, count_set_false hbusy]
      · exact (List.getElem?_eq_some_iff.mp hposition).1
  | startOver => exact new_sound

/-- The bookkeeping is right after every run, whatever the catalog. -/
theorem after_sound (catalog : Catalog) (calls : List PoolCall) :
    (after catalog calls).Sound :=
  follow_of_move (fun _ _ => Sound.move) new_sound calls

theorem Sound.cursor_lt {pool : Pool catalog} (hsound : pool.Sound)
    (hcapacity : catalog.capacity ≠ 0) : pool.cursor < catalog.capacity := by
  rcases hsound.cursor_valid with hlt | ⟨hzero, _⟩
  · exact hlt
  · exact absurd hzero hcapacity

end Pool

end SpimGen

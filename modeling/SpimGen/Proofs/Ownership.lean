/-
Who holds which register.  Nothing in a pool says so; it follows from the
history of its calls alone: a register is held from the call that returned it
to the call that took it back.  On a catalog whose hardware numbers are
positions, the answers of a pool are exactly those that the held registers
call for, after every run.
-/
import SpimGen.MipsCatalog
import SpimGen.Proofs.PoolSearch
import Mathlib.Data.Finset.Card
import Mathlib.Data.Finset.Dedup

namespace SpimGen

/-! ### Catalogs numbered by position -/

namespace Catalog

variable {catalog : Catalog}

theorem mem_allocatable_iff {reg : Register} :
    reg ∈ catalog.allocatable ↔
      reg ∈ catalog.registers ∧ reg.allocatable = true := by
  rw [allocatable, List.mem_filter]

theorem Positional.getElem?_index (hpositional : catalog.Positional)
    {reg : Register} (hreg : reg ∈ catalog.registers) :
    catalog.registers[reg.index]? = some reg := by
  obtain ⟨position, hposition⟩ := List.mem_iff_getElem?.mp hreg
  rw [hpositional position reg hposition, hposition]

theorem Positional.index_lt (hpositional : catalog.Positional) :
    ∀ reg ∈ catalog.allocatable, reg.index < catalog.registers.length := by
  intro reg hreg
  have hindex := hpositional.getElem?_index (mem_allocatable_iff.mp hreg).1
  exact (List.getElem?_eq_some_iff.mp hindex).1

theorem Positional.registers_nodup (hpositional : catalog.Positional) :
    catalog.registers.Nodup := by
  rw [List.nodup_iff_getElem?_ne_getElem?]
  intro first second hlt hsecond heq
  have hreg := List.getElem?_eq_getElem hsecond
  have hsame := hpositional first _ (heq.trans hreg)
  rw [hpositional second _ hreg] at hsame
  omega

/-- Changing the table entry of one register changes its value only. -/
theorem Positional.map_set_index (hpositional : catalog.Positional)
    {old new : Register → Bool} {reg : Register} {value : Bool}
    (hreg : reg ∈ catalog.registers) (hvalue : new reg = value)
    (hother : ∀ other, other ≠ reg → new other = old other) :
    (catalog.registers.map old).set reg.index value =
      catalog.registers.map new := by
  apply List.ext_getElem?
  intro position
  by_cases hindex : reg.index = position
  · subst hindex
    simp [List.getElem?_set_self', hpositional.getElem?_index hreg, hvalue]
  · rw [List.getElem?_set_ne hindex, List.getElem?_map, List.getElem?_map]
    cases hentry : catalog.registers[position]? with
    | none => rfl
    | some other =>
        have hne : other ≠ reg := by
          rintro rfl
          exact hindex (hpositional position other hentry)
        rw [Option.map_some, Option.map_some, hother other hne]

end Catalog

/-! ### The held registers -/

/-- What a call and its result do to the set of held registers. -/
def Catalog.heldNext (catalog : Catalog) (held : Finset Register) :
    PoolCall × Except Fault PoolReply → Finset Register
  | (.allocate, .ok (.register reg)) => insert reg held
  | (.free reg, .ok _) => held.erase reg
  | (.freeIndex position, .ok _) =>
      match catalog.at? position with
      | some reg => held.erase reg
      | none => held
  | (.reset, .ok _) => ∅
  | _ => held

namespace Pool

variable {catalog : Catalog}

/-- The calls of a run, each with its result. -/
def history :
    Pool catalog → List PoolCall → List (PoolCall × Except Fault PoolReply)
  | _, [] => []
  | pool, call :: calls =>
      (call, (call.perform pool).result)
        :: history (call.perform pool).state calls

/-- The registers that a run has handed out and not taken back. -/
def held (catalog : Catalog) (calls : List PoolCall) : Finset Register :=
  ((new catalog).history calls).foldl catalog.heldNext ∅

/-- Whether the table marks a register as busy while others are held. -/
def isBusyWith (held : Finset Register) (reg : Register) : Bool :=
  !reg.allocatable || decide (reg ∈ held)

/-- The pool's state is the one that the held registers call for. -/
structure Tracks (pool : Pool catalog) (held : Finset Register) : Prop where
  sound : pool.Sound
  busy_eq : pool.busy = catalog.registers.map (isBusyWith held)
  held_allocatable : ∀ reg ∈ held, reg ∈ catalog.allocatable

theorem new_tracks : (new catalog).Tracks ∅ where
  sound := new_sound
  busy_eq := by simp [new, isBusyWith]
  held_allocatable := by simp

theorem Tracks.busy_getElem? (hpositional : catalog.Positional)
    {pool : Pool catalog} {held : Finset Register} (htracks : pool.Tracks held)
    {reg : Register} (hreg : reg ∈ catalog.registers) :
    pool.busy[reg.index]? = some (isBusyWith held reg) := by
  rw [htracks.busy_eq, List.getElem?_map, hpositional.getElem?_index hreg,
    Option.map_some]

theorem Tracks.take (hpositional : catalog.Positional) {pool : Pool catalog}
    {held : Finset Register} (htracks : pool.Tracks held) {position : Nat}
    {reg : Register} (hposition : catalog.allocatable[position]? = some reg)
    (hidle : pool.busy[reg.index]? = some false) :
    (pool.take position reg).Tracks (insert reg held) := by
  have hmem : reg ∈ catalog.allocatable := List.mem_of_getElem? hposition
  have hreg : reg ∈ catalog.registers := (Catalog.mem_allocatable_iff.mp hmem).1
  refine ⟨htracks.sound.move (.take hposition hidle), ?_, ?_⟩
  · change pool.busy.set reg.index true = _
    rw [htracks.busy_eq]
    apply hpositional.map_set_index hreg
    · simp [isBusyWith]
    · intro other hne
      simp [isBusyWith, hne]
  · intro other hother
    rcases Finset.mem_insert.mp hother with rfl | hother
    · exact hmem
    · exact htracks.held_allocatable other hother

theorem Tracks.giveBack (hpositional : catalog.Positional) {pool : Pool catalog}
    {held : Finset Register} (htracks : pool.Tracks held) {position : Nat}
    {reg : Register} (hposition : catalog.allocatable[position]? = some reg)
    (hbusy : pool.busy[reg.index]? = some true) :
    (pool.giveBack position reg).Tracks (held.erase reg) := by
  have hmem : reg ∈ catalog.allocatable := List.mem_of_getElem? hposition
  obtain ⟨hreg, hallocatable⟩ := Catalog.mem_allocatable_iff.mp hmem
  refine ⟨htracks.sound.move (.giveBack hposition hbusy), ?_, ?_⟩
  · change pool.busy.set reg.index false = _
    rw [htracks.busy_eq]
    apply hpositional.map_set_index hreg
    · simp [isBusyWith, hallocatable]
    · intro other hne
      simp [isBusyWith, hne]
  · intro other hother
    exact htracks.held_allocatable other (Finset.mem_of_mem_erase hother)

/-- Whatever a pool does, its table shows which registers are held then. -/
theorem Tracks.exists_of_move (hpositional : catalog.Positional)
    {pool next : Pool catalog} {held : Finset Register}
    (htracks : pool.Tracks held) (hmove : pool.Move next) :
    ∃ heldThen, next.Tracks heldThen := by
  cases hmove with
  | stay => exact ⟨held, htracks⟩
  | take hposition hidle =>
      exact ⟨_, htracks.take hpositional hposition hidle⟩
  | giveBack hposition hbusy =>
      exact ⟨_, htracks.giveBack hpositional hposition hbusy⟩
  | startOver => exact ⟨∅, new_tracks⟩

theorem Tracks.allocate (hpositional : catalog.Positional) {pool : Pool catalog}
    {held : Finset Register} (htracks : pool.Tracks held) :
    (PoolCall.allocate.perform pool).state.Tracks
      (catalog.heldNext held
        (.allocate, (PoolCall.allocate.perform pool).result)) := by
  rw [PoolCall.perform, Action.bind_pure_apply]
  cases hresult : (Pool.allocate pool).result with
  | error fault =>
      rw [allocate_state_of_error hresult]
      exact htracks
  | ok reg =>
      obtain ⟨_, position, hfound, hstate⟩ := allocate_eq_ok hresult
      obtain ⟨hposition, hidle⟩ := search_eq_free hfound
      rw [hstate]
      exact htracks.take hpositional hposition hidle

theorem Tracks.free (hpositional : catalog.Positional) {pool : Pool catalog}
    {held : Finset Register} (htracks : pool.Tracks held) (reg : Register) :
    (Pool.free reg pool).state.Tracks
      (match (Pool.free reg pool).result with
        | .ok _ => held.erase reg
        | .error _ => held) := by
  cases hresult : (Pool.free reg pool).result with
  | error fault =>
      rw [free_state_of_error hresult]
      exact htracks
  | ok _ =>
      obtain ⟨position, hposition, hbusy, hstate⟩ := free_eq_ok hresult
      rw [hstate]
      exact htracks.giveBack hpositional hposition hbusy

/-- Every call keeps the pool in step with the held registers. -/
theorem Tracks.perform (hpositional : catalog.Positional) {pool : Pool catalog}
    {held : Finset Register} (htracks : pool.Tracks held) (call : PoolCall) :
    (call.perform pool).state.Tracks
      (catalog.heldNext held (call, (call.perform pool).result)) := by
  cases call with
  | allocate => exact htracks.allocate hpositional
  | free reg =>
      rw [PoolCall.perform, Action.bind_pure_apply]
      have hfree := htracks.free hpositional reg
      cases hresult : (Pool.free reg pool).result with
      | error fault => rwa [hresult] at hfree
      | ok _ => rwa [hresult] at hfree
  | freeIndex position =>
      rw [PoolCall.perform, Action.bind_pure_apply]
      cases hreg : catalog.at? position with
      | none =>
          rw [freeIndex_of_none hreg]
          exact htracks
      | some reg =>
          rw [freeIndex_of_at? hreg]
          have hfree := htracks.free hpositional reg
          cases hresult : (Pool.free reg pool).result with
          | error fault => rwa [hresult] at hfree
          | ok _ =>
              rw [hresult] at hfree
              simpa [Catalog.heldNext, Except.map, hreg] using hfree
  | isFree reg => exact htracks
  | reset =>
      rw [PoolCall.perform, Action.bind_pure_apply]
      exact new_tracks

theorem Tracks.follow (hpositional : catalog.Positional)
    {pool : Pool catalog} {held : Finset Register} (htracks : pool.Tracks held)
    (calls : List PoolCall) :
    (pool.follow calls).Tracks
      ((pool.history calls).foldl catalog.heldNext held) := by
  induction calls generalizing pool held with
  | nil => exact htracks
  | cons call calls ih => exact ih (htracks.perform hpositional call)

theorem after_tracks (hpositional : catalog.Positional)
    (calls : List PoolCall) :
    (after catalog calls).Tracks (held catalog calls) :=
  new_tracks.follow hpositional calls

/-! ### What the pool answers -/

theorem Tracks.freeCount_eq {pool : Pool catalog} {held : Finset Register}
    (htracks : pool.Tracks held) :
    pool.freeCount = catalog.allocatable.countP (fun reg => reg ∉ held) := by
  rw [htracks.sound.freeCount_eq, htracks.busy_eq, count_false_map,
    Catalog.allocatable, List.countP_filter]
  congr 1
  funext reg
  simp [isBusyWith, Bool.and_comm]

theorem Tracks.freeCount_eq_zero_iff {pool : Pool catalog}
    {held : Finset Register} (htracks : pool.Tracks held) :
    pool.freeCount = 0 ↔ ∀ reg ∈ catalog.allocatable, reg ∈ held := by
  rw [htracks.freeCount_eq, List.countP_eq_zero]
  simp

/-- Every allocatable register is either held or counted. -/
theorem Tracks.freeCount_add_card (hpositional : catalog.Positional)
    {pool : Pool catalog} {held : Finset Register}
    (htracks : pool.Tracks held) :
    pool.freeCount + held.card = catalog.capacity := by
  have hnodup : (catalog.allocatable.filter (· ∈ held)).Nodup :=
    (hpositional.registers_nodup.filter _).filter _
  have hheld : (catalog.allocatable.filter (· ∈ held)).toFinset = held := by
    ext reg
    simp only [List.mem_toFinset, List.mem_filter, decide_eq_true_eq]
    exact ⟨And.right, fun hreg => ⟨htracks.held_allocatable reg hreg, hreg⟩⟩
  have hcard : held.card = catalog.allocatable.countP (· ∈ held) := by
    rw [List.countP_eq_length_filter, ← List.toFinset_card_of_nodup hnodup,
      hheld]
  rw [htracks.freeCount_eq, hcard, Catalog.capacity,
    List.length_eq_countP_add_countP (fun reg => decide (reg ∈ held)),
    Nat.add_comm]
  simp

theorem Tracks.isFree_eq (hpositional : catalog.Positional)
    {pool : Pool catalog} {held : Finset Register}
    (htracks : pool.Tracks held) {reg : Register}
    (hreg : reg ∈ catalog.registers) :
    pool.isFree reg = .ok (reg.allocatable && decide (reg ∉ held)) := by
  rw [isFree, htracks.busy_getElem? hpositional hreg]
  simp [isBusyWith]

/-- As long as a register is not held, one is handed out. -/
theorem Tracks.exists_allocate_eq_ok (hpositional : catalog.Positional)
    {pool : Pool catalog} {held : Finset Register}
    (htracks : pool.Tracks held) {idle : Register}
    (hmem : idle ∈ catalog.allocatable) (hidle : idle ∉ held) :
    ∃ reg, (Pool.allocate pool).result = .ok reg := by
  obtain ⟨hreg, hallocatable⟩ := Catalog.mem_allocatable_iff.mp hmem
  have hentry : pool.busy[idle.index]? = some false := by
    rw [htracks.busy_getElem? hpositional hreg]
    simp [isBusyWith, hallocatable, hidle]
  exact htracks.sound.exists_allocate_eq_ok hpositional.index_lt hmem hentry

theorem Tracks.notMem_of_allocate_eq_ok (hpositional : catalog.Positional)
    {pool : Pool catalog} {held : Finset Register}
    (htracks : pool.Tracks held) {reg : Register}
    (hok : (Pool.allocate pool).result = .ok reg) :
    reg ∈ catalog.allocatable ∧ reg ∉ held := by
  obtain ⟨_, position, hfound, _⟩ := allocate_eq_ok hok
  obtain ⟨hposition, hidle⟩ := search_eq_free hfound
  have hmem : reg ∈ catalog.allocatable := List.mem_of_getElem? hposition
  refine ⟨hmem, ?_⟩
  rw [htracks.busy_getElem? hpositional (Catalog.mem_allocatable_iff.mp hmem).1]
    at hidle
  intro hheld
  simp [isBusyWith, hheld] at hidle

theorem Tracks.allocate_eq_error_iff (hpositional : catalog.Positional)
    {pool : Pool catalog} {held : Finset Register}
    (htracks : pool.Tracks held) (fault : Fault) :
    (Pool.allocate pool).result = .error fault ↔
      fault = .poolExhausted ∧ ∀ reg ∈ catalog.allocatable, reg ∈ held := by
  by_cases hall : ∀ reg ∈ catalog.allocatable, reg ∈ held
  · rw [allocate_of_empty (htracks.freeCount_eq_zero_iff.mpr hall)]
    constructor
    · rintro ⟨⟩
      exact ⟨rfl, hall⟩
    · rintro ⟨rfl, _⟩
      rfl
  · obtain ⟨idle, hmem, hidle⟩ : ∃ reg ∈ catalog.allocatable, reg ∉ held := by
      simpa using hall
    obtain ⟨reg, hok⟩ := htracks.exists_allocate_eq_ok hpositional hmem hidle
    simp [hok, hall]

/-- A register of the catalog is reserved, held or idle, and that decides
whether it is taken back. -/
theorem Tracks.free_cases (hpositional : catalog.Positional)
    {pool : Pool catalog} {held : Finset Register}
    (htracks : pool.Tracks held) {reg : Register}
    (hreg : reg ∈ catalog.registers) :
    (reg.allocatable = false ∧ reg ∉ held ∧
        (Pool.free reg pool).result = .error (.invalidRegister reg.index)) ∨
      (reg.allocatable = true ∧ reg ∈ held ∧
        (Pool.free reg pool).result = .ok ()) ∨
      (reg.allocatable = true ∧ reg ∉ held ∧
        (Pool.free reg pool).result =
          .error (.doubleFree reg.name reg.index)) := by
  have hentry := htracks.busy_getElem? hpositional hreg
  cases hallocatable : reg.allocatable with
  | false =>
      have hnot : reg ∉ catalog.allocatable := by
        simp [Catalog.mem_allocatable_iff, hallocatable]
      refine Or.inl ⟨rfl, ?_, by rw [free_of_notMem hnot]⟩
      intro hheld
      exact hnot (htracks.held_allocatable reg hheld)
  | true =>
      have hmem : reg ∈ catalog.allocatable :=
        Catalog.mem_allocatable_iff.mpr ⟨hreg, hallocatable⟩
      by_cases hheld : reg ∈ held
      · have hbusy : pool.busy[reg.index]? = some true := by
          simpa [isBusyWith, hheld] using hentry
        obtain ⟨position, hposition⟩ :=
          Option.isSome_iff_exists.mp (List.isSome_idxOf?.mpr hmem)
        exact Or.inr (Or.inl ⟨rfl, hheld, by rw [free_of_busy hposition hbusy]⟩)
      · have hidle : pool.busy[reg.index]? = some false := by
          simpa [isBusyWith, hheld, hallocatable] using hentry
        exact Or.inr (Or.inr ⟨rfl, hheld, by rw [free_of_idle hmem hidle]⟩)

def statusWith (held : Finset Register) (reg : Register) : String :=
  reg.name ++
    (if reg.allocatable = true ∧ reg ∉ held then " is free\n"
      else " is busy\n")

theorem Tracks.dump_eq (hpositional : catalog.Positional)
    {pool : Pool catalog} {held : Finset Register}
    (htracks : pool.Tracks held) :
    pool.dump =
      .ok (String.join (catalog.registers.map (statusWith held))) := by
  have hlines : catalog.registers.mapM pool.statusLine =
      .ok (catalog.registers.map (statusWith held)) := by
    apply mapM_eq_ok_map
    intro reg hreg
    rw [statusLine, htracks.isFree_eq hpositional hreg]
    simp [statusWith, bind, Except.bind, pure, Except.pure]
  rw [dump, hlines]
  rfl

/-- What a pool answers to whoever has been given the registers in `held`. -/
structure Serves (pool : Pool catalog) (held : Finset Register) : Prop where
  /-- A register that is handed out is allocatable and not held. -/
  allocate_ok : ∀ reg, (allocate pool).result = .ok reg →
    reg ∈ catalog.allocatable ∧ reg ∉ held
  /-- A request is refused exactly when all registers are held. -/
  allocate_error : ∀ fault, (allocate pool).result = .error fault ↔
    fault = .poolExhausted ∧ ∀ reg ∈ catalog.allocatable, reg ∈ held
  /-- Exactly the held registers are taken back. -/
  free_ok : ∀ reg ∈ catalog.registers,
    ((free reg pool).result = .ok () ↔ reg ∈ held)
  free_double : ∀ reg ∈ catalog.registers,
    ((free reg pool).result = .error (.doubleFree reg.name reg.index) ↔
      reg.allocatable = true ∧ reg ∉ held)
  free_reserved : ∀ reg ∈ catalog.registers,
    ((free reg pool).result = .error (.invalidRegister reg.index) ↔
      reg.allocatable = false)
  freeIndex_inside : ∀ position reg, catalog.at? position = some reg →
    freeIndex position pool = free reg pool
  freeIndex_outside : ∀ position, catalog.registers.length ≤ position →
    (freeIndex position pool).result = .error (.invalidRegister position)
  isFree_eq : ∀ reg ∈ catalog.registers,
    pool.isFree reg = .ok (decide (reg.allocatable = true ∧ reg ∉ held))
  dump_eq : pool.dump =
    .ok (String.join (catalog.registers.map (statusWith held)))
  /-- The counter counts the registers that are not held. -/
  freeCount_eq : pool.freeCount + held.card = catalog.capacity
  cursor_allocatable : catalog.allocatable ≠ [] →
    ∃ reg ∈ catalog.allocatable, pool.cursorRegister? = some reg
  /-- A call that fails changes nothing. -/
  error_state : ∀ (call : PoolCall) fault,
    (call.perform pool).result = .error fault → (call.perform pool).state = pool

/-- After every run a pool answers as the history of its calls demands. -/
theorem after_serves_held (catalog : Catalog)
    (hpositional : catalog.Positional) (calls : List PoolCall) :
    (after catalog calls).Serves (held catalog calls) := by
  have htracks := after_tracks hpositional calls
  refine
    { allocate_ok := fun reg => htracks.notMem_of_allocate_eq_ok hpositional
      allocate_error := htracks.allocate_eq_error_iff hpositional
      free_ok := ?_
      free_double := ?_
      free_reserved := ?_
      freeIndex_inside := fun _ _ hreg => freeIndex_of_at? hreg
      freeIndex_outside := ?_
      isFree_eq := ?_
      dump_eq := htracks.dump_eq hpositional
      freeCount_eq := htracks.freeCount_add_card hpositional
      cursor_allocatable := ?_
      error_state := fun _ _ herror => perform_state_of_error herror }
  · intro reg hreg
    rcases htracks.free_cases hpositional hreg with
      ⟨_, hheld, hresult⟩ | ⟨_, hheld, hresult⟩ | ⟨_, hheld, hresult⟩ <;>
      simp [hheld, hresult]
  · intro reg hreg
    rcases htracks.free_cases hpositional hreg with
      ⟨hkind, hheld, hresult⟩ | ⟨hkind, hheld, hresult⟩ |
        ⟨hkind, hheld, hresult⟩ <;>
      simp [hkind, hheld, hresult]
  · intro reg hreg
    rcases htracks.free_cases hpositional hreg with
      ⟨hkind, _, hresult⟩ | ⟨hkind, _, hresult⟩ | ⟨hkind, _, hresult⟩ <;>
      simp [hkind, hresult]
  · intro position hposition
    rw [freeIndex_of_none (List.getElem?_eq_none_iff.mpr hposition)]
  · intro reg hreg
    rw [htracks.isFree_eq hpositional hreg]
    simp
  · intro hsome
    have hcapacity : catalog.capacity ≠ 0 :=
      fun hzero => hsome (List.length_eq_zero_iff.mp hzero)
    exact allocatable_getElem? (htracks.sound.cursor_lt hcapacity)

/-- On the MIPS catalog, with `$t1` held after two registers were handed out and
the first of them came back. -/
theorem after_serves_held_mips :
    Mips.catalog.Positional ∧
      held Mips.catalog [.allocate, .allocate, .freeIndex 8, .free Mips.zero] =
        {Mips.register "t1" 9} ∧
      (after Mips.catalog
        [.allocate, .allocate, .freeIndex 8, .free Mips.zero]).Serves
          (held Mips.catalog
            [.allocate, .allocate, .freeIndex 8, .free Mips.zero]) :=
  ⟨Mips.catalog_positional, by decide,
    after_serves_held Mips.catalog Mips.catalog_positional _⟩

end Pool

end SpimGen

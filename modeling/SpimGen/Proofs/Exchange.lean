/-
Handing a register out and taking one back undo each other, up to the cursor.
Nothing is assumed about the catalog: registers may be listed twice and share
their numbers, so the register that comes back need not stand where it was
handed out; the cursor goes to the first position that holds it.

Registers that are taken back one after another all are busy and have different
numbers.  Neither depends on their order, and nor does the state they leave,
except for the cursor.
-/
import SpimGen.Proofs.PoolSafety
import Mathlib.Data.List.Perm.Basic

namespace SpimGen

namespace Pool

variable {catalog : Catalog} {pool : Pool catalog} {reg : Register}
  {position : Nat}

/-- The pool with its cursor elsewhere. -/
def withCursor (pool : Pool catalog) (position : Nat) : Pool catalog :=
  { pool with cursor := position }

/-! ### One exchange and its reverse -/

theorem set_set_of_getElem? {table : List Bool} {slot : Nat} {entry : Bool}
    (hentry : table[slot]? = some entry) (other : Bool) :
    (table.set slot other).set slot entry = table := by
  obtain ⟨_, rfl⟩ := List.getElem?_eq_some_iff.mp hentry
  rw [List.set_set, List.set_getElem_self]

theorem take_giveBack (hbusy : pool.busy[reg.index]? = some true)
    (back forth : Nat) :
    (pool.giveBack back reg).take forth reg = pool.withCursor forth := by
  simp [take, giveBack, withCursor, set_set_of_getElem? hbusy]

theorem giveBack_take (hidle : pool.busy[reg.index]? = some false)
    (hcount : pool.freeCount ≠ 0) (forth back : Nat) :
    (pool.take forth reg).giveBack back reg = pool.withCursor back := by
  simp only [take, giveBack, withCursor, set_set_of_getElem? hidle,
    Nat.sub_one_add_one hcount]

theorem busy_giveBack_self (hbusy : pool.busy[reg.index]? = some true)
    (position : Nat) :
    (pool.giveBack position reg).busy[reg.index]? = some false := by
  obtain ⟨hlt, _⟩ := List.getElem?_eq_some_iff.mp hbusy
  rw [giveBack, List.getElem?_set_self hlt]

theorem busy_take_self (hidle : pool.busy[reg.index]? = some false)
    (position : Nat) :
    (pool.take position reg).busy[reg.index]? = some true := by
  obtain ⟨hlt, _⟩ := List.getElem?_eq_some_iff.mp hidle
  rw [take, List.getElem?_set_self hlt]

/-- A search ends at once at a free register. -/
theorem search_of_idle (hposition : catalog.allocatable[position]? = some reg)
    (hidle : pool.busy[reg.index]? = some false) :
    pool.search catalog.capacity position = .free position reg := by
  obtain ⟨left, hleft⟩ :=
    Nat.exists_eq_succ_of_ne_zero (capacity_ne_zero hposition)
  rw [hleft, search, hposition]
  simp only [hidle]

/-- A request that follows the return of a register hands out that register. -/
theorem allocate_giveBack
    (hposition : catalog.allocatable[position]? = some reg)
    (hbusy : pool.busy[reg.index]? = some true) :
    (allocate (pool.giveBack position reg)).result = .ok reg ∧
      (allocate (pool.giveBack position reg)).state =
        pool.withCursor position := by
  have hfound := search_of_idle hposition (busy_giveBack_self hbusy position)
  have hcount : (pool.giveBack position reg).freeCount ≠ 0 :=
    Nat.succ_ne_zero pool.freeCount
  rw [allocate_of_free hcount hfound]
  exact ⟨rfl, take_giveBack hbusy position position⟩

/-- A busy register goes back to the first position that holds it. -/
theorem exists_free_of_busy (hmem : reg ∈ catalog.allocatable)
    (hbusy : pool.busy[reg.index]? = some true) :
    ∃ position log, catalog.allocatable.idxOf? reg = some position ∧
      free reg pool = ⟨.ok (), pool.giveBack position reg, log⟩ := by
  obtain ⟨position, hposition⟩ :=
    Option.isSome_iff_exists.mp (List.isSome_idxOf?.mpr hmem)
  exact ⟨position, _, hposition, free_of_busy hposition hbusy⟩

/-- A register is taken back exactly if it is allocatable and busy. -/
theorem free_eq_ok_iff :
    (free reg pool).result = .ok () ↔
      reg ∈ catalog.allocatable ∧ pool.busy[reg.index]? = some true := by
  constructor
  · intro hok
    obtain ⟨position, hposition, hbusy, _⟩ := free_eq_ok hok
    exact ⟨List.mem_of_getElem? hposition, hbusy⟩
  · rintro ⟨hmem, hbusy⟩
    obtain ⟨position, log, _, hfree⟩ := exists_free_of_busy hmem hbusy
    rw [hfree]

/-! ### Several registers taken back -/

/-- After one register is taken back, so are all that were busy before, except
for those with the same number. -/
theorem free_giveBack_eq_ok_iff {other : Register} :
    (free other (pool.giveBack position reg)).result = .ok () ↔
      reg.index ≠ other.index ∧ (free other pool).result = .ok () := by
  rw [free_eq_ok_iff, free_eq_ok_iff, giveBack]
  by_cases hindex : reg.index = other.index
  · simp [hindex, List.getElem?_set_self']
  · simp [hindex, List.getElem?_set_ne hindex]

/-- The table after some registers are marked free. -/
def clear (table : List Bool) (regs : List Register) : List Bool :=
  regs.foldl (fun table reg => table.set reg.index false) table

theorem clear_of_perm {regs others : List Register}
    (hperm : regs.Perm others) (table : List Bool) :
    clear table regs = clear table others := by
  apply hperm.foldl_eq'
  intro first _ second _ table
  by_cases hindex : first.index = second.index
  · rw [hindex]
  · exact List.set_comm false false hindex

/-- Once a register is taken back, the others are taken back from the pool that
this leaves. -/
theorem each_free_cons (hok : (free reg pool).result = .ok ())
    (regs : List Register) :
    ∃ position,
      (Action.each free (reg :: regs) pool).result =
        (Action.each free regs (pool.giveBack position reg)).result ∧
      (Action.each free (reg :: regs) pool).state =
        (Action.each free regs (pool.giveBack position reg)).state := by
  obtain ⟨hmem, hbusy⟩ := free_eq_ok_iff.mp hok
  obtain ⟨position, log, _, hfree⟩ := exists_free_of_busy hmem hbusy
  refine ⟨position, ?_, ?_⟩
  · rw [Action.each, Action.bind_apply_of_ok hfree]
  · rw [Action.each, Action.bind_apply_of_ok hfree]

/-- A list of registers is taken back exactly if their numbers differ and each
of them could be taken back on its own. -/
theorem each_free_eq_ok_iff (regs : List Register) (pool : Pool catalog) :
    (Action.each free regs pool).result = .ok () ↔
      (regs.map Register.index).Nodup ∧
        ∀ reg ∈ regs, (free reg pool).result = .ok () := by
  induction regs generalizing pool with
  | nil => simp [Action.each]
  | cons reg regs ih =>
      by_cases hok : (free reg pool).result = .ok ()
      · obtain ⟨position, hresult, _⟩ := each_free_cons hok regs
        rw [hresult, ih]
        simp only [free_giveBack_eq_ok_iff, List.map_cons, List.nodup_cons,
          List.mem_map, List.forall_mem_cons, hok, true_and]
        grind
      · rcases houtcome : free reg pool with ⟨fault | _, reached, log⟩
        · rw [Action.each, Action.bind_apply_of_error houtcome]
          simp [houtcome]
        · exact absurd (by rw [houtcome]) hok

/-- The busy table and the counter that are left by registers taken back. -/
theorem each_free_state {regs : List Register} {pool : Pool catalog}
    (hok : (Action.each free regs pool).result = .ok ()) :
    (Action.each free regs pool).state.busy = clear pool.busy regs ∧
      (Action.each free regs pool).state.freeCount =
        pool.freeCount + regs.length := by
  induction regs generalizing pool with
  | nil => exact ⟨rfl, rfl⟩
  | cons reg regs ih =>
      have hfirst : (free reg pool).result = .ok () :=
        ((each_free_eq_ok_iff _ _).mp hok).2 reg List.mem_cons_self
      obtain ⟨position, hresult, hstate⟩ := each_free_cons hfirst regs
      obtain ⟨hbusy, hcount⟩ := ih (hresult ▸ hok)
      rw [hstate, hbusy, hcount]
      refine ⟨rfl, ?_⟩
      rw [giveBack, List.length_cons, Nat.add_right_comm, Nat.add_assoc]

/-- The order in which registers are taken back decides over nothing but the
cursor. -/
theorem each_free_of_perm {regs others : List Register}
    (hperm : regs.Perm others) {pool : Pool catalog}
    (hok : (Action.each free regs pool).result = .ok ()) :
    (Action.each free others pool).result = .ok () ∧
      ∃ cursor, (Action.each free others pool).state =
        (Action.each free regs pool).state.withCursor cursor := by
  have hothers : (Action.each free others pool).result = .ok () := by
    obtain ⟨hnodup, hfree⟩ := (each_free_eq_ok_iff regs pool).mp hok
    apply (each_free_eq_ok_iff others pool).mpr
    constructor
    · exact ((hperm.map Register.index).nodup_iff).mp hnodup
    · exact fun reg hreg => hfree reg (hperm.mem_iff.mpr hreg)
  obtain ⟨hbusy, hcount⟩ := each_free_state hok
  obtain ⟨hotherBusy, hotherCount⟩ := each_free_state hothers
  rw [← clear_of_perm hperm, ← hbusy] at hotherBusy
  rw [← hperm.length_eq, ← hcount] at hotherCount
  refine ⟨hothers, (Action.each free others pool).state.cursor, ?_⟩
  rw [withCursor, ← hotherBusy, ← hotherCount]

/-- Taking a register back and asking for one undo each other in both orders,
whatever the catalog and the state, and several registers may come back in any
order; only the cursor tells. -/
theorem exchange_undone (catalog : Catalog) (pool : Pool catalog) :
    (∀ reg, (free reg pool).result = .ok () →
      let freed := (free reg pool).state
      (allocate freed).result = .ok reg ∧
      ∃ position, catalog.allocatable.idxOf? reg = some position ∧
        (allocate freed).state = pool.withCursor position) ∧
    (∀ reg, (allocate pool).result = .ok reg →
      let taken := (allocate pool).state
      let freed := (free reg taken).state
      (free reg taken).result = .ok () ∧
      (∃ position, catalog.allocatable.idxOf? reg = some position ∧
        freed = pool.withCursor position) ∧
      (free reg freed).result = .error (.doubleFree reg.name reg.index) ∧
      (free reg freed).state = freed) ∧
    ∀ regs : List Register,
      ((Action.each free regs pool).result = .ok () ↔
        (regs.map Register.index).Nodup ∧
          ∀ reg ∈ regs, (free reg pool).result = .ok ()) ∧
      ∀ others : List Register, regs.Perm others →
        (Action.each free regs pool).result = .ok () →
          (Action.each free others pool).result = .ok () ∧
          ∃ cursor, (Action.each free others pool).state =
            (Action.each free regs pool).state.withCursor cursor := by
  refine ⟨?_, ?_, ?_⟩
  · intro reg hok
    obtain ⟨hmem, hbusy⟩ := free_eq_ok_iff.mp hok
    obtain ⟨position, log, hposition, hfree⟩ := exists_free_of_busy hmem hbusy
    obtain ⟨hresult, hback⟩ :=
      allocate_giveBack (getElem?_of_idxOf? hposition) hbusy
    simp only [hfree]
    exact ⟨hresult, position, hposition, hback⟩
  · intro reg hok
    obtain ⟨hcount, found, hfound, hstate⟩ := allocate_eq_ok hok
    obtain ⟨hentry, hidle⟩ := search_eq_free hfound
    have hmem := List.mem_of_getElem? hentry
    obtain ⟨position, log, hposition, hfree⟩ :=
      exists_free_of_busy hmem (busy_take_self hidle found)
    have hdouble : free reg (pool.withCursor position) =
        ⟨.error (.doubleFree reg.name reg.index), pool.withCursor position,
          []⟩ := free_of_idle hmem hidle
    simp only [hstate, hfree, giveBack_take hidle hcount, hdouble]
    exact ⟨trivial, ⟨position, hposition, rfl⟩, trivial, trivial⟩
  · intro regs
    exact ⟨each_free_eq_ok_iff regs pool,
      fun _ hperm hok => each_free_of_perm hperm hok⟩

end Pool

/-- A catalog with a register that is listed twice, a shared number, and numbers
that are not positions. -/
def Catalog.repeating : Catalog where
  registers := [⟨"a", 1, true⟩, ⟨"b", 0, true⟩, ⟨"a", 1, true⟩, ⟨"c", 1, true⟩]

/-- The register is handed out where it is listed again and goes back to where
it is listed first. -/
theorem Pool.exchange_undone_repeating :
    let twice : Register := ⟨"a", 1, true⟩
    let pool := after Catalog.repeating [.allocate, .allocate, .free twice,
      .free ⟨"b", 0, true⟩, .allocate]
    (allocate pool).result = .ok twice ∧
    (allocate pool).state.cursor = 2 ∧
    (free twice (allocate pool).state).state = pool.withCursor 0 := by
  intro twice pool
  obtain ⟨_, hundone, _⟩ := exchange_undone Catalog.repeating pool
  obtain ⟨_, ⟨position, hposition, hstate⟩, _⟩ := hundone twice rfl
  cases hposition
  exact ⟨rfl, rfl, hstate⟩

end SpimGen

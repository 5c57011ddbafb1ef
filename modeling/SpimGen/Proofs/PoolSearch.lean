/-
What the search of a register pool looks at.  From a valid start the search
visits one position after another, goes round at the end of the allocatable
registers, and, given as many steps as there are registers, misses none.  So a
pool with sound bookkeeping hands a register out whenever one is marked free.
-/
import SpimGen.Proofs.PoolRun

namespace SpimGen

namespace Pool

variable {catalog : Catalog}

theorem allocatable_getElem? {position : Nat}
    (hposition : position < catalog.capacity) :
    ∃ reg ∈ catalog.allocatable, catalog.allocatable[position]? = some reg :=
  ⟨catalog.allocatable[position], List.getElem_mem hposition,
    List.getElem?_eq_getElem hposition⟩

/-- A search that finds nothing has met a busy register at every step. -/
theorem search_eq_nothing {pool : Pool catalog} {left start : Nat}
    (hstart : start < catalog.capacity)
    (hnothing : pool.search left start = .nothing) :
    ∀ steps < left, ∃ reg,
      catalog.allocatable[(start + steps) % catalog.capacity]? = some reg ∧
        pool.busy[reg.index]? = some true := by
  induction left generalizing start with
  | zero =>
      intro steps hsteps
      exact absurd hsteps (Nat.not_lt_zero steps)
  | succ left ih =>
      rw [search] at hnothing
      split at hnothing
      · contradiction
      · rename_i reg hreg
        split at hnothing
        · contradiction
        · contradiction
        · rename_i hbusy
          intro steps hsteps
          cases steps with
          | zero =>
              rw [Nat.add_zero, Nat.mod_eq_of_lt hstart]
              exact ⟨reg, hreg, hbusy⟩
          | succ steps =>
              -- What is left of the search starts one position further round.
              have hnext : (start + 1) % catalog.capacity < catalog.capacity :=
                Nat.mod_lt _ (Nat.zero_lt_of_lt hstart)
              have hrest := ih hnext hnothing steps (Nat.lt_of_succ_lt_succ hsteps)
              rwa [Nat.mod_add_mod, Nat.add_right_comm, Nat.add_assoc] at hrest

/-- Going round from a valid start reaches every position. -/
theorem exists_steps_to {start position capacity : Nat}
    (hstart : start < capacity) (hposition : position < capacity) :
    ∃ steps < capacity, (start + steps) % capacity = position := by
  by_cases hle : start ≤ position
  · refine ⟨position - start, by omega, ?_⟩
    rw [Nat.add_sub_cancel' hle, Nat.mod_eq_of_lt hposition]
  · refine ⟨position + capacity - start, by omega, ?_⟩
    rw [Nat.add_sub_cancel' (by omega), Nat.add_mod_right,
      Nat.mod_eq_of_lt hposition]

/-- A full search that finds nothing has seen every register busy. -/
theorem busy_of_search_eq_nothing {pool : Pool catalog} {start : Nat}
    (hstart : start < catalog.capacity)
    (hnothing : pool.search catalog.capacity start = .nothing) :
    ∀ reg ∈ catalog.allocatable, pool.busy[reg.index]? = some true := by
  intro reg hreg
  obtain ⟨position, hlt, hentry⟩ := List.mem_iff_getElem.mp hreg
  obtain ⟨steps, hsteps, hround⟩ := exists_steps_to hstart hlt
  obtain ⟨seen, hseen, hbusy⟩ :=
    search_eq_nothing hstart hnothing steps hsteps
  change (start + steps) % catalog.capacity = position at hround
  rw [hround, List.getElem?_eq_getElem hlt, hentry] at hseen
  cases hseen
  exact hbusy

/-- A search from a valid start breaks off only at a register without an entry
in the busy table. -/
theorem search_eq_broken {pool : Pool catalog} {left start : Nat}
    {fault : Fault} (hstart : start < catalog.capacity)
    (hbroken : pool.search left start = .broken fault) :
    ∃ reg ∈ catalog.allocatable, pool.busy[reg.index]? = none ∧
      fault = .outsideTable reg.index := by
  induction left generalizing start with
  | zero => simp [search] at hbroken
  | succ left ih =>
      obtain ⟨reg, hmem, hreg⟩ := allocatable_getElem? hstart
      rw [search, hreg] at hbroken
      simp only at hbroken
      split at hbroken
      · rename_i hnone
        cases hbroken
        exact ⟨reg, hmem, hnone, rfl⟩
      · contradiction
      · exact ih (Nat.mod_lt _ (Nat.zero_lt_of_lt hstart)) hbroken

/-- If every register has an entry and one of them is free, a full search finds
a register. -/
theorem exists_search_eq_free {pool : Pool catalog} {start : Nat}
    (hstart : start < catalog.capacity)
    (hinside : ∀ reg ∈ catalog.allocatable, reg.index < pool.busy.length)
    {idle : Register} (hmem : idle ∈ catalog.allocatable)
    (hidle : pool.busy[idle.index]? = some false) :
    ∃ position reg,
      pool.search catalog.capacity start = .free position reg := by
  cases hfound : pool.search catalog.capacity start with
  | free position reg => exact ⟨position, reg, rfl⟩
  | nothing =>
      have hbusy := busy_of_search_eq_nothing hstart hfound idle hmem
      rw [hidle] at hbusy
      cases hbusy
  | broken fault =>
      obtain ⟨reg, hreg, hnone, _⟩ := search_eq_broken hstart hfound
      exact absurd (hinside reg hreg)
        (Nat.not_lt.mpr (List.getElem?_eq_none_iff.mp hnone))

theorem Sound.exists_allocate_eq_ok
    (hinside : ∀ reg ∈ catalog.allocatable,
      reg.index < catalog.registers.length)
    {pool : Pool catalog} (hsound : pool.Sound) {idle : Register}
    (hmem : idle ∈ catalog.allocatable)
    (hidle : pool.busy[idle.index]? = some false) :
    ∃ reg, (allocate pool).result = .ok reg := by
  have hcount : pool.freeCount ≠ 0 := by
    rw [hsound.freeCount_eq]
    exact Nat.ne_of_gt (List.count_pos_iff.mpr (List.mem_of_getElem? hidle))
  have hcursor : pool.cursor < catalog.capacity :=
    hsound.cursor_lt (Nat.ne_of_gt (List.length_pos_of_mem hmem))
  rw [← hsound.busy_length] at hinside
  obtain ⟨position, reg, hfound⟩ :=
    exists_search_eq_free hcursor hinside hmem hidle
  exact ⟨reg, by rw [allocate_of_free hcount hfound]⟩

end Pool

end SpimGen

/-
The wrapping search of a pool is one pass over a list.  Rotate the allocatable
registers so that the one under the cursor comes first: the search looks at
them in this order, and stops at the first that is marked free or has no entry
in the busy table.

The bound on its steps is no restriction.  A loop that goes on until it is back
at its start looks at the same positions: it comes back after as many steps as
there are registers, and meets none of them twice.
-/
import SpimGen.Proofs.PoolSafety
import Mathlib.Data.List.Rotate

namespace SpimGen

/-! ### Going round the allocatable registers -/

namespace Catalog

variable {catalog : Catalog}

/-- The allocatable registers, each with its position, from a position on and
round to it. -/
def roundFrom (catalog : Catalog) (start : Nat) : List (Register × Nat) :=
  catalog.allocatable.zipIdx.rotate start

@[simp]
theorem length_roundFrom (catalog : Catalog) (start : Nat) :
    (catalog.roundFrom start).length = catalog.capacity := by
  simp [roundFrom, capacity]

theorem map_fst_roundFrom (start : Nat) :
    (catalog.roundFrom start).map Prod.fst =
      catalog.allocatable.rotate start := by
  rw [roundFrom, List.map_rotate, List.zipIdx_map_fst]

theorem map_snd_roundFrom (start : Nat) :
    (catalog.roundFrom start).map Prod.snd =
      (List.range catalog.capacity).rotate start := by
  rw [roundFrom, List.map_rotate, List.zipIdx_map_snd, List.range_eq_range']
  rfl

theorem getElem?_of_mem_roundFrom {start : Nat} {entry : Register × Nat}
    (hentry : entry ∈ catalog.roundFrom start) :
    catalog.allocatable[entry.2]? = some entry.1 := by
  rw [roundFrom, List.mem_rotate, List.mem_zipIdx_iff_getElem?] at hentry
  exact hentry

/-- The steps after the first are those of a round that starts one position
later. -/
theorem exists_take_roundFrom {start left : Nat}
    (hstart : start < catalog.capacity) (hleft : left < catalog.capacity) :
    ∃ reg, catalog.allocatable[start]? = some reg ∧
      (catalog.roundFrom start).take (left + 1) =
        (reg, start) ::
          (catalog.roundFrom ((start + 1) % catalog.capacity)).take left := by
  have hlength : catalog.allocatable.zipIdx.length = catalog.capacity :=
    List.length_zipIdx
  obtain ⟨reg, _, hreg⟩ := Pool.allocatable_getElem? hstart
  have hhead : (catalog.roundFrom start).head? = some (reg, start) := by
    rw [roundFrom, List.head?_rotate (hlength ▸ hstart),
      List.getElem?_zipIdx, hreg]
    simp
  obtain ⟨rest, hround⟩ := List.head?_eq_some_iff.mp hhead
  have hshort : left ≤ rest.length := by
    have hall := length_roundFrom catalog start
    rw [hround, List.length_cons] at hall
    omega
  have hnext : catalog.roundFrom ((start + 1) % catalog.capacity) =
      rest ++ [(reg, start)] := by
    calc catalog.roundFrom ((start + 1) % catalog.capacity)
        = (catalog.roundFrom start).rotate 1 := by
          rw [roundFrom, ← hlength, List.rotate_mod, roundFrom,
            List.rotate_rotate]
      _ = rest ++ [(reg, start)] := by
          rw [hround, List.rotate_cons_succ, List.rotate_zero]
  refine ⟨reg, hreg, ?_⟩
  rw [hround, List.take_succ_cons, hnext,
    List.take_append_of_le_length hshort]

end Catalog

namespace Pool

variable {catalog : Catalog}

/-! ### One look -/

/-- Whether a search stops at a register: the table has no entry under its
number, or marks it free. -/
def stopsAt (pool : Pool catalog) (reg : Register) : Bool :=
  match pool.busy[reg.index]? with
  | none => true
  | some busy => !busy

/-- What a search reports of the register at which it stops. -/
def verdict (pool : Pool catalog) : Register × Nat → Found
  | (reg, position) =>
      if reg.index < pool.busy.length then .free position reg
      else .broken (.outsideTable reg.index)

/-- What a search learns from the position it has come to; nothing if it has
to go on. -/
def look (pool : Pool catalog) (position : Nat) : Option Found :=
  match catalog.allocatable[position]? with
  | none => some (.broken (.strayCursor position))
  | some reg =>
      if pool.stopsAt reg then some (pool.verdict (reg, position)) else none

theorem search_succ (pool : Pool catalog) (left position : Nat) :
    pool.search (left + 1) position =
      (pool.look position).getD
        (pool.search left ((position + 1) % catalog.capacity)) := by
  rw [search, look]
  rcases catalog.allocatable[position]? with _ | reg
  · rfl
  · rcases hbusy : pool.busy[reg.index]? with _ | _ | _
    · have houtside := List.getElem?_eq_none_iff.mp hbusy
      simp only [stopsAt, verdict, hbusy, if_neg (Nat.not_lt.mpr houtside)]
      rfl
    · have hinside := (List.getElem?_eq_some_iff.mp hbusy).1
      simp only [stopsAt, verdict, hbusy, if_pos hinside]
      rfl
    · simp only [stopsAt, hbusy]
      rfl

/-! ### One pass -/

/-- The first register of a list at which a search stops. -/
def firstStop? (pool : Pool catalog) (entries : List (Register × Nat)) :
    Option (Register × Nat) :=
  entries.find? fun entry => pool.stopsAt entry.1

/-- Some steps of a search look at the start of the round. -/
theorem search_eq_firstStop? (pool : Pool catalog) {left start : Nat}
    (hleft : left ≤ catalog.capacity) (hstart : start < catalog.capacity) :
    pool.search left start =
      (pool.firstStop? ((catalog.roundFrom start).take left)).elim .nothing
        pool.verdict := by
  induction left generalizing start with
  | zero => rfl
  | succ left ih =>
      obtain ⟨reg, hreg, htake⟩ := Catalog.exists_take_roundFrom hstart hleft
      rw [search_succ, look, hreg, htake, firstStop?, List.find?_cons]
      by_cases hstops : pool.stopsAt reg = true
      · simp [hstops]
      · simp only [hstops]
        exact ih (Nat.le_of_succ_le hleft)
          (Nat.mod_lt _ (Nat.zero_lt_of_lt hstart))

/-- Hands out the first register at which a search stops, going once through
the allocatable registers from the cursor on. -/
def allocateInOnePass : Action (Pool catalog) Register :=
  fun pool =>
    if pool.freeCount = 0 then
      ⟨.error .poolExhausted, pool, [.poolEmpty]⟩
    else
      match pool.firstStop? (catalog.roundFrom pool.cursor) with
      | none => ⟨.error .poolExhausted, pool, [.searchFailed pool.freeCount]⟩
      | some (reg, position) =>
          if reg.index < pool.busy.length then
            ⟨.ok reg,
              { busy := pool.busy.set reg.index true
                freeCount := pool.freeCount - 1
                cursor := position },
              [.allocated reg.name (pool.freeCount - 1)]⟩
          else
            ⟨.error (.outsideTable reg.index), pool, []⟩

theorem Steady.allocate_eq {pool : Pool catalog} (hsteady : pool.Steady) :
    allocate pool = allocateInOnePass pool := by
  by_cases hcount : pool.freeCount = 0
  · rw [allocate_of_empty hcount, allocateInOnePass, if_pos hcount]
  · have hcursor := hsteady.cursor_lt_of_count hcount
    have hsearch := pool.search_eq_firstStop? (Nat.le_refl _) hcursor
    rw [List.take_of_length_le
      (Nat.le_of_eq (catalog.length_roundFrom pool.cursor))] at hsearch
    rw [allocateInOnePass, if_neg hcount]
    rcases hstop : pool.firstStop? (catalog.roundFrom pool.cursor) with
      _ | ⟨reg, position⟩
    · rw [hstop] at hsearch
      exact allocate_of_nothing hcount hsearch
    · rw [hstop] at hsearch
      simp only [Option.elim_some, verdict] at hsearch
      by_cases hinside : reg.index < pool.busy.length
      · rw [if_pos hinside] at hsearch
        simp only [if_pos hinside]
        exact allocate_of_free hcount hsearch
      · rw [if_neg hinside] at hsearch
        simp only [if_neg hinside]
        exact allocate_of_broken hcount hsearch

/-! ### The search as a loop -/

/-- A loop that looks at one position after another until it stops or is back
at its start.  It has looked at the positions in the list, in this order. -/
inductive Loop (pool : Pool catalog) (start : Nat) :
    (position : Nat) → List Nat → Found → Prop where
  | stop {position : Nat} {found : Found}
      (hlook : pool.look position = some found) :
      pool.Loop start position [position] found
  | back {position : Nat} (hlook : pool.look position = none)
      (hback : (position + 1) % catalog.capacity = start) :
      pool.Loop start position [position] .nothing
  | next {position : Nat} {visited : List Nat} {found : Found}
      (hlook : pool.look position = none)
      (hnext : (position + 1) % catalog.capacity ≠ start)
      (hrest : pool.Loop start ((position + 1) % catalog.capacity)
        visited found) :
      pool.Loop start position (position :: visited) found

/-- A loop ends in one way only. -/
theorem Loop.unique {pool : Pool catalog} {start position : Nat}
    {visited others : List Nat} {found other : Found}
    (hloop : pool.Loop start position visited found)
    (hother : pool.Loop start position others other) :
    others = visited ∧ other = found := by
  induction hloop generalizing others other with
  | stop hlook =>
      rcases hother with hlook' | ⟨hlook', _⟩ | ⟨hlook', _, _⟩
      · rw [hlook] at hlook'
        cases hlook'
        exact ⟨rfl, rfl⟩
      · simp [hlook] at hlook'
      · simp [hlook] at hlook'
  | back hlook hback =>
      rcases hother with hlook' | _ | ⟨_, hnext, _⟩
      · simp [hlook] at hlook'
      · exact ⟨rfl, rfl⟩
      · exact absurd hback hnext
  | next hlook hnext _ ih =>
      rcases hother with hlook' | ⟨_, hback⟩ | ⟨_, _, hrest⟩
      · simp [hlook] at hlook'
      · exact absurd hback hnext
      · obtain ⟨rfl, rfl⟩ := ih hrest
        exact ⟨rfl, rfl⟩

/-- The loop finds what the search finds, and has looked at the start of the
round from the given position. -/
def Loop.Follows (pool : Pool catalog) (start left position : Nat) : Prop :=
  ∃ visited, pool.Loop start position visited (pool.search left position) ∧
    visited <+: ((catalog.roundFrom position).take left).map Prod.snd

/-- One more step: the loop stops, or is back where the search has no step
left, or goes on as the search does. -/
theorem Loop.Follows.succ {pool : Pool catalog} {start left position : Nat}
    (hposition : position < catalog.capacity) (hleft : left < catalog.capacity)
    (hrest : (position + 1) % catalog.capacity = start ∧ left = 0 ∨
      (position + 1) % catalog.capacity ≠ start ∧
        Loop.Follows pool start left ((position + 1) % catalog.capacity)) :
    Loop.Follows pool start (left + 1) position := by
  obtain ⟨reg, _, htake⟩ := Catalog.exists_take_roundFrom hposition hleft
  rw [Loop.Follows, search_succ, htake, List.map_cons]
  rcases hlook : pool.look position with _ | found
  · rcases hrest with ⟨hback, rfl⟩ | ⟨hnext, visited, hloop, hvisited⟩
    · exact ⟨_, .back hlook hback, List.prefix_rfl⟩
    · exact ⟨_, .next hlook hnext hloop,
        List.cons_prefix_cons.mpr ⟨rfl, hvisited⟩⟩
  · exact ⟨_, .stop hlook,
      List.cons_prefix_cons.mpr ⟨rfl, List.nil_prefix⟩⟩

/-- With `steps` positions behind it, the loop is back at its start exactly when
the search has no step left. -/
theorem loop_follows_of_steps (pool : Pool catalog) {start steps left : Nat}
    (hstart : start < catalog.capacity)
    (hsteps : steps + (left + 1) = catalog.capacity) :
    Loop.Follows pool start (left + 1)
      ((start + steps) % catalog.capacity) := by
  have hpos : 0 < catalog.capacity := Nat.zero_lt_of_lt hstart
  have hround : ∀ steps, ((start + steps) % catalog.capacity + 1) %
      catalog.capacity = (start + (steps + 1)) % catalog.capacity :=
    fun _ => Nat.mod_add_mod _ _ _
  induction left generalizing steps with
  | zero =>
      apply Loop.Follows.succ (Nat.mod_lt _ hpos) (by omega)
      left
      rw [hround, hsteps, Nat.add_mod_right]
      exact ⟨Nat.mod_eq_of_lt hstart, rfl⟩
  | succ left ih =>
      apply Loop.Follows.succ (Nat.mod_lt _ hpos) (by omega)
      right
      rw [hround]
      constructor
      · intro hback
        -- Less than a full round leads away from the start.
        have hshort : steps + 1 < catalog.capacity := by omega
        rcases Nat.lt_or_ge (start + (steps + 1)) catalog.capacity with
          hlt | hge
        · rw [Nat.mod_eq_of_lt hlt] at hback
          omega
        · rw [Nat.mod_eq_sub_mod hge, Nat.mod_eq_of_lt (by omega)] at hback
          omega
      · exact ih (by omega)

theorem loop_follows (pool : Pool catalog) {start : Nat}
    (hstart : start < catalog.capacity) :
    Loop.Follows pool start catalog.capacity start := by
  have hpos : 0 < catalog.capacity := Nat.zero_lt_of_lt hstart
  have hsteps : 0 + (catalog.capacity - 1 + 1) = catalog.capacity := by omega
  have hfollows := pool.loop_follows_of_steps hstart hsteps
  rwa [Nat.add_zero start, Nat.mod_eq_of_lt hstart, Nat.sub_add_cancel hpos]
    at hfollows

/-- A request is one pass over the round from the cursor, whatever the catalog
and the calls before.  The loop behind it ends, finds what the search finds, and
looks at each position at most once. -/
theorem allocate_eq_allocateInOnePass (catalog : Catalog)
    (calls : List PoolCall) :
    let pool := after catalog calls
    let round := catalog.roundFrom pool.cursor
    round.map Prod.fst = catalog.allocatable.rotate pool.cursor ∧
    (∀ entry ∈ round, catalog.allocatable[entry.2]? = some entry.1) ∧
    allocate pool = allocateInOnePass pool ∧
    (pool.freeCount ≠ 0 → ∃ visited : List Nat,
      (∀ others found, pool.Loop pool.cursor pool.cursor others found ↔
        others = visited ∧
          found = pool.search catalog.capacity pool.cursor) ∧
      visited <+: round.map Prod.snd ∧
      visited.Nodup ∧
      visited.length ≤ catalog.capacity) := by
  intro pool round
  have hsteady : pool.Steady :=
    follow_of_move (fun _ _ => Steady.move) new_steady calls
  refine ⟨Catalog.map_fst_roundFrom pool.cursor,
    fun entry => Catalog.getElem?_of_mem_roundFrom, hsteady.allocate_eq, ?_⟩
  intro hcount
  obtain ⟨visited, hloop, hvisited⟩ :=
    pool.loop_follows (hsteady.cursor_lt_of_count hcount)
  have hround : visited <+: round.map Prod.snd := by
    rwa [List.take_of_length_le
      (Nat.le_of_eq (catalog.length_roundFrom pool.cursor))] at hvisited
  refine ⟨visited, ?_, hround, ?_, ?_⟩
  · intro others found
    constructor
    · exact hloop.unique
    · rintro ⟨rfl, rfl⟩
      exact hloop
  · apply hround.sublist.nodup
    rw [Catalog.map_snd_roundFrom, List.nodup_rotate]
    exact List.nodup_range
  · have hlength := hround.length_le
    rwa [List.length_map, Catalog.length_roundFrom] at hlength

/-- The position is that of the entry found, also where an equal one stands
before it. -/
example :
    let first : Register := ⟨"a", 0, true⟩
    let second : Register := ⟨"b", 1, true⟩
    let pool := after { registers := [first, second, first] }
      [.allocate, .allocate, .free first, .free second, .allocate]
    (allocate pool).result.toOption = some first ∧
      (allocate pool).state.cursor = 2 := by
  decide

end Pool

end SpimGen

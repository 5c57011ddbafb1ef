/-
The register pool hands out the allocatable registers of a catalog and takes
them back.  It remembers the register touched last; the search for a free one
starts there, goes forward through the allocatable registers and round to the
first again, and looks at each of them once.

The busy table has one entry for each catalog position and is looked up by
hardware number.  The two agree on a positional catalog; on any other catalog
the pool does what its table says, and a register whose number lies outside
the table breaks the run off.
-/
import SpimGen.Register
import SpimGen.Action

namespace SpimGen

/-- The register at a catalog position, which has to exist. -/
def Catalog.lookUp (catalog : Catalog) (position : Nat) :
    Except Fault Register :=
  match catalog.at? position with
  | some reg => .ok reg
  | none => .error (.invalidRegister position)

structure Pool (catalog : Catalog) where
  /-- Whether a register is handed out or reserved. -/
  busy : List Bool
  /-- How many registers are counted as free. -/
  freeCount : Nat
  /-- Position, among the allocatable registers, of the one touched last. -/
  cursor : Nat
deriving Repr, DecidableEq

namespace Pool

variable {catalog : Catalog}

/-- A pool that has handed nothing out; the entries at the positions of reserved
registers start as busy. -/
def new (catalog : Catalog) : Pool catalog where
  busy := catalog.registers.map (fun reg => !reg.allocatable)
  freeCount := catalog.capacity
  cursor := 0

def opening (catalog : Catalog) : Event :=
  .poolOpened (catalog.allocatable.map catalog.tag)

def reset : Action (Pool catalog) Unit :=
  fun _ => ⟨.ok (), new catalog, [opening catalog]⟩

/-- The register from which the next search starts. -/
def cursorRegister? (pool : Pool catalog) : Option Register :=
  catalog.allocatable[pool.cursor]?

inductive Found where
  /-- A free register, at a position among the allocatable ones. -/
  | free (position : Nat) (reg : Register)
  | nothing
  /-- The search met something that the pool has no entry for. -/
  | broken (fault : Fault)
deriving Repr, DecidableEq

/-- Looks at `left` positions from `position` on, going round. -/
def search (pool : Pool catalog) : (left position : Nat) → Found
  | 0, _ => .nothing
  | left + 1, position =>
      match catalog.allocatable[position]? with
      | none => .broken (.strayCursor position)
      | some reg =>
          match pool.busy[reg.index]? with
          | none => .broken (.outsideTable reg.index)
          | some false => .free position reg
          | some true =>
              pool.search left ((position + 1) % catalog.capacity)

/-- Marks the register at a position as handed out and moves the cursor. -/
def take (pool : Pool catalog) (position : Nat) (reg : Register) :
    Pool catalog where
  busy := pool.busy.set reg.index true
  freeCount := pool.freeCount - 1
  cursor := position

/-- Marks the register at a position as free and moves the cursor. -/
def giveBack (pool : Pool catalog) (position : Nat) (reg : Register) :
    Pool catalog where
  busy := pool.busy.set reg.index false
  freeCount := pool.freeCount + 1
  cursor := position

@[simp]
theorem new_busy_length :
    (new catalog).busy.length = catalog.registers.length := by
  simp [new]

@[simp]
theorem take_busy_length (pool : Pool catalog) (position : Nat)
    (reg : Register) :
    (pool.take position reg).busy.length = pool.busy.length := by
  simp [take]

@[simp]
theorem giveBack_busy_length (pool : Pool catalog) (position : Nat)
    (reg : Register) :
    (pool.giveBack position reg).busy.length = pool.busy.length := by
  simp [giveBack]

/-- A register that a search finds is allocatable, stands at the position
reported, and is marked free. -/
theorem search_eq_free {pool : Pool catalog} {left start position : Nat}
    {reg : Register} (hfound : pool.search left start = .free position reg) :
    catalog.allocatable[position]? = some reg ∧
      pool.busy[reg.index]? = some false := by
  induction left generalizing start with
  | zero => simp [search] at hfound
  | succ left ih =>
      rw [search] at hfound
      split at hfound
      · contradiction
      · rename_i candidate hcandidate
        split at hfound
        · contradiction
        · rename_i hbusy
          cases hfound
          exact ⟨hcandidate, hbusy⟩
        · exact ih hfound

def allocate : Action (Pool catalog) Register :=
  fun pool =>
    if pool.freeCount = 0 then
      ⟨.error .poolExhausted, pool, [.poolEmpty]⟩
    else
      match pool.search catalog.capacity pool.cursor with
      | .free position reg =>
          let taken := pool.take position reg
          ⟨.ok reg, taken, [.allocated reg.name taken.freeCount]⟩
      | .nothing =>
          ⟨.error .poolExhausted, pool, [.searchFailed pool.freeCount]⟩
      | .broken fault => ⟨.error fault, pool, []⟩

/-- Takes a register back.  A register that the pool never hands out is
refused, and so is one that is not handed out: most likely it is the wrong
one. -/
def free (reg : Register) : Action (Pool catalog) Unit :=
  fun pool =>
    match catalog.allocatable.idxOf? reg with
    | none => ⟨.error (.invalidRegister reg.index), pool, []⟩
    | some position =>
        match pool.busy[reg.index]? with
        | none => ⟨.error (.outsideTable reg.index), pool, []⟩
        | some false => ⟨.error (.doubleFree reg.name reg.index), pool, []⟩
        | some true =>
            let freed := pool.giveBack position reg
            ⟨.ok (), freed, [.freed reg.name freed.freeCount]⟩

def freeIndex (position : Nat) : Action (Pool catalog) Unit := do
  let reg ← Action.ofExcept (catalog.lookUp position)
  free reg

def isFree (pool : Pool catalog) (reg : Register) : Except Fault Bool :=
  match pool.busy[reg.index]? with
  | some busy => .ok (!busy)
  | none => .error (.outsideTable reg.index)

/-- The state of one register, in words. -/
def statusLine (pool : Pool catalog) (reg : Register) : Except Fault String := do
  let free ← pool.isFree reg
  return reg.name ++ (if free then " is free\n" else " is busy\n")

/-- The state of every register of the catalog, one line each. -/
def dump (pool : Pool catalog) : Except Fault String := do
  let lines ← catalog.registers.mapM pool.statusLine
  return String.join lines

/-- Reports the state of every register.  The report is put together only if
it is shown. -/
def logState (verbosity : Verbosity) : Action (Pool catalog) Unit :=
  fun pool =>
    if verbosity.shows .trace then
      match pool.dump with
      | .ok text => ⟨.ok (), pool, [.poolState text]⟩
      | .error fault => ⟨.error fault, pool, []⟩
    else
      ⟨.ok (), pool, []⟩

end Pool

end SpimGen

/-
A register pool with a user.  The bench keeps, beside the pool, the registers
that have been given a name and the copies of the pool that have been saved,
and answers pool steps one by one.
-/
import SpimGen.RegisterPool

namespace SpimGen

/-- How a step names a register. -/
inductive RegisterRef where
  | position (index : Nat)
  /-- By the name under which it was kept when it was handed out. -/
  | kept (name : String)
  | named (name : String)
deriving Repr, DecidableEq

inductive Value where
  | nothing
  | flag (value : Bool)
  | text (value : String)
  | number (value : Int)
  | label (label : StringLabel)
  | labels (isEmpty : Bool) (labels : List StringLabel)
  | found (text : Option String)
deriving Repr, DecidableEq

inductive PoolStep (ρ : Type) where
  /-- Asks for a register, to be kept under a name if one is given. -/
  | allocate (keepAs : Option String)
  | free (reg : ρ)
  | freeIndex (position : Nat)
  | isFree (reg : ρ)
  | dump
  | logState
  | reset
  | save
  /-- Goes back to the copy saved last and forgets that copy. -/
  | restore
  /-- A step that breaks off after these registers and cannot be taken. -/
  | incomplete (known : List ρ)
deriving Repr, DecidableEq

/-- Looks every register of a step up, in the order of its fields. -/
def PoolStep.traverse {ρ σ ε : Type} (look : ρ → Except ε σ) :
    PoolStep ρ → Except ε (PoolStep σ)
  | .allocate keepAs => return .allocate keepAs
  | .free reg => return .free (← look reg)
  | .freeIndex position => return .freeIndex position
  | .isFree reg => return .isFree (← look reg)
  | .dump => return .dump
  | .logState => return .logState
  | .reset => return .reset
  | .save => return .save
  | .restore => return .restore
  | .incomplete known => return .incomplete (← known.mapM look)

/-- A pool, the registers kept under a name (the latest first), and the saved
copies of the pool (the latest first). -/
structure PoolBench (catalog : Catalog) where
  pool : Pool catalog
  kept : List (String × Register) := []
  saved : List (Pool catalog) := []
deriving Repr, DecidableEq

def RegisterRef.denotes (catalog : Catalog)
    (kept : List (String × Register)) : RegisterRef → Except Fault Register
  | .position index => catalog.lookUp index
  | .kept name =>
      match kept.lookup name with
      | some reg => .ok reg
      | none => .error .malformedRequest
  | .named name =>
      match catalog.named? name with
      | some reg => .ok reg
      | none => .error .malformedRequest

namespace PoolBench

variable {catalog : Catalog}

def new (catalog : Catalog) : PoolBench catalog where
  pool := Pool.new catalog

def onPool {α : Type} (action : Action (Pool catalog) α) :
    Action (PoolBench catalog) α :=
  action.within PoolBench.pool (fun pool bench => { bench with pool })

def keep (name : String) (reg : Register) : Action (PoolBench catalog) Unit :=
  Action.modify (fun bench => { bench with kept := (name, reg) :: bench.kept })

/-- Goes back to the copy of the pool that was saved last. -/
def restore : Action (PoolBench catalog) Unit :=
  fun bench =>
    match bench.saved with
    | [] => ⟨.error .malformedRequest, bench, []⟩
    | pool :: saved => ⟨.ok (), { bench with pool, saved }, []⟩

def perform (verbosity : Verbosity) :
    PoolStep Register → Action (PoolBench catalog) Value
  | .allocate keepAs => do
      let reg ← onPool Pool.allocate
      match keepAs with
      | some name => keep name reg
      | none => pure ()
      return .text reg.name
  | .free reg => do
      onPool (Pool.free reg)
      return .nothing
  | .freeIndex position => do
      onPool (Pool.freeIndex position)
      return .nothing
  | .isFree reg => fun bench =>
      ⟨(bench.pool.isFree reg).map Value.flag, bench, []⟩
  | .dump => fun bench => ⟨bench.pool.dump.map Value.text, bench, []⟩
  | .logState => do
      onPool (Pool.logState verbosity)
      return .nothing
  | .reset => do
      onPool Pool.reset
      return .nothing
  | .save => do
      Action.modify (fun bench =>
        { bench with saved := bench.pool :: bench.saved })
      return .nothing
  | .restore => do
      restore
      return .nothing
  | .incomplete _ => Action.fail .malformedRequest

/-- Looks the registers of a step up, then takes it. -/
def take (verbosity : Verbosity) (step : PoolStep RegisterRef) :
    Action (PoolBench catalog) Value :=
  fun bench =>
    match step.traverse (RegisterRef.denotes catalog bench.kept) with
    | .error fault => ⟨.error fault, bench, []⟩
    | .ok known => perform verbosity known bench

end PoolBench

/-- What is shown of a pool after a step. -/
structure PoolSummary where
  freeCount : Nat
  capacity : Nat
  cursor : Option String
deriving Repr, DecidableEq

def Pool.summary {catalog : Catalog} (pool : Pool catalog) : PoolSummary where
  freeCount := pool.freeCount
  capacity := catalog.capacity
  cursor := pool.cursorRegister?.map Register.name

structure PoolAnswer where
  result : Except Fault Value
  state : PoolSummary
  log : List Event

/-- Takes steps one after another and answers each.  A fault ends its own step
only, unless it breaks the run off. -/
def PoolBench.run {catalog : Catalog} (verbosity : Verbosity) :
    List (PoolStep RegisterRef) → PoolBench catalog → List PoolAnswer
  | [], _ => []
  | step :: rest, bench =>
      let outcome := PoolBench.take verbosity step bench
      let answer : PoolAnswer :=
        ⟨outcome.result, outcome.state.pool.summary, outcome.log⟩
      match outcome.result with
      | .error fault =>
          if fault.breaksOff then [answer]
          else answer :: PoolBench.run verbosity rest outcome.state
      | .ok _ => answer :: PoolBench.run verbosity rest outcome.state

end SpimGen

/-
A compilation with a user.  A workspace adds to a compilation the registers
kept under a name and the saved copies of the pool, and answers steps one by
one; completing the compilation closes it.
-/
import SpimGen.Compilation
import SpimGen.PoolBench

namespace SpimGen

inductive Step (ρ : Type) where
  | pool (step : PoolStep ρ)
  | emit (request : Emission ρ)
  | flush
  | declareLiterals
  | assignLabel
  | listLabels
  | intern (text : String)
  | insertLiteral (name text : String)
  | resolve (name : String)
  | advanceFrame (bytes : Int32)
  | setFrame (offset : Int32)
  | renegotiate (terms : SinkTerms)
  | finish
deriving Repr, DecidableEq

/-- Looks every register of a step up, in the order of its fields. -/
def Step.traverse {ρ σ ε : Type} (look : ρ → Except ε σ) :
    Step ρ → Except ε (Step σ)
  | .pool step => return .pool (← step.traverse look)
  | .emit request => return .emit (← request.traverse look)
  | .flush => return .flush
  | .declareLiterals => return .declareLiterals
  | .assignLabel => return .assignLabel
  | .listLabels => return .listLabels
  | .intern text => return .intern text
  | .insertLiteral name text => return .insertLiteral name text
  | .resolve name => return .resolve name
  | .advanceFrame bytes => return .advanceFrame bytes
  | .setFrame offset => return .setFrame offset
  | .renegotiate terms => return .renegotiate terms
  | .finish => return .finish

/-- A compilation, the registers kept under a name, and the saved copies of
its pool. -/
structure Workspace where
  compilation : Compilation
  kept : List (String × Register) := []
  saved : List (Pool Mips.catalog) := []
deriving Repr, DecidableEq

namespace Workspace

def new (sink : Sink) (annotate : Bool) : Workspace where
  compilation := Compilation.new sink annotate

/-- The pool of a workspace with what belongs to it. -/
def bench (workspace : Workspace) : PoolBench Mips.catalog where
  pool := workspace.compilation.pool
  kept := workspace.kept
  saved := workspace.saved

/-- Replaces the pool of a workspace and what belongs to it. -/
def setBench (bench : PoolBench Mips.catalog) (workspace : Workspace) :
    Workspace where
  compilation := { workspace.compilation with pool := bench.pool }
  kept := bench.kept
  saved := bench.saved

def onCompilation {α : Type} (action : Action Compilation α) :
    Action Workspace α :=
  action.within Workspace.compilation
    (fun compilation workspace => { workspace with compilation })

def sink (workspace : Workspace) : Sink :=
  workspace.compilation.emitter.sink

def perform (verbosity : Verbosity) : Step Register → Action Workspace Value
  | .pool step => (PoolBench.perform verbosity step).within bench setBench
  | .emit request => do
      onCompilation (Compilation.emit request)
      return .nothing
  | .flush => do
      onCompilation Compilation.flush
      Action.read (fun workspace => .number workspace.sink.flushes)
  | .declareLiterals => do
      onCompilation Compilation.declareLiterals
      return .nothing
  | .assignLabel => do
      return .label (← onCompilation Compilation.assignLabel)
  | .listLabels =>
      Action.read (fun workspace =>
        let table := workspace.compilation.labels
        .labels table.isEmpty table.labels)
  | .intern text => do
      return .label (← onCompilation (Compilation.intern text))
  | .insertLiteral name text => do
      onCompilation (Compilation.insertLiteral name text)
      return .nothing
  | .resolve name =>
      Action.read (fun workspace =>
        .found (workspace.compilation.literals.resolve name))
  | .advanceFrame bytes => do
      let slot ← onCompilation (Compilation.advanceFrame bytes)
      return .number slot.toInt
  | .setFrame offset => do
      onCompilation (Compilation.setFrame offset)
      return .nothing
  | .renegotiate terms => do
      onCompilation
        (Compilation.onEmitter (Emitter.onSink (Sink.renegotiate terms)))
      return .nothing
  | .finish => do
      onCompilation (Compilation.finish verbosity)
      Action.read (fun workspace => .number workspace.sink.written.length)

/-- Looks the registers of a step up, then takes it. -/
def take (verbosity : Verbosity) (step : Step RegisterRef) :
    Action Workspace Value :=
  fun workspace =>
    match step.traverse (RegisterRef.denotes Mips.catalog workspace.kept) with
    | .error fault => ⟨.error fault, workspace, []⟩
    | .ok known => perform verbosity known workspace

end Workspace

/-- What is shown of a workspace after a step. -/
structure Summary where
  lines : Nat
  freeCount : Nat
  cursor : Option String
  frameOffset : Int32
  labelCount : Nat
deriving Repr, DecidableEq

def Workspace.summary (workspace : Workspace) : Summary where
  lines := workspace.compilation.emitter.lines
  freeCount := workspace.compilation.pool.freeCount
  cursor := workspace.compilation.pool.cursorRegister?.map Register.name
  frameOffset := workspace.compilation.frame.offset
  labelCount := workspace.compilation.labels.count

structure Answer where
  result : Except Fault Value
  /-- The bytes that the step wrote. -/
  written : List UInt8
  /-- The state after the step, unless the workspace is closed. -/
  state : Option Summary
  log : List Event

/-- Whether a step closes its workspace, successful or not. -/
def Step.closes {ρ : Type} : Step ρ → Bool
  | .finish => true
  | _ => false

/-- Takes a step and answers it; no workspace is left if the step closes it. -/
def Workspace.answer (verbosity : Verbosity) (step : Step RegisterRef)
    (workspace : Workspace) : Answer × Option Workspace :=
  let outcome := workspace.take verbosity step
  let left := if step.closes then none else some outcome.state
  (⟨outcome.result,
    outcome.state.sink.written.drop workspace.sink.written.length,
    left.map Workspace.summary, outcome.log⟩, left)

end SpimGen

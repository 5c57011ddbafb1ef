/-
One compilation: its register pool, string labels, literals, stack frame and
emitter.  Nothing is shared between compilations.  Completing one ends the
generated program and declares the string literals.
-/
import SpimGen.RegisterPool
import SpimGen.Frame
import SpimGen.Emitter

namespace SpimGen

structure Compilation where
  pool : Pool Mips.catalog
  labels : LabelTable := {}
  literals : Literals := {}
  frame : Frame := {}
  emitter : Emitter
deriving Repr, DecidableEq

namespace Compilation

variable {α : Type}

def new (sink : Sink) (annotate : Bool) : Compilation where
  pool := Pool.new Mips.catalog
  emitter := { sink, annotate }

/-- The events that setting a compilation up reports. -/
def opening : List Event :=
  [Pool.opening Mips.catalog]

def onPool (action : Action (Pool Mips.catalog) α) : Action Compilation α :=
  action.within Compilation.pool
    (fun pool compilation => { compilation with pool })

def onEmitter (action : Action Emitter α) : Action Compilation α :=
  action.within Compilation.emitter
    (fun emitter compilation => { compilation with emitter })

def allocate : Action Compilation Register :=
  onPool Pool.allocate

def free (reg : Register) : Action Compilation Unit :=
  onPool (Pool.free reg)

def emit (request : Emission Register) : Action Compilation Unit :=
  onEmitter (Emitter.emit request)

def flush : Action Compilation Unit :=
  onEmitter Emitter.flush

def advanceFrame (bytes : Int32) : Action Compilation Int32 :=
  fun compilation =>
    let (slot, frame) := compilation.frame.advance bytes
    ⟨.ok slot, { compilation with frame }, []⟩

def setFrame (offset : Int32) : Action Compilation Unit :=
  Action.modify (fun compilation =>
    { compilation with frame := compilation.frame.set offset })

def assignLabel : Action Compilation StringLabel :=
  fun compilation =>
    let label := compilation.labels.fresh
    ⟨.ok label, { compilation with labels := compilation.labels.advance },
      [.labelAssigned label]⟩

def insertLiteral (name text : String) : Action Compilation Unit :=
  Action.modify (fun compilation =>
    { compilation with literals := compilation.literals.insert name text })

/-- Assigns the next string label to a text. -/
def intern (text : String) : Action Compilation StringLabel := do
  let label ← assignLabel
  insertLiteral label.text text
  return label

/-- Writes a data section that declares every assigned label. -/
def declareLiterals : Action Compilation Unit :=
  fun compilation =>
    onEmitter (Emitter.declare compilation.labels compilation.literals)
      compilation

/-- The report that a compilation is about to be completed. -/
def finishing (compilation : Compilation) : Event :=
  .finishing compilation.emitter.lines
    (Mips.catalog.capacity - compilation.pool.freeCount)

/-- Completes a compilation: the program ends, the string literals follow, and
the sink is flushed. -/
def finish (verbosity : Verbosity) : Action Compilation Unit := do
  Action.report (← Action.read finishing)
  onPool (Pool.logState verbosity)
  emit .epilog
  declareLiterals
  flush

end Compilation

end SpimGen

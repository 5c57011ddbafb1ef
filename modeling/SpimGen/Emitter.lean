/-
The emitter writes emission requests to a sink, line by line, and counts the
lines that arrived whole.

The string literals of a program are declared together.  Every label is
resolved before the first declaration is written, so a label without a text
leaves the listing as it was.
-/
import SpimGen.Emission
import SpimGen.Literals
import SpimGen.Sink

namespace SpimGen

/-- A listing under construction. -/
structure Emitter where
  sink : Sink := {}
  /-- Number of lines written whole, comments included. -/
  lines : Nat := 0
  /-- Whether requests are preceded by a description. -/
  annotate : Bool := false
deriving Repr, DecidableEq

namespace Emitter

def onSink {α : Type} (action : Action Sink α) : Action Emitter α :=
  action.within Emitter.sink (fun sink emitter => { emitter with sink })

/-- Writes a line with its newline, and counts it once all of it is written. -/
def write (line : Line Register) : Action Emitter Unit := do
  onSink (Sink.write line.bytes)
  Action.modify (fun emitter => { emitter with lines := emitter.lines + 1 })

/-- Writes the lines of a request up to the first that fails. -/
def emit (request : Emission Register) : Action Emitter Unit :=
  fun emitter => Action.each write (request.lines emitter.annotate) emitter

def flush : Action Emitter Unit :=
  onSink Sink.flush

end Emitter

/-- The declaration of a label, if its text is recorded. -/
def Literals.declaration (literals : Literals) (label : StringLabel) :
    Except Fault (Emission Register) :=
  match literals.resolve label.text with
  | some text => .ok (.string label.text text)
  | none => .error (.unresolvedLabel label)

/-- The declarations of all assigned labels in ascending order; the first label
without a text decides. -/
def LabelTable.declarations (labels : LabelTable) (literals : Literals) :
    Except Fault (List (Emission Register)) :=
  labels.labels.mapM literals.declaration

/-- Writes a data section that declares every assigned label. -/
def Emitter.declare (labels : LabelTable) (literals : Literals) :
    Action Emitter Unit :=
  fun emitter =>
    match labels.declarations literals with
    | .error fault => ⟨.error fault, emitter, []⟩
    | .ok requests =>
        (do
          Action.report (.literalsDeclared requests.length)
          emit .dataSection
          Action.each emit requests : Action Emitter Unit) emitter

end SpimGen

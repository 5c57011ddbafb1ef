/-
Why an operation fails.  A fault is a cause; its wording is one function, and
whoever reports it chooses the form.
-/
import SpimGen.StringLabel

namespace SpimGen

/-- The causes for which operations of the library fail. -/
inductive Fault where
  | poolExhausted
  /-- The number does not belong to a register that the pool hands out. -/
  | invalidRegister (index : Nat)
  /-- The register is returned but was not handed out. -/
  | doubleFree (name : String) (index : Nat)
  /-- No text is recorded for an assigned label. -/
  | unresolvedLabel (label : StringLabel)
  /-- The sink refuses output; the text is the sink's own. -/
  | sinkRefused (text : String)
  /-- The busy table has no entry under the register's number. -/
  | outsideTable (index : Nat)
  /-- The cursor points behind the last register of the pool. -/
  | strayCursor (position : Nat)
  /-- A request names a register, binding or saved pool that does not exist,
  or is not complete. -/
  | malformedRequest
deriving Repr, DecidableEq

namespace Fault

def message : Fault → String
  | .poolExhausted => "no more registers available"
  | .invalidRegister index =>
      "register index is not an allocatable register. Index = "
        ++ toString index
  | .doubleFree name _ => "register $" ++ name ++ " was not allocated"
  | .unresolvedLabel label =>
      "string literal " ++ label.text
        ++ " was never recorded in the symbol table"
  | .sinkRefused text => "failed to write assembly: " ++ text
  | .outsideTable index => "no busy flag for register " ++ toString index
  | .strayCursor position =>
      "no allocatable register at position " ++ toString position
  | .malformedRequest => "malformed request"

/-- Wording of a fault followed by that of its causes, outermost first. -/
def chain (fault : Fault) : List String :=
  match fault with
  | .sinkRefused text => [fault.message, text]
  | _ => [fault.message]

/-- Whether the fault breaks off the run in which it occurs: the state of the
pool does not fit its catalog. -/
def breaksOff : Fault → Bool
  | .outsideTable _ => true
  | .strayCursor _ => true
  | _ => false

end Fault

end SpimGen

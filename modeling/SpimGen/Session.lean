/-
Workspaces side by side.  All of them are opened at the start, each with a sink
and a choice of annotations of its own; each step is addressed to one of them.
-/
import SpimGen.Workspace

namespace SpimGen

/-- What a workspace is opened with. -/
structure Setup where
  sink : Sink := {}
  annotate : Bool := false
deriving Repr, DecidableEq

/-- The workspaces of a session; a closed one leaves its place empty. -/
structure Session (count : Nat) where
  places : Vector (Option Workspace) count
deriving Repr, DecidableEq

namespace Session

variable {count : Nat}

/-- A session with a workspace for each setup. -/
def opened (setups : Fin count → Setup) : Session count where
  places := Vector.ofFn fun address =>
    some (Workspace.new (setups address).sink (setups address).annotate)

/-- A session with so many workspaces, each with an empty sink on the same
terms. -/
def new (count : Nat) (terms : SinkTerms) (annotate : Bool) : Session count :=
  opened fun _ => { sink := { terms }, annotate }

/-- The events that opening a session reports. -/
def opening (count : Nat) : List Event :=
  (List.replicate count Compilation.opening).flatten

def closedAnswer : Answer :=
  ⟨.error .malformedRequest, [], none, []⟩

def workspace? (session : Session count) (address : Fin count) :
    Option Workspace :=
  session.places[address]

/-- Puts what a step has left of a workspace back in its place. -/
def replace (address : Fin count) (left : Option Workspace)
    (session : Session count) : Session count where
  places := session.places.set address left

@[simp] theorem workspace?_opened (setups : Fin count → Setup)
    (address : Fin count) :
    (opened setups).workspace? address =
      some (Workspace.new (setups address).sink (setups address).annotate) := by
  simp [workspace?, opened]

@[simp] theorem workspace?_replace_self (session : Session count)
    (address : Fin count) (left : Option Workspace) :
    (session.replace address left).workspace? address = left := by
  simp [workspace?, replace]

theorem workspace?_replace_of_ne (session : Session count)
    {address other : Fin count} (left : Option Workspace)
    (hne : address ≠ other) :
    (session.replace address left).workspace? other
      = session.workspace? other := by
  have hval : address.val ≠ other.val := fun h => hne (Fin.ext h)
  simp [workspace?, replace, Vector.getElem_set_ne, hval]

/-- Answers a step for the workspace at an address. -/
def answer (verbosity : Verbosity) (address : Fin count)
    (step : Step RegisterRef) (session : Session count) :
    Answer × Session count :=
  match session.workspace? address with
  | none => (closedAnswer, session)
  | some workspace =>
      let (reply, left) := workspace.answer verbosity step
      (reply, session.replace address left)

/-- Answers steps one after another, each with the address it is for. -/
def run (verbosity : Verbosity) :
    List (Fin count × Step RegisterRef) → Session count → List Answer
  | [], _ => []
  | (address, step) :: rest, session =>
      let (reply, next) := session.answer verbosity address step
      reply :: run verbosity rest next

end Session

end SpimGen

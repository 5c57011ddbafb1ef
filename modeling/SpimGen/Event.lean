/-
What operations report while they run.  Events are data: they are put into
words only where a log is shown, and nothing depends on whether one is.
-/
import SpimGen.StringLabel
import SpimGen.TerminalText

namespace SpimGen

/-- How much detail an event belongs to. -/
inductive Level where
  | debug
  | trace
deriving Repr, DecidableEq

def Level.word : Level → String
  | .debug => "DEBUG"
  | .trace => "TRACE"

/-- How much of the log is wanted. -/
inductive Verbosity where
  | quiet
  | debug
  | trace
deriving Repr, DecidableEq

def Verbosity.shows : Verbosity → Level → Bool
  | .quiet, _ => false
  | .debug, .debug => true
  | .debug, .trace => false
  | .trace, _ => true

inductive Event where
  /-- A pool was set up with these registers. -/
  | poolOpened (tags : List String)
  /-- A register was asked for while none was counted as free. -/
  | poolEmpty
  /-- A register was asked for and none was found, though some are counted. -/
  | searchFailed (counted : Nat)
  /-- A register was handed out, which leaves so many free. -/
  | allocated (name : String) (left : Nat)
  /-- A register was returned, which makes so many free. -/
  | freed (name : String) (left : Nat)
  /-- The state of every register. -/
  | poolState (dump : String)
  | labelAssigned (label : StringLabel)
  /-- The declarations of so many string literals are about to be written. -/
  | literalsDeclared (count : Nat)
  | finishing (lines busy : Nat)
  | sampleEmitted (elapsed : String)
  | fileWritten (path : String)
deriving Repr, DecidableEq

namespace Event

/-- Level of an event: only the state of all registers is trace output. -/
def level : Event → Level
  | .poolState _ => .trace
  | _ => .debug

def message : Event → String
  | .poolOpened tags =>
      "Available registers: [" ++ String.intercalate ", " tags ++ "]"
  | .poolEmpty => "Register pool exhausted"
  | .searchFailed counted =>
      "No free register found even though " ++ toString counted
        ++ " are counted as free"
  | .allocated name left =>
      "Allocated register " ++ name ++ " (" ++ toString left ++ " free)"
  | .freed name left =>
      "Freed register " ++ name ++ " (" ++ toString left ++ " free)"
  | .poolState dump => "Register names and status:\n" ++ dump
  | .labelAssigned label => "Assigned string label " ++ label.text
  | .literalsDeclared count =>
      "Emitting " ++ toString count ++ " string literals"
  | .finishing lines busy =>
      "Finishing compilation: " ++ toString lines ++ " lines emitted, "
        ++ toString busy ++ " registers still busy"
  | .sampleEmitted elapsed =>
      "Took " ++ elapsed ++ " to emit the sample program"
  | .fileWritten path => "Wrote " ++ path

/-- The part of the program that reports the event. -/
def origin : Event → String
  | .poolOpened _ | .poolEmpty | .searchFailed _ | .allocated _ _
  | .freed _ _ | .poolState _ => "cminus_back::codegen::register_allocator"
  | .labelAssigned _ | .literalsDeclared _ => "cminus_back::codegen::strings"
  | .finishing _ _ => "cminus_back::codegen"
  | .sampleEmitted _ | .fileWritten _ => "cminus"

/-- A log entry names the level and the message. -/
def entry (event : Event) : String :=
  event.level.word ++ " " ++ event.message

/-- An entry of the program's own log also names the origin, and spells out
what could steer a terminal. -/
def entryWithOrigin (event : Event) : String :=
  event.level.word ++ " " ++ event.origin ++ ": "
    ++ TerminalText.spellOut event.message

end Event

def Verbosity.select (verbosity : Verbosity) (log : List Event) : List Event :=
  log.filter (fun event => verbosity.shows event.level)

end SpimGen

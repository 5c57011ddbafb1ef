/-
The command line.  Arguments are read from left to right.  An output path that
stands in an argument of its own is taken up only when the next option is
accepted, or at the end; until then it waits, and an argument that nothing is
known about is reported first.
-/
import SpimGen.Event
import SpimGen.OutputPath

namespace SpimGen

structure Options where
  /-- Where the assembly goes, if not to the standard output. -/
  output : Option String := none
  annotate : Bool := false
  /-- How often more detail was asked for. -/
  verbose : Nat := 0
deriving Repr, DecidableEq

/-- How much of the log the options ask for. -/
def Options.verbosity (options : Options) : Verbosity :=
  match options.verbose with
  | 0 => .quiet
  | 1 => .debug
  | _ => .trace

inductive LongOption where
  | output
  | annotate
  | verbose
  | help
  | version
deriving Repr, DecidableEq

namespace LongOption

/-- The option with the given name, written in full. -/
def ofName? : String → Option LongOption
  | "output" => some .output
  | "annotate" => some .annotate
  | "verbose" => some .verbose
  | "help" => some .help
  | "version" => some .version
  | _ => none

def usage : LongOption → String
  | .output => "--output <OUTPUT>"
  | .annotate => "--annotate"
  | .verbose => "--verbose..."
  | .help => "--help"
  | .version => "--version"

end LongOption

inductive UsageError where
  | badOutput (path : String) (flaw : OutputPath.Flaw)
  | missingOutput
  | repeated (option : LongOption)
  | unexpected (argument : String)
  | unneeded (value : String) (option : LongOption)
deriving Repr, DecidableEq

/-- A quotation in a message: the quoted text has emphasis. -/
def quoted (text : String) : String :=
  "'" ++ TerminalText.emphasize text ++ "'"

def UsageError.message : UsageError → String
  | .badOutput path flaw =>
      "invalid value " ++ quoted path ++ " for "
        ++ quoted LongOption.output.usage ++ ": " ++ flaw.message
  | .missingOutput =>
      "a value is required for " ++ quoted LongOption.output.usage
        ++ " but none was supplied"
  | .repeated option =>
      "the argument " ++ quoted option.usage
        ++ " cannot be used multiple times"
  | .unexpected argument => "unexpected argument " ++ quoted argument ++ " found"
  | .unneeded value option =>
      "unexpected value " ++ quoted value ++ " for " ++ quoted option.usage
        ++ " found; no more were expected"

def UsageError.report (error : UsageError) : String :=
  TerminalText.emphasize "error:" ++ " " ++ error.message
    ++ "\n\nFor more information, try " ++ quoted "--help" ++ ".\n"

/-- Why reading the arguments stops before the end. -/
inductive Halt where
  | help
  | version
  | refused (error : UsageError)
deriving Repr, DecidableEq

namespace CommandLine

/-- An output path that has been announced but not taken up. -/
inductive Waiting where
  | nothing
  | announced
  | path (text : String)
deriving Repr, DecidableEq

structure Reader where
  options : Options := {}
  waiting : Waiting := .nothing
deriving Repr, DecidableEq

namespace Reader

def refuse {α : Type} (error : UsageError) : Except Halt α :=
  .error (.refused error)

/-- Takes up an output path: only one is allowed, and it has to name an output
file. -/
def takeOutput (reader : Reader) (path : String) : Except Halt Reader :=
  match reader.options.output with
  | some _ => refuse (.repeated .output)
  | none =>
      match OutputPath.check path with
      | .error flaw => refuse (.badOutput path flaw)
      | .ok output =>
          .ok { reader with options := { reader.options with output } }

/-- Takes up the output path that waits, if one does. -/
def settle (reader : Reader) : Except Halt Reader :=
  match reader.waiting with
  | .nothing => .ok reader
  | .announced => refuse .missingOutput
  | .path text => { reader with waiting := .nothing }.takeOutput text

/-- Accepts an output path that is part of the option's own argument. -/
def attachOutput (reader : Reader) (path : String) : Except Halt Reader := do
  (← reader.settle).takeOutput path

def announceOutput (reader : Reader) : Except Halt Reader := do
  return { ← reader.settle with waiting := .announced }

/-- Accepts the wish for annotations, which may be given once. -/
def setAnnotate (reader : Reader) : Except Halt Reader := do
  let settled ← reader.settle
  if settled.options.annotate then
    refuse (.repeated .annotate)
  else
    return { settled with options := { settled.options with annotate := true } }

def addVerbose (reader : Reader) : Except Halt Reader := do
  let settled ← reader.settle
  return { settled with
    options := { settled.options with verbose := settled.options.verbose + 1 } }

def stop (reader : Reader) (halt : Halt) : Except Halt Reader := do
  let _ ← reader.settle
  .error halt

/-- Reads the letters of an argument that starts with a single dash. -/
def readLetters (reader : Reader) : List Char → Except Halt Reader
  | [] => .ok reader
  | 'v' :: rest => do
      let next ← reader.addVerbose
      next.readLetters rest
  | 'h' :: _ => reader.stop .help
  | 'V' :: _ => reader.stop .version
  | ['o'] => reader.announceOutput
  | 'o' :: '=' :: path => reader.attachOutput (String.ofList path)
  | 'o' :: path => reader.attachOutput (String.ofList path)
  | letter :: _ => refuse (.unexpected (String.ofList ['-', letter]))

def accept (reader : Reader) : LongOption → Except Halt Reader
  | .output => reader.announceOutput
  | .annotate => reader.setAnnotate
  | .verbose => reader.addVerbose
  | .help => reader.stop .help
  | .version => reader.stop .version

/-- Reads an argument that starts with two dashes: a name, and perhaps a value
after an equals sign.  Only the output option takes one. -/
def readLong (reader : Reader) (text : List Char) : Except Halt Reader :=
  let (name, rest) := text.span (· ≠ '=')
  match LongOption.ofName? (String.ofList name), rest with
  | none, _ => refuse (.unexpected (String.ofList ('-' :: '-' :: name)))
  | some option, [] => reader.accept option
  | some .output, _ :: value => reader.attachOutput (String.ofList value)
  | some option, _ :: value =>
      refuse (.unneeded (String.ofList value) option)

/-- Reads an argument that is no option: an announced output path, or
something unexpected. -/
def readPlain (reader : Reader) (argument : String) : Except Halt Reader :=
  match reader.waiting with
  | .announced => .ok { reader with waiting := .path argument }
  | _ => refuse (.unexpected argument)

/-- Reads all arguments.  Two dashes alone end the options, and nothing may
follow them; a dash alone is no option. -/
def readAll (reader : Reader) : List String → Except Halt Options
  | [] => do
      return (← reader.settle).options
  | argument :: rest =>
      match argument.toList with
      | ['-', '-'] =>
          match rest with
          | [] => do
              return (← reader.settle).options
          | extra :: _ => refuse (.unexpected extra)
      | '-' :: '-' :: text => do
          let next ← reader.readLong text
          next.readAll rest
      | '-' :: letter :: letters => do
          let next ← reader.readLetters (letter :: letters)
          next.readAll rest
      | _ => do
          let next ← reader.readPlain argument
          next.readAll rest

end Reader

def parse (arguments : List String) : Except Halt Options :=
  ({} : Reader).readAll arguments

end CommandLine

end SpimGen

/-
The program: it reads its arguments and emits the sample program to the
standard output or to a file.  It is written for any host that has files, two
outputs and a clock; one such host is a disk with outputs that take everything.
-/
import SpimGen.CommandLine
import SpimGen.Disk
import SpimGen.SampleProgram

namespace SpimGen.Program

def helpLines : List String :=
  ["Emits a sample MIPS program through the cminus backend",
   "",
   "Usage: cminus [OPTIONS]",
   "",
   "Options:",
   "  -o, --output <OUTPUT>  Where to write the assembly (defaults to stdout)",
   "      --annotate         Precede every emitted sequence with a comment describing it",
   "  -v, --verbose...       Increase log verbosity (-v debug, -vv trace)",
   "  -h, --help             Print help",
   "  -V, --version          Print version"]

def helpText : String :=
  String.join (helpLines.map (fun line => line ++ "\n"))

def versionText : String := "cminus 0.1.0\n"

def encode (text : String) : List UInt8 :=
  text.toUTF8.data.toList

/-- The log as it is shown, one entry after another. -/
def logText (verbosity : Verbosity) (log : List Event) : String :=
  String.join ((verbosity.select log).map (fun event =>
    event.entryWithOrigin ++ "\n"))

/-- The report of a failure: the outermost message, then its causes.  A single
cause stands alone; several are numbered. -/
def failureText : List String → String
  | [] => "Error: \n"
  | [outer] => "Error: " ++ outer ++ "\n"
  | [outer, cause] =>
      "Error: " ++ outer ++ "\n\nCaused by:\n    " ++ cause ++ "\n"
  | outer :: causes =>
      "Error: " ++ outer ++ "\n\nCaused by:\n"
        ++ String.join (causes.zipIdx.map (fun (cause, number) =>
          "    " ++ toString number ++ ": " ++ cause ++ "\n"))

/-- What the program prints when it stops before emitting anything: its exit
code, the standard output and the standard error. -/
def haltTexts : Halt → UInt32 × String × String
  | .help => (0, helpText, "")
  | .version => (0, versionText, "")
  | .refused error => (2, "", TerminalText.strip error.report)

def sample (options : Options) (elapsed : String) : SampleProgram.Run :=
  SampleProgram.run options.verbosity elapsed options.annotate {}

/-- What the program needs of the system that it runs on.  What can fail gives
the system's message. -/
structure Host (m : Type → Type) (File : Type) where
  /-- Creates a file, or empties the one that is there. -/
  create : String → m (Except String File)
  save : File → List UInt8 → m (Except String Unit)
  print : List UInt8 → m (Except String Unit)
  /-- Prints to the standard error. -/
  report : String → m Unit
  /-- Hands over the time that the sample program takes. -/
  timed : (String → SampleProgram.Run) → m SampleProgram.Run

namespace Host

variable {m : Type → Type} [Monad m] {File : Type} (host : Host m File)

/-- Emits the sample program, or says why it could not be written. -/
def emitTo (write : List UInt8 → m (Except String Unit))
    (refused : Fault → List String) (options : Options) :
    m (Except (List String) Unit) := do
  let run ← host.timed (sample options)
  host.report (logText options.verbosity run.log)
  match ← write run.sink.written, run.failure with
  | .error cause, _ => return .error (refused (.sinkRefused cause))
  | .ok (), some messages => return .error messages
  | .ok (), none => return .ok ()

/-- Emits the sample program to where the options have it go.  An output file is
created before anything is emitted. -/
def emit (options : Options) : m (Except (List String) Unit) := do
  -- The standard output refuses a line at once, a file when it is completed.
  match options.output with
  | none => host.emitTo host.print Fault.chain options
  | some path =>
      match ← host.create path with
      | .error cause => return .error ["Failed to create " ++ path, cause]
      | .ok file =>
          let emitted ←
            host.emitTo (host.save file) SampleProgram.unfinished options
          if emitted.isOk then
            host.report (logText options.verbosity [.fileWritten path])
          return emitted

/-- Runs the program and gives its exit code. -/
def run (arguments : List String) : m UInt32 := do
  match CommandLine.parse arguments with
  | .error halt =>
      let (code, out, err) := haltTexts halt
      let _ ← host.print (encode out)
      host.report err
      return code
  | .ok options =>
      match ← host.emit options with
      | .error messages =>
          host.report (failureText messages)
          return 1
      | .ok () => return 0

end Host

/-- What a run of the program can change. -/
structure Surroundings where
  disk : Disk
  out : List UInt8 := []
  err : String := ""

/-- A host that has a disk, and on which every run takes the same time. -/
def Host.onDisk (elapsed : String) : Host (StateM Surroundings) Place where
  create path := fun before =>
    match before.disk.locate path with
    | .error error => (.error error.message, before)
    | .ok place => (.ok place, { before with disk := before.disk.put place [] })
  save place bytes := fun before =>
    (.ok (), { before with disk := before.disk.put place bytes })
  print bytes := fun before =>
    (.ok (), { before with out := before.out ++ bytes })
  report text := fun before => ((), { before with err := before.err ++ text })
  timed produce := pure (produce elapsed)

/-- What a run of the program leaves behind. -/
structure Exit extends Surroundings where
  code : UInt32

def run (disk : Disk) (elapsed : String) (arguments : List String) : Exit :=
  let (code, left) := (Host.onDisk elapsed).run arguments { disk }
  { left with code }

end SpimGen.Program

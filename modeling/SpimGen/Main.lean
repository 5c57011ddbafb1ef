/-
The command line program: runs the program on the system at hand.
-/
import SpimGen.Program

namespace SpimGen.Program

/-- A message of the operating system with the number of the error. -/
def numbered (details : String) (code : UInt32) : String :=
  details ++ " (os error " ++ toString code ++ ")"

def systemMessage (error : IO.Error) : String :=
  match error with
  | .noFileOrDirectory _ code details
  | .inappropriateType _ code details
  | .permissionDenied _ code details
  | .resourceExhausted _ code details
  | .alreadyExists _ code details
  | .noSuchThing _ code details
  | .invalidArgument _ code details
  | .interrupted _ code details
  | .illegalOperation code details
  | .resourceBusy code details
  | .resourceVanished code details
  | .hardwareFault code details
  | .unsatisfiedConstraints code details
  | .unsupportedOperation code details
  | .otherError code details => numbered details code
  | _ => toString error

/-- Does something that the system may refuse. -/
def attempt {α : Type} (action : IO α) : IO (Except String α) := do
  match ← action.toBaseIO with
  | .ok value => return .ok value
  | .error error => return .error (systemMessage error)

/-- The host on which the process runs. -/
def Host.native : Host IO IO.FS.Handle where
  create path := attempt (IO.FS.Handle.mk path .write)
  save file bytes := attempt (file.write ⟨bytes.toArray⟩ *> file.flush)
  print bytes := do
    let out ← IO.getStdout
    attempt (out.write ⟨bytes.toArray⟩ *> out.flush)
  report text := do (← IO.getStderr).putStr text
  timed produce := do
    let start ← IO.monoMsNow
    -- The clock is read again once all bytes are there.
    let size := (produce "").sink.written.length
    let stop ← if size = 0 then pure start else IO.monoMsNow
    return produce (toString (stop - start) ++ "ms")

end SpimGen.Program

def main (arguments : List String) : IO UInt32 :=
  SpimGen.Program.Host.native.run arguments

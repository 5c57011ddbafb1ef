/-
The sample program: it prints a caption and then the value of (1 + 2) * 3,
which it keeps in a memory slot in between.
-/
import SpimGen.Compilation

namespace SpimGen.SampleProgram

open Compilation (emit allocate free)

def caption : String := "result: "

/-- Emits everything but the end of the program. -/
def body : Action Compilation Unit := do
  emit .prolog
  let one ← allocate
  let two ← allocate
  let result ← allocate
  emit (.loadImm one 1)
  emit (.loadImm two 2)
  emit (.arith .add result one two)
  free one
  free two
  let three ← allocate
  emit (.loadImm three 3)
  emit (.arith .mul result result three)
  free three
  let slot ← Compilation.advanceFrame 4
  emit (.store result Mips.gp slot)
  let label ← Compilation.intern caption
  let address ← allocate
  emit (.loadAddr address label.text)
  emit (.printString address)
  free address
  emit (.load result Mips.gp slot)
  emit (.printRegister result)
  emit .printNewline
  free result

/-- The messages about a fault in the last part, where the compilation is
completed. -/
def unfinished (fault : Fault) : List String :=
  "Failed to finish the sample program" :: fault.chain

structure Run where
  /-- What went wrong, outermost message first. -/
  failure : Option (List String)
  sink : Sink
  log : List Event

def run (verbosity : Verbosity) (elapsed : String) (annotate : Bool)
    (sink : Sink) : Run :=
  let emitted := body (Compilation.new sink annotate)
  let log := Compilation.opening ++ emitted.log
  match emitted.result with
  | .error fault => ⟨some fault.chain, emitted.state.emitter.sink, log⟩
  | .ok () =>
      let finished := Compilation.finish verbosity emitted.state
      let log := log ++ finished.log
      match finished.result with
      | .error fault =>
          ⟨some (unfinished fault), finished.state.emitter.sink, log⟩
      | .ok () =>
          ⟨none, finished.state.emitter.sink,
            log ++ [.sampleEmitted elapsed]⟩

end SpimGen.SampleProgram

/-
What the assembly of the program depends on.  How much is logged and where the
assembly goes has no say in it: the only question is whether annotations were
asked for.  Reporting the state of the pool cannot fail, for its table has an
entry for every register, and a report leaves the compilation as it is.

A run that ends badly was refused its arguments or could not create its output
file.  Both happen before anything is written.
-/
import SpimGen.Program
import SpimGen.Proofs.ArgumentReading
import SpimGen.Proofs.Ownership
import SpimGen.Proofs.PoolSafety

namespace SpimGen

/-! ### Reports -/

/-- A pool of a catalog numbered by position has an entry for every register. -/
theorem Pool.Sound.exists_dump_eq_ok {catalog : Catalog}
    (hpositional : catalog.Positional) {pool : Pool catalog}
    (hsound : pool.Sound) : ∃ text, pool.dump = .ok text := by
  cases hdump : pool.dump with
  | ok text => exact ⟨text, rfl⟩
  | error fault =>
      obtain ⟨reg, hreg, hnone, _⟩ := dump_eq_error hdump
      have hindex := hpositional.getElem?_index hreg
      have hlt := (List.getElem?_eq_some_iff.mp hindex).1
      rw [List.getElem?_eq_none_iff, hsound.busy_length] at hnone
      exact absurd hlt (Nat.not_lt.mpr hnone)

theorem Pool.Sound.logState_eq {catalog : Catalog}
    (hpositional : catalog.Positional) {pool : Pool catalog}
    (hsound : pool.Sound) (verbosity : Verbosity) :
    ∃ log, Pool.logState verbosity pool = ⟨.ok (), pool, log⟩ := by
  obtain ⟨text, htext⟩ := hsound.exists_dump_eq_ok hpositional
  rw [Pool.logState, htext]
  split
  · exact ⟨_, rfl⟩
  · exact ⟨_, rfl⟩

namespace Compilation

def Sound (compilation : Compilation) : Prop :=
  compilation.pool.Sound

/-- Completing a compilation without reporting it. -/
def conclude : Action Compilation Unit := do
  emit .epilog
  declareLiterals
  flush

theorem finish_eq_conclude {compilation : Compilation}
    (hsound : compilation.Sound) (verbosity : Verbosity) :
    ∃ log, finish verbosity compilation =
      ⟨(conclude compilation).result, (conclude compilation).state,
        finishing compilation :: log⟩ := by
  obtain ⟨log, hlog⟩ :=
    Pool.Sound.logState_eq Mips.catalog_positional hsound verbosity
  have hreport : onPool (Pool.logState verbosity) compilation =
      ⟨.ok (), compilation, log⟩ := by
    rw [onPool, Action.within, hlog]
  have hread : Action.read finishing compilation =
      ⟨.ok (finishing compilation), compilation, []⟩ := rfl
  have hfinishing : Action.report (finishing compilation) compilation =
      ⟨.ok (), compilation, [finishing compilation]⟩ := rfl
  rw [finish, Action.bind_apply_of_ok hread, Action.bind_apply_of_ok hfinishing,
    Action.bind_apply_of_ok hreport]
  exact ⟨_, rfl⟩

/-! ### Pools stay sound -/

theorem emit_sound (request : Emission Register) :
    (emit request).Keeps Sound :=
  fun _ hsound => hsound

theorem onPool_sound {α : Type} {action : Action (Pool Mips.catalog) α}
    (hmove : ∀ pool : Pool Mips.catalog, pool.Move (action pool).state) :
    (onPool action).Keeps Sound :=
  fun compilation hsound => Pool.Sound.move hsound (hmove compilation.pool)

theorem allocate_sound : allocate.Keeps Sound :=
  onPool_sound Pool.allocate_move

theorem free_sound (reg : Register) : (free reg).Keeps Sound :=
  onPool_sound (Pool.free_move reg)

theorem advanceFrame_sound (bytes : Int32) : (advanceFrame bytes).Keeps Sound :=
  fun _ hsound => hsound

theorem intern_sound (text : String) : (intern text).Keeps Sound :=
  fun _ hsound => hsound

end Compilation

namespace SampleProgram

open Compilation

theorem body_sound : body.Keeps Sound := by
  rw [body]
  -- One sequencing step or one operation at a time, told apart by their names.
  repeat' with_reducible first
    | exact emit_sound _
    | exact allocate_sound
    | exact free_sound _
    | exact advanceFrame_sound _
    | exact intern_sound _
    | refine Action.Keeps.bind ?_ fun _ => ?_

/-- Neither the verbosity nor the time taken changes what is emitted. -/
theorem run_of_quiet (verbosity : Verbosity) (elapsed : String)
    (annotate : Bool) (sink : Sink) :
    (run verbosity elapsed annotate sink).failure =
        (run .quiet "" annotate sink).failure ∧
      (run verbosity elapsed annotate sink).sink =
        (run .quiet "" annotate sink).sink := by
  have hsound : (body (Compilation.new sink annotate)).state.Sound :=
    body_sound _ Pool.new_sound
  rcases hbody : body (Compilation.new sink annotate) with
    ⟨fault | done, reached, log⟩
  · simp only [run, hbody]
    trivial
  · rw [hbody] at hsound
    obtain ⟨loud, hloud⟩ := finish_eq_conclude hsound verbosity
    obtain ⟨quiet, hquiet⟩ := finish_eq_conclude hsound .quiet
    simp only [run, hbody, hloud, hquiet]
    cases (conclude reached).result with
    | error fault => exact ⟨rfl, rfl⟩
    | ok done => exact ⟨rfl, rfl⟩

theorem run_failure (annotate : Bool) :
    (run .quiet "" annotate {}).failure = none := by
  cases annotate <;> decide +kernel

end SampleProgram

/-! ### Files -/

namespace Disk

/-- What a file holds after it was put in place does not depend on what was
there before. -/
theorem content?_put (disk : Disk) (place : Place) (bytes : List UInt8) :
    (disk.put place bytes).content? place = some bytes := by
  simp [content?, put]

/-- Only what was put last at a place stays. -/
theorem put_put (disk : Disk) (place : Place) (first second : List UInt8) :
    (disk.put place first).put place second = disk.put place second := by
  simp [put]

@[simp]
theorem isFolder_put (disk : Disk) (place : Place) (bytes : List UInt8)
    (folder : Place) :
    (disk.put place bytes).isFolder folder = disk.isFolder folder :=
  rfl

/-- A new file closes no way that was open. -/
theorem enter_put {disk : Disk} {folder inner : Place} {name : String}
    (henter : disk.enter folder name = .ok inner) (place : Place)
    (bytes : List UInt8) :
    (disk.put place bytes).enter folder name = .ok inner := by
  have hfolder := isFolder_put disk place bytes (folder ++ [name])
  grind [enter]

theorem foldlM_enter_put {disk : Disk} {names : List String}
    {start folder : Place} (hnames : names.foldlM disk.enter start = .ok folder)
    (place : Place) (bytes : List UInt8) :
    names.foldlM (disk.put place bytes).enter start = .ok folder := by
  induction names generalizing start with
  | nil => exact hnames
  | cons name names ih =>
      obtain ⟨inner, henter, hrest⟩ := exists_of_bind_eq_ok hnames
      rw [List.foldlM_cons, enter_put henter]
      exact ih hrest

theorem locate_put {disk : Disk} {path : String} {found : Place}
    (hlocate : disk.locate path = .ok found) (place : Place)
    (bytes : List UInt8) :
    (disk.put place bytes).locate path = .ok found := by
  rcases hroute : route path with ⟨folders, name⟩
  rw [locate, hroute] at hlocate ⊢
  split at hlocate
  · cases hlocate
  · rw [if_neg ‹_›]
    obtain ⟨folder, hfolder, htarget⟩ := exists_of_bind_eq_ok hlocate
    have hsame := foldlM_enter_put hfolder place bytes
    rw [← htarget]
    exact congrArg (· >>= fun folder => disk.target folder name) hsame

/-- What is found under a path. -/
def read? (disk : Disk) (path : String) : Option (List UInt8) :=
  match disk.locate path with
  | .ok place => disk.content? place
  | .error _ => none

theorem read?_put {disk : Disk} {path : String} {place : Place}
    (hlocate : disk.locate path = .ok place) (bytes : List UInt8) :
    (disk.put place bytes).read? path = some bytes := by
  rw [read?, locate_put hlocate]
  exact content?_put disk place bytes

end Disk

/-! ### Runs of the program -/

namespace Program

/-- The assembly in the form that the options ask for. -/
def assembly (annotate : Bool) : List UInt8 :=
  (SampleProgram.run .quiet "" annotate {}).sink.written

theorem sample_failure (options : Options) (elapsed : String) :
    (sample options elapsed).failure = none := by
  rw [sample, (SampleProgram.run_of_quiet _ _ _ _).1]
  exact SampleProgram.run_failure options.annotate

theorem sample_written (options : Options) (elapsed : String) :
    (sample options elapsed).sink.written = assembly options.annotate := by
  rw [sample, (SampleProgram.run_of_quiet _ _ _ _).2, assembly]

namespace Host

/-- After an operation the rest runs in the surroundings that it leaves. -/
theorem bind_apply {α β : Type} {first : StateM Surroundings α}
    {next : α → StateM Surroundings β} {before after : Surroundings} {value : α}
    (hfirst : first before = (value, after)) :
    (first >>= next) before = next value after := by
  change (match first before with
    | (value, after) => next value after) = _
  rw [hfirst]

variable (elapsed : String) (before : Surroundings) {options : Options}

/-- The assembly is emitted in full to where it is written without a refusal. -/
theorem emitTo_onDisk
    {write : List UInt8 → StateM Surroundings (Except String Unit)}
    {after : Surroundings → Surroundings}
    (hwrite : ∀ before, write (assembly options.annotate) before =
      (.ok (), after before)) (refused : Fault → List String) :
    ∃ err, (onDisk elapsed).emitTo write refused options before =
      (.ok (), after { before with err }) := by
  have htimed : (onDisk elapsed).timed (sample options) before =
      (sample options elapsed, before) := rfl
  have hreport : ∀ text, (onDisk elapsed).report text before =
      ((), { before with err := before.err ++ text }) := fun _ => rfl
  rw [emitTo, bind_apply htimed, bind_apply (hreport _), sample_written,
    sample_failure, bind_apply (hwrite _)]
  exact ⟨_, rfl⟩

theorem emit_onDisk_of_none (houtput : options.output = none) :
    ∃ err, (onDisk elapsed).emit options before =
      (.ok (), { before with
        out := before.out ++ assembly options.annotate
        err }) := by
  have hprint : ∀ before : Surroundings,
      (onDisk elapsed).print (assembly options.annotate) before =
        (.ok (), { before with
          out := before.out ++ assembly options.annotate }) := fun _ => rfl
  rw [emit, houtput]
  exact emitTo_onDisk elapsed before hprint Fault.chain

theorem emit_onDisk_of_error {path : String} {cause : CreateError}
    (houtput : options.output = some path)
    (hlocate : before.disk.locate path = .error cause) :
    (onDisk elapsed).emit options before =
      (.error ["Failed to create " ++ path, cause.message], before) := by
  have hcreate : (onDisk elapsed).create path before =
      (.error cause.message, before) := by
    simp only [onDisk, hlocate]
  simp only [emit, houtput]
  rw [bind_apply hcreate]
  rfl

theorem emit_onDisk_of_ok {path : String} {place : Place}
    (houtput : options.output = some path)
    (hlocate : before.disk.locate path = .ok place) :
    ∃ err, (onDisk elapsed).emit options before =
      (.ok (), { before with
        disk := before.disk.put place (assembly options.annotate)
        err }) := by
  have hcreate : (onDisk elapsed).create path before =
      (.ok place, { before with disk := before.disk.put place [] }) := by
    simp only [onDisk, hlocate]
  have hsave : ∀ before : Surroundings,
      (onDisk elapsed).save place (assembly options.annotate) before =
        (.ok (), { before with
          disk := before.disk.put place (assembly options.annotate) }) :=
    fun _ => rfl
  obtain ⟨err, hemit⟩ := emitTo_onDisk elapsed
    { before with disk := before.disk.put place [] } hsave
    SampleProgram.unfinished
  rw [Disk.put_put] at hemit
  simp only [emit, houtput]
  rw [bind_apply hcreate]
  simp only
  rw [bind_apply hemit]
  exact ⟨_, rfl⟩

end Host

/-- Where the options have the assembly go, and what is found there. -/
def Exit.assembly? (exit : Exit) (options : Options) : Option (List UInt8) :=
  match options.output with
  | none => some exit.out
  | some path => exit.disk.read? path

/-- What a run starts from. -/
structure Start where
  disk : Disk
  elapsed : String
  arguments : List String

namespace Start

def exit (start : Start) : Exit :=
  run start.disk start.elapsed start.arguments

/-- The arguments are in error. -/
def Refused (start : Start) : Prop :=
  ∃ error, CommandLine.parse start.arguments = .error (.refused error)

/-- The arguments name an output file that cannot be created. -/
def Uncreatable (start : Start) : Prop :=
  ∃ options path cause, CommandLine.parse start.arguments = .ok options ∧
    options.output = some path ∧ start.disk.locate path = .error cause

/-- The ways in which a run ends. -/
inductive Ending (start : Start) : Exit → Prop where
  /-- Something was asked about the program. -/
  | informed {halt : Halt} {out : List UInt8} {err : String}
      (hparse : CommandLine.parse start.arguments = .error halt)
      (hhalt : ∀ error, halt ≠ .refused error) :
      start.Ending { code := 0, out, err, disk := start.disk }
  | refused {error : UsageError} {err : String}
      (hparse : CommandLine.parse start.arguments = .error (.refused error)) :
      start.Ending { code := 2, err, disk := start.disk }
  | uncreatable {options : Options} {path : String} {cause : CreateError}
      {err : String} (hparse : CommandLine.parse start.arguments = .ok options)
      (houtput : options.output = some path)
      (hlocate : start.disk.locate path = .error cause) :
      start.Ending { code := 1, err, disk := start.disk }
  | printed {options : Options} {err : String}
      (hparse : CommandLine.parse start.arguments = .ok options)
      (houtput : options.output = none) :
      start.Ending
        { code := 0, out := assembly options.annotate, err, disk := start.disk }
  | saved {options : Options} {path : String} {place : Place} {err : String}
      (hparse : CommandLine.parse start.arguments = .ok options)
      (houtput : options.output = some path)
      (hlocate : start.disk.locate path = .ok place) :
      start.Ending
        { code := 0
          err
          disk := start.disk.put place (assembly options.annotate) }

theorem exit_ending (start : Start) : start.Ending start.exit := by
  let before : Surroundings := { disk := start.disk }
  rw [exit, run, Host.run]
  cases hparse : CommandLine.parse start.arguments with
  | error halt =>
      cases halt with
      | help => exact .informed hparse (by simp)
      | version => exact .informed hparse (by simp)
      | refused error => exact .refused hparse
  | ok options =>
      simp only
      cases houtput : options.output with
      | none =>
          obtain ⟨err, hemit⟩ :=
            Host.emit_onDisk_of_none start.elapsed before houtput
          rw [Host.bind_apply hemit]
          exact .printed hparse houtput
      | some path =>
          cases hlocate : start.disk.locate path with
          | error cause =>
              have hemit := Host.emit_onDisk_of_error start.elapsed before
                houtput hlocate
              rw [Host.bind_apply hemit]
              exact .uncreatable hparse houtput hlocate
          | ok place =>
              obtain ⟨err, hemit⟩ := Host.emit_onDisk_of_ok start.elapsed before
                houtput hlocate
              rw [Host.bind_apply hemit]
              exact .saved hparse houtput hlocate

namespace Ending

variable {start : Start} {outcome : Exit} {options : Options}

theorem assembly?_eq (hending : start.Ending outcome)
    (hparse : CommandLine.parse start.arguments = .ok options)
    (hcode : outcome.code = 0) :
    outcome.assembly? options = some (assembly options.annotate) := by
  cases hending with
  | informed hother | refused hother => cases hparse.symm.trans hother
  | uncreatable => simp at hcode
  | printed hother houtput =>
      cases hparse.symm.trans hother
      rw [Exit.assembly?, houtput]
  | saved hother houtput hlocate =>
      cases hparse.symm.trans hother
      rw [Exit.assembly?, houtput]
      exact Disk.read?_put hlocate _

theorem out_eq_nil (hending : start.Ending outcome)
    (hparse : CommandLine.parse start.arguments = .ok options)
    (houtput : options.output ≠ none) : outcome.out = [] := by
  cases hending with
  | informed hother => cases hparse.symm.trans hother
  | printed hother hnone =>
      cases hparse.symm.trans hother
      exact absurd hnone houtput
  | refused | uncreatable | saved => rfl

theorem code_eq_two_iff (hending : start.Ending outcome) :
    outcome.code = 2 ↔ start.Refused := by
  constructor
  · intro hcode
    cases hending with
    | refused hparse => exact ⟨_, hparse⟩
    | informed | uncreatable | printed | saved => simp at hcode
  · rintro ⟨error, hparse⟩
    cases hending with
    | refused => rfl
    | informed hother hhalt =>
        cases hparse.symm.trans hother
        exact absurd rfl (hhalt error)
    | uncreatable hother | printed hother | saved hother =>
        cases hparse.symm.trans hother

theorem code_eq_one_iff (hending : start.Ending outcome) :
    outcome.code = 1 ↔ start.Uncreatable := by
  constructor
  · intro hcode
    cases hending with
    | uncreatable hparse houtput hlocate =>
        exact ⟨_, _, _, hparse, houtput, hlocate⟩
    | informed | refused | printed | saved => simp at hcode
  · rintro ⟨options, path, cause, hparse, houtput, hlocate⟩
    cases hending with
    | uncreatable => rfl
    | informed hother | refused hother => cases hparse.symm.trans hother
    | printed hother hnone =>
        cases hparse.symm.trans hother
        cases houtput.symm.trans hnone
    | saved hother hpath hplace =>
        cases hparse.symm.trans hother
        cases houtput.symm.trans hpath
        cases hlocate.symm.trans hplace

/-- A run that ends badly leaves nothing behind. -/
theorem untouched (hending : start.Ending outcome) (hcode : outcome.code ≠ 0) :
    outcome.out = [] ∧ outcome.disk = start.disk := by
  cases hending with
  | refused | uncreatable => exact ⟨rfl, rfl⟩
  | informed | printed | saved => exact absurd rfl hcode

end Ending

/-- The assembly depends on nothing but whether annotations were asked for,
and a run that ends badly leaves nothing behind. -/
theorem assembly_independent :
    (∀ (first second : Start) (firstOptions secondOptions : Options),
      CommandLine.parse first.arguments = .ok firstOptions →
      CommandLine.parse second.arguments = .ok secondOptions →
      ("--annotate" ∈ first.arguments ↔ "--annotate" ∈ second.arguments) →
      first.exit.code = 0 → second.exit.code = 0 →
        ∃ bytes, first.exit.assembly? firstOptions = some bytes ∧
          second.exit.assembly? secondOptions = some bytes) ∧
    (∀ (start : Start) (options : Options),
      CommandLine.parse start.arguments = .ok options →
      options.output ≠ none → start.exit.out = []) ∧
    (∀ start : Start,
      (start.exit.code = 2 ↔ start.Refused) ∧
      (start.exit.code = 1 ↔ start.Uncreatable) ∧
      (start.exit.code ≠ 0 →
        start.exit.out = [] ∧ start.exit.disk = start.disk)) := by
  refine ⟨?_, ?_, ?_⟩
  · intro first second firstOptions secondOptions hfirst hsecond hannotate
      hfirstCode hsecondCode
    have hsame : firstOptions.annotate = secondOptions.annotate := by
      rw [Bool.eq_iff_iff, CommandLine.annotate_iff_mem hfirst,
        CommandLine.annotate_iff_mem hsecond]
      exact hannotate
    refine ⟨assembly firstOptions.annotate, ?_, ?_⟩
    · exact first.exit_ending.assembly?_eq hfirst hfirstCode
    · rw [hsame]
      exact second.exit_ending.assembly?_eq hsecond hsecondCode
  · intro start options hparse houtput
    exact start.exit_ending.out_eq_nil hparse houtput
  · intro start
    have hending := start.exit_ending
    exact ⟨hending.code_eq_two_iff, hending.code_eq_one_iff, hending.untouched⟩

/-- A folder in the way of an output file, and a file longer than the
assembly. -/
def cluttered : Disk where
  folders := [["dir.s"]]
  files := [(["old.s"], List.replicate 2400 35)]

def overwriting : Start where
  disk := cluttered
  elapsed := "3.2ms"
  arguments := ["-vvo", "old.s", "--annotate"]

def printing : Start where
  disk := { folders := [], files := [] }
  elapsed := "1s"
  arguments := ["--annotate", "--verbose", "--"]

def misdirected : Start where
  disk := cluttered
  elapsed := "0s"
  arguments := ["-v", "--output=dir.s"]

theorem assembly_independent_overwriting :
    (∃ bytes,
      overwriting.exit.assembly?
        { output := some "old.s", annotate := true, verbose := 2 } =
          some bytes ∧
      printing.exit.assembly? { annotate := true, verbose := 1 } =
        some bytes) ∧
    overwriting.exit.out = [] ∧
    (misdirected.exit.out = [] ∧ misdirected.exit.disk = cluttered) := by
  obtain ⟨hsame, hfile, hbad⟩ := assembly_independent
  refine ⟨?_, ?_, ?_⟩
  · exact hsame overwriting printing _ _ rfl rfl (by decide) (by decide +kernel)
      (by decide +kernel)
  · exact hfile overwriting _ rfl (by decide)
  · exact (hbad misdirected).2.2 (by decide +kernel)

end Start

end Program

end SpimGen

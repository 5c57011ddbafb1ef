/-
The parts of a compilation are independent.  Whatever is done in between, and
whatever fails, the steps on the register pool have the results and effects
that they have on a pool of their own; so have the steps of the writer, which
are those that write, label or record, and the steps on the stack frame.  A
step that fails changes nothing but the emitter.
-/
import SpimGen.Workspace
import SpimGen.Proofs.ActionRun
import SpimGen.Proofs.PoolSafety

namespace SpimGen

open SpimGen.Action (Keeps Agrees Entry)

/-! ### The steps on one part -/

namespace Step

variable {ρ : Type}

def pool? : Step ρ → Option (PoolStep ρ)
  | .pool step => some step
  | _ => none

/-- Whether a step writes, or bears on what later steps write. -/
def concernsWriter : Step ρ → Bool
  | .emit _ | .flush | .declareLiterals | .assignLabel | .intern _
  | .insertLiteral _ _ | .renegotiate _ => true
  | _ => false

def writer? (step : Step ρ) : Option (Step ρ) :=
  if step.concernsWriter then some step else none

def concernsFrame : Step ρ → Bool
  | .advanceFrame _ | .setFrame _ => true
  | _ => false

def frame? (step : Step ρ) : Option (Step ρ) :=
  if step.concernsFrame then some step else none

theorem closes_of_traverse {σ ε : Type} {look : ρ → Except ε σ}
    {step : Step ρ} {known : Step σ} (hknown : step.traverse look = .ok known) :
    known.closes = step.closes := by
  cases step with
  | pool | emit =>
      obtain ⟨_, _, hfound⟩ := exists_of_bind_eq_ok hknown
      cases hfound
      rfl
  | _ =>
      cases hknown
      rfl

end Step

namespace Workspace

/-- The part on which it depends what is written. -/
def writer (workspace : Workspace) : LabelTable × Literals × Emitter :=
  (workspace.compilation.labels, workspace.compilation.literals,
    workspace.compilation.emitter)

def frame (workspace : Workspace) : Frame :=
  workspace.compilation.frame

/-! ### One step -/

variable {verbosity : Verbosity} {step : Step Register}

theorem perform_pool_agrees (verbosity : Verbosity) (step : PoolStep Register) :
    Agrees bench id (perform verbosity (.pool step))
      (PoolBench.perform verbosity step) := by
  intro workspace bench hbench
  change workspace.bench = bench at hbench
  subst hbench
  exact ⟨rfl, rfl⟩

/-- An action on the emitter depends on nothing else of a workspace. -/
theorem onEmitter_agrees {α : Type} (action : Action Emitter α) :
    Agrees writer writer (onCompilation (Compilation.onEmitter action))
      (onCompilation (Compilation.onEmitter action)) := by
  rintro ⟨⟨_, labels, literals, _, emitter⟩, _, _⟩ ⟨⟨_, _, _, _, _⟩, _, _⟩ ⟨⟩
  exact ⟨rfl, rfl⟩

theorem perform_writer_agrees (verbosity : Verbosity)
    (hconcerns : step.concernsWriter = true) :
    Agrees writer writer (perform verbosity step)
      (perform verbosity step) := by
  have hpure : ∀ value : Value, Agrees writer writer
      (pure value : Action Workspace Value) (pure value) :=
    fun _ _ _ hview => ⟨rfl, hview⟩
  cases step with
  | emit request =>
      exact Agrees.bind (onEmitter_agrees (Emitter.emit request))
        (fun _ => hpure .nothing)
  | flush =>
      apply Agrees.bind (onEmitter_agrees Emitter.flush)
      rintro _ ⟨⟨_, _, _, _, _⟩, _, _⟩ ⟨⟨_, _, _, _, _⟩, _, _⟩ ⟨⟩
      exact ⟨rfl, rfl⟩
  | declareLiterals =>
      refine Agrees.bind ?_ (fun _ => hpure .nothing)
      rintro ⟨⟨_, _, _, _, _⟩, _, _⟩ ⟨⟨_, _, _, _, _⟩, _, _⟩ ⟨⟩
      exact ⟨rfl, rfl⟩
  | renegotiate terms =>
      exact Agrees.bind
        (onEmitter_agrees (Emitter.onSink (Sink.renegotiate terms)))
        (fun _ => hpure .nothing)
  | assignLabel | intern | insertLiteral =>
      rintro ⟨⟨_, _, _, _, _⟩, _, _⟩ ⟨⟨_, _, _, _, _⟩, _, _⟩ ⟨⟩
      exact ⟨rfl, rfl⟩
  | _ => cases hconcerns

theorem perform_frame_agrees (verbosity : Verbosity)
    (hconcerns : step.concernsFrame = true) :
    Agrees frame frame (perform verbosity step) (perform verbosity step) := by
  cases step with
  | advanceFrame | setFrame =>
      rintro ⟨⟨_, _, _, _, _⟩, _, _⟩ ⟨⟨_, _, _, _, _⟩, _, _⟩ ⟨⟩
      exact ⟨rfl, rfl⟩
  | _ => cases hconcerns

theorem bench_perform_of_pool? (verbosity : Verbosity)
    (hopen : step.closes = false) (hpool : step.pool? = none)
    (workspace : Workspace) :
    (perform verbosity step workspace).state.bench = workspace.bench := by
  have hkeeps : ∀ seen, (perform verbosity step).Keeps
      (fun workspace => workspace.bench = seen) := by
    intro seen
    cases step with
    | pool | finish => contradiction
    | emit | flush | declareLiterals =>
        exact Keeps.bind (fun _ hseen => hseen) (fun _ _ hseen => hseen)
    | _ => exact fun _ hseen => hseen
  exact hkeeps workspace.bench workspace rfl

theorem frame_perform_of_frame? (verbosity : Verbosity)
    (hopen : step.closes = false) (hframe : step.frame? = none)
    (workspace : Workspace) :
    (perform verbosity step workspace).state.frame = workspace.frame := by
  have hkeeps : ∀ seen, (perform verbosity step).Keeps
      (fun workspace => workspace.frame = seen) := by
    intro seen
    cases step with
    | advanceFrame | setFrame | finish => contradiction
    | emit | flush | declareLiterals =>
        exact Keeps.bind (fun _ hseen => hseen) (fun _ _ hseen => hseen)
    | _ => exact fun _ hseen => hseen
  exact hkeeps workspace.frame workspace rfl

theorem writer_perform_of_writer? (verbosity : Verbosity)
    (hopen : step.closes = false) (hwriter : step.writer? = none)
    (workspace : Workspace) :
    (perform verbosity step workspace).state.writer = workspace.writer := by
  cases step with
  | pool | listLabels | resolve | advanceFrame | setFrame => rfl
  | _ => contradiction

def withEmitter (workspace : Workspace) (emitter : Emitter) : Workspace :=
  { workspace with compilation := { workspace.compilation with emitter } }

/-- Only the emitter may be different after a step that fails. -/
theorem perform_of_error {workspace : Workspace} {fault : Fault}
    (hopen : step.closes = false)
    (herror : (perform verbosity step workspace).result = .error fault) :
    ∃ emitter, (perform verbosity step workspace).state =
      workspace.withEmitter emitter := by
  cases step with
  | pool step =>
      have hbench : (PoolBench.perform verbosity step workspace.bench).state =
          workspace.bench := PoolBench.perform_state_of_error herror
      refine ⟨workspace.compilation.emitter, ?_⟩
      rw [perform, Action.within, hbench]
      rfl
  | emit | flush | declareLiterals =>
      refine (Keeps.bind ?_ ?_ : Keeps (fun reached => ∃ emitter,
        reached = workspace.withEmitter emitter) _) workspace ?_
      · rintro _ ⟨emitter, rfl⟩
        exact ⟨_, rfl⟩
      · exact fun _ _ hreached => hreached
      · exact ⟨workspace.compilation.emitter, rfl⟩
  | finish => contradiction
  | _ => cases herror

/-! ### Runs -/

/-- The steps of a run with the registers that they denote.  A step that
denotes none is refused and has no entry. -/
def entries (verbosity : Verbosity) : Workspace → List (Step RegisterRef) →
    List (Entry (Step Register) Workspace Value)
  | _, [] => []
  | workspace, step :: steps =>
      let outcome := workspace.take verbosity step
      match step.traverse (RegisterRef.denotes Mips.catalog workspace.kept) with
      | .ok known =>
          ⟨known, outcome.result, outcome.state⟩
            :: entries verbosity outcome.state steps
      | .error _ => entries verbosity outcome.state steps

theorem entries_eq_history (verbosity : Verbosity) (workspace : Workspace)
    (steps : List (Step RegisterRef)) :
    entries verbosity workspace steps =
      Action.history (perform verbosity) workspace
        ((entries verbosity workspace steps).map Entry.step) := by
  induction steps generalizing workspace with
  | nil => rfl
  | cons step steps ih =>
      rw [entries]
      rcases hknown : step.traverse
        (RegisterRef.denotes Mips.catalog workspace.kept) with fault | known
      · have htake : workspace.take verbosity step =
            ⟨.error fault, workspace, []⟩ := by
          rw [take, hknown]
        simp only [htake]
        exact ih workspace
      · have htake : workspace.take verbosity step =
            perform verbosity known workspace := by
          rw [take, hknown]
        simp only [htake, List.map_cons]
        rw [Action.history, ← ih]

theorem closes_of_mem_entries {workspace : Workspace}
    {steps : List (Step RegisterRef)}
    (hopen : ∀ step ∈ steps, step.closes = false) :
    ∀ known ∈ (entries verbosity workspace steps).map Entry.step,
      known.closes = false := by
  induction steps generalizing workspace with
  | nil => exact fun _ hmem => absurd hmem List.not_mem_nil
  | cons step steps ih =>
      obtain ⟨hstep, hsteps⟩ := List.forall_mem_cons.mp hopen
      rw [entries]
      rcases hknown : step.traverse
        (RegisterRef.denotes Mips.catalog workspace.kept) with fault | known
      · exact ih hsteps
      · refine List.forall_mem_cons.mpr ⟨?_, ih hsteps⟩
        exact (Step.closes_of_traverse hknown).trans hstep

section

variable {known : List (Step Register)}
  (hknown : ∀ step ∈ known, step.closes = false)

include hknown

theorem history_pool (verbosity : Verbosity) (sink : Sink) (annotate : Bool) :
    (Action.history (perform verbosity) (new sink annotate) known).filterMap
        (Entry.pick Step.pool? bench) =
      Action.history (PoolBench.perform verbosity) (PoolBench.new Mips.catalog)
        (known.filterMap Step.pool?) := by
  have hinside : ∀ step picked, Step.pool? step = some picked →
      Agrees bench id (perform verbosity step)
        (PoolBench.perform verbosity picked) := by
    intro step picked hpicked
    cases step with
    | pool step =>
        cases hpicked
        exact perform_pool_agrees verbosity picked
    | _ => cases hpicked
  have hstart : (new sink annotate).bench = id (PoolBench.new Mips.catalog) :=
    rfl
  have houtside : ∀ step ∈ known, ∀ workspace, Step.pool? step = none →
      (perform verbosity step workspace).state.bench = workspace.bench :=
    fun step hstep workspace hnone =>
      bench_perform_of_pool? verbosity (hknown step hstep) hnone workspace
  rw [Action.filterMap_pick_history hinside houtside hstart,
    Action.map_seen_id]

theorem history_writer (verbosity : Verbosity) (workspace : Workspace) :
    (Action.history (perform verbosity) workspace known).filterMap
        (Entry.pick Step.writer? writer) =
      (Action.history (perform verbosity) workspace
        (known.filterMap Step.writer?)).map (Entry.seen writer) := by
  apply Action.filterMap_pick_history
  · intro step picked hpicked
    obtain ⟨hconcerns, ⟨⟩⟩ := Option.ite_none_right_eq_some.mp hpicked
    exact perform_writer_agrees verbosity hconcerns
  · intro step hstep workspace hnone
    exact writer_perform_of_writer? verbosity (hknown step hstep) hnone
      workspace
  · rfl

theorem history_frame (verbosity : Verbosity) (workspace : Workspace) :
    (Action.history (perform verbosity) workspace known).filterMap
        (Entry.pick Step.frame? frame) =
      (Action.history (perform verbosity) workspace
        (known.filterMap Step.frame?)).map (Entry.seen frame) := by
  apply Action.filterMap_pick_history
  · intro step picked hpicked
    obtain ⟨hconcerns, ⟨⟩⟩ := Option.ite_none_right_eq_some.mp hpicked
    exact perform_frame_agrees verbosity hconcerns
  · intro step hstep workspace hnone
    exact frame_perform_of_frame? verbosity (hknown step hstep) hnone workspace
  · rfl

end

/-- Whatever the steps, those on the pool, those of the writer and those on the
frame have the results and effects that they have on their own; and a step
that fails changes neither registers nor labels, literals or frame. -/
theorem parts_independent (verbosity : Verbosity) (sink : Sink)
    (annotate : Bool) (steps : List (Step RegisterRef))
    (hopen : ∀ step ∈ steps, step.closes = false) :
    let fresh := new sink annotate
    let run := entries verbosity fresh steps
    let known := run.map Entry.step
    run.filterMap (Entry.pick Step.pool? bench) =
      Action.history (PoolBench.perform verbosity) (PoolBench.new Mips.catalog)
        (known.filterMap Step.pool?) ∧
    run.filterMap (Entry.pick Step.writer? writer) =
      (Action.history (perform verbosity) fresh
        (known.filterMap Step.writer?)).map (Entry.seen writer) ∧
    run.filterMap (Entry.pick Step.frame? frame) =
      (Action.history (perform verbosity) fresh
        (known.filterMap Step.frame?)).map (Entry.seen frame) ∧
    ∀ (workspace : Workspace) (step : Step RegisterRef) (fault : Fault),
      step.closes = false →
      (workspace.take verbosity step).result = .error fault →
        ∃ emitter, (workspace.take verbosity step).state =
          workspace.withEmitter emitter := by
  intro fresh run known
  have hrun : run = Action.history (perform verbosity) fresh known :=
    entries_eq_history verbosity fresh steps
  have hknown : ∀ step ∈ known, step.closes = false :=
    closes_of_mem_entries hopen
  refine ⟨?_, ?_, ?_, ?_⟩
  · rw [hrun]
    exact history_pool hknown verbosity sink annotate
  · rw [hrun]
    exact history_writer hknown verbosity fresh
  · rw [hrun]
    exact history_frame hknown verbosity fresh
  · intro workspace step fault hstep herror
    rw [take] at herror ⊢
    split at herror
    · exact ⟨workspace.compilation.emitter, rfl⟩
    · rename_i found hfound
      exact perform_of_error
        ((Step.closes_of_traverse hfound).trans hstep) herror

/-- Assembly that is cut off in a line, a label without a text, and a name that
no register is kept under, between steps on the pool and the frame. -/
def tangled : List (Step RegisterRef) :=
  [.pool (.allocate (some "a")), .assignLabel, .renegotiate { room := some 20 },
   .emit (.printRegister (.kept "a")), .advanceFrame 4, .declareLiterals,
   .emit (.readInt (.kept "b")), .setFrame (-8), .flush,
   .pool (.free (.kept "a"))]

theorem parts_independent_tangled :
    (∀ step ∈ tangled, step.closes = false) ∧
    (entries .debug (new {} true) tangled).filterMap
        (Entry.pick Step.pool? bench) =
      Action.history (PoolBench.perform .debug) (PoolBench.new Mips.catalog)
        [.allocate (some "a"), .free (Mips.register "t0" 8)] := by
  have hopen : ∀ step ∈ tangled, step.closes = false := by decide
  have hsteps : ((entries .debug (new {} true) tangled).map
      Entry.step).filterMap Step.pool? =
        [.allocate (some "a"), .free (Mips.register "t0" 8)] := by decide
  obtain ⟨hpool, _⟩ := parts_independent .debug {} true tangled hopen
  refine ⟨hopen, ?_⟩
  rw [← hsteps]
  exact hpool

end Workspace

end SpimGen

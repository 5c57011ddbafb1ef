/-
Workspaces of a session do not interact.  Each is opened with a sink and a
choice of annotations of its own.  However the steps for several workspaces are
interleaved, each workspace answers its own steps as if it were the only one and
nothing else had been asked in between.  What a workspace writes is then the
same in every interleaving: a sink only grows, so the bytes of the single
answers come behind what the sink held at first.
-/
import SpimGen.Session
import SpimGen.Proofs.ActionRun
import Mathlib.Data.List.Basic

namespace SpimGen

open SpimGen.Action (Keeps)

/-! ### Sinks only grow -/

section Growth

variable (earlier : List UInt8)

theorem Sink.write_keeps (bytes : List UInt8) :
    (write bytes).Keeps (fun sink => earlier <+: sink.written) := by
  intro sink hearlier
  have hgrown : ∀ more, earlier <+: (sink.accept more).written :=
    fun more => hearlier.trans (List.prefix_append sink.written more)
  rw [write]
  split
  · exact hgrown bytes
  · split
    · exact hgrown bytes
    · exact hgrown _

theorem Sink.flush_keeps :
    flush.Keeps (fun sink => earlier <+: sink.written) := by
  intro sink hearlier
  rw [flush]
  split
  · exact hearlier
  · exact hearlier

namespace Emitter

theorem onSink_keeps {action : Action Sink Unit}
    (haction : action.Keeps (fun sink => earlier <+: sink.written)) :
    (onSink action).Keeps (fun emitter => earlier <+: emitter.sink.written) :=
  haction.within (fun _ _ => rfl)

theorem write_keeps (line : Line Register) :
    (write line).Keeps (fun emitter => earlier <+: emitter.sink.written) :=
  Keeps.bind (onSink_keeps earlier (Sink.write_keeps earlier line.bytes))
    (fun _ _ hearlier => hearlier)

theorem emit_keeps (request : Emission Register) :
    (emit request).Keeps (fun emitter => earlier <+: emitter.sink.written) :=
  fun emitter =>
    Keeps.each (write_keeps earlier) (request.lines emitter.annotate) emitter

theorem declare_keeps (labels : LabelTable) (literals : Literals) :
    (declare labels literals).Keeps
      (fun emitter => earlier <+: emitter.sink.written) := by
  intro emitter hearlier
  rw [declare]
  split
  · exact hearlier
  · rename_i requests _
    have hlines := Keeps.bind (emit_keeps earlier .dataSection)
      (fun _ => Keeps.each (emit_keeps earlier) requests)
    exact hlines emitter hearlier

end Emitter

namespace Compilation

theorem onEmitter_keeps {action : Action Emitter Unit}
    (haction : action.Keeps (fun emitter => earlier <+: emitter.sink.written)) :
    (onEmitter action).Keeps
      (fun compilation => earlier <+: compilation.emitter.sink.written) :=
  haction.within (fun _ _ => rfl)

theorem emit_keeps (request : Emission Register) :
    (emit request).Keeps
      (fun compilation => earlier <+: compilation.emitter.sink.written) :=
  onEmitter_keeps earlier (Emitter.emit_keeps earlier request)

theorem flush_keeps :
    flush.Keeps
      (fun compilation => earlier <+: compilation.emitter.sink.written) :=
  onEmitter_keeps earlier
    (Emitter.onSink_keeps earlier (Sink.flush_keeps earlier))

theorem declareLiterals_keeps :
    declareLiterals.Keeps
      (fun compilation => earlier <+: compilation.emitter.sink.written) :=
  fun compilation => onEmitter_keeps earlier
    (Emitter.declare_keeps earlier compilation.labels compilation.literals)
      compilation

theorem finish_keeps (verbosity : Verbosity) :
    (finish verbosity).Keeps
      (fun compilation => earlier <+: compilation.emitter.sink.written) := by
  refine Keeps.bind (Keeps.read _ _) (fun event => ?_)
  refine Keeps.bind (fun _ hstate => hstate) (fun _ => ?_)
  refine Keeps.bind (fun _ hstate => hstate) (fun _ => ?_)
  refine Keeps.bind (emit_keeps earlier .epilog) (fun _ => ?_)
  exact Keeps.bind (declareLiterals_keeps earlier)
    (fun _ => flush_keeps earlier)

end Compilation

namespace Workspace

theorem onCompilation_keeps {α : Type} {action : Action Compilation α}
    (haction : action.Keeps
      (fun compilation => earlier <+: compilation.emitter.sink.written)) :
    (onCompilation action).Keeps
      (fun workspace => earlier <+: workspace.sink.written) :=
  haction.within (fun _ _ => rfl)

/-- No step takes back what has been written. -/
theorem perform_keeps (verbosity : Verbosity) (step : Step Register) :
    (perform verbosity step).Keeps
      (fun workspace => earlier <+: workspace.sink.written) := by
  cases step with
  | emit request =>
      exact Keeps.bind
        (onCompilation_keeps earlier (Compilation.emit_keeps earlier request))
        (fun _ => Keeps.pure _ _)
  | flush =>
      exact Keeps.bind
        (onCompilation_keeps earlier (Compilation.flush_keeps earlier))
        (fun _ => Keeps.read _ _)
  | declareLiterals =>
      exact Keeps.bind
        (onCompilation_keeps earlier
          (Compilation.declareLiterals_keeps earlier))
        (fun _ => Keeps.pure _ _)
  | finish =>
      exact Keeps.bind
        (onCompilation_keeps earlier
          (Compilation.finish_keeps earlier verbosity))
        (fun _ => Keeps.read _ _)
  | pool | assignLabel | listLabels | intern | insertLiteral | resolve
  | advanceFrame | setFrame | renegotiate =>
      exact fun _ hearlier => hearlier

end Workspace

end Growth

/-- What a step writes comes behind what was written before. -/
theorem Workspace.append_answer_written (verbosity : Verbosity)
    (step : Step RegisterRef) (workspace : Workspace) :
    workspace.sink.written ++ (workspace.answer verbosity step).1.written =
      (workspace.take verbosity step).state.sink.written := by
  apply List.prefix_iff_eq_append.mp
  rw [take]
  split
  · exact List.prefix_rfl
  · exact perform_keeps workspace.sink.written verbosity _ workspace
      List.prefix_rfl

/-- What a step leaves open is the workspace in the state that it reached. -/
theorem Workspace.answer_eq_some {verbosity : Verbosity}
    {step : Step RegisterRef} {workspace next : Workspace}
    (hleft : (workspace.answer verbosity step).2 = some next) :
    step.closes = false ∧ (workspace.take verbosity step).state = next := by
  rw [answer] at hleft
  simp only at hleft
  split at hleft
  · cases hleft
  · rename_i hopen
    exact ⟨Bool.eq_false_iff.mpr hopen, Option.some.inj hleft⟩

/-! ### One workspace of a session -/

namespace Session

variable {count : Nat}

/-- The steps that are addressed to one workspace. -/
def stepsTo (address : Fin count)
    (steps : List (Fin count × Step RegisterRef)) :
    List (Step RegisterRef) :=
  steps.filterMap fun (place, step) => if place = address then some step else none

/-- The answers to these steps, out of the answers to all steps. -/
def answersTo (address : Fin count)
    (steps : List (Fin count × Step RegisterRef)) (answers : List Answer) :
    List Answer :=
  (steps.zip answers).filterMap fun ((place, _), answer) =>
    if place = address then some answer else none

/-- Steps for the only workspace of a session. -/
def alone (steps : List (Step RegisterRef)) :
    List (Fin 1 × Step RegisterRef) :=
  steps.map fun step => (0, step)

/-- The session after some steps. -/
def follow (verbosity : Verbosity) :
    Session count → List (Fin count × Step RegisterRef) → Session count
  | session, [] => session
  | session, (address, step) :: rest =>
      (session.answer verbosity address step).2.follow verbosity rest

theorem run_length (verbosity : Verbosity)
    (steps : List (Fin count × Step RegisterRef)) (session : Session count) :
    (run verbosity steps session).length = steps.length := by
  induction steps generalizing session with
  | nil => rfl
  | cons step rest ih => exact congrArg (· + 1) (ih _)

/-- An answer, and what is left of the workspace, depend on nothing but the
workspace that is addressed. -/
theorem answer_of_workspace? (verbosity : Verbosity) (session : Session count)
    (address : Fin count) (step : Step RegisterRef) :
    (session.answer verbosity address step).1 =
        ((session.workspace? address).elim closedAnswer
          fun workspace => (workspace.answer verbosity step).1) ∧
      (session.answer verbosity address step).2.workspace? address =
        (session.workspace? address).bind
          fun workspace => (workspace.answer verbosity step).2 := by
  rw [answer]
  rcases hplace : session.workspace? address with _ | workspace
  · exact ⟨rfl, hplace⟩
  · exact ⟨rfl, workspace?_replace_self session address _⟩

/-- A step leaves every workspace alone but the one that it is for. -/
theorem workspace?_answer_of_ne (verbosity : Verbosity)
    (session : Session count) {address other : Fin count}
    (hne : address ≠ other) (step : Step RegisterRef) :
    (session.answer verbosity address step).2.workspace? other =
      session.workspace? other := by
  rw [answer]
  split
  · rfl
  · exact workspace?_replace_of_ne session _ hne

/-- What every step that leaves a workspace open keeps holds of all workspaces
that are open after a run. -/
theorem forall_workspace?_follow {motive : Workspace → Prop}
    {verbosity : Verbosity}
    (htake : ∀ (workspace : Workspace) (step : Step RegisterRef),
      step.closes = false → motive workspace →
        motive (workspace.take verbosity step).state)
    {session : Session count}
    (hstart : ∀ address, ∀ workspace ∈ session.workspace? address,
      motive workspace)
    (steps : List (Fin count × Step RegisterRef)) :
    ∀ address, ∀ workspace ∈
      (session.follow verbosity steps).workspace? address,
        motive workspace := by
  induction steps generalizing session with
  | nil => exact hstart
  | cons first rest ih =>
      obtain ⟨place, step⟩ := first
      apply ih
      intro address workspace hworkspace
      by_cases hat : place = address
      · subst hat
        rw [(answer_of_workspace? verbosity session place step).2] at hworkspace
        obtain ⟨opened, hopened, hleft⟩ :=
          Option.bind_eq_some_iff.mp hworkspace
        obtain ⟨hopen, rfl⟩ := Workspace.answer_eq_some hleft
        exact htake opened step hopen (hstart place opened hopened)
      · rw [workspace?_answer_of_ne verbosity session hat] at hworkspace
        exact hstart address workspace hworkspace

/-- Two sessions with the same workspace at some address answer the steps for
it alike, whatever else they are asked. -/
theorem run_of_workspace?_eq (verbosity : Verbosity) {session : Session count}
    {lone : Session 1} {address : Fin count}
    (hsame : session.workspace? address = lone.workspace? 0)
    (steps : List (Fin count × Step RegisterRef)) :
    answersTo address steps (run verbosity steps session) =
        run verbosity (alone (stepsTo address steps)) lone ∧
      (session.follow verbosity steps).workspace? address =
        (lone.follow verbosity
          (alone (stepsTo address steps))).workspace? 0 := by
  induction steps generalizing session lone with
  | nil => exact ⟨rfl, hsame⟩
  | cons first rest ih =>
      obtain ⟨place, step⟩ := first
      by_cases hat : place = address
      · subst hat
        obtain ⟨hanswer, hleft⟩ :=
          answer_of_workspace? verbosity session place step
        obtain ⟨hloneAnswer, hloneLeft⟩ :=
          answer_of_workspace? verbosity lone 0 step
        rw [hsame] at hanswer hleft
        obtain ⟨hanswers, hplace⟩ := ih (hleft.trans hloneLeft.symm)
        have hsteps : alone (stepsTo place ((place, step) :: rest)) =
            (0, step) :: alone (stepsTo place rest) := by
          simp [stepsTo, alone]
        rw [hsteps]
        refine ⟨?_, hplace⟩
        calc answersTo place ((place, step) :: rest)
              (run verbosity ((place, step) :: rest) session)
            = (session.answer verbosity place step).1 ::
                answersTo place rest (run verbosity rest
                  (session.answer verbosity place step).2) := by
              simp [answersTo, run]
          _ = (lone.answer verbosity 0 step).1 ::
                run verbosity (alone (stepsTo place rest))
                  (lone.answer verbosity 0 step).2 := by
              rw [hanswers, hanswer.trans hloneAnswer.symm]
      · have hstay := workspace?_answer_of_ne verbosity session hat step
        obtain ⟨hanswers, hplace⟩ := ih (hstay.trans hsame)
        have hsteps : stepsTo address ((place, step) :: rest) =
            stepsTo address rest := by
          simp [stepsTo, hat]
        rw [hsteps]
        refine ⟨?_, hplace⟩
        rw [← hanswers]
        simp [answersTo, run, hat]

/-- The bytes written by the answered steps. -/
def output (answers : List Answer) : List UInt8 :=
  answers.flatMap Answer.written

theorem follow_of_closed (verbosity : Verbosity) {lone : Session 1}
    (hclosed : lone.workspace? 0 = none) (steps : List (Step RegisterRef)) :
    (lone.follow verbosity (alone steps)).workspace? 0 = none := by
  induction steps generalizing lone with
  | nil => exact hclosed
  | cons step rest ih =>
      apply ih
      rw [(answer_of_workspace? verbosity lone 0 step).2, hclosed]
      rfl

/-- As long as a workspace is open, its sink holds the bytes of all answers. -/
theorem written_follow (verbosity : Verbosity) {lone : Session 1}
    {opened reached : Workspace} (hopened : lone.workspace? 0 = some opened)
    {steps : List (Step RegisterRef)}
    (hreached : (lone.follow verbosity (alone steps)).workspace? 0 =
      some reached) :
    reached.sink.written =
      opened.sink.written ++ output (run verbosity (alone steps) lone) := by
  induction steps generalizing lone opened with
  | nil =>
      rw [show lone.workspace? 0 = some reached from hreached] at hopened
      cases hopened
      exact (List.append_nil _).symm
  | cons step rest ih =>
      obtain ⟨hanswer, hleft⟩ := answer_of_workspace? verbosity lone 0 step
      rw [hopened] at hanswer hleft
      rcases hplace : (opened.answer verbosity step).2 with _ | next
      · rw [Option.bind_some, hplace] at hleft
        rw [show (lone.follow verbosity (alone (step :: rest))).workspace? 0 =
          none from follow_of_closed verbosity hleft rest] at hreached
        cases hreached
      · have hnext := (Workspace.answer_eq_some hplace).2
        rw [Option.bind_some, hplace] at hleft
        rw [ih hleft hreached, ← hnext,
          ← opened.append_answer_written verbosity step, List.append_assoc]
        congr 1
        change _ = (lone.answer verbosity 0 step).1.written ++ output _
        rw [hanswer]
        rfl

/-- In every interleaving each workspace answers as if it were alone, whatever
the others were opened with.  So two interleavings of the same steps give each
workspace the same answers, the same final state and the same output. -/
theorem answers_separate (verbosity : Verbosity) (setups : Fin count → Setup)
    (steps : List (Fin count × Step RegisterRef)) :
    let session := opened setups
    (run verbosity steps session).length = steps.length ∧
    (∀ address,
      answersTo address steps (run verbosity steps session) =
        run verbosity (alone (stepsTo address steps))
          (opened fun _ => setups address) ∧
      ∀ workspace,
        (session.follow verbosity steps).workspace? address =
            some workspace →
          workspace.sink.written =
            (setups address).sink.written ++
              output (answersTo address steps (run verbosity steps session))) ∧
    ∀ others : List (Fin count × Step RegisterRef),
      (∀ address, stepsTo address others = stepsTo address steps) →
        ∀ address,
          answersTo address others (run verbosity others session) =
            answersTo address steps (run verbosity steps session) ∧
          (session.follow verbosity others).workspace? address =
            (session.follow verbosity steps).workspace? address ∧
          output (answersTo address others (run verbosity others session)) =
            output (answersTo address steps (run verbosity steps session)) := by
  intro session
  have hsame : ∀ address, session.workspace? address =
      (opened fun (_ : Fin 1) => setups address).workspace? 0 := by
    intro address
    rw [workspace?_opened, workspace?_opened]
  refine ⟨run_length verbosity steps session, ?_, ?_⟩
  · intro address
    obtain ⟨hanswers, hplace⟩ :=
      run_of_workspace?_eq verbosity (hsame address) steps
    refine ⟨hanswers, ?_⟩
    intro workspace hworkspace
    rw [hplace] at hworkspace
    rw [hanswers]
    exact written_follow verbosity (workspace?_opened _ 0) hworkspace
  · intro others hothers address
    obtain ⟨hanswers, hplace⟩ :=
      run_of_workspace?_eq verbosity (hsame address) steps
    obtain ⟨hotherAnswers, hotherPlace⟩ :=
      run_of_workspace?_eq verbosity (hsame address) others
    rw [hothers address] at hotherAnswers hotherPlace
    rw [hotherAnswers, hanswers]
    exact ⟨rfl, hotherPlace.trans hplace.symm, rfl⟩

/-- One workspace with annotations, and one without them whose sink holds some
bytes and has room for few more. -/
def unlike : Fin 2 → Setup
  | 0 => { annotate := true }
  | 1 => { sink := { written := [35, 10], terms := { room := some 30 } } }

/-- The second workspace does not know the register that the first one keeps,
lacks the text of a label, and is asked again after it was closed.  It has no
room for the end of the program with an annotation. -/
def woven : List (Fin 2 × Step RegisterRef) :=
  [(0, .pool (.allocate (some "a"))), (1, .emit (.loadImm (.kept "a") 1)),
   (1, .assignLabel), (0, .emit (.loadImm (.kept "a") 1)), (1, .finish),
   (0, .finish), (1, .flush)]

/-- The same steps, those for the second workspace first. -/
def sorted : List (Fin 2 × Step RegisterRef) :=
  [(1, .emit (.loadImm (.kept "a") 1)), (1, .assignLabel), (1, .finish),
   (1, .flush), (0, .pool (.allocate (some "a"))),
   (0, .emit (.loadImm (.kept "a") 1)), (0, .finish)]

theorem answers_separate_woven :
    (∀ address, stepsTo address sorted = stepsTo address woven) ∧
    ∀ address,
      answersTo address woven (run .trace woven (opened unlike)) =
        run .trace (alone (stepsTo address woven))
          (opened fun _ => unlike address) ∧
      answersTo address sorted (run .trace sorted (opened unlike)) =
        answersTo address woven (run .trace woven (opened unlike)) := by
  have hsteps : ∀ address, stepsTo address sorted = stepsTo address woven := by
    decide
  obtain ⟨_, halone, hsame⟩ := answers_separate .trace unlike woven
  exact ⟨hsteps, fun address =>
    ⟨(halone address).1, (hsame sorted hsteps address).1⟩⟩

end Session

end SpimGen

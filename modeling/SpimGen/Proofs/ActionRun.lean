/-
What can be said of actions whatever they act on.  An action keeps a property
if it leads from states with the property to such states only, also when it
fails; a sequence of actions keeps what each of them keeps.

A run takes steps one after another and enters each with its result and the
state that it reached.  A part of the state has a run of its own if the steps
on that part depend on nothing else and no other step touches it.
-/
import SpimGen.Action

namespace SpimGen

/-- A computation in two parts succeeds only if both of them do. -/
theorem exists_of_bind_eq_ok {α β ε : Type} {first : Except ε α}
    {next : α → Except ε β} {value : β} (hok : (first >>= next) = .ok value) :
    ∃ middle, first = .ok middle ∧ next middle = .ok value := by
  rcases first with fault | middle
  · cases hok
  · exact ⟨middle, rfl, hok⟩

namespace Action

variable {σ τ α β ι κ γ : Type}

/-! ### What an action keeps -/

def Keeps (property : σ → Prop) (action : Action σ α) : Prop :=
  ∀ state, property state → property (action state).state

theorem Keeps.pure (property : σ → Prop) (value : α) :
    (Pure.pure value : Action σ α).Keeps property :=
  fun _ hstate => hstate

theorem Keeps.read (property : σ → Prop) (view : σ → α) :
    (Action.read view).Keeps property :=
  fun _ hstate => hstate

theorem Keeps.bind {property : σ → Prop} {first : Action σ α}
    {next : α → Action σ β} (hfirst : first.Keeps property)
    (hnext : ∀ value, (next value).Keeps property) :
    (first >>= next).Keeps property := by
  intro state hstate
  have hreached := hfirst state hstate
  rcases houtcome : first state with ⟨fault | value, reached, log⟩
  · rw [houtcome] at hreached
    rw [bind_apply_of_error houtcome]
    exact hreached
  · rw [houtcome] at hreached
    rw [bind_apply_of_ok houtcome]
    exact hnext value reached hreached

theorem Keeps.each {property : σ → Prop} {step : α → Action σ Unit}
    (hstep : ∀ entry, (step entry).Keeps property) (entries : List α) :
    (Action.each step entries).Keeps property := by
  induction entries with
  | nil => exact Keeps.pure property ()
  | cons entry entries ih => exact Keeps.bind (hstep entry) fun _ => ih

/-- What an action keeps of the part on which it runs is kept of the whole. -/
theorem Keeps.within {property : τ → Prop} {action : Action τ α}
    (haction : action.Keeps property) {view : σ → τ} {update : τ → σ → σ}
    (hview : ∀ part state, view (update part state) = part) :
    (action.within view update).Keeps (fun state => property (view state)) := by
  intro state hstate
  change property (view (update (action (view state)).state state))
  rw [hview]
  exact haction (view state) hstate

/-! ### Actions that agree -/

/-- From states that look alike the two actions get the same result and reach
states that look alike. -/
def Agrees (view : σ → γ) (otherView : τ → γ) (action : Action σ α)
    (other : Action τ α) : Prop :=
  ∀ state inner, view state = otherView inner →
    (action state).result = (other inner).result ∧
      view (action state).state = otherView (other inner).state

theorem Agrees.bind {view : σ → γ} {otherView : τ → γ} {first : Action σ α}
    {other : Action τ α} {next : α → Action σ β} {otherNext : α → Action τ β}
    (hfirst : Agrees view otherView first other)
    (hnext : ∀ value, Agrees view otherView (next value) (otherNext value)) :
    Agrees view otherView (first >>= next) (other >>= otherNext) := by
  intro state inner hview
  obtain ⟨hresult, hreached⟩ := hfirst state inner hview
  rcases houtcome : first state with ⟨fault | value, reached, log⟩
  all_goals
    rcases hother : other inner with ⟨result, otherReached, otherLog⟩
    rw [houtcome, hother] at hresult hreached
    cases hresult
  · rw [bind_apply_of_error houtcome, bind_apply_of_error hother]
    exact ⟨rfl, hreached⟩
  · rw [bind_apply_of_ok houtcome, bind_apply_of_ok hother]
    exact hnext value reached otherReached hreached

/-! ### Runs -/

/-- A step that was taken, what came of it, and the state it reached. -/
structure Entry (ι σ α : Type) where
  step : ι
  result : Except Fault α
  state : σ

/-- The entry with only a part of the state in it. -/
def Entry.seen (view : σ → γ) (entry : Entry ι σ α) : Entry ι γ α where
  step := entry.step
  result := entry.result
  state := view entry.state

/-- The entry of a step of one kind, with only a part of the state in it. -/
def Entry.pick (select : ι → Option κ) (view : σ → γ) (entry : Entry ι σ α) :
    Option (Entry κ γ α) :=
  (select entry.step).map fun step => ⟨step, entry.result, view entry.state⟩

/-- Takes steps one after another, whether they succeed or fail. -/
def history (perform : ι → Action σ α) : σ → List ι → List (Entry ι σ α)
  | _, [] => []
  | state, step :: steps =>
      ⟨step, (perform step state).result, (perform step state).state⟩
        :: history perform (perform step state).state steps

theorem map_seen_id (entries : List (Entry ι σ α)) :
    entries.map (Entry.seen id) = entries :=
  List.map_id entries

/-- The steps of one kind have the results and effects of a run of their own,
if these depend only on what is seen and the other steps leave that alone. -/
theorem filterMap_pick_history {perform : ι → Action σ α}
    {part : κ → Action τ α} {select : ι → Option κ} {view : σ → γ}
    {partView : τ → γ} {steps : List ι}
    (hinside : ∀ step picked, select step = some picked →
      Agrees view partView (perform step) (part picked))
    (houtside : ∀ step ∈ steps, ∀ state, select step = none →
      view (perform step state).state = view state)
    {start : σ} {inner : τ} (hstart : view start = partView inner) :
    (history perform start steps).filterMap (Entry.pick select view) =
      (history part inner (steps.filterMap select)).map
        (Entry.seen partView) := by
  induction steps generalizing start inner with
  | nil => rfl
  | cons step steps ih =>
      have hrest := fun other hother =>
        houtside other (List.mem_cons_of_mem step hother)
      rw [history, List.filterMap_cons, List.filterMap_cons, Entry.pick]
      rcases hselect : select step with _ | picked
      · -- The step is none of the part's own.
        have hstay := houtside step List.mem_cons_self start hselect
        exact ih hrest (hstay.trans hstart)
      · obtain ⟨hresult, hview⟩ := hinside step picked hselect start inner hstart
        simp only [Option.map_some]
        rw [history, List.map_cons, ih hrest hview, hresult, hview]
        rfl

end Action

end SpimGen

/-
Operations with state.  An action ends with a value or a fault; either way it
leaves a state and a log behind, so a failure undoes nothing.
-/
import SpimGen.Fault
import SpimGen.Event

namespace SpimGen

/-- What an action leaves behind. -/
structure Outcome (σ α : Type) where
  /-- The value, or the fault that stopped the action. -/
  result : Except Fault α
  /-- The state reached, also when the action failed. -/
  state : σ
  /-- The events reported on the way, oldest first. -/
  log : List Event

/-- An operation on states of type `σ` that yields an `α`. -/
def Action (σ α : Type) : Type :=
  σ → Outcome σ α

namespace Action

variable {σ τ α β : Type}

protected def pure (value : α) : Action σ α :=
  fun state => ⟨.ok value, state, []⟩

/-- Runs an action and, unless it fails, one that depends on its value. -/
protected def bind (first : Action σ α) (next : α → Action σ β) : Action σ β :=
  fun state =>
    match first state with
    | ⟨.error fault, reached, log⟩ => ⟨.error fault, reached, log⟩
    | ⟨.ok value, reached, log⟩ =>
        let rest := next value reached
        { rest with log := log ++ rest.log }

instance : Monad (Action σ) where
  pure := Action.pure
  bind := Action.bind

@[simp]
theorem pure_apply (value : α) (state : σ) :
    (pure value : Action σ α) state = ⟨.ok value, state, []⟩ :=
  rfl

/-- After a success the rest runs from the state reached, and its log follows. -/
theorem bind_apply_of_ok {first : Action σ α} {next : α → Action σ β}
    {state reached : σ} {value : α} {log : List Event}
    (hfirst : first state = ⟨.ok value, reached, log⟩) :
    (first >>= next) state =
      ⟨(next value reached).result, (next value reached).state,
        log ++ (next value reached).log⟩ := by
  change Action.bind first next state = _
  rw [Action.bind, hfirst]

/-- A fault ends the whole action where it occurs. -/
theorem bind_apply_of_error {first : Action σ α} {next : α → Action σ β}
    {state reached : σ} {fault : Fault} {log : List Event}
    (hfirst : first state = ⟨.error fault, reached, log⟩) :
    (first >>= next) state = ⟨.error fault, reached, log⟩ := by
  change Action.bind first next state = _
  rw [Action.bind, hfirst]

/-- Putting the value of an action in another form changes nothing else. -/
theorem bind_pure_apply (action : Action σ α) (form : α → β) (state : σ) :
    (action >>= fun value => pure (form value)) state =
      ⟨(action state).result.map form, (action state).state,
        (action state).log⟩ := by
  change Action.bind action (fun value => Action.pure (form value)) state = _
  rw [Action.bind]
  rcases action state with ⟨result, reached, log⟩
  cases result with
  | error fault => rfl
  | ok value => simp [Action.pure, Except.map]

protected theorem bind_pure (action : Action σ α) :
    Action.bind action Action.pure = action := by
  funext state
  rw [Action.bind]
  rcases action state with ⟨result, reached, log⟩
  cases result with
  | error fault => rfl
  | ok value => simp [Action.pure]

protected theorem bind_assoc {γ : Type} (first : Action σ α)
    (second : α → Action σ β) (third : β → Action σ γ) :
    Action.bind (Action.bind first second) third =
      Action.bind first (fun value => Action.bind (second value) third) := by
  funext state
  simp only [Action.bind]
  rcases first state with ⟨result, reached, log⟩
  cases result with
  | error fault => rfl
  | ok value =>
      simp only
      rcases second value reached with ⟨inner, reachedNext, logNext⟩
      cases inner with
      | error fault => rfl
      | ok valueNext => simp [List.append_assoc]

instance : LawfulMonad (Action σ) :=
  LawfulMonad.mk' (Action σ)
    (fun action => Action.bind_pure action)
    (fun _ _ => rfl)
    (fun first second third => Action.bind_assoc first second third)

def fail (fault : Fault) : Action σ α :=
  fun state => ⟨.error fault, state, []⟩

def report (event : Event) : Action σ Unit :=
  fun state => ⟨.ok (), state, [event]⟩

/-- Yields something read off the state. -/
def read (view : σ → α) : Action σ α :=
  fun state => ⟨.ok (view state), state, []⟩

def modify (change : σ → σ) : Action σ Unit :=
  fun state => ⟨.ok (), change state, []⟩

def ofExcept (value : Except Fault α) : Action σ α :=
  fun state => ⟨value, state, []⟩

/-- Runs an action on one part of a larger state and leaves the rest alone. -/
def within (view : σ → τ) (update : τ → σ → σ) (action : Action τ α) :
    Action σ α :=
  fun state =>
    let inner := action (view state)
    ⟨inner.result, update inner.state state, inner.log⟩

/-- Runs actions one after another up to the first that fails. -/
def each (step : α → Action σ Unit) : List α → Action σ Unit
  | [] => pure ()
  | first :: rest => do
      step first
      each step rest

theorem each_append (step : α → Action σ Unit) (first second : List α) :
    each step (first ++ second) = (do
      each step first
      each step second) := by
  induction first with
  | nil => rfl
  | cons entry rest ih =>
      rw [List.cons_append, each, ih, each]
      exact (Action.bind_assoc _ _ _).symm

end Action

/-- A computation that succeeds on every entry of a list succeeds on the
list. -/
theorem mapM_eq_ok_map {α β ε : Type} {look : α → Except ε β} {value : α → β}
    {list : List α} (hlook : ∀ entry ∈ list, look entry = .ok (value entry)) :
    list.mapM look = .ok (list.map value) := by
  induction list with
  | nil => rfl
  | cons entry list ih =>
      have hentry := hlook entry List.mem_cons_self
      have hrest := ih (fun other hother =>
        hlook other (List.mem_cons_of_mem entry hother))
      rw [List.mapM_cons, hentry, hrest]
      rfl

/-- A computation fails on a list at the first entry on which it fails. -/
theorem exists_split_of_mapM_eq_error {α β ε : Type} {look : α → Except ε β}
    {list : List α} {fault : ε} (hfault : list.mapM look = .error fault) :
    ∃ before entry rest, list = before ++ entry :: rest ∧
      look entry = .error fault ∧
      ∀ other ∈ before, ∃ value, look other = .ok value := by
  induction list with
  | nil => cases hfault
  | cons first list ih =>
      rw [List.mapM_cons] at hfault
      cases hfirst : look first with
      | error other =>
          rw [hfirst] at hfault
          cases hfault
          exact ⟨[], first, list, rfl, hfirst, by simp⟩
      | ok value =>
          cases hlist : list.mapM look with
          | ok values =>
              rw [hfirst, hlist] at hfault
              cases hfault
          | error other =>
              rw [hfirst, hlist] at hfault
              cases hfault
              obtain ⟨before, entry, rest, rfl, hentry, hbefore⟩ := ih hlist
              refine ⟨first :: before, entry, rest, rfl, hentry, ?_⟩
              intro other hother
              rcases List.mem_cons.mp hother with rfl | hother
              · exact ⟨value, hfirst⟩
              · exact hbefore other hother

end SpimGen

import Mathlib.Data.List.Basic

namespace PrivateView

/-!
# Private views of a shared state

Several parties act on one state, and an observer asks whether what it gets
depends on the others.  The observer has a view of the state, and a private
machine that computes its answers from this view alone.  When every event of a
run either leaves the view alone or acts on it as the private machine does, the
observer's answers are those of the private machine.
-/

variable {State Event Output View Request : Type}

/-- A shared machine together with what one observer sees of it. -/
structure Observer (State Event Output View Request : Type) where
  /-- The next state of the shared machine. -/
  step : State → Event → State
  /-- The answer of the shared machine to an event. -/
  output : State → Event → Output
  /-- The observer's part of the state. -/
  view : State → View
  /-- The observer's request, when the event is one of its own. -/
  request : Event → Option Request
  /-- The private machine of the observer. -/
  answer : View → Request → View × Output

namespace Observer

variable (observer : Observer State Event Output View Request)

/-- The state after a sequence of events. -/
def run (state : State) (events : List Event) : State :=
  events.foldl observer.step state

@[simp] theorem run_nil (state : State) : observer.run state [] = state :=
  rfl

@[simp] theorem run_cons
    (state : State)
    (event : Event)
    (rest : List Event) :
    observer.run state (event :: rest) =
      observer.run (observer.step state event) rest :=
  rfl

/-- A condition on the state and the event holds at every step of a run. -/
def Along (condition : State → Event → Prop) :
    State → List Event → Prop
  | _, [] => True
  | state, event :: rest =>
      condition state event ∧
        Along condition (observer.step state event) rest

/-- The answers to the observer's own events of a run. -/
def outputs : State → List Event → List Output
  | _, [] => []
  | state, event :: rest =>
      match observer.request event with
      | none => outputs (observer.step state event) rest
      | some _ =>
          observer.output state event ::
            outputs (observer.step state event) rest

/-- The answers of the private machine to a list of requests. -/
def privateOutputs : View → List Request → List Output
  | _, [] => []
  | view, request :: rest =>
      (observer.answer view request).2 ::
        privateOutputs (observer.answer view request).1 rest

/-- An event acts on the view as the private machine says. -/
def Explained (state : State) (event : Event) : Prop :=
  match observer.request event with
  | none => observer.view (observer.step state event) = observer.view state
  | some request =>
      (observer.view (observer.step state event),
          observer.output state event) =
        observer.answer (observer.view state) request

variable {observer}

/-- What holds of every event may be added to a condition. -/
theorem Along.and_mem
    {always : Event → Prop}
    {condition : State → Event → Prop}
    {state : State}
    {events : List Event}
    (along : observer.Along condition state events)
    (every : ∀ event, event ∈ events → always event) :
    observer.Along
      (fun state event => always event ∧ condition state event)
      state events := by
  induction events generalizing state with
  | nil =>
      trivial
  | cons event rest inductionHypothesis =>
      obtain ⟨here, later⟩ := along
      exact
        ⟨⟨every event (by simp), here⟩,
          inductionHypothesis later
            fun other member => every other (by simp [member])⟩

/-- An invariant may be used to establish a condition along a run. -/
theorem Along.of_invariant
    {invariant : State → Prop}
    {given wanted : State → Event → Prop}
    (preserved :
      ∀ state event,
        invariant state →
        given state event →
        invariant (observer.step state event))
    (establishes :
      ∀ state event,
        invariant state →
        given state event →
        wanted state event)
    {state : State}
    (initially : invariant state)
    {events : List Event}
    (along : observer.Along given state events) :
    observer.Along wanted state events := by
  induction events generalizing state with
  | nil =>
      trivial
  | cons event rest inductionHypothesis =>
      obtain ⟨here, later⟩ := along
      exact
        ⟨establishes state event initially here,
          inductionHypothesis (preserved state event initially here)
            later⟩

/-- In an explained run the observer only sees its private machine. -/
theorem outputs_of_explained
    {state : State}
    {events : List Event}
    (explained : observer.Along observer.Explained state events) :
    observer.outputs state events =
      observer.privateOutputs (observer.view state)
        (events.filterMap observer.request) := by
  induction events generalizing state with
  | nil =>
      rfl
  | cons event rest inductionHypothesis =>
      obtain ⟨here, later⟩ := explained
      have next := inductionHypothesis later
      simp only [Explained] at here
      rw [outputs, List.filterMap_cons]
      cases isRequest : observer.request event with
      | none =>
          simp only [isRequest] at here
          rw [next, here]
      | some request =>
          simp only [isRequest] at here
          rw [next, privateOutputs, ← here]

/--
Two explained runs that start with the same view and contain the same requests
give the observer the same answers.
-/
theorem outputs_eq_of_explained
    {left right : State}
    {leftEvents rightEvents : List Event}
    (leftExplained :
      observer.Along observer.Explained left leftEvents)
    (rightExplained :
      observer.Along observer.Explained right rightEvents)
    (sameView : observer.view left = observer.view right)
    (sameRequests :
      leftEvents.filterMap observer.request =
        rightEvents.filterMap observer.request) :
    observer.outputs left leftEvents =
      observer.outputs right rightEvents := by
  rw [outputs_of_explained leftExplained,
    outputs_of_explained rightExplained, sameView, sameRequests]

end Observer

end PrivateView

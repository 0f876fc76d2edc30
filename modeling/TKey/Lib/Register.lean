import Mathlib.Data.List.Basic

/-!
# Registers of clocked designs

A clocked design makes one step in each clock cycle, from its state and the
inputs of the cycle.  A register is a part of the state together with the rule
for writing it; after a run it holds what was written last.  What no cycle of
some mode changes stays the same as long as the mode lasts.
-/

/-- A part of the state of a clocked design, and how it is written. -/
structure Register
    {State Input : Type}
    (clock : State → Input → State)
    (Value : Type) where
  value : State → Value
  /-- What is written in a cycle. -/
  write : State → Input → Option Value
  updates :
    ∀ state input,
      value (clock state input) = (write state input).getD (value state)

namespace Register

variable {State Input Value : Type}
variable {clock : State → Input → State}

/-- Everything that is written in a run, in order. -/
def writes (register : Register clock Value) :
    State → List Input → List Value
  | _, [] => []
  | state, input :: inputs =>
      (register.write state input).toList ++
        writes register (clock state input) inputs

/-- After a run a register holds what was written last. -/
theorem value_run
    (register : Register clock Value)
    (state : State)
    (inputs : List Input) :
    register.value (inputs.foldl clock state) =
      (register.writes state inputs).getLastD (register.value state) := by
  induction inputs generalizing state with
  | nil => rfl
  | cons input inputs inductionHypothesis =>
      rw [List.foldl_cons, inductionHypothesis, register.updates, writes]
      cases register.write state input with
      | none => rfl
      | some value =>
          rw [Option.getD_some, Option.toList_some, List.singleton_append,
            List.getLastD_cons]

/-- Everything that is put out in a run, in order. -/
def outputs
    {Output : Type}
    (clock : State → Input → State)
    (output : State → Input → List Output) :
    State → List Input → List Output
  | _, [] => []
  | state, input :: inputs =>
      output state input ++ outputs clock output (clock state input) inputs

/-- What is put out in two runs, one after the other. -/
theorem outputs_append
    {Output : Type}
    {output : State → Input → List Output}
    (state : State)
    (inputs later : List Input) :
    outputs clock output state (inputs ++ later) =
      outputs clock output state inputs ++
        outputs clock output (inputs.foldl clock state) later := by
  induction inputs generalizing state with
  | nil => rfl
  | cons input inputs inductionHypothesis =>
      rw [List.cons_append, outputs, outputs, inductionHypothesis,
        List.append_assoc]
      rfl

/-- What is put out in one more cycle. -/
theorem outputs_concat
    {Output : Type}
    {output : State → Input → List Output}
    (state : State)
    (inputs : List Input)
    (input : Input) :
    outputs clock output state (inputs ++ [input]) =
      outputs clock output state inputs ++
        output (inputs.foldl clock state) input := by
  rw [outputs_append]
  exact congrArg _ (List.append_nil _)

/-- A condition on cycles holds in every cycle of a run. -/
def Throughout
    (clock : State → Input → State)
    (mode : State → Input → Prop) :
    State → List Input → Prop
  | _, [] => True
  | state, input :: inputs =>
      mode state input ∧ Throughout clock mode (clock state input) inputs

/-- A condition that follows from another one holds wherever that does. -/
theorem Throughout.imp
    {mode mode' : State → Input → Prop}
    (implies : ∀ state input, mode state input → mode' state input)
    {state : State}
    {inputs : List Input}
    (inMode : Throughout clock mode state inputs) :
    Throughout clock mode' state inputs := by
  induction inputs generalizing state with
  | nil => trivial
  | cons input inputs inductionHypothesis =>
      exact ⟨implies state input inMode.1, inductionHypothesis inMode.2⟩

/-- A condition that lasts once it holds does so in every cycle. -/
theorem throughout_of_lasting
    {condition : State → Prop}
    (lasts : ∀ state input, condition state → condition (clock state input))
    {state : State}
    (now : condition state)
    (inputs : List Input) :
    Throughout clock (fun state _ => condition state) state inputs := by
  induction inputs generalizing state with
  | nil => trivial
  | cons input inputs inductionHypothesis =>
      exact ⟨now, inductionHypothesis (lasts state input now)⟩

/-- What no cycle of a mode changes stays the same as long as it lasts. -/
theorem value_of_throughout
    {mode : State → Input → Prop}
    {value : State → Value}
    (keeps :
      ∀ state input, mode state input →
        value (clock state input) = value state)
    {state : State}
    {inputs : List Input}
    (inMode : Throughout clock mode state inputs) :
    value (inputs.foldl clock state) = value state := by
  induction inputs generalizing state with
  | nil => rfl
  | cons input inputs inductionHypothesis =>
      rw [List.foldl_cons, inductionHypothesis inMode.2,
        keeps state input inMode.1]

end Register

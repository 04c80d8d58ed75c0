namespace Transitions

variable {State Event : Type}

-- The runs whose steps are all allowed in the state they start from.
inductive Run (Step : State → Event → State → Prop) (Allowed : State → Event → Prop) : State → List Event → State → Prop where
  | stop (state : State) : Run Step Allowed state [] state
  | step {state next last : State} {event : Event} {events : List Event} (allowed : Allowed state event) (step : Step state event next)
      (rest : Run Step Allowed next events last) : Run Step Allowed state (event :: events) last

variable {Step : State → Event → State → Prop} {Allowed : State → Event → Prop} {first last : State} {events : List Event}

theorem Run.invariant {Holds : State → Prop}
    (kept : ∀ {state next : State} {event : Event}, Allowed state event → Step state event next → Holds state → Holds next)
    (run : Run Step Allowed first events last) (holds : Holds first) : Holds last := by
  induction run with
  | stop => exact holds
  | step allowed step rest ih => exact ih (kept allowed step holds)

theorem Run.append {middle : State} {later : List Event} (run : Run Step Allowed first events middle) (rest : Run Step Allowed middle later last) :
    Run Step Allowed first (events ++ later) last := by
  induction run with
  | stop => exact rest
  | step allowed step _ ih => exact .step allowed step (ih rest)

end Transitions

import ApplicativeParsing.Value.Call
import ApplicativeParsing.Value.Cursor

/-!
# Outcome scripts

A script changes one outcome step by step: it maps the value, goes on from it, passes through the
`Except` form, or compares with another outcome. A step also remarks on what it saw, such as whether
the function it was given was called.

## Main definitions

* `OutcomeStep`, `OutcomeStep.apply` and `OutcomeStep.Remark`.

## Main statements

* `OutcomeStep.eq_isSuccess_of_called`: functions are called on successes and on nothing else.
* `OutcomeStep.foldl_apply_failure`: a failure stays to the end of a script.
-/

namespace ApplicativeParsing

/-- One change of an outcome. -/
inductive OutcomeStep where
  /-- Call a function on the value. -/
  | map (f : Value)
  /-- Go on with another outcome, or with the failure whose message is the text of the value. -/
  | andThen (next? : Option (Outcome Value))
  /-- Pass through the `Except` form and back. -/
  | roundTrip
  /-- Compare with another outcome. -/
  | compare (other : Outcome Value)

namespace OutcomeStep

/-- What a step saw. -/
inductive Remark where
  /-- Nothing worth a remark. -/
  | nothing
  /-- Whether the function was called. -/
  | called (b : Bool)
  /-- Whether the two outcomes are equal. -/
  | same (b : Bool)
  deriving DecidableEq, Repr

/-- Note a call and compute. -/
def counted {α : Type} (f : Value → α) (v : Value) : Traced Unit α := do
  Traced.note ()
  return f v

/-- The outcome after a step, with a remark. -/
def apply (o : Outcome Value) : OutcomeStep → Outcome Value × Remark
  | map f =>
    let r := o.mapM (counted f.call)
    (r.value, .called (!r.notes.isEmpty))
  | andThen next? =>
    let r := o.andThenM (counted fun v => next?.getD (.failure v.text))
    (r.value, .called (!r.notes.isEmpty))
  | roundTrip => (.ofExcept o.toExcept, .nothing)
  | compare other => (o, .same (o == other))

/-- What a step makes of an outcome. To pass through the `Except` form and to compare leave it as it
is. -/
theorem apply_fst (o : Outcome Value) (step : OutcomeStep) :
    (step.apply o).1 =
      match step with
      | map f => o.map f.call
      | andThen next? => o.andThen fun v => next?.getD (.failure v.text)
      | roundTrip | compare _ => o := by
  cases step <;> cases o <;> rfl

/-- Whichever step is given a function, the function is called exactly on successes. -/
theorem eq_isSuccess_of_called {o : Outcome Value} {step : OutcomeStep} {b : Bool}
    (h : (step.apply o).2 = .called b) : b = o.isSuccess := by
  cases step <;> cases o <;> cases h <;> rfl

/-- No step makes anything else of a failure. -/
theorem apply_failure (e : String) (step : OutcomeStep) :
    (step.apply (.failure e)).1 = .failure e := by
  rw [apply_fst]
  cases step <;> rfl

/-- So a script that comes to a failure ends in it, whatever steps follow. -/
theorem foldl_apply_failure (e : String) (steps : List OutcomeStep) :
    steps.foldl (fun o step => (step.apply o).1) (.failure e) = .failure e := by
  induction steps with
  | nil => rfl
  | cons step steps ih => rw [List.foldl_cons, apply_failure, ih]

end OutcomeStep

end ApplicativeParsing

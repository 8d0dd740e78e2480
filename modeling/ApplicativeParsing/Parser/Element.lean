import ApplicativeParsing.Input
import ApplicativeParsing.Parser.Basic

/-!
# Reading elements

The parsers that look at the input themselves. `Parser.element` reads one expected element: the
element of the input is compared with the expected one in this order, by a `==` of which nothing is
assumed, and the value is the expected element, which need not be the one that was read.

## Main definitions

* `Parser.element`: read one expected element.
* `Parser.take`: read a fixed number of elements, whatever they are.
* `Parser.peek`: run a parser and give back what it read.
-/

namespace ApplicativeParsing.Parser

variable {κ ι σ α : Type} [Input ι σ]

/-- Why `expected` cannot be read from the front of `s`, if it cannot. -/
def element.failure? [BEq σ] [ToString σ] (expected : σ) (s : ι) : Option ParseFailure :=
  match Input.first s with
  | none => some .noMoreInput
  | some x => if x == expected then none else some (.ofElements expected x)

/-- Read one element that is equal to `expected`, and yield `expected`. -/
def element [BEq σ] [ToString σ] (expected : σ) : Parser κ ι σ where
  run s := pure <|
    match element.failure? expected s with
    | none => .success (expected, Input.rest s)
    | some e => .failure e.message

/-- Read `n` elements. -/
def take (n : Nat) : Parser κ ι (List σ) where
  run s := pure <|
    match Input.splitAt? n s with
    | some r => .success r
    | none => .failure ParseFailure.noMoreInput.message

/-- Run `p` and leave the input where it was; a failure stays a failure. -/
def peek (p : Parser κ ι α) : Parser κ ι α where
  run s := do
    let o ← p.run s
    return o.map fun (a, _) => (a, s)

section Element

variable [BEq σ] [ToString σ]

theorem outcome_element (e : σ) (s : ι) :
    (element e : Parser κ ι σ).outcome s =
      match element.failure? e s with
      | none => .success (e, Input.rest s)
      | some f => .failure f.message := rfl

/-- A parser for one element fails with the wording of the cause. -/
theorem outcome_element_eq_failure {e : σ} {s : ι} {m : String} :
    (element e : Parser κ ι σ).outcome s = .failure m ↔
      ∃ f, element.failure? e s = some f ∧ m = f.message := by
  rw [outcome_element]
  cases element.failure? e s with
  | none => simp
  | some f => simp [eq_comm]

/-- There is nothing to read, or something else than is expected. -/
theorem element.of_failure?_eq_some {e : σ} {s : ι} {f : ParseFailure}
    (h : element.failure? e s = some f) :
    (Input.first s = none ∧ f = .noMoreInput) ∨
      ∃ x, Input.first s = some x ∧ f = .ofElements e x := by
  rw [element.failure?] at h
  cases hs : Input.first s with
  | none =>
    rw [hs] at h
    exact .inl ⟨rfl, (Option.some.inj h).symm⟩
  | some x =>
    rw [hs, Option.ite_none_left_eq_some] at h
    exact .inr ⟨x, rfl, (Option.some.inj h.2).symm⟩

@[simp] theorem log_element (e : σ) (s : ι) : (element e : Parser κ ι σ).log s = [] := rfl

/-- At the end of the input every element is missing. -/
theorem outcome_element_of_first_eq_none {e : σ} {s : ι} (h : Input.first s = none) :
    (element e : Parser κ ι σ).outcome s = .failure "No more input" := by
  simp [outcome_element, element.failure?, h]

/-- An element that `==` accepts on the left of the expected one is read. -/
theorem outcome_element_of_beq {e x : σ} {s : ι} (h : Input.first s = some x)
    (hx : (x == e) = true) :
    (element e : Parser κ ι σ).outcome s = .success (e, Input.rest s) := by
  simp [outcome_element, element.failure?, h, hx]

/-- An element that `==` rejects on the left of the expected one is a mismatch. -/
theorem outcome_element_of_not_beq {e x : σ} {s : ι} (h : Input.first s = some x)
    (hx : (x == e) = false) :
    (element e : Parser κ ι σ).outcome s =
      .failure (ParseFailure.ofElements e x).message := by
  simp [outcome_element, element.failure?, h, hx]

end Element

theorem outcome_take (n : Nat) (s : ι) :
    (take n : Parser κ ι (List σ)).outcome s =
      match Input.splitAt? n s with
      | some r => .success r
      | none => .failure "No more input" := rfl

@[simp] theorem outcome_peek (p : Parser κ ι α) (s : ι) :
    p.peek.outcome s = (p.outcome s).map fun r => (r.1, s) := rfl

@[simp] theorem log_peek (p : Parser κ ι α) (s : ι) : p.peek.log s = p.log s := by
  simp [peek, log]

end ApplicativeParsing.Parser

import ApplicativeParsing.Parser.Element
import ApplicativeParsing.Value.Cursor

/-!
# Finite inputs

An input shows one element at a time. What is said about whole inputs (a word is consumed, a rest is
shorter) needs all elements that are left, and an input that has finitely many of them steps as the
list of them does. Lists, string slices and the cursors of a session are such inputs. Two string
slices with the same characters need not be the same slice, so statements compare the elements.

## Main definitions

* `FiniteInput`, with `FiniteInput.elements`.

## Main statements

* `Parser.outcome_element_eq_success`, `Parser.element.failure?_eq_some_iff`: the runs of a parser
  for one element, by the elements that are left.
-/

namespace ApplicativeParsing

/-- An input of finitely many elements. -/
class FiniteInput (ι : Type) (σ : outParam Type) extends Input ι σ where
  /-- The elements that are left, in order. -/
  elements : ι → List σ
  /-- The next element is the first that is left. -/
  first_eq_head? (s : ι) : Input.first s = (elements s).head?
  /-- Stepping drops the next element. The rest of an empty input is empty. -/
  elements_rest_eq_tail (s : ι) : elements (Input.rest s) = (elements s).tail

namespace FiniteInput

variable {ι σ : Type}

/-- A list is its own elements. -/
instance : FiniteInput (List σ) σ where
  elements s := s
  first_eq_head? _ := rfl
  elements_rest_eq_tail _ := rfl

/-- The elements of a string slice are its characters. -/
instance : FiniteInput String.Slice Char where
  elements s := s.copy.toList
  first_eq_head? := Input.first_slice
  elements_rest_eq_tail := Input.rest_slice

instance : FiniteInput Cursor Element where
  elements := Cursor.elements
  first_eq_head? := Cursor.first_eq
  elements_rest_eq_tail := Cursor.elements_rest

variable [FiniteInput ι σ]

/-- The next element stands in front of those of the rest. -/
theorem first_eq_some_iff {s : ι} {x : σ} :
    Input.first s = some x ↔ elements s = x :: elements (Input.rest s) := by
  rw [first_eq_head?, elements_rest_eq_tail]
  cases elements s with
  | nil => simp
  | cons y w => simp [eq_comm]

/-- What two parts consume one after the other is both their words. -/
theorem elements_eq_append {s t r : ι} {w₁ w₂ : List σ} (hs : elements s = w₁ ++ elements t)
    (ht : elements t = w₂ ++ elements r) : elements s = w₁ ++ w₂ ++ elements r := by
  rw [hs, ht, List.append_assoc]

end FiniteInput

namespace Parser

open FiniteInput (elements)

variable {κ ι σ : Type} [FiniteInput ι σ] [BEq σ] [ToString σ]

/-- An element that can be read is the next one of the input, and it is accepted. -/
theorem element.failure?_eq_none_iff {e : σ} {s : ι} :
    element.failure? e s = none ↔ ∃ x w, elements s = x :: w ∧ (x == e) = true := by
  rw [element.failure?, FiniteInput.first_eq_head?]
  cases elements s with
  | nil => simp
  | cons x w => cases h : x == e <;> simp [h]

/-- An element cannot be read at the end of the input, or where another one stands. -/
theorem element.failure?_eq_some_iff {e : σ} {s : ι} {f : ParseFailure} :
    element.failure? e s = some f ↔
      (elements s = [] ∧ f = .noMoreInput) ∨
        ∃ x w, elements s = x :: w ∧ (x == e) = false ∧ f = .ofElements e x := by
  rw [element.failure?, FiniteInput.first_eq_head?]
  cases elements s with
  | nil => simp [@eq_comm _ f]
  | cons x w => cases h : x == e <;> simp [h, @eq_comm _ f]

/-- A parser for one element consumes the next element of the input, if it accepts it. -/
theorem outcome_element_eq_success {e v : σ} {s r : ι} :
    (element e : Parser κ ι σ).outcome s = .success (v, r) ↔
      v = e ∧ r = Input.rest s ∧ ∃ x, elements s = x :: elements r ∧ (x == e) = true := by
  constructor
  · intro h
    rw [outcome_element] at h
    cases hf : element.failure? e s with
    | some f => rw [hf] at h; cases h
    | none =>
      rw [hf] at h
      cases h
      obtain ⟨x, w, hs, hx⟩ := element.failure?_eq_none_iff.1 hf
      refine ⟨rfl, rfl, x, ?_, hx⟩
      rw [FiniteInput.elements_rest_eq_tail, hs, List.tail_cons]
  · rintro ⟨rfl, rfl, x, hs, hx⟩
    exact outcome_element_of_beq (FiniteInput.first_eq_some_iff.2 hs) hx

end Parser

end ApplicativeParsing

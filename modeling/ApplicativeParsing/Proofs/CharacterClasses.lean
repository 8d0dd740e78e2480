import Mathlib.Data.Fin.VecNotation
import Mathlib.Order.Fin.Basic
import Mathlib.Order.WellFounded
import ApplicativeParsing.Parser.Row
import ApplicativeParsing.Proofs.Consumption

/-!
# Sequences of character classes

A class is a list of candidates for one element, and a row of classes reads one element with each of
them. A row ends as the elements at its positions say: it succeeds when every position holds an
element that its class accepts, and otherwise it fails at the first position where there is none. Of
the candidates of a class that accept an element the value is the first one listed. A failure names
the last one listed, because all of them were tried.

Nothing is assumed of `==`, so a candidate need not be the element that it accepts, and a class may
have no candidate for an element that it lists.

## Main definitions

* `Parser.oneOf`: the parser for one element of a class.
* `Choice.Accepts`: a class has a candidate for an element.
* `Parser.Fits`: a position of the input holds an element that its class accepts.

## Main statements

* `Parser.outcome_row_of_success`, `Parser.outcome_row_of_failure`: a row, by the inputs between its
  parts.
* `Parser.outcome_row_of_classes`: a row of classes, by the elements at its positions.
-/

namespace ApplicativeParsing

open FiniteInput (elements)

variable {κ ι σ α : Type}

/-- What is left after some steps begins with the element that stood there. -/
theorem FiniteInput.first_iterate_rest [FiniteInput ι σ] (s : ι) (k : Nat) :
    Input.first (Input.rest^[k] s) = (elements s)[k]? := by
  rw [FiniteInput.first_eq_head?, FiniteInput.elements_iterate_rest, List.head?_drop]

namespace Choice

/-- The alternative that comes last. -/
def last (c : Choice α) : α := c.alternatives.getLast c.alternatives_ne_nil

/-- One of the candidates is equal to `x`, which stands on the left of `==`. -/
def Accepts [BEq σ] (c : Choice σ) (x : σ) : Prop := ∃ e ∈ c.alternatives, (x == e) = true

/-- A class accepts what it has a first candidate for. -/
theorem accepts_iff_exists_find? [BEq σ] {c : Choice σ} {x : σ} :
    c.Accepts x ↔ ∃ e, c.alternatives.find? (x == ·) = some e := by
  rw [← Option.isSome_iff_exists, List.find?_isSome]
  rfl

end Choice

namespace Parser

/-! ### Rows -/

/-- A row whose parts succeed one after the other, from input to input of a sequence. -/
theorem outcome_row_of_success {n : Nat} {ps : Fin (n + 1) → Parser κ ι α} (t : Nat → ι)
    {f : Fin (n + 1) → α}
    (h : ∀ i : Fin (n + 1), (ps i).outcome (t i) = .success (f i, t (i + 1))) :
    (row ps).outcome (t 0) = .success (Row.ofFn f, t (n + 1)) := by
  induction n with
  | zero => exact h 0
  | succ n ih =>
    have hinit := ih fun i => h i.castSucc
    exact outcome_andThen_eq_success.2 ⟨t (n + 1), hinit, h (Fin.last (n + 1))⟩

/-- A row of which a part fails on the input that the parts in front of it left. -/
theorem outcome_row_of_failure {n : Nat} {ps : Fin (n + 1) → Parser κ ι α} (t : Nat → ι)
    {i : Fin (n + 1)} {e : String}
    (hlt : ∀ j < i, ∃ a, (ps j).outcome (t j) = .success (a, t (j + 1)))
    (hi : (ps i).outcome (t i) = .failure e) : (row ps).outcome (t 0) = .failure e := by
  induction n with
  | zero =>
    obtain rfl : i = 0 := by omega
    exact hi
  | succ n ih =>
    cases i using Fin.lastCases with
    | last =>
      -- all parts but the last succeed, and the last one runs behind them
      choose f hf using fun j : Fin (n + 1) => hlt j.castSucc (Fin.castSucc_lt_last j)
      have hinit := outcome_row_of_success t hf
      exact outcome_andThen_eq_failure.2 (.inr ⟨Row.ofFn f, t (n + 1), hinit, hi⟩)
    | cast i =>
      refine outcome_andThen_eq_failure.2 (.inl (ih (fun j hj => ?_) hi))
      exact hlt j.castSucc (Fin.castSucc_lt_castSucc_iff.2 hj)

/-- Parts that end alike make rows that end alike. -/
theorem outcome_row_congr {n : Nat} {ps qs : Fin (n + 1) → Parser κ ι α}
    (h : ∀ i s, (ps i).outcome s = (qs i).outcome s) (s : ι) :
    (row ps).outcome s = (row qs).outcome s := by
  induction n with
  | zero => exact h 0 s
  | succ n ih =>
    have hinit := ih fun i => h i.castSucc
    rw [outcome_row_succ, outcome_row_succ, hinit]
    simp only [h]

/-! ### Positions -/

section Position

variable [FiniteInput ι σ] [BEq σ] {n : Nat} {C : Fin (n + 1) → Choice σ} {s : ι}

/-- In `s` an element stands at position `i`, and the class for this position accepts it. -/
def Fits (C : Fin (n + 1) → Choice σ) (s : ι) (i : Fin (n + 1)) : Prop :=
  ∃ x, (elements s)[i.val]? = some x ∧ (C i).Accepts x

theorem fits_iff {i : Fin (n + 1)} :
    Fits C s i ↔ ∃ e x, (elements s)[i.val]? = some x ∧
      (C i).alternatives.find? (x == ·) = some e := by
  simp only [Fits, Choice.accepts_iff_exists_find?]
  constructor
  · rintro ⟨x, hx, e, he⟩
    exact ⟨e, x, hx, he⟩
  · rintro ⟨e, x, hx, he⟩
    exact ⟨x, hx, e, he⟩

/-- Every position fits, or there is a first one that does not. -/
theorem forall_fits_or_exists_first (C : Fin (n + 1) → Choice σ) (s : ι) :
    (∀ i, Fits C s i) ∨ ∃ i, ¬Fits C s i ∧ ∀ j < i, Fits C s j := by
  by_cases h : ∀ i, Fits C s i
  · exact .inl h
  · obtain ⟨i, hi⟩ := not_forall.1 h
    obtain ⟨m, hm, hmin⟩ := wellFounded_lt.has_min {i | ¬Fits C s i} ⟨i, hi⟩
    exact .inr ⟨m, hm, fun j hj => not_not.1 fun hnot => hmin j hnot hj⟩

/-- All positions fit when there are enough elements, each of them accepted in its place. -/
theorem forall_fits_iff :
    (∀ i, Fits C s i) ↔
      n + 1 ≤ (elements s).length ∧
        ∀ (i : Fin (n + 1)) x, (elements s)[i.val]? = some x → (C i).Accepts x := by
  constructor
  · intro h
    obtain ⟨x, hx, -⟩ := h (Fin.last n)
    refine ⟨(List.getElem?_eq_some_iff.1 hx).1, fun i x hx => ?_⟩
    obtain ⟨y, hy, haccepts⟩ := h i
    obtain rfl := Option.some.inj (hx.symm.trans hy)
    exact haccepts
  · rintro ⟨hlength, haccepts⟩ i
    have hx := List.getElem?_eq_getElem (Nat.lt_of_lt_of_le i.isLt hlength)
    exact ⟨_, hx, haccepts i _ hx⟩

/-- If no element stands at a position before which all others fit, the input ends there. -/
theorem length_elements_of_fits_before {i : Fin (n + 1)} (h : ∀ j < i, Fits C s j)
    (hi : (elements s)[i.val]? = none) : (elements s).length = i := by
  refine Nat.le_antisymm (List.getElem?_eq_none_iff.1 hi) (Nat.le_of_not_lt fun hlt => ?_)
  obtain ⟨x, hx, -⟩ := h ⟨(elements s).length, Nat.lt_trans hlt i.isLt⟩ hlt
  rw [List.getElem?_eq_none (Nat.le_refl _)] at hx
  cases hx

end Position

/-! ### Classes -/

variable [BEq σ] [ToString σ]

/-- One element out of the candidates of a class, in order. -/
def oneOf [Input ι σ] (c : Choice σ) : Parser κ ι σ := (c.map element).parser

/-- It is the parser of the choice that is built from the list of candidates. -/
theorem oneOf_eq_parser_of_anyOf [Input ι σ] (c : Choice σ) :
    ((Choice.anyOf c.alternatives : Traced κ (Except BuildError (Choice (Parser κ ι σ)))).value.map
      Choice.parser) = .ok (oneOf c) := rfl

section Class

variable [Input ι σ] {c : Choice σ} {s : ι} {x e : σ}

/-- A class ends as its first candidate that succeeds, or else as its last one. -/
theorem outcome_oneOf (c : Choice σ) (s : ι) :
    (oneOf c : Parser κ ι σ).outcome s =
      (element ((c.alternatives.find? fun e =>
        ((element e : Parser κ ι σ).outcome s).isSuccess).getD c.last) :
          Parser κ ι σ).outcome s := by
  have hne : c.alternatives.map (element : σ → Parser κ ι σ) ≠ [] := by
    simpa using c.alternatives_ne_nil
  rw [oneOf, Choice.parser, Choice.alternatives_map, outcome_firstOf_eq_find? hne, List.find?_map,
    List.getLast_map, Option.getD_map]
  rfl

theorem outcome_oneOf_of_first_eq_none (h : Input.first s = none) :
    (oneOf c : Parser κ ι σ).outcome s = .failure "No more input" := by
  rw [outcome_oneOf, outcome_element_of_first_eq_none h]

/-- A candidate succeeds where it accepts the next element. -/
theorem isSuccess_element (h : Input.first s = some x) (e : σ) :
    ((element e : Parser κ ι σ).outcome s).isSuccess = (x == e) := by
  cases hx : x == e with
  | true => rw [outcome_element_of_beq h hx]; rfl
  | false => rw [outcome_element_of_not_beq h hx]; rfl

/-- The first candidate that accepts the next element is the value. -/
theorem outcome_oneOf_of_find?_eq_some (h : Input.first s = some x)
    (he : c.alternatives.find? (x == ·) = some e) :
    (oneOf c : Parser κ ι σ).outcome s = .success (e, Input.rest s) := by
  rw [outcome_oneOf]
  simp only [isSuccess_element h]
  rw [he, Option.getD_some, outcome_element_of_beq h (List.find?_some he)]

/-- If no candidate accepts the next element, the last one is named in the failure. -/
theorem outcome_oneOf_of_not_accepts (h : Input.first s = some x) (hx : ¬c.Accepts x) :
    (oneOf c : Parser κ ι σ).outcome s = .failure (ParseFailure.ofElements c.last x).message := by
  have hnone : c.alternatives.find? (x == ·) = none := by
    rw [Choice.accepts_iff_exists_find?] at hx
    exact Option.eq_none_iff_forall_ne_some.2 fun e he => hx ⟨e, he⟩
  have hlast : (x == c.last) = false := by
    simpa using List.find?_eq_none.1 hnone c.last (List.getLast_mem c.alternatives_ne_nil)
  rw [outcome_oneOf]
  simp only [isSuccess_element h]
  rw [hnone, Option.getD_none, outcome_element_of_not_beq h hlast]

end Class

/-! ### Rows of classes -/

section Row

variable [FiniteInput ι σ] {n : Nat} {C : Fin (n + 1) → Choice σ} {s : ι}

/-- A class at a position that fits takes one step. -/
theorem outcome_oneOf_iterate_rest {i : Fin (n + 1)} {x e : σ} (hx : (elements s)[i.val]? = some x)
    (he : (C i).alternatives.find? (x == ·) = some e) :
    (oneOf (C i) : Parser κ ι σ).outcome (Input.rest^[i.val] s) =
      .success (e, Input.rest^[i.val + 1] s) := by
  rw [Function.iterate_succ_apply']
  exact outcome_oneOf_of_find?_eq_some ((FiniteInput.first_iterate_rest s i).trans hx) he

/-- Where all positions fit, the value of a row of classes is the tuple of the first candidates that
accept the elements there. -/
theorem outcome_row_of_fits {f : Fin (n + 1) → σ}
    (h : ∀ i : Fin (n + 1), ∃ x, (elements s)[i.val]? = some x ∧
      (C i).alternatives.find? (x == ·) = some (f i)) :
    (row fun i => oneOf (C i) : Parser κ ι (Row σ n)).outcome s =
      .success (Row.ofFn f, Input.rest^[n + 1] s) := by
  refine outcome_row_of_success (fun k => Input.rest^[k] s) fun i => ?_
  obtain ⟨x, hx, he⟩ := h i
  exact outcome_oneOf_iterate_rest hx he

/-- The first class that fails where it runs ends the row. -/
theorem outcome_row_of_fits_before {i : Fin (n + 1)} {m : String} (h : ∀ j < i, Fits C s j)
    (hi : (oneOf (C i) : Parser κ ι σ).outcome (Input.rest^[i.val] s) = .failure m) :
    (row fun i => oneOf (C i) : Parser κ ι (Row σ n)).outcome s = .failure m := by
  refine outcome_row_of_failure (fun k => Input.rest^[k] s) (fun j hj => ?_) hi
  obtain ⟨e, x, hx, he⟩ := fits_iff.1 (h j hj)
  exact ⟨e, outcome_oneOf_iterate_rest hx he⟩

/-- A row of classes fails at the first position that does not fit, because the input ends there or
because the class does not accept the element there. -/
theorem outcome_row_of_not_fits {i : Fin (n + 1)} (h : ∀ j < i, Fits C s j) (hi : ¬Fits C s i) :
    ∃ m, (row fun i => oneOf (C i) : Parser κ ι (Row σ n)).outcome s = .failure m ∧
      ((elements s).length = i ∧ m = "No more input" ∨
        ∃ x, (elements s)[i.val]? = some x ∧ ¬(C i).Accepts x ∧
          m = "Expecting '" ++ toString (C i).last ++ "'. Got '" ++ toString x ++ "'.") := by
  have hfirst := FiniteInput.first_iterate_rest s i
  cases hx : (elements s)[i.val]? with
  | none =>
    have hnone := outcome_oneOf_of_first_eq_none (κ := κ) (c := C i) (hfirst.trans hx)
    exact ⟨_, outcome_row_of_fits_before h hnone, .inl ⟨length_elements_of_fits_before h hx, rfl⟩⟩
  | some x =>
    have hnot : ¬(C i).Accepts x := fun haccepts => hi ⟨x, hx, haccepts⟩
    have hmismatch := outcome_oneOf_of_not_accepts (κ := κ) (hfirst.trans hx) hnot
    exact ⟨_, outcome_row_of_fits_before h hmismatch, .inr ⟨x, rfl, hnot, rfl⟩⟩

/-- A row of classes succeeds exactly when the input has an element for every class and every class
accepts the one in its place. The value is the tuple of the first candidates that accept these
elements, and the rest is the input without them. Otherwise the row fails at the first position at
which this is not so, either at the end of the input or with the last candidate of the class there.
The parser for the only candidate of a class may stand in its place. -/
theorem outcome_row_of_classes (C : Fin (n + 1) → Choice σ) (s : ι) :
    let p : Parser κ ι (Row σ n) := row fun i => oneOf (C i)
    ((∃ x, p.outcome s = .success x) ↔
      n + 1 ≤ (elements s).length ∧
        ∀ (i : Fin (n + 1)) x, (elements s)[i.val]? = some x → (C i).Accepts x) ∧
    (∀ v r, p.outcome s = .success (v, r) →
      (∃ f, v = Row.ofFn f ∧ ∀ i : Fin (n + 1), ∃ x, (elements s)[i.val]? = some x ∧
        (C i).alternatives.find? (x == ·) = some (f i)) ∧
      r = Input.rest^[n + 1] s ∧ elements r = (elements s).drop (n + 1)) ∧
    (∀ m, p.outcome s = .failure m → ∃ i : Fin (n + 1), (∀ j < i, Fits C s j) ∧
      ((elements s).length = i ∧ m = "No more input" ∨
        ∃ x, (elements s)[i.val]? = some x ∧ ¬(C i).Accepts x ∧
          m = "Expecting '" ++ toString (C i).last ++ "'. Got '" ++ toString x ++ "'.")) ∧
    ∀ qs : Fin (n + 1) → Parser κ ι σ,
      (∀ i, qs i = oneOf (C i) ∨ ∃ e, C i = ⟨e, []⟩ ∧ qs i = element e) →
        (row qs).outcome s = p.outcome s := by
  intro p
  have hreplaced (qs : Fin (n + 1) → Parser κ ι σ)
      (hqs : ∀ i, qs i = oneOf (C i) ∨ ∃ e, C i = ⟨e, []⟩ ∧ qs i = element e) :
      (row qs).outcome s = p.outcome s := by
    refine outcome_row_congr (fun i t => ?_) s
    rcases hqs i with hi | ⟨e, hC, hi⟩
    · rw [hi]
    · rw [hi, hC]
      exact (outcome_firstOf_singleton _ t).symm
  rw [← forall_fits_iff]
  rcases forall_fits_or_exists_first C s with hall | ⟨i, hi, hlt⟩
  · choose f hf using fun i => fits_iff.1 (hall i)
    have hsuccess : p.outcome s = .success (Row.ofFn f, Input.rest^[n + 1] s) :=
      outcome_row_of_fits hf
    refine ⟨iff_of_true ⟨_, hsuccess⟩ hall, fun v r h => ?_, fun m h => ?_, hreplaced⟩
    · cases hsuccess.symm.trans h
      exact ⟨⟨f, rfl, hf⟩, rfl, FiniteInput.elements_iterate_rest s (n + 1)⟩
    · cases hsuccess.symm.trans h
  · obtain ⟨m, hfail, hcause⟩ : ∃ m, p.outcome s = .failure m ∧ _ := outcome_row_of_not_fits hlt hi
    have hnone : ¬∃ x, p.outcome s = .success x := by
      rintro ⟨x, hx⟩
      cases hfail.symm.trans hx
    refine ⟨iff_of_false hnone fun hall => hi (hall i), fun v r h => ?_, fun m' h => ?_, hreplaced⟩
    · exact absurd ⟨_, h⟩ hnone
    · cases hfail.symm.trans h
      exact ⟨i, hlt, hcause⟩

end Row

/-- Globs, of which the question mark accepts everything: the first candidate that accepts an
element is not the one that looks like it. The second class has one candidate, which accepts no
other letter. -/
theorem outcome_row_of_classes_glob :
    let C : Fin 2 → Choice Element := ![⟨.glob 'a', [.glob '?', .glob 'x']⟩, ⟨.glob 'b', []⟩]
    let p : Parser Unit (List Element) (Row Element 1) := row fun i => oneOf (C i)
    let qs : Fin 2 → Parser Unit (List Element) Element := ![oneOf (C 0), element (.glob 'b')]
    let s : List Element := [.glob 'x', .glob 'b', .glob 'z']
    let s' : List Element := [.glob 'x', .glob 'c']
    p.outcome s = .success ((.glob '?', .glob 'b'), [.glob 'z']) ∧
      [.glob 'z'] = Input.rest^[2] s ∧ [.glob 'z'] = s.drop 2 ∧
      (∀ i, qs i = oneOf (C i) ∨ ∃ e, C i = ⟨e, []⟩ ∧ qs i = element e) ∧
      (row qs).outcome s = p.outcome s ∧
      p.outcome s' = .failure "Expecting 'b'. Got 'c'." ∧
      ∃ i : Fin 2, (∀ j < i, Fits C s' j) ∧ ∃ x, s'[i.val]? = some x ∧ ¬(C i).Accepts x := by
  intro C p qs s s'
  have hsuccess : p.outcome s = .success ((.glob '?', .glob 'b'), [.glob 'z']) := rfl
  have hfailure : p.outcome s' = .failure "Expecting 'b'. Got 'c'." := rfl
  have hqs (i : Fin 2) : qs i = oneOf (C i) ∨ ∃ e, C i = ⟨e, []⟩ ∧ qs i = element e := by
    cases i using Fin.cases with
    | zero => exact .inl rfl
    | succ i =>
      obtain rfl : i = 0 := by omega
      exact .inr ⟨.glob 'b', rfl, rfl⟩
  obtain ⟨-, hvalue, -, hreplaced⟩ := outcome_row_of_classes (κ := Unit) C s
  obtain ⟨-, -, hcause, -⟩ := outcome_row_of_classes (κ := Unit) C s'
  obtain ⟨-, hrest, hdrop⟩ := hvalue _ _ hsuccess
  refine ⟨hsuccess, hrest, hdrop, hqs, hreplaced qs hqs, hfailure, ?_⟩
  obtain ⟨i, hlt, ⟨-, hm⟩ | ⟨x, hx, hnot, -⟩⟩ := hcause _ hfailure
  · exact absurd hm (by decide)
  · exact ⟨i, hlt, x, hx, hnot⟩

end Parser

end ApplicativeParsing

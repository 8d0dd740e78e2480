import Mathlib.Logic.Basic
import ApplicativeParsing.Proofs.Consumption
import ApplicativeParsing.Proofs.Provenance

/-!
# Failing or consuming

A parser that can succeed on nothing has a way through that reads nothing. This way is open on every
input, so the parser never fails. Any other parser consumes with every success. Which of the two it
is can be read off the tree: the least number of elements that a success consumes is zero, or not.

## Main definitions

* `Parser.Infallible`, `Parser.Consuming`.

## Main statements

* `Grammar.infallible_of_lo_eq_zero`, `Grammar.consuming_of_lo_ne_zero`: the least number decides.
* `Grammar.message_of_elements_eq_nil`: all failures at the end of the input are worded alike.
* `Grammar.infallible_xor_consuming`: the run on an empty input decides.
-/

namespace ApplicativeParsing

open FiniteInput (elements)

variable {κ ι σ α β γ : Type}

namespace Parser

/-- The parser succeeds on every input. -/
def Infallible (p : Parser κ ι α) : Prop := ∀ s, ∃ r, p.outcome s = .success r

/-- Every success leaves a shorter input. -/
def Consuming [FiniteInput ι σ] (p : Parser κ ι α) : Prop :=
  ∀ ⦃s v r⦄, p.outcome s = .success (v, r) → (elements r).length < (elements s).length

/-- A consuming parser cannot succeed at the end of the input. -/
theorem Consuming.exists_failure [FiniteInput ι σ] {p : Parser κ ι α} (hp : p.Consuming) {s : ι}
    (hs : elements s = []) : ∃ m, p.outcome s = .failure m := by
  cases h : p.outcome s with
  | failure m => exact ⟨m, rfl⟩
  | success r =>
    have hlt := hp h
    rw [hs] at hlt
    cases hlt

namespace Infallible

theorem outcome_ne_failure {p : Parser κ ι α} (hp : p.Infallible) (s : ι) (m : String) :
    p.outcome s ≠ .failure m := by
  intro hm
  obtain ⟨r, hr⟩ := hp s
  rw [hm] at hr
  cases hr

theorem andThen {p : Parser κ ι α} {q : Parser κ ι β} (hp : p.Infallible) (hq : q.Infallible) :
    (p.andThen q).Infallible := by
  intro s
  obtain ⟨⟨a, t⟩, hps⟩ := hp s
  obtain ⟨⟨b, r⟩, hqt⟩ := hq t
  exact ⟨((a, b), r), outcome_andThen_eq_success.2 ⟨t, hps, hqt⟩⟩

/-- A fallback cannot fail if one of its two alternatives cannot. -/
theorem orElse {p q : Parser κ ι α} (h : p.Infallible ∨ q.Infallible) :
    (p.orElse q).Infallible := by
  intro s
  rw [outcome_orElse]
  cases hps : p.outcome s with
  | success r => exact ⟨r, rfl⟩
  | failure e =>
    -- the first alternative cannot be the infallible one
    rcases h with hp | hq
    · exact absurd hps (hp.outcome_ne_failure s e)
    · exact hq s

/-- A choice cannot fail if one of its alternatives cannot. -/
theorem choice {n : Nat} {ps : Fin (n + 1) → Parser κ ι α} (h : ∃ i, (ps i).Infallible) :
    (Choice.ofFn ps).parser.Infallible := by
  intro s
  rcases Choice.all_fail_or_exists_first ps s with hall | ⟨i, r, hi, hlt⟩
  · obtain ⟨i, hi⟩ := h
    obtain ⟨e, he⟩ := hall i
    exact absurd he (hi.outcome_ne_failure s e)
  · exact ⟨r, Choice.outcome_ofFn_of_success hi hlt⟩

theorem select {p : Parser κ ι α} (hp : p.Infallible) (f : α → Traced κ β) :
    (p.select f).Infallible := by
  intro s
  obtain ⟨⟨a, r⟩, hps⟩ := hp s
  exact ⟨((f a).value, r), outcome_select_eq_success.2 ⟨a, hps, rfl⟩⟩

theorem lift₂ {x : Parser κ ι α} {y : Parser κ ι β} (f : α → β → Traced κ γ)
    (hx : x.Infallible) (hy : y.Infallible) : (Parser.lift₂ f x y).Infallible := by
  rw [lift₂_eq_select]
  exact (hx.andThen hy).select _

end Infallible

end Parser

namespace Grammar

/-! ### The least number of elements -/

variable [FiniteInput ι σ] [BEq σ] [ToString σ]

/-- A success shortens the input by the least number of elements or more. -/
theorem length_add_lo_le (p : Grammar σ α) {s r : ι} {v : α}
    (h : (p.parser : Parser κ ι α).outcome s = .success (v, r)) :
    (elements r).length + p.lo ≤ (elements s).length := by
  obtain ⟨k, hlo, -, hlength, rfl⟩ := p.parser_consumes h
  rw [FiniteInput.elements_iterate_rest, List.length_drop]
  omega

/-- A grammar that need not consume never fails. -/
theorem infallible_of_lo_eq_zero (p : Grammar σ α) (h : p.lo = 0) :
    (p.parser : Parser κ ι α).Infallible := by
  induction p with
  | element e => cases h
  | ret a => exact fun s => ⟨(a, s), rfl⟩
  | andThen p q ihp ihq =>
    obtain ⟨hp, hq⟩ := Nat.add_eq_zero_iff.1 h
    exact (ihp hp).andThen (ihq hq)
  | orElse p q ihp ihq =>
    refine Parser.Infallible.orElse ?_
    rcases Nat.min_eq_zero_iff.1 h with hp | hq
    · exact .inl (ihp hp)
    · exact .inr (ihq hq)
  | choice ps ih =>
    -- the least number is that of some alternative, and this one never fails
    obtain ⟨i, hi⟩ := exists_eq_least fun i => (ps i).lo
    exact Parser.Infallible.choice ⟨i, ih i (hi.trans h)⟩
  | select p f ih => exact (ih h).select fun a => pure (f a)
  | apply arg fn iha ihf =>
    obtain ⟨hf, ha⟩ := Nat.add_eq_zero_iff.1 h
    rw [parser_apply]
    exact (ihf hf).lift₂ _ (iha ha)
  | lift₂ f x y ihx ihy =>
    obtain ⟨hx, hy⟩ := Nat.add_eq_zero_iff.1 h
    exact (ihx hx).lift₂ _ (ihy hy)
  | boxed p ih => exact ih h

/-- A grammar that has to consume does so with every success. -/
theorem consuming_of_lo_ne_zero (p : Grammar σ α) (h : p.lo ≠ 0) :
    (p.parser : Parser κ ι α).Consuming := by
  intro s v r hsuccess
  have hlength := length_add_lo_le p hsuccess
  omega

/-! ### The end of the input -/

/-- A failure at the end of the input is that there is no more input. -/
theorem message_of_elements_eq_nil (p : Grammar σ α) {s : ι} {m : String} (hs : elements s = [])
    (h : (p.parser : Parser κ ι α).outcome s = .failure m) : m = "No more input" := by
  obtain ⟨_, e, t, f, -, -, ht, hf, rfl⟩ := explains_of_outcome_eq_failure p h
  -- the primitive that failed was called on an end of nothing
  have hnil : elements t = [] := by
    rw [hs] at ht
    exact List.suffix_nil.1 ht
  rcases Parser.element.failure?_eq_some_iff.1 hf with ⟨-, rfl⟩ | ⟨x, u, hcons, -, -⟩
  · rfl
  · rw [hnil] at hcons
    cases hcons

/-- Either a parser succeeds on an empty input and never fails, or it fails there because there is
no more input and consumes with every success, and never both. So the run on an empty input tells
whether a parser can fail, and a parser that can fail consumes whenever it succeeds. -/
theorem infallible_xor_consuming (p : Grammar σ α) {s₀ : ι} (hs₀ : elements s₀ = []) :
    let q : Parser κ ι α := p.parser
    Xor ((∃ r, q.outcome s₀ = .success r) ∧ q.Infallible)
        (q.outcome s₀ = .failure "No more input" ∧ q.Consuming) ∧
      ((∃ r, q.outcome s₀ = .success r) ↔ q.Infallible) ∧
      ((∃ s m, q.outcome s = .failure m) → q.Consuming) := by
  intro q
  by_cases hlo : p.lo = 0
  -- the first case: nothing has to be consumed, on this input or on any other
  · have hq : q.Infallible := infallible_of_lo_eq_zero p hlo
    refine ⟨.inl ⟨⟨hq s₀, hq⟩, ?_⟩, iff_of_true (hq s₀) hq, ?_⟩
    · rintro ⟨hfail, -⟩
      exact hq.outcome_ne_failure s₀ _ hfail
    · rintro ⟨s, m, hm⟩
      exact absurd hm (hq.outcome_ne_failure s m)
  -- the second case: a success would have to shorten the empty input
  · have hq : q.Consuming := consuming_of_lo_ne_zero p hlo
    obtain ⟨m, hm⟩ := hq.exists_failure hs₀
    obtain rfl := message_of_elements_eq_nil p hs₀ hm
    have hnone : ¬∃ r, q.outcome s₀ = .success r := by
      rintro ⟨r, hr⟩
      rw [hm] at hr
      cases hr
    refine ⟨.inr ⟨⟨hm, hq⟩, fun h => hnone h.1⟩, ?_, fun _ => hq⟩
    exact iff_of_false hnone fun h => hnone (h s₀)

/-- A grammar that has to consume in its second part, and one that falls back to a value. -/
theorem infallible_xor_consuming_nil :
    let p : Grammar Char (Unit × Char) := .andThen (.ret ()) (.element 'a')
    let q : Grammar Char Char := .orElse (.element 'a') (.ret 'b')
    elements ([] : List Char) = [] ∧
      (p.parser : Parser Unit (List Char) _).outcome [] = .failure "No more input" ∧
      (p.parser : Parser Unit (List Char) _).Consuming ∧
      (q.parser : Parser Unit (List Char) _).Infallible := by
  intro p q
  have hnil : elements ([] : List Char) = [] := rfl
  have hp : (p.parser : Parser Unit (List Char) _).outcome [] = .failure "No more input" := rfl
  have hq : ∃ r, (q.parser : Parser Unit (List Char) _).outcome [] = .success r := ⟨_, rfl⟩
  obtain ⟨-, -, hconsuming⟩ := infallible_xor_consuming (κ := Unit) p hnil
  obtain ⟨-, hinfallible, -⟩ := infallible_xor_consuming (κ := Unit) q hnil
  exact ⟨hnil, hp, hconsuming ⟨[], _, hp⟩, hinfallible.1 hq⟩

end Grammar

end ApplicativeParsing

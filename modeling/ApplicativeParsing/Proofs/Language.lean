import ApplicativeParsing.Grammar.Language
import ApplicativeParsing.Proofs.FiniteInput
import ApplicativeParsing.Proofs.Inversion

/-!
# Parsers and languages

A parser commits to the first alternative that succeeds, and the language of its grammar does not
know an order. What a parser consumes is in the language all the same. The converse needs that no
earlier alternative can be satisfied with what a later one is meant for: then whatever stands in
front of an alternative in the language has to fail, because a success of it would consume a word
that is comparable with the word of that alternative.

## Main statements

* `Grammar.derives_of_outcome_eq_success`: a success consumes a word of the language.
* `Grammar.outcome_eq_success_of_derives`: a separated grammar reads every word of its language,
  whatever follows it.
* `Grammar.parser_sound_and_complete`: both together.
-/

namespace ApplicativeParsing.Grammar

open FiniteInput (elements)

variable {κ ι σ α : Type} [FiniteInput ι σ] [BEq σ] [ToString σ]

/-- Functions are read in front of their arguments: applying them is lifting application. -/
theorem parser_apply {β : Type} (arg : Grammar σ α) (fn : Grammar σ (α → β)) :
    ((apply arg fn).parser : Parser κ ι β) =
      .lift₂ (fun f a => pure (f a)) fn.parser arg.parser :=
  Parser.apply_map_eq_lift₂ _ _ _

/-- A parser that succeeds has consumed a word of the language, and yields the value of it. -/
theorem derives_of_outcome_eq_success (p : Grammar σ α) {s r : ι} {v : α}
    (h : (p.parser : Parser κ ι α).outcome s = .success (v, r)) :
    ∃ w, elements s = w ++ elements r ∧ p.Derives w v := by
  -- the input is general, because a second part runs on what the first one left
  induction p generalizing s r with
  | element e =>
    -- the element that was read need not be the value, it only has to be accepted
    obtain ⟨rfl, -, x, hs, hx⟩ := Parser.outcome_element_eq_success.1 h
    exact ⟨[x], hs, x, rfl, hx, rfl⟩
  | ret a =>
    cases h
    exact ⟨[], rfl, rfl, rfl⟩
  | andThen p q ihp ihq =>
    obtain ⟨t, hp, hq⟩ := Parser.outcome_andThen_eq_success.1 h
    obtain ⟨w₁, hs, hw₁⟩ := ihp hp
    obtain ⟨w₂, ht, hw₂⟩ := ihq hq
    exact ⟨w₁ ++ w₂, FiniteInput.elements_eq_append hs ht, w₁, w₂, rfl, hw₁, hw₂⟩
  | orElse p q ihp ihq =>
    rcases Parser.outcome_orElse_eq_success.1 h with hp | ⟨-, hq⟩
    · obtain ⟨w, hs, hw⟩ := ihp hp
      exact ⟨w, hs, .inl hw⟩
    · obtain ⟨w, hs, hw⟩ := ihq hq
      exact ⟨w, hs, .inr hw⟩
  | choice ps ih =>
    obtain ⟨i, hi, -⟩ := Choice.outcome_ofFn_eq_success.1 h
    obtain ⟨w, hs, hw⟩ := ih i hi
    exact ⟨w, hs, i, hw⟩
  | select p f ih =>
    obtain ⟨a, hp, rfl⟩ := Parser.outcome_map_eq_success.1 h
    obtain ⟨w, hs, hw⟩ := ih hp
    exact ⟨w, hs, a, hw, rfl⟩
  | apply arg fn iha ihf =>
    -- as a lifting of application the functions come first, and so does their word
    rw [parser_apply] at h
    obtain ⟨f, a, t, hf, ha, rfl⟩ := Parser.outcome_lift₂_eq_success.1 h
    obtain ⟨w₁, hs, hw₁⟩ := ihf hf
    obtain ⟨w₂, ht, hw₂⟩ := iha ha
    exact ⟨w₁ ++ w₂, FiniteInput.elements_eq_append hs ht, w₁, w₂, f, a, rfl, hw₁, hw₂, rfl⟩
  | lift₂ f x y ihx ihy =>
    obtain ⟨a, b, t, hx, hy, rfl⟩ := Parser.outcome_lift₂_eq_success.1 h
    obtain ⟨w₁, hs, hw₁⟩ := ihx hx
    obtain ⟨w₂, ht, hw₂⟩ := ihy hy
    exact ⟨w₁ ++ w₂, FiniteInput.elements_eq_append hs ht, w₁, w₂, a, b, rfl, hw₁, hw₂, rfl⟩
  | boxed p ih => exact ih h

/-- A grammar that is apart from another one fails in front of the words of that other one. -/
theorem Apart.outcome_eq_failure {β : Type} {p : Grammar σ α} {q : Grammar σ β} (h : p.Apart q)
    {s : ι} {w u : List σ} {v : β} (hq : q.Derives w v) (hs : elements s = w ++ u) :
    ∃ e, (p.parser : Parser κ ι α).outcome s = .failure e := by
  cases hp : (p.parser : Parser κ ι α).outcome s with
  | failure e => exact ⟨e, rfl⟩
  | success r =>
    -- the word that `p` consumed and `w` both start the input, so one of them starts the other
    obtain ⟨w', hs', hw'⟩ := derives_of_outcome_eq_success p hp
    obtain ⟨h₁, h₂⟩ := h hw' hq
    have hpre : w' <+: w ++ u := ⟨elements r.2, by rw [← hs', hs]⟩
    rcases List.prefix_or_prefix_of_prefix hpre (List.prefix_append w u) with h | h
    · exact absurd h h₁
    · exact absurd h h₂

/-- A separated grammar reads every word of its language, and leaves what follows it. -/
theorem outcome_eq_success_of_derives {p : Grammar σ α} (hp : p.Separated) {s : ι}
    {w u : List σ} {v : α} (hw : p.Derives w v) (hs : elements s = w ++ u) :
    ∃ r, elements r = u ∧ (p.parser : Parser κ ι α).outcome s = .success (v, r) := by
  -- what follows the word is general: for a first part it begins with the word of the second
  induction p generalizing s w u with
  | element e =>
    obtain ⟨x, rfl, hx, rfl⟩ := hw
    have hr : elements (Input.rest s) = u := by
      rw [FiniteInput.elements_rest_eq_tail, hs, List.singleton_append, List.tail_cons]
    refine ⟨Input.rest s, hr, ?_⟩
    exact Parser.outcome_element_eq_success.2 ⟨rfl, rfl, x, by rw [hs, hr]; rfl, hx⟩
  | ret a =>
    obtain ⟨rfl, rfl⟩ := hw
    exact ⟨s, hs, rfl⟩
  | andThen p q ihp ihq =>
    obtain ⟨w₁, w₂, rfl, hw₁, hw₂⟩ := hw
    rw [List.append_assoc] at hs
    obtain ⟨t, ht, hpt⟩ := ihp hp.1 hw₁ hs
    obtain ⟨r, hr, hqr⟩ := ihq hp.2 hw₂ ht
    exact ⟨r, hr, Parser.outcome_andThen_eq_success.2 ⟨t, hpt, hqr⟩⟩
  | orElse p q ihp ihq =>
    obtain ⟨hsp, hsq, hpq⟩ := hp
    rcases hw with hw | hw
    · obtain ⟨r, hr, hpr⟩ := ihp hsp hw hs
      exact ⟨r, hr, Parser.outcome_orElse_eq_success.2 (.inl hpr)⟩
    · obtain ⟨r, hr, hqr⟩ := ihq hsq hw hs
      -- the first alternative has to be out of the way before the second one runs
      have hfail := hpq.outcome_eq_failure (κ := κ) hw hs
      exact ⟨r, hr, Parser.outcome_orElse_eq_success.2 (.inr ⟨hfail, hqr⟩)⟩
  | choice ps ih =>
    obtain ⟨hsep, hapart⟩ := hp
    obtain ⟨i, hw⟩ := hw
    obtain ⟨r, hr, hir⟩ := ih i (hsep i) hw hs
    -- only those before `i` matter, and all of them are apart from it
    refine ⟨r, hr, Choice.outcome_ofFn_of_success hir fun j hj => ?_⟩
    exact (hapart j i (Fin.ne_of_lt hj)).outcome_eq_failure hw hs
  | select p f ih =>
    obtain ⟨a, hw, rfl⟩ := hw
    obtain ⟨r, hr, hpr⟩ := ih hp hw hs
    exact ⟨r, hr, Parser.outcome_map_eq_success.2 ⟨a, hpr, rfl⟩⟩
  | apply arg fn iha ihf =>
    obtain ⟨w₁, w₂, f, a, rfl, hw₁, hw₂, rfl⟩ := hw
    rw [List.append_assoc] at hs
    obtain ⟨t, ht, hft⟩ := ihf hp.1 hw₁ hs
    obtain ⟨r, hr, har⟩ := iha hp.2 hw₂ ht
    refine ⟨r, hr, ?_⟩
    rw [parser_apply]
    exact Parser.outcome_lift₂_eq_success.2 ⟨f, a, t, hft, har, rfl⟩
  | lift₂ f x y ihx ihy =>
    obtain ⟨w₁, w₂, a, b, rfl, hw₁, hw₂, rfl⟩ := hw
    rw [List.append_assoc] at hs
    obtain ⟨t, ht, hxt⟩ := ihx hp.1 hw₁ hs
    obtain ⟨r, hr, hyr⟩ := ihy hp.2 hw₂ ht
    exact ⟨r, hr, Parser.outcome_lift₂_eq_success.2 ⟨a, b, t, hxt, hyr, rfl⟩⟩
  | boxed p ih => exact ih hp hw hs

/-- A parser consumes only words of its language, with their values. If its alternatives are apart
it reads each of these words wherever one stands in front of an input, with its value, and leaves
exactly what follows. -/
theorem parser_sound_and_complete (p : Grammar σ α) :
    (∀ (s r : ι) (v : α), (p.parser : Parser κ ι α).outcome s = .success (v, r) →
      ∃ w, elements s = w ++ elements r ∧ p.Derives w v) ∧
    (p.Separated → ∀ (s : ι) (w u : List σ) (v : α), p.Derives w v → elements s = w ++ u →
      ∃ r, elements r = u ∧ (p.parser : Parser κ ι α).outcome s = .success (v, r)) :=
  ⟨fun _ _ _ h => derives_of_outcome_eq_success p h,
    fun hp _ _ _ _ hw hs => outcome_eq_success_of_derives hp hw hs⟩

/-- A grammar whose second alternative is read behind a failure of the first, and what its parser
consumes. -/
theorem parser_sound_and_complete_orElse :
    let p : Grammar Char Char :=
      .orElse (.select (.andThen (.element 'a') (.element 'b')) Prod.snd) (.element 'c')
    p.Separated ∧ p.Derives ['c'] 'c' ∧
      (∃ r : List Char, r = ['d'] ∧
        (p.parser : Parser Unit (List Char) Char).outcome ['c', 'd'] = .success ('c', r)) ∧
      ∃ w, ['a', 'b'] = w ++ [] ∧ p.Derives w 'b' := by
  intro p
  have hsep : p.Separated := by
    refine ⟨⟨trivial, trivial⟩, trivial, ?_⟩
    rintro w v w' v' ⟨a, ⟨w₁, w₂, rfl, ⟨x, rfl, hx, -⟩, y, rfl, hy, -⟩, -⟩ ⟨z, rfl, hz, -⟩
    rw [beq_iff_eq] at hx hz
    subst hx hz
    simp
  have hder : p.Derives ['c'] 'c' := .inr ⟨'c', rfl, rfl, rfl⟩
  have hp := parser_sound_and_complete (κ := Unit) (ι := List Char) p
  exact ⟨hsep, hder, hp.2 hsep ['c', 'd'] ['c'] ['d'] 'c' hder rfl, hp.1 ['a', 'b'] [] 'b' rfl⟩

end ApplicativeParsing.Grammar

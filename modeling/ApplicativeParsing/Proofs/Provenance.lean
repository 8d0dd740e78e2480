import Mathlib.Data.List.OfFn
import ApplicativeParsing.Grammar.Observation
import ApplicativeParsing.Proofs.FiniteInput
import ApplicativeParsing.Proofs.Notes

/-!
# Where failures come from

A failure is only text, and every combinator hands on the text that it got. So the text of a failed
run was made by a primitive, and it is the one that was called last: sequences stop at the failure,
and fallbacks and choices report their last alternative, which is also the last that they try.

## Main definitions

* `Call.Explains`: the last primitive among the calls of a run accounts for its failure.
* `Parser.Accountable`: the calls that a parser notes explain its failures.

## Main statements

* `Parser.Accountable.andThen`, `Parser.Accountable.orElse`, `Parser.Accountable.choice`,
  `Parser.Accountable.select`, `Parser.Accountable.lift₂`: the combinators keep this up.
* `Grammar.failure_provenance`: the source and the wording of the failures of a grammar.
-/

namespace ApplicativeParsing

open FiniteInput (elements)

variable {κ ι σ α β γ : Type}

/-! ### Explained failures -/

namespace Call

/-- The last primitive among some calls. -/
def lastPrimitive? (calls : List (Call ι σ)) : Option (Call ι σ) :=
  (calls.filter isPrimitive).getLast?

/-- Calls in front of a primitive do not matter. -/
theorem lastPrimitive?_append {calls : List (Call ι σ)} {c : Call ι σ}
    (before : List (Call ι σ)) (h : lastPrimitive? calls = some c) :
    lastPrimitive? (before ++ calls) = some c := by
  unfold lastPrimitive? at h ⊢
  rw [List.filter_append, List.getLast?_append, h, Option.some_or]

variable [FiniteInput ι σ] [BEq σ] [ToString σ]

/-- The last primitive among `calls` is the parser for one element at one of `sites`. It was called
on an end of `s` and could not read its element there, and `message` is the wording of that. -/
def Explains (sites : List (Site σ)) (s : ι) (calls : List (Call ι σ)) (message : String) : Prop :=
  ∃ path e t f, lastPrimitive? calls = some (.element path e t) ∧ .element path e ∈ sites ∧
    elements t <:+ elements s ∧ Parser.element.failure? e t = some f ∧ message = f.message

/-- What explains the failure of a part explains the failure of the whole, if the part ran last. -/
theorem Explains.of_part {sites sites' : List (Site σ)} {s t : ι} {calls : List (Call ι σ)}
    {message : String} (h : Explains sites t calls message) (before : List (Call ι σ))
    (hsites : sites ⊆ sites') (ht : elements t <:+ elements s) :
    Explains sites' s (before ++ calls) message := by
  obtain ⟨path, e, r, f, hlast, hmem, hr, hf, hm⟩ := h
  exact ⟨path, e, r, f, lastPrimitive?_append before hlast, hsites hmem, hr.trans ht, hf, hm⟩

end Call

variable [FiniteInput ι σ] [BEq σ] [ToString σ]

namespace Parser

/-- Successes leave an end of the input, and the calls that are noted explain the failures. -/
structure Accountable (sites : List (Site σ)) (p : Parser (Call ι σ) ι α) : Prop where
  /-- The rest of a success is an end of the input. -/
  suffix {s r : ι} {v : α} : p.outcome s = .success (v, r) → elements r <:+ elements s
  /-- A failure comes from the last primitive that was called. -/
  explains {s : ι} {m : String} :
    p.outcome s = .failure m → Call.Explains sites s (p.run s).notes m

namespace Accountable

variable {sites sites' : List (Site σ)}

/-- A failure may be looked for among more sites. -/
theorem mono {p : Parser (Call ι σ) ι α} (hp : Accountable sites p) (h : sites ⊆ sites') :
    Accountable sites' p where
  suffix := hp.suffix
  explains hm := (hp.explains hm).of_part [] h (List.suffix_refl _)

/-- The parser for one element answers for its own failures. -/
theorem element (path : Path) (e : σ) :
    Accountable [.element path e] ((Parser.element e : Parser _ ι σ).probe (.element path e)) where
  suffix h := by
    rw [outcome_probe] at h
    obtain ⟨-, -, x, hs, -⟩ := outcome_element_eq_success.1 h
    exact ⟨[x], hs.symm⟩
  explains {s m} h := by
    rw [outcome_probe] at h
    obtain ⟨f, hf, hm⟩ := outcome_element_eq_failure.1 h
    exact ⟨path, e, s, f, rfl, List.mem_singleton.2 rfl, List.suffix_refl _, hf, hm⟩

/-- A value without reading does not fail. -/
theorem ret (path : Path) (a : α) :
    Accountable [.ret path] ((Parser.ret a : Parser (Call ι σ) ι α).probe (.ret path)) where
  suffix h := by
    cases h
    exact List.suffix_refl _
  explains h := nomatch h

/-- A sequence stops at the failure of a part, so that this part ran last. -/
theorem andThen {p : Parser (Call ι σ) ι α} {q : Parser (Call ι σ) ι β}
    (hp : Accountable sites p) (hq : Accountable sites' q) :
    Accountable (sites ++ sites') (p.andThen q) where
  suffix h := by
    obtain ⟨t, hpt, hqt⟩ := outcome_andThen_eq_success.1 h
    exact (hq.suffix hqt).trans (hp.suffix hpt)
  explains h := by
    rw [notes_andThen]
    -- the part that failed ran last: behind a failure of `p` nothing is noted any more
    rcases outcome_andThen_eq_failure.1 h with hps | ⟨a, t, hps, hqt⟩
    · rw [hps, List.append_nil]
      exact (hp.mono (List.subset_append_left _ _)).explains hps
    · rw [hps]
      exact (hq.explains hqt).of_part _ (List.subset_append_right _ _) (hp.suffix hps)

/-- Two alternatives fail as the second, which then ran last. -/
theorem orElse {p q : Parser (Call ι σ) ι α} (hp : Accountable sites p)
    (hq : Accountable sites' q) : Accountable (sites ++ sites') (p.orElse q) where
  suffix h := by
    rcases outcome_orElse_eq_success.1 h with hps | ⟨-, hqs⟩
    · exact hp.suffix hps
    · exact hq.suffix hqs
  explains h := by
    obtain ⟨⟨e, hps⟩, hqs⟩ := outcome_orElse_eq_failure.1 h
    -- the failure of `p` is swallowed together with what explains it
    rw [notes_orElse, hps]
    exact (hq.explains hqs).of_part _ (List.subset_append_right _ _) (List.suffix_refl _)

/-- A choice fails as its last alternative, which then ran last. -/
theorem choice {n : Nat} {ps : Fin (n + 1) → Parser (Call ι σ) ι α}
    {sites : Fin (n + 1) → List (Site σ)} (hps : ∀ i, Accountable (sites i) (ps i)) :
    Accountable (List.ofFn sites).flatten (Choice.ofFn ps).parser where
  suffix h := by
    obtain ⟨i, hi, -⟩ := Choice.outcome_ofFn_eq_success.1 h
    exact (hps i).suffix hi
  explains h := by
    obtain ⟨hall, hlast⟩ := Choice.outcome_ofFn_eq_failure.1 h
    obtain ⟨before, hnotes⟩ := Choice.notes_ofFn_of_failure hall
    have hsites : sites (Fin.last n) ⊆ (List.ofFn sites).flatten := fun site hsite =>
      List.mem_flatten.2 ⟨_, List.mem_ofFn.2 ⟨_, rfl⟩, hsite⟩
    rw [hnotes]
    exact ((hps _).explains hlast).of_part before hsites (List.suffix_refl _)

/-- A mapping fails as its operand, and its function is not called then. -/
theorem select {p : Parser (Call ι σ) ι α} (hp : Accountable sites p)
    (f : α → Traced (Call ι σ) β) : Accountable sites (p.select f) where
  suffix h := by
    obtain ⟨a, hps, -⟩ := outcome_select_eq_success.1 h
    exact hp.suffix hps
  explains h := by
    have hps := outcome_select_eq_failure.1 h
    -- whatever `f` would note is left out
    rw [notes_select, hps, List.append_nil]
    exact hp.explains hps

/-- Lifting is mapping a sequence. -/
theorem lift₂ {x : Parser (Call ι σ) ι α} {y : Parser (Call ι σ) ι β}
    (f : α → β → Traced (Call ι σ) γ) (hx : Accountable sites x) (hy : Accountable sites' y) :
    Accountable (sites ++ sites') (Parser.lift₂ f x y) := by
  rw [lift₂_eq_select]
  exact (hx.andThen hy).select _

end Accountable

end Parser

/-- No cause of a failure is worded like the refusal of an empty choice. -/
theorem ParseFailure.message_ne_emptyChoice (f : ParseFailure) :
    f.message ≠ BuildError.emptyChoice.message := by
  cases f with
  | noMoreInput => decide
  | mismatch expected actual =>
    -- the two texts differ in their first characters
    intro h
    have hhead := congrArg (fun text => text.toList.head?) h
    rw [head?_message_mismatch] at hhead
    exact absurd hhead (by decide)

namespace Grammar

/-! ### Failures of a grammar -/

/-- The observed parser of a grammar answers for its failures at the sites of the grammar. -/
theorem accountable_observed (path : Path) (p : Grammar σ α) :
    (p.observed path : Parser _ ι α).Accountable (p.order path) := by
  induction p generalizing path with
  | element e => exact .element path e
  | ret a => exact .ret path a
  | andThen p q ihp ihq => exact (ihp _).andThen (ihq _)
  | orElse p q ihp ihq => exact (ihp _).orElse (ihq _)
  | choice ps ih => exact .choice fun i => ih i _
  | select p f ih => exact ((ih _).select _).mono (List.subset_append_left _ _)
  | apply arg fn iha ihf =>
    -- the functions run first, and their sites come first in the order
    rw [observed, Parser.apply_map_eq_lift₂]
    exact ((ihf _).lift₂ _ (iha _)).mono (List.subset_append_left _ _)
  | lift₂ f x y ihx ihy => exact ((ihx _).lift₂ _ (ihy _)).mono (List.subset_append_left _ _)
  | boxed p ih => exact ih _

/-- The calls in a failed run explain the failure. -/
theorem explains_of_outcome_eq_failure (p : Grammar σ α) {s : ι} {m : String}
    (h : (p.parser : Parser κ ι α).outcome s = .failure m) :
    Call.Explains (p.order []) s (p.calls s) m := by
  rw [← outcome_observed []] at h
  exact (accountable_observed [] p).explains h

/-- No parser of a grammar fails with the wording of the refusal of an empty choice. -/
theorem outcome_ne_emptyChoice (p : Grammar σ α) (s : ι) :
    (p.parser : Parser κ ι α).outcome s ≠ .failure BuildError.emptyChoice.message := by
  intro h
  obtain ⟨_, _, _, f, -, -, -, -, hm⟩ := explains_of_outcome_eq_failure p h
  exact f.message_ne_emptyChoice hm.symm

/-- What is built from a list of parsers of grammars is the parser of a grammar. -/
theorem exists_parser_eq_of_ofList {ps : List (Grammar σ α)} {c : Choice (Parser κ ι α)}
    (h : (Choice.ofList (ps.map parser) : Traced κ _).value = .ok c) :
    ∃ p : Grammar σ α, p.parser = c.parser := by
  cases ps with
  | nil => cases h
  | cons q qs =>
    cases h
    -- the list is not empty, so it is a family over as many places
    exact ⟨.choiceOf q qs, parser_choiceOf q qs⟩

/-- A parser that fails reports the last primitive that was called in its run. This is one of its
parsers for one element, called on an end of the input, and the message says what it found there.
So the text that a search over alternatives starts from is never reported, neither by the parser
of a grammar nor by a choice that was built from a list of them. -/
theorem failure_provenance (p : Grammar σ α) (s : ι) :
    (∀ m, (p.parser : Parser κ ι α).outcome s = .failure m →
      ∃ path e t, Call.lastPrimitive? (p.calls s) = some (.element path e t) ∧
        .element path e ∈ p.order [] ∧ elements t <:+ elements s ∧
        ((elements t = [] ∧ m = "No more input") ∨
          ∃ h u, elements t = h :: u ∧ (h == e) = false ∧
            m = "Expecting '" ++ toString e ++ "'. Got '" ++ toString h ++ "'.")) ∧
    (p.parser : Parser κ ι α).outcome s ≠ .failure "Choice on empty sequence" ∧
    ∀ (ps : List (Grammar σ α)) (c : Choice (Parser κ ι α)),
      (Choice.ofList (ps.map parser) : Traced κ _).value = .ok c →
      c.parser.outcome s ≠ .failure "Choice on empty sequence" := by
  refine ⟨fun m hm => ?_, outcome_ne_emptyChoice p s, fun ps c hc => ?_⟩
  · obtain ⟨path, e, t, f, hlast, hmem, ht, hf, rfl⟩ := explains_of_outcome_eq_failure p hm
    refine ⟨path, e, t, hlast, hmem, ht, ?_⟩
    rcases Parser.element.failure?_eq_some_iff.1 hf with ⟨hnil, rfl⟩ | ⟨x, u, hcons, hx, rfl⟩
    · exact .inl ⟨hnil, rfl⟩
    · exact .inr ⟨x, u, hcons, hx, rfl⟩
  · obtain ⟨q, hq⟩ := exists_parser_eq_of_ofList hc
    rw [← hq]
    exact outcome_ne_emptyChoice q s

/-- A failure behind a fallback: the last candidate of the argument did not match. -/
theorem failure_provenance_apply :
    let p : Grammar Char Char :=
      .apply (.anyOf (n := 1) ['c', 'd'].get) <|
        .select (.orElse (.element 'a') (.element 'b')) fun _ x => x
    let c : Choice (Parser Unit (List Char) Char) := ⟨p.parser, []⟩
    (p.parser : Parser Unit (List Char) Char).outcome ['b', 'z'] =
        .failure "Expecting 'd'. Got 'z'." ∧
      (∃ path e t, Call.lastPrimitive? (p.calls ['b', 'z']) = some (.element path e t) ∧
        .element path e ∈ p.order [] ∧ t <:+ ['b', 'z'] ∧
        ((t = [] ∧ "Expecting 'd'. Got 'z'." = "No more input") ∨
          ∃ h u, t = h :: u ∧ (h == e) = false ∧
            "Expecting 'd'. Got 'z'." =
              "Expecting '" ++ toString e ++ "'. Got '" ++ toString h ++ "'.")) ∧
      c.parser.outcome ['b', 'z'] ≠ .failure "Choice on empty sequence" := by
  intro p c
  have hfail : (p.parser : Parser Unit (List Char) Char).outcome ['b', 'z'] =
      .failure "Expecting 'd'. Got 'z'." := rfl
  obtain ⟨hblame, -, hbuilt⟩ := failure_provenance (κ := Unit) p ['b', 'z']
  exact ⟨hfail, hblame _ hfail, hbuilt [p] c rfl⟩

end Grammar

end ApplicativeParsing

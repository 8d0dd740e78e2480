import ApplicativeParsing.Proofs.Building
import ApplicativeParsing.Proofs.Consumption
import ApplicativeParsing.Proofs.Denotation
import ApplicativeParsing.Session.Basic

/-!
# Sessions go forward

A step of a session is refused for one reason, an empty choice in a parser that it has to build, and
then it changes nothing. A step that is taken forgets nothing: the parsers that are kept stay, and
the cursor moves over what was read, or stays where it was. It is put somewhere else only when
another input is loaded.

A step that runs a parser at the cursor moves it by as many elements as the parser reads. If the
parser stands for a grammar, this is what the grammar says.

## Main definitions

* `Step.descriptions`: the parsers that a step builds.
* `Session.Extends`: a session with the same input, further on.

## Main statements

* `Session.refused_iff`: which steps are refused.
* `Assembly.exists_consumes`: every assembly reads from the front and no more than some number of
  elements.
* `Session.extends_step`, `Session.extends_foldl_step`: a step, and any number of them.
* `Session.step_next_of_grammar`: a step at the cursor, by the grammar of its parser.
-/

namespace ApplicativeParsing

open FiniteInput (elements)

/-! ### What is refused -/

/-- The parsers that a step builds, in this order. -/
def Step.descriptions : Step → List Description
  | define _ p | run p _ | next p | debug p _ | alternatives p | expected p => [p]
  | same p q _ => [p, q]
  | load _ | first | isEmpty | rest => []

namespace Description

/-- What goes on from a built parser is refused if the parser is, or if it is refused itself, which
does not depend on the parser. -/
theorem build_bind_refused_iff {σ μ ν β : Type} (d : Description σ μ ν)
    {f : Assembly σ μ ν → Building β} {P : Prop}
    (hf : ∀ a, (f a).run.value = .error .emptyChoice ↔ P) :
    (d.build >>= f).run.value = .error .emptyChoice ↔ 0 ∈ d.choiceSizes ∨ P := by
  rw [value_bind_eq_error_iff, (builds_build d).refused_iff]
  constructor
  · rintro (h0 | ⟨a, -, ha⟩)
    · exact .inl h0
    · exact .inr ((hf a).1 ha)
  · intro h
    by_cases h0 : 0 ∈ d.choiceSizes
    · exact .inl h0
    · obtain ⟨a, ha, -⟩ := (builds_build d).yields h0
      exact .inr ⟨a, ha, (hf a).2 (h.resolve_left h0)⟩

/-- If nothing behind it is refused, then only the parser can be. -/
theorem build_bind_refused_iff_of_ok {σ μ ν β : Type} (d : Description σ μ ν)
    {f : Assembly σ μ ν → Building β} (hf : ∀ a, ∃ b, (f a).run.value = .ok b) :
    (d.build >>= f).run.value = .error .emptyChoice ↔ 0 ∈ d.choiceSizes := by
  rw [build_bind_refused_iff (P := False) d fun a => ?_, or_false]
  obtain ⟨b, hb⟩ := hf a
  simp [hb]

end Description

namespace Session

variable {s s' s'' : Session}

theorem value_runOn (a : Assembly) (input : Cursor) :
    (runOn a input).run.value = .ok (a.parser.outcome input) := rfl

/-- A step at the cursor moves it if the parser succeeds. -/
theorem value_tryStep_next {d : Description} {a : Assembly} (h : d.build.run.value = .ok a) :
    (s.tryStep (.next d)).run.value =
      match a.parser.outcome s.cursor with
      | .success (v, r) => .ok (.moved (.success (v, r)) r, { s with cursor := r })
      | .failure e => .ok (.moved (.failure e) s.cursor, s) := by
  rw [tryStep, Description.value_bind_of_ok h, Description.value_bind_of_ok (value_runOn a _)]
  cases a.parser.outcome s.cursor <;> rfl

/-- A step is refused if a parser that it builds has an empty choice, and for no other reason. -/
theorem refused_iff (s : Session) (st : Step) :
    (s.step st).value.1 = .error .emptyChoice ↔ ∃ d ∈ st.descriptions, 0 ∈ d.choiceSizes := by
  have hone (p : Description) : (∃ d ∈ [p], 0 ∈ d.choiceSizes) ↔ 0 ∈ p.choiceSizes := by simp
  have htwo (p q : Description) :
      (∃ d ∈ [p, q], 0 ∈ d.choiceSizes) ↔ 0 ∈ p.choiceSizes ∨ 0 ∈ q.choiceSizes := by simp
  rw [value_step_fst_eq_error_iff]
  cases st with
  | define _ p | run p _ | debug p _ | alternatives p | expected p =>
    rw [tryStep, Step.descriptions, hone]
    exact p.build_bind_refused_iff_of_ok fun a => ⟨_, rfl⟩
  | next p =>
    rw [tryStep, Step.descriptions, hone]
    refine p.build_bind_refused_iff_of_ok fun a => ?_
    rw [Description.value_bind_of_ok (value_runOn a s.cursor)]
    cases a.parser.outcome s.cursor <;> exact ⟨_, rfl⟩
  | same p q input =>
    -- that the first parser has run before the second is built makes no difference
    rw [tryStep, Step.descriptions, htwo]
    refine p.build_bind_refused_iff fun a => ?_
    rw [Description.value_bind_of_ok (value_runOn a input)]
    exact q.build_bind_refused_iff_of_ok fun b => ⟨_, rfl⟩
  | load _ | first | isEmpty | rest => simp [tryStep, Step.descriptions]

end Session

/-! ### How far an assembly reads -/

/-- Elements are taken from the front if there are enough of them. -/
theorem FiniteInput.splitAt?_eq {ι σ : Type} [FiniteInput ι σ] (n : Nat) (s : ι) :
    Input.splitAt? n s =
      if n ≤ (elements s).length then some ((elements s).take n, Input.rest^[n] s) else none := by
  induction n generalizing s with
  | zero => simp [Input.splitAt?]
  | succ n ih =>
    rw [Input.splitAt?, FiniteInput.first_eq_head?]
    cases h : elements s with
    | nil => simp
    | cons x w =>
      rw [List.head?_cons, ih, FiniteInput.elements_rest_eq_tail, h, List.tail_cons,
        List.length_cons, Function.iterate_succ_apply]
      by_cases hn : n ≤ w.length <;> simp [hn]

namespace Parser

variable {κ ι σ α : Type} [FiniteInput ι σ]

theorem Consumes.take (n : Nat) : (take n : Parser κ ι (List σ)).Consumes n n := by
  intro s v r h
  rw [outcome_take, FiniteInput.splitAt?_eq] at h
  split_ifs at h with hn
  cases h
  exact ⟨n, Nat.le_refl n, Nat.le_refl n, hn, rfl⟩

/-- What was read is given back. -/
theorem Consumes.peek (p : Parser κ ι α) : p.peek.Consumes 0 0 := by
  intro s v r h
  rw [outcome_peek] at h
  obtain ⟨x, -, hx⟩ := Outcome.map_eq_success.1 h
  cases hx
  exact ⟨0, Nat.le_refl 0, Nat.le_refl 0, Nat.zero_le _, rfl⟩

/-- Parsers of two bounds have the greater one in common. -/
theorem Consumes.forall_cons {lo hi hi' : Nat} {p : Parser κ ι α} {ps : List (Parser κ ι α)}
    (hp : p.Consumes lo hi) (hps : ∀ q ∈ ps, q.Consumes lo hi') :
    ∀ q ∈ p :: ps, q.Consumes lo (max hi hi') := by
  refine List.forall_mem_cons.2 ⟨?_, fun q hq => ?_⟩
  · exact hp.mono (Nat.le_refl lo) (Nat.le_max_left _ _)
  · exact (hps q hq).mono (Nat.le_refl lo) (Nat.le_max_right _ _)

theorem Consumes.firstOf {lo hi : Nat} {ps : List (Parser κ ι α)}
    (h : ∀ p ∈ ps, p.Consumes lo hi) : (firstOf ps).Consumes lo hi :=
  firstOf_induction fail recover h

end Parser

namespace Assembly

theorem consumes_readElement (e : Element) : (readElement e).Consumes 0 1 :=
  ((Parser.Consumes.element e).map _).mono (Nat.zero_le 1) (Nat.le_refl 1)

mutual

/-- An assembly reads from the front of the input, and no more than some number of elements. -/
theorem exists_consumes (a : Assembly) : ∃ hi, a.parser.Consumes 0 hi := by
  match a with
  | element e => exact ⟨1, consumes_readElement e⟩
  | anyOf e es =>
    refine ⟨1, ?_⟩
    rw [parser, Parser.firstOfMap_eq]
    refine .firstOf fun p hp => ?_
    obtain ⟨e, -, rfl⟩ := List.mem_map.1 hp
    exact consumes_readElement e
  | choice p ps =>
    obtain ⟨hi, hp⟩ := exists_consumes p
    obtain ⟨hi', hps⟩ := exists_consumes_all ps
    rw [parser, Parser.deferred_eq, Choice.parser, Choice.alternatives]
    exact ⟨max hi hi', .firstOf (hp.forall_cons hps)⟩
  | andThen p q =>
    obtain ⟨hi, hp⟩ := exists_consumes p
    obtain ⟨hi', hq⟩ := exists_consumes q
    rw [parser, Parser.deferred_eq]
    exact ⟨hi + hi', (hp.andThen hq).map _⟩
  | orElse p q =>
    obtain ⟨hi, hp⟩ := exists_consumes p
    obtain ⟨hi', hq⟩ := exists_consumes q
    rw [parser, Parser.deferred_eq]
    exact ⟨max hi hi', hp.orElse hq⟩
  | select p m =>
    obtain ⟨hi, hp⟩ := exists_consumes p
    rw [parser, Parser.deferred_eq]
    exact ⟨hi, hp.select _⟩
  | ret v => exact ⟨0, .ret v⟩
  | boxed p =>
    rw [parser, Parser.deferred_eq]
    exact exists_consumes p
  | apply arg fn =>
    obtain ⟨hi, harg⟩ := exists_consumes arg
    obtain ⟨hi', hfn⟩ := exists_consumes fn
    rw [parser, Parser.deferred_eq, Parser.apply_map_eq_lift₂]
    exact ⟨hi' + hi, hfn.lift₂ harg _⟩
  | lift₂ m x y =>
    obtain ⟨hi, hx⟩ := exists_consumes x
    obtain ⟨hi', hy⟩ := exists_consumes y
    rw [parser, Parser.deferred_eq]
    exact ⟨hi + hi', hx.lift₂ hy _⟩
  | fail e => exact ⟨0, .fail e⟩
  | take n => exact ⟨n, ((Parser.Consumes.take n).map _).mono (Nat.zero_le n) (Nat.le_refl n)⟩
  | peek p =>
    rw [parser, Parser.deferred_eq]
    exact ⟨0, .peek p.parser⟩
  | probe id p =>
    obtain ⟨hi, hp⟩ := exists_consumes p
    rw [parser, Parser.deferred_eq]
    exact ⟨hi, fun _ _ _ h => hp h⟩

/-- So do some assemblies, with one number for all of them. -/
theorem exists_consumes_all (as : List Assembly) : ∃ hi, ∀ p ∈ parsers as, p.Consumes 0 hi := by
  match as with
  | [] => exact ⟨0, by simp [parsers]⟩
  | a :: as =>
    obtain ⟨hi, ha⟩ := exists_consumes a
    obtain ⟨hi', has⟩ := exists_consumes_all as
    exact ⟨max hi hi', ha.forall_cons has⟩

end

end Assembly

/-! ### Steps that are taken -/

namespace Session

variable {s s' s'' : Session}

/-- The session has the parsers of another one and maybe more, and its cursor is where the cursor of
the other one comes to after some elements. -/
structure Extends (s s' : Session) : Prop where
  /-- Nothing is forgotten. -/
  definitions : s.definitions <:+ s'.definitions
  /-- The cursor is further on, or where it was. -/
  cursor : ∃ k, s'.cursor = Input.rest^[k] s.cursor

namespace Extends

theorem refl (s : Session) : s.Extends s := ⟨List.suffix_rfl, 0, rfl⟩

theorem trans (h : s.Extends s') (h' : s'.Extends s'') : s.Extends s'' := by
  obtain ⟨k, hk⟩ := h.cursor
  obtain ⟨m, hm⟩ := h'.cursor
  refine ⟨h.definitions.trans h'.definitions, m + k, ?_⟩
  rw [hm, hk, Function.iterate_add_apply]

end Extends

/-- A step that is taken extends the session, unless it loads another input. -/
theorem extends_of_tryStep {st : Step} {answer : Answer} (hload : ∀ input, st ≠ .load input)
    (h : (s.tryStep st).run.value = .ok (answer, s')) : s.Extends s' := by
  cases st with
  | define name p =>
    obtain ⟨a, -, ha⟩ := Description.value_bind_eq_ok_iff.1 h
    cases ha
    exact ⟨List.suffix_cons _ _, 0, rfl⟩
  | load input => exact absurd rfl (hload input)
  | next p =>
    obtain ⟨a, hp, -⟩ := Description.value_bind_eq_ok_iff.1 h
    rw [value_tryStep_next hp] at h
    cases ho : a.parser.outcome s.cursor with
    | failure e =>
      rw [ho] at h
      cases h
      exact .refl s
    | success x =>
      rw [ho] at h
      cases h
      -- how many elements are read does not matter, only that they stand in front
      obtain ⟨hi, ha⟩ := a.exists_consumes
      obtain ⟨k, -, -, -, hr⟩ := ha ho
      exact ⟨List.suffix_rfl, k, hr⟩
  | rest =>
    cases h
    exact ⟨List.suffix_rfl, 1, rfl⟩
  | first | isEmpty =>
    cases h
    exact .refl s
  | run p _ | debug p _ | alternatives p | expected p =>
    obtain ⟨a, -, ha⟩ := Description.value_bind_eq_ok_iff.1 h
    cases ha
    exact .refl s
  | same p q _ =>
    obtain ⟨a, -, ha⟩ := Description.value_bind_eq_ok_iff.1 h
    obtain ⟨o, -, ho⟩ := Description.value_bind_eq_ok_iff.1 ha
    obtain ⟨b, -, hb⟩ := Description.value_bind_eq_ok_iff.1 ho
    cases hb
    exact .refl s

/-- A step extends the session, unless it loads another input. -/
theorem extends_step (s : Session) {st : Step} (hload : ∀ input, st ≠ .load input) :
    s.Extends (s.step st).value.2 := by
  rw [value_step]
  cases h : (s.tryStep st).run.value with
  | ok x => exact extends_of_tryStep hload h
  | error e => exact .refl s

/-- So does any number of steps. -/
theorem extends_foldl_step (s : Session) {steps : List Step}
    (hload : ∀ st ∈ steps, ∀ input, st ≠ .load input) :
    s.Extends (steps.foldl (fun s st => (s.step st).value.2) s) := by
  induction steps generalizing s with
  | nil => exact .refl s
  | cons st steps ih =>
    obtain ⟨hst, hsteps⟩ := List.forall_mem_cons.1 hload
    exact (s.extends_step hst).trans (ih _ hsteps)

/-! ### Steps at the cursor -/

/-- A step at the cursor with a parser that stands for a grammar does what the grammar says. It
moves the cursor by a number of elements between the bounds of the grammar, or leaves it where it
was and answers with the failure. -/
theorem step_next_of_grammar (s : Session) {d : Description} {a : Assembly}
    {g : Grammar Element Value} (ha : d.build.run.value = .ok a) (hg : a.grammar? = some g) :
    (∃ v k, g.lo ≤ k ∧ k ≤ g.hi ∧ k ≤ (elements s.cursor).length ∧
        g.outcome s.cursor = .success (v, Input.rest^[k] s.cursor) ∧
        (s.step (.next d)).value =
          (.ok (.moved (.success (v, Input.rest^[k] s.cursor)) (Input.rest^[k] s.cursor)),
            { s with cursor := Input.rest^[k] s.cursor })) ∨
      ∃ e, g.outcome s.cursor = .failure e ∧
        (s.step (.next d)).value = (.ok (.moved (.failure e) s.cursor), s) := by
  rw [value_step, value_tryStep_next ha, Assembly.outcome_parser_eq hg]
  cases h : g.outcome s.cursor with
  | success x =>
    obtain ⟨v, r⟩ := x
    obtain ⟨k, hlo, hhi, hlength, rfl⟩ := g.parser_consumes h
    exact .inl ⟨v, k, hlo, hhi, hlength, rfl, rfl⟩
  | failure e => exact .inr ⟨e, rfl, rfl⟩

end Session

end ApplicativeParsing

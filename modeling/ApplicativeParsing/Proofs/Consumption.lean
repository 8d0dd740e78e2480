import Mathlib.Logic.Function.Iterate
import ApplicativeParsing.Grammar.Bounds
import ApplicativeParsing.Proofs.Language
import ApplicativeParsing.Proofs.Recovery

/-!
# How much is consumed

The rest that a success leaves is the input after some steps. How many steps there are depends on
the input, but two bounds on them can be read off the tree. An alternative that failed has no part
in this however far it looked, because the one after it starts from the input again, and functions
that are read before their arguments take their steps first.

The rest is described by the steps to it. Its elements say less: inputs that show the same elements
can still be different inputs.

## Main definitions

* `Parser.Consumes`: every success is at least `lo` and at most `hi` steps away.

## Main statements

* `Grammar.parser_consumes`: the parser of a grammar consumes between the bounds of the grammar.
* `Grammar.rest_within_bounds`: the rest of a success, and the inputs that are too short for one.
-/

namespace ApplicativeParsing

open FiniteInput (elements)

variable {κ ι σ α β γ : Type} [FiniteInput ι σ]

/-- Steps drop as many elements, as far as there are any. -/
theorem FiniteInput.elements_iterate_rest (s : ι) (k : Nat) :
    elements (Input.rest^[k] s) = (elements s).drop k := by
  induction k with
  | zero => rfl
  | succ k ih =>
    rw [Function.iterate_succ_apply', FiniteInput.elements_rest_eq_tail, ih, List.tail_drop]

namespace Parser

/-- Every success takes at least `lo` and at most `hi` steps, all of them over elements that are
there. -/
def Consumes (lo hi : Nat) (p : Parser κ ι α) : Prop :=
  ∀ ⦃s v r⦄, p.outcome s = .success (v, r) →
    ∃ k, lo ≤ k ∧ k ≤ hi ∧ k ≤ (elements s).length ∧ r = Input.rest^[k] s

namespace Consumes

variable {lo hi lo' hi' : Nat}

theorem mono {p : Parser κ ι α} (hp : p.Consumes lo hi) (hlo : lo' ≤ lo) (hhi : hi ≤ hi') :
    p.Consumes lo' hi' := by
  intro s v r h
  obtain ⟨k, hlok, hkhi, hks, hr⟩ := hp h
  exact ⟨k, hlo.trans hlok, hkhi.trans hhi, hks, hr⟩

/-- A consuming parser fails where fewer elements are left than it has to consume. -/
theorem exists_failure {p : Parser κ ι α} (hp : p.Consumes lo hi) {s : ι}
    (hs : (elements s).length < lo) : ∃ m, p.outcome s = .failure m := by
  cases h : p.outcome s with
  | failure m => exact ⟨m, rfl⟩
  | success x =>
    obtain ⟨k, hlok, -, hks, -⟩ := hp h
    exact absurd (hlok.trans hks) (Nat.not_le_of_lt hs)

theorem element [BEq σ] [ToString σ] (e : σ) :
    (Parser.element e : Parser κ ι σ).Consumes 1 1 := by
  intro s v r h
  obtain ⟨-, hr, x, hs, -⟩ := outcome_element_eq_success.1 h
  refine ⟨1, Nat.le_refl _, Nat.le_refl _, ?_, hr⟩
  rw [hs, List.length_cons]
  exact Nat.le_add_left 1 _

theorem ret (a : α) : (Parser.ret a : Parser κ ι α).Consumes 0 0 := by
  intro s v r h
  cases h
  exact ⟨0, Nat.le_refl _, Nat.le_refl _, Nat.zero_le _, rfl⟩

theorem fail (e : String) : (Parser.fail e : Parser κ ι α).Consumes lo hi :=
  fun _ _ _ h => nomatch h

/-- The steps of the second part go on from where the first one stopped. -/
theorem andThen {p : Parser κ ι α} {q : Parser κ ι β} (hp : p.Consumes lo hi)
    (hq : q.Consumes lo' hi') : (p.andThen q).Consumes (lo + lo') (hi + hi') := by
  intro s v r h
  obtain ⟨t, hps, hqt⟩ := outcome_andThen_eq_success.1 h
  obtain ⟨k, hlok, hkhi, hks, rfl⟩ := hp hps
  obtain ⟨m, hlom, hmhi, hmt, rfl⟩ := hq hqt
  -- what the second part steps over is left after the first `k` elements
  rw [FiniteInput.elements_iterate_rest, List.length_drop] at hmt
  refine ⟨k + m, Nat.add_le_add hlok hlom, Nat.add_le_add hkhi hmhi, by omega, ?_⟩
  rw [Nat.add_comm, Function.iterate_add_apply]

/-- A recovery starts from the input again, whatever the part that failed had looked at. -/
theorem recover {event : String → Event} {p : Parser κ ι α} {q : String → Parser κ ι α}
    (hp : p.Consumes lo hi) (hq : ∀ e, (q e).Consumes lo hi) :
    (p.recover event q).Consumes lo hi := by
  intro s v r h
  rw [outcome_recover] at h
  cases hps : p.outcome s with
  | success x =>
    rw [hps] at h
    cases h
    exact hp hps
  -- the success is one of the recovery, on `s` and not on what `p` saw last
  | failure e =>
    rw [hps] at h
    exact hq e h

theorem orElse {p q : Parser κ ι α} (hp : p.Consumes lo hi) (hq : q.Consumes lo' hi') :
    (p.orElse q).Consumes (min lo lo') (max hi hi') := by
  rw [orElse_eq_recover]
  exact (hp.mono (Nat.min_le_left _ _) (Nat.le_max_left _ _)).recover fun _ =>
    hq.mono (Nat.min_le_right _ _) (Nat.le_max_right _ _)

theorem choice {n : Nat} {los his : Fin (n + 1) → Nat} {ps : Fin (n + 1) → Parser κ ι α}
    (h : ∀ i, (ps i).Consumes (los i) (his i)) :
    (Choice.ofFn ps).parser.Consumes (least los) (greatest his) :=
  -- all alternatives are brought to the same bounds first, which a recovery keeps
  Choice.parser_induction fail recover fun i => (h i).mono (least_le los i) (le_greatest his i)

theorem select {p : Parser κ ι α} (hp : p.Consumes lo hi) (f : α → Traced κ β) :
    (p.select f).Consumes lo hi := by
  intro s v r h
  obtain ⟨a, hps, -⟩ := outcome_select_eq_success.1 h
  exact hp hps

theorem map {p : Parser κ ι α} (hp : p.Consumes lo hi) (f : α → β) : (p.map f).Consumes lo hi :=
  hp.select _

theorem lift₂ {x : Parser κ ι α} {y : Parser κ ι β} (hx : x.Consumes lo hi)
    (hy : y.Consumes lo' hi') (f : α → β → Traced κ γ) :
    (Parser.lift₂ f x y).Consumes (lo + lo') (hi + hi') := by
  rw [lift₂_eq_select]
  exact (hx.andThen hy).select _

end Consumes

end Parser

namespace Grammar

variable [BEq σ] [ToString σ]

/-- The parser of a grammar consumes between the least and the greatest number of elements of the
grammar. -/
theorem parser_consumes (p : Grammar σ α) : (p.parser : Parser κ ι α).Consumes p.lo p.hi := by
  induction p with
  | element e => exact .element e
  | ret a => exact .ret a
  | andThen p q ihp ihq => exact ihp.andThen ihq
  | orElse p q ihp ihq => exact ihp.orElse ihq
  | choice ps ih => exact .choice ih
  | select p f ih => exact ih.map f
  | apply arg fn iha ihf =>
    -- the functions take their steps first, although they are the second operand
    rw [parser_apply]
    exact ihf.lift₂ iha _
  | lift₂ f x y ihx ihy => exact ihx.lift₂ ihy _
  | boxed p ih => exact ih

/-- A success leaves the input after some steps, with exactly as many elements dropped. The number
of steps is between the bounds of the grammar, and no step is taken at the end of the input. On an
input that has fewer elements than the lower bound the parser fails. -/
theorem rest_within_bounds (p : Grammar σ α) (s : ι) :
    (∀ v r, (p.parser : Parser κ ι α).outcome s = .success (v, r) →
      ∃ k, p.lo ≤ k ∧ k ≤ p.hi ∧ k ≤ (elements s).length ∧ r = Input.rest^[k] s ∧
        elements r = (elements s).drop k) ∧
    ((elements s).length < p.lo → ∃ m, (p.parser : Parser κ ι α).outcome s = .failure m) := by
  refine ⟨fun v r h => ?_, p.parser_consumes.exists_failure⟩
  obtain ⟨k, hlo, hhi, hlength, rfl⟩ := p.parser_consumes h
  exact ⟨k, hlo, hhi, hlength, rfl, FiniteInput.elements_iterate_rest s k⟩

/-- Behind an alternative that looked at two elements and failed, one that consumes a single
element; and an input that is too short. -/
theorem rest_within_bounds_apply :
    let p : Grammar Char (Char × Char) :=
      .apply (.element 'c') (.select (.orElse
        (.select (.andThen (.element 'a') (.element 'b')) Prod.fst) (.element 'a')) Prod.mk)
    let q : Parser Unit (List Char) (Char × Char) := p.parser
    p.lo = 2 ∧ p.hi = 3 ∧ q.outcome ['a', 'c', 'd'] = .success (('a', 'c'), ['d']) ∧
      (∃ k, 2 ≤ k ∧ k ≤ 3 ∧ k ≤ ['a', 'c', 'd'].length ∧ ['d'] = Input.rest^[k] ['a', 'c', 'd'] ∧
        ['d'] = ['a', 'c', 'd'].drop k) ∧
      ['a'].length < p.lo ∧ ∃ m, q.outcome ['a'] = .failure m := by
  intro p q
  have hsuccess : q.outcome ['a', 'c', 'd'] = .success (('a', 'c'), ['d']) := rfl
  have hshort : ['a'].length < p.lo := by decide
  obtain ⟨hrest, -⟩ := rest_within_bounds (κ := Unit) p ['a', 'c', 'd']
  obtain ⟨-, hfail⟩ := rest_within_bounds (κ := Unit) p ['a']
  exact ⟨rfl, rfl, hsuccess, hrest _ _ hsuccess, hshort, hfail hshort⟩

end Grammar

end ApplicativeParsing

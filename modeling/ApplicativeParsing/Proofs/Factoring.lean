import ApplicativeParsing.Proofs.Alternatives

/-!
# Factoring sequences out of alternatives

When all alternatives begin with the same parser, it can be taken out in front of them: it does the
same in each of them, so that either it fails in all or they go on from the same rest. When all end
with the same parser, taking it out behind them commits the choice earlier. The first alternative
that succeeds by itself decides then, and if the parser behind it fails no other alternative is
tried. So every success stays a success when the parser is left in the alternatives, but not the
other way round.

## Main statements

* `Parser.outcome_andThen_orElse`, `Parser.outcome_andThen_firstOf`: a common front taken out.
* `Parser.outcome_firstOf_andThen_of_success`: a success with a common end taken out.
* `Parser.committed_early_iff`: when a common end may not be taken out.
* `Choice.factoring`: both for choices.
-/

namespace ApplicativeParsing

variable {κ ι α β γ δ : Type}

namespace Parser

variable {s : ι}

/-! ### A common front -/

/-- A sequence with two alternatives behind its first part ends as the alternatives between two
sequences. -/
theorem outcome_andThen_orElse (a : Parser κ ι α) (p q : Parser κ ι β) (s : ι) :
    (a.andThen (p.orElse q)).outcome s = ((a.andThen p).orElse (a.andThen q)).outcome s := by
  rw [outcome_orElse]
  simp only [outcome_andThen, outcome_orElse]
  rcases a.outcome s with ⟨v, t⟩ | e
  · simp only [Outcome.andThen_success]
    rcases p.outcome t with ⟨w, u⟩ | e <;> rfl
  · rfl

/-- So does a sequence with a list of alternatives. -/
theorem outcome_andThen_firstOf (a : Parser κ ι α) {ps : List (Parser κ ι β)} (hps : ps ≠ [])
    (s : ι) :
    (a.andThen (firstOf ps)).outcome s = (firstOf (ps.map a.andThen)).outcome s := by
  induction ps with
  | nil => exact absurd rfl hps
  | cons p ps ih =>
    cases ps with
    | nil => simp only [List.map_cons, List.map_nil, outcome_andThen, outcome_firstOf_singleton]
    | cons q ps =>
      have hcons (t : ι) : (firstOf (p :: q :: ps)).outcome t =
          (p.orElse (firstOf (q :: ps))).outcome t :=
        (alike_iff.1 (firstOf_cons p (List.cons_ne_nil q ps)) t).1
      calc (a.andThen (firstOf (p :: q :: ps))).outcome s
          = (a.andThen (p.orElse (firstOf (q :: ps)))).outcome s := by
            simp only [outcome_andThen, hcons]
        _ = ((a.andThen p).orElse (a.andThen (firstOf (q :: ps)))).outcome s :=
            outcome_andThen_orElse a p _ s
        _ = (firstOf (a.andThen p :: (q :: ps).map a.andThen)).outcome s := by
            rw [outcome_orElse, ih (List.cons_ne_nil q ps)]
            exact (outcome_firstOf_cons_cons _ _ _ s).symm

/-! ### A common end -/

variable {ps : List (Parser κ ι α)} {c : Parser κ ι β} {r : (α × β) × ι} {e : String}

/-- What fails by itself fails with something behind it. -/
theorem exists_outcome_andThen_eq_failure {p : Parser κ ι α}
    (h : ∃ e, p.outcome s = .failure e) : ∃ e, (p.andThen c).outcome s = .failure e := by
  obtain ⟨e, he⟩ := h
  exact ⟨e, outcome_andThen_eq_failure.2 (.inl he)⟩

/-- A success of alternatives with `c` behind them is one of the alternatives that each end with
`c`. -/
theorem outcome_firstOf_andThen_of_success
    (h : ((firstOf ps).andThen c).outcome s = .success r) :
    (firstOf (ps.map (·.andThen c))).outcome s = .success r := by
  obtain ⟨t, hps, hc⟩ := outcome_andThen_eq_success.1 h
  obtain ⟨front, p, back, rfl, hfront, hp⟩ := outcome_firstOf_eq_success.1 hps
  exact outcome_firstOf_map_eq_success.2 ⟨front, p, back, rfl,
    fun q hq => exists_outcome_andThen_eq_failure (hfront q hq),
    outcome_andThen_eq_success.2 ⟨t, hp, hc⟩⟩

/-- If one of the alternatives that each end with `c` succeeds, then so does one of the alternatives
by themselves. -/
theorem exists_outcome_firstOf_of_andThen
    (h : (firstOf (ps.map (·.andThen c))).outcome s = .success r) :
    ∃ x, (firstOf ps).outcome s = .success x := by
  obtain ⟨front, p, back, rfl, -, hp⟩ := outcome_firstOf_map_eq_success.1 h
  obtain ⟨t, hp, -⟩ := outcome_andThen_eq_success.1 hp
  exact exists_outcome_firstOf_eq_success.2 ⟨p, by simp, _, hp⟩

/-- With `c` behind all of them alternatives fail, although one of them that ends with `c` succeeds,
exactly when `c` fails behind the first alternative that succeeds by itself and the one in question
comes later. -/
theorem committed_early_iff :
    ((firstOf ps).andThen c).outcome s = .failure e ∧
        (firstOf (ps.map (·.andThen c))).outcome s = .success r ↔
      ∃ front p mid q back v t, ps = front ++ p :: (mid ++ q :: back) ∧
        (∀ x ∈ front, ∃ e, x.outcome s = .failure e) ∧
        p.outcome s = .success (v, t) ∧ c.outcome t = .failure e ∧
        (∀ x ∈ mid, ∃ e, (x.andThen c).outcome s = .failure e) ∧
        (q.andThen c).outcome s = .success r := by
  constructor
  · rintro ⟨hfail, hsuccess⟩
    obtain ⟨⟨v, t⟩, hps⟩ := exists_outcome_firstOf_of_andThen hsuccess
    obtain ⟨front, p, back, rfl, hfront, hp⟩ := outcome_firstOf_eq_success.1 hps
    -- `c` is what failed, for the alternatives did not
    have hc : c.outcome t = .failure e := by
      rw [outcome_andThen, hps, Outcome.andThen_success] at hfail
      exact Outcome.map_eq_failure.1 hfail
    have hpc : (p.andThen c).outcome s = .failure e :=
      outcome_andThen_eq_failure.2 (.inr ⟨v, t, hp, hc⟩)
    have hskip : ∀ x ∈ (front ++ [p]).map (·.andThen c), ∃ e, x.outcome s = .failure e := by
      rw [List.forall_mem_map, List.forall_mem_append, List.forall_mem_singleton]
      exact ⟨fun x hx => exists_outcome_andThen_eq_failure (hfront x hx), e, hpc⟩
    rw [List.append_cons, List.map_append, outcome_firstOf_append_eq_success hskip] at hsuccess
    obtain ⟨mid, q, back, rfl, hmid, hq⟩ := outcome_firstOf_map_eq_success.1 hsuccess
    exact ⟨front, p, mid, q, back, v, t, rfl, hfront, hp, hc, hmid, hq⟩
  · rintro ⟨front, p, mid, q, back, v, t, rfl, hfront, hp, hc, hmid, hq⟩
    have hps : (firstOf (front ++ p :: (mid ++ q :: back))).outcome s = .success (v, t) :=
      outcome_firstOf_eq_success.2 ⟨front, p, _, rfl, hfront, hp⟩
    have hpc : (p.andThen c).outcome s = .failure e :=
      outcome_andThen_eq_failure.2 (.inr ⟨v, t, hp, hc⟩)
    refine ⟨outcome_andThen_eq_failure.2 (.inr ⟨v, t, hps, hc⟩), ?_⟩
    refine outcome_firstOf_map_eq_success.2 ⟨front ++ p :: mid, q, back, by simp, ?_, hq⟩
    rw [List.forall_mem_append, List.forall_mem_cons]
    exact ⟨fun x hx => exists_outcome_andThen_eq_failure (hfront x hx), ⟨e, hpc⟩, hmid⟩

end Parser

/-- A common front of alternatives may be taken out. If a common end is taken out, a success is one
of the alternatives that end with it too, and so a failure of these is a failure. The converse does
not hold: the choice fails where one of these succeeds exactly if the end fails behind the first
alternative that succeeds by itself, and the one in question comes later. -/
theorem Choice.factoring (a : Parser κ ι α) (bs : Choice (Parser κ ι β))
    (ps : Choice (Parser κ ι γ)) (c : Parser κ ι δ) (s : ι) :
    (a.andThen bs.parser).outcome s = (bs.map a.andThen).parser.outcome s ∧
    let early := ps.parser.andThen c
    let late := (ps.map (·.andThen c)).parser
    (∀ r, early.outcome s = .success r → late.outcome s = .success r) ∧
    ((∃ e, late.outcome s = .failure e) → ∃ e, early.outcome s = .failure e) ∧
    ∀ e r, early.outcome s = .failure e ∧ late.outcome s = .success r ↔
      ∃ front p mid q back v t, ps.alternatives = front ++ p :: (mid ++ q :: back) ∧
        (∀ x ∈ front, ∃ e, x.outcome s = .failure e) ∧
        p.outcome s = .success (v, t) ∧ c.outcome t = .failure e ∧
        (∀ x ∈ mid, ∃ e, (x.andThen c).outcome s = .failure e) ∧
        (q.andThen c).outcome s = .success r := by
  have hsuccess (r : (γ × δ) × ι) (h : (ps.parser.andThen c).outcome s = .success r) :
      (ps.map (·.andThen c)).parser.outcome s = .success r :=
    Parser.outcome_firstOf_andThen_of_success h
  refine ⟨Parser.outcome_andThen_firstOf a bs.alternatives_ne_nil s, hsuccess, ?_,
    fun e r => Parser.committed_early_iff⟩
  rintro ⟨e, he⟩
  cases h : (ps.parser.andThen c).outcome s with
  | failure e' => exact ⟨e', rfl⟩
  | success r => cases he.symm.trans (hsuccess r h)

/-- Of `a` and `ab` the first one succeeds on `abc` and decides, and `c` fails behind it. With `c`
in both of them the second one succeeds. On `acc` the first one succeeds either way, and on `b` both
fail either way. -/
theorem Choice.factoring_committed :
    let a : Parser Unit (List Char) Char := .element 'a'
    let ab : Parser Unit (List Char) Char := (a.andThen (.element 'b')).map Prod.snd
    let c : Parser Unit (List Char) Char := .element 'c'
    let ps : Choice (Parser Unit (List Char) Char) := ⟨a, [ab]⟩
    let early := ps.parser.andThen c
    let late := (ps.map (·.andThen c)).parser
    (c.andThen ps.parser).outcome ['c', 'b'] = (ps.map c.andThen).parser.outcome ['c', 'b'] ∧
      late.outcome ['a', 'c', 'c'] = .success (('a', 'c'), ['c']) ∧
      (∃ e, early.outcome ['b'] = .failure e) ∧
      early.outcome ['a', 'b', 'c'] = .failure "Expecting 'c'. Got 'b'." ∧
      late.outcome ['a', 'b', 'c'] = .success (('b', 'c'), []) := by
  intro a ab c ps early late
  obtain ⟨hfront, -⟩ := Choice.factoring c ps ps c ['c', 'b']
  obtain ⟨-, hsuccess, -⟩ := Choice.factoring c ps ps c ['a', 'c', 'c']
  obtain ⟨-, -, hfailure, -⟩ := Choice.factoring c ps ps c ['b']
  obtain ⟨-, -, -, hcommitted⟩ := Choice.factoring c ps ps c ['a', 'b', 'c']
  refine ⟨hfront, hsuccess _ rfl, hfailure ⟨_, rfl⟩, (hcommitted _ _).2 ?_⟩
  exact ⟨[], a, [], ab, [], 'a', ['b', 'c'], rfl, by simp, rfl, rfl, by simp, rfl⟩

end ApplicativeParsing

import ApplicativeParsing.Parser.Alternation
import ApplicativeParsing.Proofs.Monad

/-!
# How a run ended

For each combinator, what a success or a failure of the whole says about the runs of its parts.
Later modules follow a run back from its end by these equivalences and do not open the combinators.

## Main statements

* `Parser.outcome_andThen_eq_success`, `Parser.outcome_andThen_eq_failure`: a sequence.
* `Parser.lift₂_eq_select`, `Parser.apply_map_eq_lift₂`: the applicative combinators are mappings
  of a sequence, with the same log.
* `Choice.outcome_ofFn_eq_success`, `Choice.outcome_ofFn_eq_failure`: a choice ends as its first
  alternative that succeeds, and as its last one if all fail.
-/

namespace ApplicativeParsing

universe u v

variable {κ ι α β γ : Type}

namespace Outcome

variable {α : Type u} {β : Type v}

theorem map_eq_success {f : α → β} {o : Outcome α} {b : β} :
    o.map f = .success b ↔ ∃ a, o = .success a ∧ f a = b := by
  cases o <;> simp

theorem map_eq_failure {f : α → β} {o : Outcome α} {e : String} :
    o.map f = .failure e ↔ o = .failure e := by
  cases o <;> simp

theorem andThen_eq_success {o : Outcome α} {f : α → Outcome β} {b : β} :
    o.andThen f = .success b ↔ ∃ a, o = .success a ∧ f a = .success b := by
  cases o <;> simp

theorem andThen_eq_failure {o : Outcome α} {f : α → Outcome β} {e : String} :
    o.andThen f = .failure e ↔ o = .failure e ∨ ∃ a, o = .success a ∧ f a = .failure e := by
  cases o <;> simp

/-- An outcome that is no success is a failure. -/
theorem isSuccess_eq_false_iff {o : Outcome α} : o.isSuccess = false ↔ ∃ e, o = .failure e := by
  cases o <;> simp

theorem isSuccess_eq_true_iff {o : Outcome α} : o.isSuccess = true ↔ ∃ a, o = .success a := by
  cases o <;> simp

end Outcome

namespace Parser

/-! ### Sequences and mappings -/

/-- A sequence succeeds when both parts do, the second on what the first left. -/
theorem outcome_andThen_eq_success {p : Parser κ ι α} {q : Parser κ ι β} {s r : ι} {c : α × β} :
    (p.andThen q).outcome s = .success (c, r) ↔
      ∃ t, p.outcome s = .success (c.1, t) ∧ q.outcome t = .success (c.2, r) := by
  obtain ⟨a, b⟩ := c
  rw [outcome_andThen, Outcome.andThen_eq_success]
  constructor
  · rintro ⟨⟨a', t⟩, hp, h⟩
    obtain ⟨⟨b', r'⟩, hq, h⟩ := Outcome.map_eq_success.1 h
    cases h
    exact ⟨t, hp, hq⟩
  · rintro ⟨t, hp, hq⟩
    exact ⟨(a, t), hp, Outcome.map_eq_success.2 ⟨(b, r), hq, rfl⟩⟩

/-- A sequence fails as the part that fails first. -/
theorem outcome_andThen_eq_failure {p : Parser κ ι α} {q : Parser κ ι β} {s : ι} {e : String} :
    (p.andThen q).outcome s = .failure e ↔
      p.outcome s = .failure e ∨
        ∃ a t, p.outcome s = .success (a, t) ∧ q.outcome t = .failure e := by
  rw [outcome_andThen, Outcome.andThen_eq_failure]
  simp only [Outcome.map_eq_failure, Prod.exists]

/-- A mapping succeeds when its operand does, with the same rest. -/
theorem outcome_select_eq_success {p : Parser κ ι α} {f : α → Traced κ β} {s r : ι} {b : β} :
    (p.select f).outcome s = .success (b, r) ↔
      ∃ a, p.outcome s = .success (a, r) ∧ (f a).value = b := by
  rw [outcome_select, Outcome.map_eq_success]
  constructor
  · rintro ⟨⟨a, t⟩, hp, h⟩
    cases h
    exact ⟨a, hp, rfl⟩
  · rintro ⟨a, hp, rfl⟩
    exact ⟨(a, r), hp, rfl⟩

/-- A mapping fails as its operand. -/
theorem outcome_select_eq_failure {p : Parser κ ι α} {f : α → Traced κ β} {s : ι} {e : String} :
    (p.select f).outcome s = .failure e ↔ p.outcome s = .failure e := by
  rw [outcome_select, Outcome.map_eq_failure]

/-- Without effects of the mapping function. -/
theorem outcome_map_eq_success {p : Parser κ ι α} {f : α → β} {s r : ι} {b : β} :
    (p.map f).outcome s = .success (b, r) ↔ ∃ a, p.outcome s = .success (a, r) ∧ f a = b :=
  outcome_select_eq_success

/-- Lifting a function is mapping it over `x` and then `y`. -/
theorem lift₂_eq_select (f : α → β → Traced κ γ) (x : Parser κ ι α) (y : Parser κ ι β) :
    lift₂ f x y = (x.andThen y).select fun (a, b) => f a b := by
  simp only [lift₂_eq_bind, select_eq_bind, andThen_eq_bind, bind_assoc, pure_bind]

/-- A lifted function is called on the values of both operands when both succeed. -/
theorem outcome_lift₂_eq_success {f : α → β → Traced κ γ} {x : Parser κ ι α} {y : Parser κ ι β}
    {s r : ι} {c : γ} :
    (lift₂ f x y).outcome s = .success (c, r) ↔
      ∃ a b t, x.outcome s = .success (a, t) ∧ y.outcome t = .success (b, r) ∧
        (f a b).value = c := by
  rw [lift₂_eq_select, outcome_select_eq_success]
  constructor
  · rintro ⟨⟨a, b⟩, h, hc⟩
    obtain ⟨t, hx, hy⟩ := outcome_andThen_eq_success.1 h
    exact ⟨a, b, t, hx, hy, hc⟩
  · rintro ⟨a, b, t, hx, hy, hc⟩
    exact ⟨(a, b), outcome_andThen_eq_success.2 ⟨t, hx, hy⟩, hc⟩

/-- Mapping a function is applying it to the argument. -/
theorem map_eq_apply_ret (f : α → β) (p : Parser κ ι α) :
    p.map f = apply p (ret fun a => pure (f a)) := by
  simp only [map_eq_bind, apply_eq_bind, ret_eq_pure, pure_bind, ofTraced_pure]

/-- Applying functions made of the values of `fn` is lifting, with `fn` in front. -/
theorem apply_map_eq_lift₂ (arg : Parser κ ι α) (fn : Parser κ ι γ) (g : γ → α → Traced κ β) :
    apply arg (fn.map g) = lift₂ g fn arg := by
  rw [lift₂, map_eq_apply_ret]

/-! ### Alternatives -/

/-- Two alternatives succeed when the first does, or when it fails and the second does. -/
theorem outcome_orElse_eq_success {p q : Parser κ ι α} {s : ι} {r : α × ι} :
    (p.orElse q).outcome s = .success r ↔
      p.outcome s = .success r ∨
        (∃ e, p.outcome s = .failure e) ∧ q.outcome s = .success r := by
  rw [outcome_orElse]
  rcases p.outcome s with r' | e <;> simp

/-- Two alternatives fail when both do, as the second. -/
theorem outcome_orElse_eq_failure {p q : Parser κ ι α} {s : ι} {e : String} :
    (p.orElse q).outcome s = .failure e ↔
      (∃ e', p.outcome s = .failure e') ∧ q.outcome s = .failure e := by
  rw [outcome_orElse]
  rcases p.outcome s with r' | e' <;> simp

/-- A list of alternatives ends as the first one that succeeds, and as the last one if none does. -/
theorem outcome_firstOf_eq_find? {ps : List (Parser κ ι α)} (hps : ps ≠ []) (s : ι) :
    (firstOf ps).outcome s =
      ((ps.find? fun p => (p.outcome s).isSuccess).getD (ps.getLast hps)).outcome s := by
  induction ps with
  | nil => exact absurd rfl hps
  | cons p ps ih =>
    cases ps with
    | nil =>
      rw [outcome_firstOf_singleton, List.find?_singleton]
      split <;> rfl
    | cons q ps =>
      rw [outcome_firstOf_cons_cons, List.getLast_cons (List.cons_ne_nil q ps)]
      rcases hp : p.outcome s with r | e
      · rw [List.find?_cons_of_pos (by rw [hp]; rfl), Option.getD_some, hp]
      · rw [List.find?_cons_of_neg (by simp [hp]), ih (List.cons_ne_nil q ps)]

/-- A list of alternatives of which all fail ends as its last member. -/
theorem outcome_firstOf_of_failure {ps : List (Parser κ ι α)} {s : ι} (hps : ps ≠ [])
    (h : ∀ p ∈ ps, ∃ e, p.outcome s = .failure e) :
    (firstOf ps).outcome s = (ps.getLast hps).outcome s := by
  -- the search stops nowhere, and the default is the last alternative
  have hfind : ps.find? (fun p => (p.outcome s).isSuccess) = none := by
    refine List.find?_eq_none.2 fun p hp => ?_
    obtain ⟨e, he⟩ := h p hp
    simp [he]
  rw [outcome_firstOf_eq_find? hps, hfind, Option.getD_none]

end Parser

namespace Choice

variable {n : Nat} {ps : Fin (n + 1) → Parser κ ι α} {s : ι}

theorem parser_ofFn (ps : Fin (n + 1) → Parser κ ι α) :
    (ofFn ps).parser = .firstOf (List.ofFn ps) := by
  rw [parser, alternatives_ofFn]

/-- A choice ends as an alternative that succeeds when all before it fail. -/
theorem outcome_ofFn_of_success {i : Fin (n + 1)} {r : α × ι}
    (hi : (ps i).outcome s = .success r) (h : ∀ j < i, ∃ e, (ps j).outcome s = .failure e) :
    (ofFn ps).parser.outcome s = .success r := by
  -- `i` is the first place where the search stops
  have hfind : (List.ofFn ps).find? (fun p => (p.outcome s).isSuccess) = some (ps i) := by
    have hlt : i.val < (List.ofFn ps).length := by
      rw [List.length_ofFn]
      exact i.isLt
    refine List.find?_eq_some_iff_getElem.2 ⟨by rw [hi]; rfl, i, hlt, List.getElem_ofFn hlt, ?_⟩
    intro j hj
    obtain ⟨e, he⟩ := h ⟨j, Nat.lt_trans hj i.isLt⟩ hj
    rw [List.getElem_ofFn, he]
    rfl
  rw [parser_ofFn, Parser.outcome_firstOf_eq_find? (by simp), hfind, Option.getD_some, hi]

/-- A choice ends as its last alternative when all fail. -/
theorem outcome_ofFn_of_failure (h : ∀ i, ∃ e, (ps i).outcome s = .failure e) :
    (ofFn ps).parser.outcome s = (ps (Fin.last n)).outcome s := by
  have hall : ∀ p ∈ List.ofFn ps, ∃ e, p.outcome s = .failure e := by
    intro p hp
    obtain ⟨i, rfl⟩ := List.mem_ofFn.1 hp
    exact h i
  rw [parser_ofFn, Parser.outcome_firstOf_of_failure (by simp) hall, List.getLast_ofFn]
  rfl

/-- All alternatives of a choice fail, or there is a first one that succeeds. -/
theorem all_fail_or_exists_first (ps : Fin (n + 1) → Parser κ ι α) (s : ι) :
    (∀ i, ∃ e, (ps i).outcome s = .failure e) ∨
      ∃ i r, (ps i).outcome s = .success r ∧ ∀ j < i, ∃ e, (ps j).outcome s = .failure e := by
  cases h : (List.ofFn ps).find? fun p => (p.outcome s).isSuccess with
  | none =>
    refine .inl fun i => Outcome.isSuccess_eq_false_iff.1 ?_
    simpa using List.find?_eq_none.1 h (ps i) (List.mem_ofFn.2 ⟨i, rfl⟩)
  | some p =>
    obtain ⟨hp, i, hi, rfl, hlt⟩ := List.find?_eq_some_iff_getElem.1 h
    rw [List.getElem_ofFn] at hp
    obtain ⟨r, hr⟩ := Outcome.isSuccess_eq_true_iff.1 hp
    refine .inr ⟨⟨i, by simpa using hi⟩, r, hr, fun j hj => Outcome.isSuccess_eq_false_iff.1 ?_⟩
    have hj := hlt j hj
    rwa [List.getElem_ofFn, Bool.not_eq_true'] at hj

/-- A choice succeeds as its first alternative that does. -/
theorem outcome_ofFn_eq_success {r : α × ι} :
    (ofFn ps).parser.outcome s = .success r ↔
      ∃ i, (ps i).outcome s = .success r ∧ ∀ j < i, ∃ e, (ps j).outcome s = .failure e := by
  constructor
  · intro h
    rcases all_fail_or_exists_first ps s with hall | ⟨i, r', hi, hlt⟩
    · obtain ⟨e, he⟩ := hall (Fin.last n)
      rw [outcome_ofFn_of_failure hall, he] at h
      cases h
    · rw [outcome_ofFn_of_success hi hlt] at h
      cases h
      exact ⟨i, hi, hlt⟩
  · rintro ⟨i, hi, hlt⟩
    exact outcome_ofFn_of_success hi hlt

/-- A choice fails when all its alternatives do, as the last one. -/
theorem outcome_ofFn_eq_failure {e : String} :
    (ofFn ps).parser.outcome s = .failure e ↔
      (∀ i, ∃ e', (ps i).outcome s = .failure e') ∧
        (ps (Fin.last n)).outcome s = .failure e := by
  constructor
  · intro h
    rcases all_fail_or_exists_first ps s with hall | ⟨i, r, hi, hlt⟩
    · rw [outcome_ofFn_of_failure hall] at h
      exact ⟨hall, h⟩
    · rw [outcome_ofFn_of_success hi hlt] at h
      cases h
  · rintro ⟨hall, h⟩
    rw [outcome_ofFn_of_failure hall, h]

end Choice

end ApplicativeParsing

import Mathlib.Data.List.Basic
import ApplicativeParsing.Proofs.CharacterClasses
import ApplicativeParsing.Proofs.Reporting

/-!
# Redundant and reordered alternatives

A list of alternatives ends as its first member that succeeds, and as its last member if none does.
So what a member contributes depends on where it stands. In front of others it matters only on the
inputs on which it is the first that succeeds, and its message is never seen. At the end it gives
the message of the whole. Which alternatives may be left out, and what a change of their order
changes, follows from these two facts.

## Main statements

* `Parser.outcome_firstOf_eq_success`, `Parser.outcome_firstOf_eq_failure`: how a list ends.
* `Parser.outcome_firstOf_append`: two lists, one behind the other.
* `Parser.redundant_alternatives`: when an alternative may be left out.
* `Choice.reordered_alternatives`: what does not depend on the order of alternatives, and what does.
-/

namespace ApplicativeParsing

variable {κ ι σ α : Type}

namespace Parser

variable {s : ι} {p : Parser κ ι α} {ps qs xs ys : List (Parser κ ι α)} {r : α × ι} {e : String}

/-! ### How a list ends -/

/-- A list of alternatives succeeds as its first member that does. -/
theorem outcome_firstOf_eq_success :
    (firstOf ps).outcome s = .success r ↔
      ∃ front p back, ps = front ++ p :: back ∧
        (∀ q ∈ front, ∃ e, q.outcome s = .failure e) ∧ p.outcome s = .success r := by
  constructor
  · intro h
    have hps : ps ≠ [] := by
      rintro rfl
      cases h
    obtain ⟨front, p, back, rfl, hdecides⟩ := exists_decides s hps
    exact ⟨front, p, back, rfl, hdecides.front_fails, hdecides.outcome_firstOf.symm.trans h⟩
  · rintro ⟨front, p, back, rfl, hfront, hp⟩
    have hdecides : Decides s front p back := ⟨hfront, .inl ⟨r, hp⟩⟩
    exact hdecides.outcome_firstOf.trans hp

/-- The same for alternatives that are made of the members of a list. -/
theorem outcome_firstOf_map_eq_success {π : Type} {f : π → Parser κ ι α} {l : List π} :
    (firstOf (l.map f)).outcome s = .success r ↔
      ∃ front x back, l = front ++ x :: back ∧
        (∀ y ∈ front, ∃ e, (f y).outcome s = .failure e) ∧ (f x).outcome s = .success r := by
  rw [outcome_firstOf_eq_success]
  constructor
  · rintro ⟨front, p, back, h, hfront, hp⟩
    obtain ⟨l₁, l₂, rfl, rfl, hl₂⟩ := List.map_eq_append_iff.1 h
    obtain ⟨x, l₂, rfl, rfl, rfl⟩ := List.map_eq_cons_iff.1 hl₂
    exact ⟨l₁, x, l₂, rfl, fun y hy => hfront (f y) (List.mem_map_of_mem hy), hp⟩
  · rintro ⟨front, x, back, rfl, hfront, hx⟩
    refine ⟨front.map f, f x, back.map f, by simp, ?_, hx⟩
    rwa [List.forall_mem_map]

/-- A list of alternatives succeeds when one of them does. -/
theorem exists_outcome_firstOf_eq_success :
    (∃ r, (firstOf ps).outcome s = .success r) ↔ ∃ p ∈ ps, ∃ r, p.outcome s = .success r := by
  constructor
  · rintro ⟨r, h⟩
    obtain ⟨front, p, back, rfl, -, hp⟩ := outcome_firstOf_eq_success.1 h
    exact ⟨p, by simp, r, hp⟩
  · rintro ⟨p, hmem, r, hp⟩
    rw [outcome_firstOf_eq_find? (List.ne_nil_of_mem hmem)]
    cases hfind : ps.find? fun p => (p.outcome s).isSuccess with
    | none => exact absurd (List.find?_eq_none.1 hfind p hmem) (by simp [hp])
    | some q =>
      have hq := List.find?_some hfind
      exact Outcome.isSuccess_eq_true_iff.1 hq

/-- A list of alternatives fails when all of them do, as the last one. -/
theorem outcome_firstOf_eq_failure (hps : ps ≠ []) :
    (firstOf ps).outcome s = .failure e ↔
      (∀ p ∈ ps, ∃ e, p.outcome s = .failure e) ∧ (ps.getLast hps).outcome s = .failure e := by
  constructor
  · intro h
    have hall (p : Parser κ ι α) (hp : p ∈ ps) : ∃ e, p.outcome s = .failure e := by
      cases ho : p.outcome s with
      | failure e => exact ⟨e, rfl⟩
      | success r =>
        obtain ⟨r', hr'⟩ := exists_outcome_firstOf_eq_success.2 ⟨p, hp, r, ho⟩
        cases h.symm.trans hr'
    exact ⟨hall, (outcome_firstOf_of_failure hps hall).symm.trans h⟩
  · rintro ⟨hall, he⟩
    exact (outcome_firstOf_of_failure hps hall).trans he

/-- Behind a list of alternatives another one runs if none of the first succeeds. -/
theorem outcome_firstOf_append (ps : List (Parser κ ι α)) (hqs : qs ≠ []) (s : ι) :
    (firstOf (ps ++ qs)).outcome s =
      match (firstOf ps).outcome s with
      | .success r => .success r
      | .failure _ => (firstOf qs).outcome s := by
  by_cases hps : ps = []
  · rw [hps]
    rfl
  · have halike := (alike_iff.1 (firstOf_append hps hqs) s).1
    exact halike.trans (outcome_orElse _ _ s)

/-- In front of a success, alternatives that fail may be left out. -/
theorem outcome_firstOf_append_eq_success (h : ∀ p ∈ ps, ∃ e, p.outcome s = .failure e) :
    (firstOf (ps ++ qs)).outcome s = .success r ↔ (firstOf qs).outcome s = .success r := by
  have hps : ¬∃ r, (firstOf ps).outcome s = .success r := by
    rw [exists_outcome_firstOf_eq_success]
    rintro ⟨p, hp, r, hr⟩
    obtain ⟨e, he⟩ := h p hp
    cases he.symm.trans hr
  by_cases hqs : qs = []
  · rw [hqs, List.append_nil]
    exact iff_of_false (fun hr => hps ⟨r, hr⟩) nofun
  · rw [outcome_firstOf_append ps hqs]
    cases ho : (firstOf ps).outcome s with
    | success r => exact absurd ⟨r, ho⟩ hps
    | failure e => rfl

/-! ### Alternatives that may be left out -/

/-- In front of others an alternative may be left out on the inputs on which one before it succeeds,
or it fails, or those behind it end as it does. -/
theorem outcome_firstOf_eq_without_iff (hys : ys ≠ []) :
    (firstOf (xs ++ p :: ys)).outcome s = (firstOf (xs ++ ys)).outcome s ↔
      (∃ x ∈ xs, ∃ r, x.outcome s = .success r) ∨ (∃ e, p.outcome s = .failure e) ∨
        ∃ r, p.outcome s = .success r ∧ (firstOf ys).outcome s = .success r := by
  have hcons : (firstOf (p :: ys)).outcome s = _ := outcome_firstOf_append [p] hys s
  rw [outcome_firstOf_append xs (List.cons_ne_nil p ys), outcome_firstOf_append xs hys, hcons,
    outcome_firstOf_singleton, ← exists_outcome_firstOf_eq_success]
  rcases (firstOf xs).outcome s with r | e
  · simp
  -- nothing in front succeeds, so the alternative runs
  · rcases p.outcome s with r | e
    · simp [eq_comm]
    · simp

/-- The last alternative may be left out on the inputs on which one before it succeeds, or it fails
with the message of the one before it. -/
theorem outcome_firstOf_eq_without_last_iff (hxs : xs ≠ []) :
    (firstOf (xs ++ [p])).outcome s = (firstOf xs).outcome s ↔
      (∃ x ∈ xs, ∃ r, x.outcome s = .success r) ∨
        ∃ e, p.outcome s = .failure e ∧ (xs.getLast hxs).outcome s = .failure e := by
  rw [outcome_firstOf_append xs (List.cons_ne_nil p []), outcome_firstOf_singleton,
    ← exists_outcome_firstOf_eq_success]
  cases h : (firstOf xs).outcome s with
  | success r => simp
  | failure e =>
    obtain ⟨-, hlast⟩ := (outcome_firstOf_eq_failure hxs).1 h
    simp [hlast, eq_comm]

/-- Behind an alternative that succeeds nothing matters. -/
theorem outcome_firstOf_of_success (hp : p.outcome s = .success r)
    (xs ys : List (Parser κ ι α)) :
    (firstOf (xs ++ p :: ys)).outcome s = (firstOf (xs ++ [p])).outcome s := by
  obtain ⟨q, hq⟩ := exists_firstOf_cons_eq_recover p ys
  rw [outcome_firstOf_append xs (List.cons_ne_nil p ys),
    outcome_firstOf_append xs (List.cons_ne_nil p []), outcome_firstOf_singleton, hq,
    outcome_recover, hp]

/-- A repeated alternative that is not the last may be left out. -/
theorem outcome_firstOf_eq_without_repeated {x : Parser κ ι α} (hx : x ∈ xs)
    (hp : p.outcome s = x.outcome s) (hys : ys ≠ []) :
    (firstOf (xs ++ p :: ys)).outcome s = (firstOf (xs ++ ys)).outcome s := by
  refine (outcome_firstOf_eq_without_iff hys).2 ?_
  cases ho : x.outcome s with
  | success r => exact .inl ⟨x, hx, r, ho⟩
  | failure e => exact .inr (.inl ⟨e, hp.trans ho⟩)

/-- Without a repeated last alternative the success, if there is one, is the same. -/
theorem value?_outcome_firstOf_without_repeated {x : Parser κ ι α} (hx : x ∈ xs)
    (hp : p.outcome s = x.outcome s) :
    ((firstOf (xs ++ [p])).outcome s).value? = ((firstOf xs).outcome s).value? := by
  rw [outcome_firstOf_append xs (List.cons_ne_nil p []), outcome_firstOf_singleton]
  cases h : (firstOf xs).outcome s with
  | success r => rfl
  | failure e =>
    obtain ⟨hall, -⟩ := (outcome_firstOf_eq_failure (List.ne_nil_of_mem hx)).1 h
    obtain ⟨e', he'⟩ := hall x hx
    rw [hp, he']
    rfl

/-- A candidate of a class that is listed before may be left out if it is not the last. -/
theorem outcome_oneOf_eq_without_repeated [Input ι σ] [BEq σ] [ToString σ] {C D : Choice σ}
    {front back : List σ} {e : σ} (hC : C.alternatives = front ++ e :: back)
    (hD : D.alternatives = front ++ back) (he : e ∈ front) (hback : back ≠ []) (s : ι) :
    (oneOf C : Parser κ ι σ).outcome s = (oneOf D : Parser κ ι σ).outcome s := by
  have hback' : back.map (element : σ → Parser κ ι σ) ≠ [] := by simpa using hback
  rw [oneOf, oneOf, Choice.parser, Choice.parser, Choice.alternatives_map, Choice.alternatives_map,
    hC, hD, List.map_append, List.map_append, List.map_cons]
  exact outcome_firstOf_eq_without_repeated (List.mem_map_of_mem he) rfl hback'

/-- An alternative in front of others may be left out exactly where one before it succeeds, or it
fails, or those behind it succeed as it does. The last one may be left out exactly where one before
it succeeds, or it fails with the message of the one before it. So nothing behind an alternative
that never fails matters, and a repetition may be left out if it is not the last. If it is the last,
the successes are the same without it, but the message of a failure may be another one. -/
theorem redundant_alternatives [Input ι σ] [BEq σ] [ToString σ] (xs ys : List (Parser κ ι α))
    (p : Parser κ ι α) :
    (ys ≠ [] → ∀ s,
      ((firstOf (xs ++ p :: ys)).outcome s = (firstOf (xs ++ ys)).outcome s ↔
        (∃ x ∈ xs, ∃ r, x.outcome s = .success r) ∨ (∃ e, p.outcome s = .failure e) ∨
          ∃ r, p.outcome s = .success r ∧ (firstOf ys).outcome s = .success r)) ∧
    (∀ (hxs : xs ≠ []) s,
      ((firstOf (xs ++ [p])).outcome s = (firstOf xs).outcome s ↔
        (∃ x ∈ xs, ∃ r, x.outcome s = .success r) ∨
          ∃ e, p.outcome s = .failure e ∧ (xs.getLast hxs).outcome s = .failure e)) ∧
    ((∀ s, ∃ r, p.outcome s = .success r) → ∀ zs s,
      (firstOf (xs ++ p :: ys)).outcome s = (firstOf (xs ++ p :: zs)).outcome s) ∧
    (∀ x ∈ xs, (∀ s, p.outcome s = x.outcome s) →
      (ys ≠ [] → ∀ s, (firstOf (xs ++ p :: ys)).outcome s = (firstOf (xs ++ ys)).outcome s) ∧
      ∀ s, ((firstOf (xs ++ [p])).outcome s).value? = ((firstOf xs).outcome s).value?) ∧
    (∀ (C D : Choice σ) (front back : List σ) (e : σ), C.alternatives = front ++ e :: back →
      D.alternatives = front ++ back → e ∈ front → back ≠ [] →
        ∀ s, (oneOf C : Parser κ ι σ).outcome s = (oneOf D : Parser κ ι σ).outcome s) ∧
    ∃ (zs : List (Parser κ (List Char) Char)) (z : Parser κ (List Char) Char) (t : List Char),
      z ∈ zs ∧ ((firstOf (zs ++ [z])).outcome t).message? ≠ ((firstOf zs).outcome t).message? := by
  refine ⟨fun hys s => outcome_firstOf_eq_without_iff hys,
    fun hxs s => outcome_firstOf_eq_without_last_iff hxs, fun hp zs s => ?_,
    fun x hx hp => ⟨fun hys s => outcome_firstOf_eq_without_repeated hx (hp s) hys,
      fun s => value?_outcome_firstOf_without_repeated hx (hp s)⟩,
    fun C D front back e hC hD he hback s => outcome_oneOf_eq_without_repeated hC hD he hback s, ?_⟩
  · obtain ⟨r, hr⟩ := hp s
    rw [outcome_firstOf_of_success hr xs ys, outcome_firstOf_of_success hr xs zs]
  -- the last alternative is the one that the message names
  · refine ⟨[element 'a', element 'b'], element 'a', ['z'], List.mem_cons_self, ?_⟩
    change some "Expecting 'a'. Got 'z'." ≠ some "Expecting 'b'. Got 'z'."
    decide

/-- A second `a` may be left out in front of `b`, and in a class. Behind `b` it may not, as `z`
shows, but the successes are the same without it. An alternative that reads nothing hides those
behind it, and in front of `b` an `a` may be left out on an input that begins with neither. -/
theorem redundant_alternatives_repeated :
    let a : Parser Unit (List Char) Char := element 'a'
    let b : Parser Unit (List Char) Char := element 'b'
    let C : Choice Char := ⟨'a', ['a', 'b']⟩
    let D : Choice Char := ⟨'a', ['b']⟩
    let c : Parser Unit (List Char) Char := ret 'c'
    (∀ s, (firstOf [a, a, b]).outcome s = (firstOf [a, b]).outcome s) ∧
      (∀ s : List Char, (oneOf C : Parser Unit (List Char) Char).outcome s =
        (oneOf D : Parser Unit (List Char) Char).outcome s) ∧
      (∀ s, ((firstOf [a, b, a]).outcome s).value? = ((firstOf [a, b]).outcome s).value?) ∧
      (firstOf [a, b, a]).outcome ['z'] ≠ (firstOf [a, b]).outcome ['z'] ∧
      (∀ s, (firstOf [c, a, b]).outcome s = (firstOf [c]).outcome s) ∧
      (firstOf [a, b]).outcome ['z'] = (firstOf [b]).outcome ['z'] := by
  intro a b C D c
  obtain ⟨-, -, -, hrepeated, hclass, -⟩ := redundant_alternatives (σ := Char) [a] [b] a
  obtain ⟨-, hlast, -, hsuccess, -, -⟩ := redundant_alternatives (σ := Char) [a, b] [] a
  obtain ⟨-, -, hbehind, -, -, -⟩ := redundant_alternatives (σ := Char) [] [a, b] c
  obtain ⟨hfront, -⟩ := redundant_alternatives (σ := Char) [] [b] a
  refine ⟨(hrepeated a List.mem_cons_self fun _ => rfl).1 (List.cons_ne_nil _ _),
    hclass C D ['a'] ['b'] 'a' rfl rfl List.mem_cons_self (List.cons_ne_nil _ _),
    (hsuccess a List.mem_cons_self fun _ => rfl).2, fun h => ?_,
    hbehind (fun s => ⟨('c', s), rfl⟩) [],
    (hfront (List.cons_ne_nil _ _) _).2 (.inr (.inl ⟨_, rfl⟩))⟩
  rcases (hlast (List.cons_ne_nil _ _) _).1 h with ⟨x, hx, r, hr⟩ | ⟨e, ha, hb⟩
  -- neither `a` nor `b` reads `z`
  · rcases List.mem_pair.1 hx with rfl | rfl <;> cases hr
  · obtain rfl := Outcome.failure.inj ha
    exact absurd hb (by decide)

end Parser

namespace Choice

variable {s : ι} {p : Parser κ ι α} {c d : Choice (Parser κ ι α)} {r : α × ι}

/-! ### Alternatives in another order -/

/-- A choice of which some alternatives succeed, all of them alike, succeeds as they do. -/
theorem outcome_parser_of_agree (hp : p ∈ c.alternatives) (hr : p.outcome s = .success r)
    (h : ∀ q ∈ c.alternatives, ∀ r', q.outcome s = .success r' → r' = r) :
    c.parser.outcome s = .success r := by
  obtain ⟨r', hr'⟩ := Parser.exists_outcome_firstOf_eq_success.2 ⟨p, hp, r, hr⟩
  obtain ⟨front, q, back, hc, -, hq⟩ := Parser.outcome_firstOf_eq_success.1 hr'
  have hmem : q ∈ c.alternatives := by simp [hc]
  rw [← h q hmem r' hq]
  exact hr'

/-- A choice of which no alternative succeeds fails as the last one. -/
theorem exists_outcome_parser_eq_failure
    (h : ∀ p ∈ c.alternatives, ∃ e, p.outcome s = .failure e) :
    ∃ e, c.last.outcome s = .failure e ∧ c.parser.outcome s = .failure e := by
  obtain ⟨e, he⟩ := h c.last (List.getLast_mem c.alternatives_ne_nil)
  exact ⟨e, he, (Parser.outcome_firstOf_of_failure c.alternatives_ne_nil h).trans he⟩

/-- An alternative that succeeds can be brought to the front, where it decides. -/
theorem exists_perm_outcome_eq_success (hp : p ∈ c.alternatives) (hr : p.outcome s = .success r) :
    ∃ d : Choice (Parser κ ι α),
      d.alternatives.Perm c.alternatives ∧ d.parser.outcome s = .success r := by
  obtain ⟨front, back, hc⟩ := List.append_of_mem hp
  refine ⟨⟨p, front ++ back⟩, ?_, ?_⟩
  · rw [hc]
    exact List.perm_middle.symm
  · exact Parser.outcome_firstOf_eq_success.2 ⟨[], p, front ++ back, rfl, by simp, hr⟩

/-- Whether a choice succeeds does not depend on the order of its alternatives. Neither does the
result if all alternatives that succeed have the same; if two of them have different results, some
order gives another outcome. If none succeeds, every order gives the failure of what comes last. -/
theorem reordered_alternatives (c : Choice (Parser κ ι α)) (s : ι) :
    (∀ d : Choice (Parser κ ι α), d.alternatives.Perm c.alternatives →
      ((∃ r, c.parser.outcome s = .success r) ↔ ∃ r, d.parser.outcome s = .success r) ∧
      (∀ r, (∃ p ∈ c.alternatives, p.outcome s = .success r) →
        (∀ p ∈ c.alternatives, ∀ r', p.outcome s = .success r' → r' = r) →
          c.parser.outcome s = .success r ∧ d.parser.outcome s = .success r) ∧
      ((∀ p ∈ c.alternatives, ∃ e, p.outcome s = .failure e) →
        (∃ e, c.last.outcome s = .failure e ∧ c.parser.outcome s = .failure e) ∧
          ∃ e, d.last.outcome s = .failure e ∧ d.parser.outcome s = .failure e)) ∧
    ∀ p ∈ c.alternatives, ∀ q ∈ c.alternatives, ∀ r r', p.outcome s = .success r →
      q.outcome s = .success r' → r ≠ r' →
        ∃ d : Choice (Parser κ ι α),
          d.alternatives.Perm c.alternatives ∧ d.parser.outcome s ≠ c.parser.outcome s := by
  refine ⟨fun d hperm => ⟨?_, ?_, fun hall => ⟨exists_outcome_parser_eq_failure hall, ?_⟩⟩,
    fun p hp q hq r r' hr hr' hne => ?_⟩
  · refine Parser.exists_outcome_firstOf_eq_success.trans
      (Iff.trans ?_ Parser.exists_outcome_firstOf_eq_success.symm)
    simp only [hperm.mem_iff]
  · rintro r ⟨p, hp, hr⟩ hagree
    exact ⟨outcome_parser_of_agree hp hr hagree,
      outcome_parser_of_agree (hperm.mem_iff.2 hp) hr fun q hq => hagree q (hperm.mem_iff.1 hq)⟩
  · exact exists_outcome_parser_eq_failure fun p hp => hall p (hperm.mem_iff.1 hp)
  -- `p` or `q` in front gives an outcome that is not the one of `c`
  · obtain ⟨d, hd, hsuccess⟩ := exists_perm_outcome_eq_success hp hr
    obtain ⟨d', hd', hsuccess'⟩ := exists_perm_outcome_eq_success hq hr'
    by_cases hc : c.parser.outcome s = .success r
    · refine ⟨d', hd', fun h => hne ?_⟩
      rw [hsuccess', hc] at h
      exact (Outcome.success.inj h).symm
    · exact ⟨d, hd, fun h => hc (h.symm.trans hsuccess)⟩

/-- Three alternatives forwards and backwards: on `az` one of them succeeds, on `z` none, and on
`ab` two of them, with different results. -/
theorem reordered_alternatives_three :
    let a : Parser Unit (List Char) Char := .element 'a'
    let ab : Parser Unit (List Char) Char := (a.andThen (.element 'b')).map Prod.snd
    let x : Parser Unit (List Char) Char := .element 'x'
    let c : Choice (Parser Unit (List Char) Char) := ⟨a, [ab, x]⟩
    let d : Choice (Parser Unit (List Char) Char) := ⟨x, [ab, a]⟩
    d.alternatives.Perm c.alternatives ∧
      c.parser.outcome ['a', 'z'] = .success ('a', ['z']) ∧
      d.parser.outcome ['a', 'z'] = .success ('a', ['z']) ∧
      c.parser.outcome ['z'] = .failure "Expecting 'x'. Got 'z'." ∧
      d.parser.outcome ['z'] = .failure "Expecting 'a'. Got 'z'." ∧
      ∃ d' : Choice (Parser Unit (List Char) Char), d'.alternatives.Perm c.alternatives ∧
        d'.parser.outcome ['a', 'b'] ≠ c.parser.outcome ['a', 'b'] := by
  intro a ab x c d
  have hperm : d.alternatives.Perm c.alternatives := List.reverse_perm c.alternatives
  have hagree : ∀ p ∈ c.alternatives, ∀ r, p.outcome ['a', 'z'] = .success r →
      r = ('a', ['z']) := by
    refine List.forall_mem_cons.2 ⟨fun r h => (Outcome.success.inj h).symm, ?_⟩
    refine List.forall_mem_cons.2 ⟨nofun, List.forall_mem_singleton.2 nofun⟩
  have hfail : ∀ p ∈ c.alternatives, ∃ e, p.outcome ['z'] = .failure e := by
    refine List.forall_mem_cons.2 ⟨⟨_, rfl⟩, List.forall_mem_cons.2 ⟨⟨_, rfl⟩, ?_⟩⟩
    exact List.forall_mem_singleton.2 ⟨_, rfl⟩
  obtain ⟨hsame, -⟩ := reordered_alternatives c ['a', 'z']
  obtain ⟨hnone, -⟩ := reordered_alternatives c ['z']
  obtain ⟨-, hother⟩ := reordered_alternatives c ['a', 'b']
  obtain ⟨-, hresult, -⟩ := hsame d hperm
  obtain ⟨hc, hd⟩ := hresult _ ⟨a, List.mem_cons_self, rfl⟩ hagree
  obtain ⟨-, -, hlast⟩ := hnone d hperm
  obtain ⟨⟨e, hx, hc'⟩, e', ha, hd'⟩ := hlast hfail
  refine ⟨hperm, hc, hd, hc'.trans (hx.symm.trans rfl), hd'.trans (ha.symm.trans rfl), ?_⟩
  exact hother a (by simp [c, alternatives]) ab (by simp [c, alternatives]) ('a', ['b']) ('b', [])
    rfl rfl (by decide)

end Choice

end ApplicativeParsing

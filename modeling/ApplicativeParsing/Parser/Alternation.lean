import ApplicativeParsing.Choice
import ApplicativeParsing.Parser.Element

/-!
# Alternation

Alternatives are ordered and a choice is committed: the first alternative that succeeds decides,
every alternative runs on the same input, and when none succeeds the failure of the last one is
returned. `Parser.orElse` has two alternatives and records only that it falls back; `Parser.firstOf`
has a list of them and records every one that fails. `Parser.firstOfMap` makes the alternatives one
by one while it searches, so that those behind the first success are never made.

## Main definitions

* `Parser.orElse`, `Parser.firstOf`, `Parser.firstOfMap`: two alternatives, a list of them, and
  alternatives made of the members of a list.
* `Choice.parser`, `Choice.anyOf`: the parser that a choice is, and choices between elements.

## Main statements

* `run_firstOf_singleton`, `run_firstOf_cons_cons`: `firstOf` by recursion on its list.
* `firstOfMap_eq`: alternatives made one by one are those of the mapped list.
-/

namespace ApplicativeParsing

variable {κ ι σ α π : Type}

namespace Parser

/-- Run `p`; if it fails, record that and run `q` on the same input. -/
def orElse (p q : Parser κ ι α) : Parser κ ι α where
  run s := do
    match ← p.run s with
    | .success r => return .success r
    | .failure e =>
      Traced.record (.fellBack e)
      q.run s

/-- Run on `s` the alternatives that `f` makes of a list until one succeeds. `last` is the outcome
if there is no alternative left, and `done` is what has happened so far, the latest entry first. -/
def search (f : π → Parser κ ι α) (s : ι) : List π → Outcome (α × ι) → List (Entry κ) →
    Traced κ (Outcome (α × ι))
  | [], last, done => ⟨done.reverse, last⟩
  | x :: xs, _, done =>
    match (f x).run s with
    | ⟨log, .success r⟩ => ⟨(log.reverseAux done).reverse, .success r⟩
    | ⟨log, .failure e⟩ =>
      -- the log is kept in reverse, so that a long list of alternatives is a loop
      search f s xs (.failure e) (.event (.alternativeFailed e) :: log.reverseAux done)

/-- The first success among the parsers that `f` makes of the members of `xs`, or the last failure.
Over no member at all it fails with the wording of the error that building such a choice is. -/
def firstOfMap (f : π → Parser κ ι α) (xs : List π) : Parser κ ι α where
  run s := search f s xs (.failure BuildError.emptyChoice.message) []

/-- The first success among `ps`, or the last failure. -/
def firstOf (ps : List (Parser κ ι α)) : Parser κ ι α := firstOfMap id ps

/-! ### Two alternatives -/

theorem run_orElse (p q : Parser κ ι α) (s : ι) :
    (p.orElse q).run s =
      match p.outcome s with
      | .success r => ⟨p.log s, .success r⟩
      | .failure e => ⟨p.log s ++ .event (.fellBack e) :: q.log s, q.outcome s⟩ := by
  simp only [orElse, outcome, log]
  rcases p.run s with ⟨l, r | e⟩
  · exact Traced.ext (by simp) rfl
  · exact Traced.ext (by simp) rfl

/-- The outcome of two alternatives: the first success, or the second failure. -/
theorem outcome_orElse (p q : Parser κ ι α) (s : ι) :
    (p.orElse q).outcome s =
      match p.outcome s with
      | .success r => .success r
      | .failure _ => q.outcome s := by
  rw [outcome, run_orElse]
  rcases p.outcome s with r | e <;> rfl

/-- The log of two alternatives: the fall back stands between the two runs. -/
theorem log_orElse (p q : Parser κ ι α) (s : ι) :
    (p.orElse q).log s =
      p.log s ++
        match p.outcome s with
        | .success _ => []
        | .failure e => .event (.fellBack e) :: q.log s := by
  rw [log, run_orElse]
  rcases p.outcome s with r | e <;> simp

/-! ### A list of alternatives -/

/-- What has happened before a search stands in front of its log and changes nothing else. -/
theorem search_eq (f : π → Parser κ ι α) (s : ι) (xs : List π) (last : Outcome (α × ι))
    (done : List (Entry κ)) :
    search f s xs last done =
      ⟨done.reverse ++ (search f s xs last []).log, (search f s xs last []).value⟩ := by
  induction xs generalizing last done with
  | nil => simp [search]
  | cons x xs ih =>
    rcases h : (f x).run s with ⟨l, r | e⟩
    · simp [search, h, List.reverseAux_eq]
    -- both sides go on behind the failure, each with its own history
    · simp only [search, h]
      rw [ih, ih (.failure e) (_ :: l.reverseAux [])]
      simp [List.reverseAux_eq]

/-- A search by recursion on the list. -/
theorem search_cons (f : π → Parser κ ι α) (s : ι) (x : π) (xs : List π)
    (last : Outcome (α × ι)) :
    search f s (x :: xs) last [] =
      match (f x).outcome s with
      | .success r => ⟨(f x).log s, .success r⟩
      | .failure e =>
        ⟨(f x).log s ++ .event (.alternativeFailed e) :: (search f s xs (.failure e) []).log,
          (search f s xs (.failure e) []).value⟩ := by
  rw [outcome, log]
  rcases h : (f x).run s with ⟨l, r | e⟩
  · simp [search, h, List.reverseAux_eq]
  · simp only [search, h]
    rw [search_eq]
    simp [List.reverseAux_eq]

/-- The outcome with which a search starts matters only if there is no alternative. -/
theorem search_last (f : π → Parser κ ι α) (s : ι) (x : π) (xs : List π)
    (last last' : Outcome (α × ι)) :
    search f s (x :: xs) last [] = search f s (x :: xs) last' [] := by
  rw [search_cons, search_cons]

/-- A search makes of each member the alternative that stands in its place in the mapped list. -/
theorem search_map (f : π → Parser κ ι α) (s : ι) (xs : List π) (last : Outcome (α × ι))
    (done : List (Entry κ)) :
    search id s (xs.map f) last done = search f s xs last done := by
  induction xs generalizing last done with
  | nil => rfl
  | cons x xs ih => simp only [List.map_cons, search, id, ih]

/-- The first success among alternatives that are made one by one is the first success among all of
them. -/
theorem firstOfMap_eq (f : π → Parser κ ι α) (xs : List π) :
    firstOfMap f xs = firstOf (xs.map f) := by
  simp only [firstOf, firstOfMap, search_map]

theorem run_firstOf (ps : List (Parser κ ι α)) (s : ι) :
    (firstOf ps).run s = search id s ps (.failure BuildError.emptyChoice.message) [] := rfl

@[simp] theorem outcome_firstOf_nil (s : ι) :
    (firstOf [] : Parser κ ι α).outcome s = .failure "Choice on empty sequence" := rfl

/-- One alternative is run, and recorded if it fails. -/
theorem run_firstOf_singleton (p : Parser κ ι α) (s : ι) :
    (firstOf [p]).run s =
      match p.outcome s with
      | .success r => ⟨p.log s, .success r⟩
      | .failure e => ⟨p.log s ++ [.event (.alternativeFailed e)], .failure e⟩ := by
  rw [run_firstOf, search_cons, id]
  rcases p.outcome s with r | e <;> simp [search]

/-- The first of several alternatives decides if it succeeds; otherwise its failure is recorded and
the others decide. -/
theorem run_firstOf_cons_cons (p q : Parser κ ι α) (ps : List (Parser κ ι α)) (s : ι) :
    (firstOf (p :: q :: ps)).run s =
      match p.outcome s with
      | .success r => ⟨p.log s, .success r⟩
      | .failure e =>
        ⟨p.log s ++ .event (.alternativeFailed e) :: (firstOf (q :: ps)).log s,
          (firstOf (q :: ps)).outcome s⟩ := by
  rw [run_firstOf, search_cons, id]
  rcases p.outcome s with r | e
  · rfl
  -- the others start from this failure and not from the message of an empty choice
  · simp only [log, outcome, run_firstOf]
    rw [search_last id s q ps (.failure e)]

/-- One alternative ends as it ends by itself. -/
@[simp] theorem outcome_firstOf_singleton (p : Parser κ ι α) (s : ι) :
    (firstOf [p]).outcome s = p.outcome s := by
  rw [outcome, run_firstOf_singleton]
  rcases p.outcome s with r | e <;> rfl

/-- The outcome of several alternatives: that of the first one if it succeeds, and that of the
others if not. -/
theorem outcome_firstOf_cons_cons (p q : Parser κ ι α) (ps : List (Parser κ ι α)) (s : ι) :
    (firstOf (p :: q :: ps)).outcome s =
      match p.outcome s with
      | .success r => .success r
      | .failure _ => (firstOf (q :: ps)).outcome s := by
  rw [outcome, run_firstOf_cons_cons]
  rcases p.outcome s with r | e <;> rfl

end Parser

namespace Choice

/-- The parser that a choice between parsers is. -/
def parser (c : Choice (Parser κ ι α)) : Parser κ ι α := .firstOf c.alternatives

/-- Build the choice between parsers for single elements. -/
def anyOf [Input ι σ] [BEq σ] [ToString σ] (candidates : List σ) :
    Traced κ (Except BuildError (Choice (Parser κ ι σ))) :=
  ofList (candidates.map Parser.element)

end Choice

end ApplicativeParsing

import ApplicativeParsing.Parser.Element
import ApplicativeParsing.Parser.Tree
import ApplicativeParsing.Proofs.Inversion

/-!
# What the parts note

The notes of a combined run are the notes of the runs of its parts, in the order in which the parts
ran. The events that the library records between them are left out.

## Main statements

* `Parser.notes_andThen`, `Parser.notes_select`, `Parser.notes_orElse`: the combinators.
* `Parser.notes_firstOf`: of a list of alternatives, those that are tried make their notes.
-/

namespace ApplicativeParsing

variable {κ ι α β γ : Type}

theorem Traced.notes_eq_filterMap (x : Traced κ α) : x.notes = x.log.filterMap Entry.note? := rfl

namespace Parser

theorem notes_andThen (p : Parser κ ι α) (q : Parser κ ι β) (s : ι) :
    ((p.andThen q).run s).notes =
      (p.run s).notes ++
        match p.outcome s with
        | .success (_, r) => (q.run r).notes
        | .failure _ => [] := by
  rw [Traced.notes_eq_filterMap, ← log, log_andThen, List.filterMap_append]
  rcases p.outcome s with ⟨a, r⟩ | e <;> rfl

theorem notes_select (p : Parser κ ι α) (f : α → Traced κ β) (s : ι) :
    ((p.select f).run s).notes =
      (p.run s).notes ++
        match p.outcome s with
        | .success (a, _) => (f a).notes
        | .failure _ => [] := by
  rw [Traced.notes_eq_filterMap, ← log, log_select, List.filterMap_append]
  rcases p.outcome s with ⟨a, r⟩ | e <;> rfl

theorem notes_orElse (p q : Parser κ ι α) (s : ι) :
    ((p.orElse q).run s).notes =
      (p.run s).notes ++
        match p.outcome s with
        | .success _ => []
        | .failure _ => (q.run s).notes := by
  rw [Traced.notes_eq_filterMap, ← log, log_orElse, List.filterMap_append]
  rcases p.outcome s with r | e <;> rfl

theorem notes_firstOf_singleton (p : Parser κ ι α) (s : ι) :
    ((firstOf [p]).run s).notes = (p.run s).notes := by
  rw [Traced.notes_eq_filterMap, run_firstOf_singleton]
  rcases p.outcome s with r | e
  · rfl
  · rw [List.filterMap_append]
    exact List.append_nil _

theorem notes_firstOf_cons_cons (p q : Parser κ ι α) (ps : List (Parser κ ι α)) (s : ι) :
    ((firstOf (p :: q :: ps)).run s).notes =
      (p.run s).notes ++
        match p.outcome s with
        | .success _ => []
        | .failure _ => ((firstOf (q :: ps)).run s).notes := by
  rw [Traced.notes_eq_filterMap, run_firstOf_cons_cons]
  rcases p.outcome s with r | e
  · exact (List.append_nil _).symm
  · rw [List.filterMap_append]
    rfl

/-- Of a list of alternatives those that are tried make their notes, one after another. -/
theorem notes_firstOf (ps : List (Parser κ ι α)) (s : ι) :
    ((firstOf ps).run s).notes = (tried s ps).flatMap fun p => (p.run s).notes := by
  induction ps with
  | nil => rfl
  | cons p ps ih =>
    cases ps with
    | nil =>
      rw [notes_firstOf_singleton, tried, tried]
      split <;> exact (List.append_nil _).symm
    | cons q ps =>
      rw [notes_firstOf_cons_cons, tried, ih]
      rcases p.outcome s with r | e <;> simp

/-- All alternatives are tried if none succeeds. -/
theorem tried_eq_self {s : ι} {ps : List (Parser κ ι α)}
    (h : ∀ p ∈ ps, ∃ e, p.outcome s = .failure e) : tried s ps = ps := by
  induction ps with
  | nil => rfl
  | cons p ps ih =>
    obtain ⟨e, he⟩ := h p List.mem_cons_self
    rw [tried, he, ih fun q hq => h q (List.mem_cons_of_mem _ hq)]
    rfl

end Parser

/-- A choice that fails ends with the notes of its last alternative. -/
theorem Choice.notes_ofFn_of_failure {n : Nat} {ps : Fin (n + 1) → Parser κ ι α} {s : ι}
    (h : ∀ i, ∃ e, (ps i).outcome s = .failure e) :
    ∃ notes, ((ofFn ps).parser.run s).notes = notes ++ ((ps (Fin.last n)).run s).notes := by
  -- no alternative stops the search, so that the last one is tried too
  have htried : Parser.tried s (List.ofFn ps) = List.ofFn ps := by
    refine Parser.tried_eq_self fun p hp => ?_
    obtain ⟨i, rfl⟩ := List.mem_ofFn.1 hp
    exact h i
  refine ⟨(List.ofFn fun i : Fin n => ps i.castSucc).flatMap fun p => (p.run s).notes, ?_⟩
  rw [parser_ofFn, Parser.notes_firstOf, htried, List.ofFn_succ_last, List.flatMap_append,
    List.flatMap_singleton]

end ApplicativeParsing

import ApplicativeParsing.Proofs.Recovery

/-!
# Mapping is natural

A mapping transforms the value of a success and touches nothing else. So two mappings are one, and a
mapping may be moved into alternatives: only one of them can succeed, and only its value is mapped.
These are equations between parsers. They hold of the events that the library records and of what
the functions record themselves, and with it of how often, when and on what values these are called.

Into a sequence a mapping moves as two, but the first function is then called before the second part
runs. There only the outcomes are the same.

## Main statements

* `Parser.map_id`, `Parser.select_select`: the laws of a functor.
* `Parser.select_recover`, `Parser.select_orElse`, `Parser.select_firstOf`: mapped alternatives.
* `Parser.mapping_laws`: all of them, with what is called.
-/

namespace ApplicativeParsing

variable {κ ι α β γ δ ε : Type}

namespace Parser

/-- To map the identity changes nothing. -/
theorem map_id (p : Parser κ ι α) : p.map id = p := by
  simp only [map_eq_bind, id, bind_pure]

/-- A mapping of a mapping calls the one function on the value of the other. -/
theorem select_select (p : Parser κ ι α) (f : α → Traced κ β) (g : β → Traced κ γ) :
    (p.select f).select g = p.select fun a => f a >>= g := by
  simp only [select_eq_bind, bind_assoc, ofTraced_bind]

/-! ### Alternatives -/

/-- There is nothing to map in a failure. -/
theorem select_fail (e : String) (f : α → Traced κ β) :
    (fail e : Parser κ ι α).select f = fail e := rfl

/-- A mapping may be moved into a recovery, on both sides. -/
theorem select_recover (event : String → Event) (p : Parser κ ι α) (q : String → Parser κ ι α)
    (f : α → Traced κ β) :
    (p.recover event q).select f = (p.select f).recover event fun e => (q e).select f := by
  refine ext_views (fun s => ?_) fun s => ?_
  · rw [outcome_select, outcome_recover, outcome_recover, outcome_select]
    rcases p.outcome s with r | e
    · rfl
    · exact (outcome_select (q e) f s).symm
  · rw [log_select, log_recover, outcome_recover, log_recover, log_select, outcome_select]
    rcases p.outcome s with r | e
    · simp
    · simp [log_select]

/-- A mapping may be moved into a fallback. -/
theorem select_orElse (p q : Parser κ ι α) (f : α → Traced κ β) :
    (p.orElse q).select f = (p.select f).orElse (q.select f) :=
  select_recover .fellBack p (fun _ => q) f

/-- A mapping may be moved into a list of alternatives. -/
theorem select_firstOf (ps : List (Parser κ ι α)) (f : α → Traced κ β) :
    (firstOf ps).select f = firstOf (ps.map (·.select f)) := by
  induction ps with
  | nil => rfl
  | cons p ps ih =>
    cases ps with
    | nil =>
      simp only [List.map_cons, List.map_nil, firstOf_singleton_eq_recover, select_recover,
        select_fail]
    | cons q ps =>
      rw [firstOf_cons_cons_eq_recover, select_recover, ih]
      exact (firstOf_cons_cons_eq_recover _ _ _).symm

/-! ### Sequences -/

/-- To map both values of a sequence ends as to map each one behind the part that yields it. -/
theorem outcome_select_andThen (p : Parser κ ι α) (q : Parser κ ι β) (f : α → Traced κ γ)
    (g : β → Traced κ δ) (s : ι) :
    ((p.andThen q).select fun (a, b) => return (← f a, ← g b)).outcome s =
      ((p.select f).andThen (q.select g)).outcome s := by
  rw [outcome_select, outcome_andThen, outcome_andThen, outcome_select]
  rcases p.outcome s with ⟨a, r⟩ | e
  · simp only [Outcome.map_success, Outcome.andThen_success, outcome_select]
    rcases q.outcome r with ⟨b, r'⟩ | e <;> rfl
  · rfl

/-- Mapping is a functor and natural in the combinators. The function is called once if the parser
succeeds, on its value and after everything else that happens in its run, and otherwise not at all.
Of two mappings the inner function is called first. A mapping of alternatives is the alternatives
between mappings, with all that they record. A mapping of a sequence ends as the sequence of two
mappings. -/
theorem mapping_laws (p p' : Parser κ ι α) (q : Parser κ ι γ) (c : Choice (Parser κ ι α))
    (f : α → Traced κ β) (g : β → Traced κ δ) (h : γ → Traced κ ε) (s : ι) :
    p.map id = p ∧
    ((p.select f).select g = p.select (fun a => f a >>= g) ∧
      ((p.select f).select g).log s =
        p.log s ++
          match p.outcome s with
          | .success (a, _) => (f a).log ++ (g (f a).value).log
          | .failure _ => []) ∧
    (c.parser.select f = (c.map (·.select f)).parser ∧
      (c.parser.select f).log s =
        c.parser.log s ++
          match c.parser.outcome s with
          | .success (a, _) => (f a).log
          | .failure _ => []) ∧
    ((p.orElse p').select f = (p.select f).orElse (p'.select f) ∧
      ((p.orElse p').select f).log s =
        (p.orElse p').log s ++
          match (p.orElse p').outcome s with
          | .success (a, _) => (f a).log
          | .failure _ => []) ∧
    ((p.andThen q).select fun (a, b) => return (← f a, ← h b)).outcome s =
      ((p.select f).andThen (q.select h)).outcome s := by
  refine ⟨map_id p, ⟨select_select p f g, ?_⟩, ⟨select_firstOf c.alternatives f, log_select _ f s⟩,
    ⟨select_orElse p p' f, log_select _ f s⟩, outcome_select_andThen p q f h s⟩
  rw [select_select, log_select]
  rfl

end Parser

end ApplicativeParsing

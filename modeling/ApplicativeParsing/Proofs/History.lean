import ApplicativeParsing.Grammar.Observation
import ApplicativeParsing.Proofs.Reporting

/-!
# What happens in a run

The history of a run says what is called and what is recorded, in order, by the outcomes of the
parts of a grammar: whether the second part of a sequence runs, how many alternatives are tried,
whether a function is called. It is read off the grammar along its tree and makes no notes, so it
says in its own right what the log of an observed run has to be.

## Main definitions

* `Grammar.history`: the calls and the events of a run.
* `Grammar.ObservedFaithfully`: what an observed run has to do with the run that it observes.

## Main statements

* `Parser.log_firstOf`: the log of a list of alternatives.
* `Grammar.log_observed`: the log of an observed run is the history of the run.
* `Grammar.observedFaithfully`: observed runs are what they are meant to be.
-/

namespace ApplicativeParsing

variable {κ ι σ α β γ : Type}

/-- What happens behind a success, on the rest that it left. Nothing happens behind a failure. -/
def Outcome.behind (o : Outcome (α × ι)) (l : ι → List κ) : List κ :=
  match o with
  | success (_, r) => l r
  | failure _ => []

namespace Parser

theorem log_andThen_eq_behind (p : Parser κ ι α) (q : Parser κ ι β) (s : ι) :
    (p.andThen q).log s = p.log s ++ (p.outcome s).behind q.log := by
  rw [log_andThen]
  rcases p.outcome s with ⟨a, r⟩ | e <;> rfl

/-- A function that notes its call is called behind a success. -/
theorem log_select_noting (k : κ) (f : α → β) (p : Parser κ ι α) (s : ι) :
    (p.select fun a => do Traced.note k; return f a).log s =
      p.log s ++ (p.outcome s).behind fun _ => [.note k] := by
  rw [log_select]
  rcases p.outcome s with ⟨a, r⟩ | e <;> rfl

/-- A lifted function that notes its call is called when both operands have succeeded. -/
theorem log_lift₂_noting (k : κ) (f : α → β → γ) (x : Parser κ ι α) (y : Parser κ ι β) (s : ι) :
    (lift₂ (fun a b => do Traced.note k; return f a b) x y).log s =
      x.log s ++ (x.outcome s).behind fun r =>
        y.log r ++ (y.outcome r).behind fun _ => [.note k] := by
  rw [lift₂_eq_select, log_select_noting k fun ab : α × β => f ab.1 ab.2, log_andThen_eq_behind,
    outcome_andThen, List.append_assoc]
  rcases x.outcome s with ⟨a, r⟩ | e
  · dsimp only [Outcome.andThen_success, Outcome.behind]
    rcases y.outcome r with ⟨b, r'⟩ | e <;> rfl
  · rfl

/-- The log of a list of alternatives: up to the first that succeeds each one makes its own, with
the report of its failure if it fails. -/
theorem log_firstOf (ps : List (Parser κ ι α)) (s : ι) :
    (firstOf ps).log s =
      ((ps.map fun p => p.reported .alternativeFailed s).take
        ((ps.map fun p => p.outcome s).findIdx Outcome.isSuccess + 1)).flatten := by
  induction ps with
  | nil => rfl
  | cons p ps ih =>
    rw [List.map_cons, List.map_cons, List.findIdx_cons]
    cases ps with
    | nil =>
      rw [firstOf_singleton_eq_recover, log_recover_eq_reported]
      rcases p.outcome s with r | e <;> simp
    | cons q ps =>
      rw [firstOf_cons_cons_eq_recover, log_recover_eq_reported, ih]
      rcases p.outcome s with r | e <;> simp

end Parser

namespace Grammar

variable [Input ι σ] [BEq σ] [ToString σ]

/-- How a run of a grammar ends. -/
def outcome (p : Grammar σ α) (s : ι) : Outcome (α × ι) := (p.parser : Parser Empty ι α).outcome s

/-- An observed run ends as the run. -/
theorem outcome_observed_eq (path : Path) (p : Grammar σ α) (s : ι) :
    (p.observed path).outcome s = p.outcome s := outcome_observed path p s

/-- What happens in a run of the grammar at `path`: the calls, as notes, and the events. -/
def history (path : Path) : {α : Type} → Grammar σ α → ι → List (Entry (Call ι σ))
  | _, element e, s => [.note (.element path e s)]
  | _, ret _, s => [.note (.ret path s)]
  | _, andThen p q, s => p.history (0 :: path) s ++ (p.outcome s).behind (q.history (1 :: path))
  | _, orElse p q, s =>
    p.history (0 :: path) s ++
      match p.outcome s with
      | .success _ => []
      | .failure e => .event (.fellBack e) :: q.history (1 :: path) s
  | _, choice ps, s =>
    -- the alternatives up to the first success, each with the report of its failure
    ((List.ofFn fun i => (ps i).history (i.val :: path) s ++
        ((ps i).outcome s).message?.toList.map fun e => .event (.alternativeFailed e)).take
      ((List.ofFn fun i => (ps i).outcome s).findIdx Outcome.isSuccess + 1)).flatten
  | _, select p _, s =>
    p.history (0 :: path) s ++ (p.outcome s).behind fun _ => [.note (.mapping path)]
  | _, apply arg fn, s =>
    fn.history (0 :: path) s ++ (fn.outcome s).behind fun r =>
      arg.history (1 :: path) r ++ (arg.outcome r).behind fun _ => [.note (.mapping path)]
  | _, lift₂ _ x y, s =>
    x.history (0 :: path) s ++ (x.outcome s).behind fun r =>
      y.history (1 :: path) r ++ (y.outcome r).behind fun _ => [.note (.mapping path)]
  | _, boxed p, s => p.history (0 :: path) s

/-- An observed run logs the history of the run. -/
theorem log_observed (path : Path) (p : Grammar σ α) :
    (p.observed path : Parser (Call ι σ) ι α).log = p.history path := by
  -- the parts run at other places and on other inputs, so they are compared at all of them
  induction p generalizing path with
  | element e => rfl
  | ret a => rfl
  | andThen p q ihp ihq =>
    funext s
    rw [observed, Parser.log_andThen_eq_behind, ihp, ihq, outcome_observed_eq, history]
  | orElse p q ihp ihq =>
    funext s
    rw [observed, Parser.log_orElse, ihp, ihq, outcome_observed_eq]
    cases h : p.outcome s <;> simp only [history, h]
  | choice ps ih =>
    funext s
    simp only [observed, Choice.parser_ofFn, Parser.log_firstOf, Parser.reported, List.map_ofFn,
      Function.comp_def, ih, outcome_observed_eq, history]
  | select p f ih =>
    funext s
    rw [observed, Parser.log_select_noting, ih, outcome_observed_eq, history]
  | apply arg fn iha ihf =>
    funext s
    simp only [observed, Parser.apply_map_eq_lift₂, Parser.log_lift₂_noting, ihf, iha,
      outcome_observed_eq, history]
  | lift₂ f x y ihx ihy =>
    funext s
    simp only [observed, Parser.log_lift₂_noting, ihx, ihy, outcome_observed_eq, history]
  | boxed p ih => exact ih _

/-- The second candidate is tried when the first one has failed and its failure is reported. -/
example : (anyOf (n := 1) ['a', 'b'].get).history [] ['b', 'c'] =
    [.note (.element [0] 'a' ['b', 'c']), .event (.alternativeFailed "Expecting 'a'. Got 'b'."),
      .note (.element [1] 'b' ['b', 'c'])] := rfl

/-- An observed run of a grammar has to do with its run as it should: it ends alike, the library
records the same events in it, and what it logs are the calls and the events of the run in order. -/
structure ObservedFaithfully (p : Grammar σ α) (s : ι) : Prop where
  /-- It ends as the run of the parser, whatever notes that one may make. -/
  outcome (κ : Type) : (p.observed []).outcome s = (p.parser : Parser κ ι α).outcome s
  /-- The library records the events that it records in the run of the parser. -/
  events (κ : Type) : ((p.observed []).run s).events = ((p.parser : Parser κ ι α).run s).events
  /-- It logs what happens in the run. -/
  log : (p.observed []).log s = p.history [] s

/-- Observation is faithful. -/
theorem observedFaithfully (p : Grammar σ α) (s : ι) : p.ObservedFaithfully s where
  outcome _ := outcome_observed [] p s
  events _ := events_observed [] p s
  log := congrFun (log_observed [] p) s

end Grammar

end ApplicativeParsing

import Mathlib.Data.List.OfFn
import ApplicativeParsing.Proofs.Notes

/-!
# Recovering from failures

Falling back and trying the next alternative are the same step: the failure of one parser is
recorded, and another parser runs on the same input. The two combinators of alternatives differ in
the event that they record, and a list of alternatives ends with its last failure instead of another
parser. A property of runs that this one step keeps is kept by both combinators.

## Main definitions

* `Parser.recover`: one parser, and what to do about its failure.

## Main statements

* `Parser.orElse_eq_recover`, `Parser.firstOf_cons_cons_eq_recover`: the combinators by way of this
  step.
* `Choice.ofFn_induction`: what every alternative has and the step keeps, a choice has.
-/

namespace ApplicativeParsing

variable {κ ι α : Type}

namespace Parser

/-- Run `p`. If it fails, record its message as an event, and run on the same input the parser that
`q` makes of the message. -/
def recover (event : String → Event) (p : Parser κ ι α) (q : String → Parser κ ι α) :
    Parser κ ι α where
  run s := do
    match ← p.run s with
    | .success r => return .success r
    | .failure e =>
      Traced.record (event e)
      (q e).run s

variable {event : String → Event} {p : Parser κ ι α} {q : String → Parser κ ι α}

theorem run_recover (s : ι) :
    (p.recover event q).run s =
      match p.outcome s with
      | .success r => ⟨p.log s, .success r⟩
      | .failure e => ⟨p.log s ++ .event (event e) :: (q e).log s, (q e).outcome s⟩ := by
  simp only [recover, outcome, log]
  rcases p.run s with ⟨l, r | e⟩
  · exact Traced.ext (by simp) rfl
  · exact Traced.ext (by simp) rfl

theorem outcome_recover (s : ι) :
    (p.recover event q).outcome s =
      match p.outcome s with
      | .success r => .success r
      | .failure e => (q e).outcome s := by
  rw [outcome, run_recover]
  rcases p.outcome s with r | e <;> rfl

theorem log_recover (s : ι) :
    (p.recover event q).log s =
      p.log s ++
        match p.outcome s with
        | .success _ => []
        | .failure e => .event (event e) :: (q e).log s := by
  rw [log, run_recover]
  rcases p.outcome s with r | e <;> simp

/-- The event of the recovery is not a note. -/
theorem notes_recover (s : ι) :
    ((p.recover event q).run s).notes =
      (p.run s).notes ++
        match p.outcome s with
        | .success _ => []
        | .failure e => ((q e).run s).notes := by
  rw [Traced.notes_eq_filterMap, ← log, log_recover, List.filterMap_append]
  rcases p.outcome s with r | e <;> rfl

/-- Falling back does not look at the failure. -/
theorem orElse_eq_recover (p q : Parser κ ι α) : p.orElse q = p.recover .fellBack fun _ => q := rfl

/-- Behind the last alternative there is only its failure. -/
theorem firstOf_singleton_eq_recover (p : Parser κ ι α) :
    firstOf [p] = p.recover .alternativeFailed fail := by
  refine ext_run fun s => ?_
  rw [run_firstOf_singleton, run_recover]
  rcases p.outcome s with r | e <;> rfl

/-- An alternative that is not the last is recovered from by those behind it. -/
theorem firstOf_cons_cons_eq_recover (p q : Parser κ ι α) (ps : List (Parser κ ι α)) :
    firstOf (p :: q :: ps) = p.recover .alternativeFailed fun _ => firstOf (q :: ps) :=
  ext_run fun s => (run_firstOf_cons_cons p q ps s).trans (run_recover s).symm

/-- An alternative is recovered from by those behind it, if there are any. -/
theorem firstOf_cons_eq_recover (p : Parser κ ι α) {ps : List (Parser κ ι α)} (hps : ps ≠ []) :
    firstOf (p :: ps) = p.recover .alternativeFailed fun _ => firstOf ps := by
  obtain ⟨q, ps, rfl⟩ := List.exists_cons_of_ne_nil hps
  exact firstOf_cons_cons_eq_recover p q ps

/-- Every list of alternatives is its first one with a recovery. -/
theorem exists_firstOf_cons_eq_recover (p : Parser κ ι α) (ps : List (Parser κ ι α)) :
    ∃ q, firstOf (p :: ps) = p.recover .alternativeFailed q := by
  by_cases hps : ps = []
  · exact ⟨fail, hps ▸ firstOf_singleton_eq_recover p⟩
  · exact ⟨_, firstOf_cons_eq_recover p hps⟩

/-- What every member of a list has, and a recovery keeps, the list of alternatives has. -/
theorem firstOf_induction {P : Parser κ ι α → Prop} (hfail : ∀ e, P (.fail e))
    (hrecover : ∀ {p q}, P p → (∀ e, P (q e)) → P (p.recover .alternativeFailed q))
    {ps : List (Parser κ ι α)} (h : ∀ p ∈ ps, P p) : P (firstOf ps) := by
  induction ps with
  | nil => exact hfail _
  | cons p ps ih =>
    obtain ⟨hp, hps⟩ := List.forall_mem_cons.1 h
    by_cases hnil : ps = []
    · rw [hnil, firstOf_singleton_eq_recover]
      exact hrecover hp hfail
    · rw [firstOf_cons_eq_recover p hnil]
      exact hrecover hp fun _ => ih hps

end Parser

/-- What every alternative has, and a recovery keeps, a choice has. What it has may come with a list
for every alternative, such as the places in it, and then comes with all of them for the choice. -/
theorem Choice.ofFn_induction {ω : Type} {P : List ω → Parser κ ι α → Prop}
    (hfail : ∀ e, P [] (.fail e))
    (hrecover : ∀ {l m p q}, P l p → (∀ e, P m (q e)) → P (l ++ m) (p.recover .alternativeFailed q))
    {n : Nat} (lists : Fin (n + 1) → List ω) {ps : Fin (n + 1) → Parser κ ι α}
    (h : ∀ i, P (lists i) (ps i)) : P (List.ofFn lists).flatten (ofFn ps).parser := by
  rw [parser_ofFn]
  induction n with
  | zero =>
    have hlast := hrecover (h 0) hfail
    rw [← Parser.firstOf_singleton_eq_recover] at hlast
    simpa using hlast
  | succ n ih =>
    have hps : Parser.firstOf (List.ofFn ps) =
        (ps 0).recover .alternativeFailed fun _ => .firstOf (List.ofFn fun i => ps i.succ) := by
      rw [List.ofFn_succ, List.ofFn_succ]
      exact Parser.firstOf_cons_cons_eq_recover _ _ _
    rw [hps, List.ofFn_succ (f := lists), List.flatten_cons]
    exact hrecover (h 0) fun _ => ih _ fun i => h i.succ

/-- What every alternative has, and a recovery keeps, a choice has. -/
theorem Choice.parser_induction {P : Parser κ ι α → Prop} (hfail : ∀ e, P (.fail e))
    (hrecover : ∀ {p q}, P p → (∀ e, P (q e)) → P (p.recover .alternativeFailed q)) {n : Nat}
    {ps : Fin (n + 1) → Parser κ ι α} (h : ∀ i, P (ps i)) : P (ofFn ps).parser :=
  ofFn_induction (P := fun (_ : List Unit) p => P p) hfail hrecover (fun _ => []) h

end ApplicativeParsing

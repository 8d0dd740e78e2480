import ApplicativeParsing.Grammar.Shape
import ApplicativeParsing.Proofs.History

/-!
# Values do not steer a run

The values that a run computes are handed on and never looked at. What is read, which alternative is
taken, what is recorded and how a failure is worded depends on the shape of a grammar and on the
input only. So two grammars of one shape run alike whatever values and functions stand in them, even
of different types. If a value could choose the parser that runs after it, this would not hold.

The two runs are related with nothing required of their values, and then the functions that a parser
of functions yields need not have anything to do with each other either: any two of them are called
at the same moment.

## Main statements

* `Grammar.SameShape.observed_related`: grammars of one shape run alike.
* `Grammar.SameShape.runs_agree`: the logs are the same, and the outcomes up to their values.
-/

namespace ApplicativeParsing

variable {κ ι σ α α' β β' : Type}

/-- Equal logs. -/
def LogRelation.same : LogRelation κ κ where
  Rel := Eq
  nil := rfl
  append h h' := by rw [h, h']
  event _ := rfl

/-- Any two functions that note the same call are alike as far as logs are concerned. -/
private theorem noted_same {k : κ} (f : α → β) (f' : α' → β') :
    Parser.RelatedMapping LogRelation.same (fun _ _ => True) (fun _ _ => True)
      (fun a => do Traced.note k; return f a) fun a => do Traced.note k; return f' a :=
  fun _ _ _ => ⟨rfl, trivial⟩

namespace Grammar.SameShape

variable [Input ι σ] [BEq σ] [ToString σ] {p : Grammar σ α} {p' : Grammar σ α'}

/-- Grammars of one shape run alike on the same input, as far as values are not concerned. -/
theorem observed_related (h : SameShape p p') (path : Path) :
    Parser.Related LogRelation.same Eq (fun _ _ => True) (p.observed path : Parser _ ι α)
      (p'.observed path) := by
  induction h generalizing path with
  | element e =>
    have helement : Parser.Related LogRelation.same Eq Eq
        (.element e : Parser (Call ι σ) ι σ) (.element e) := .element Input.Simulation.eq e
    exact Parser.Related.probe (fun _ _ hs => hs ▸ rfl) (helement.mono fun _ _ _ => trivial)
  | ret a b => exact Parser.Related.probe (fun _ _ hs => hs ▸ rfl) (.ret trivial)
  | andThen _ _ ihp ihq => exact ((ihp _).andThen (ihq _)).mono fun _ _ _ => trivial
  | orElse _ _ ihp ihq => exact (ihp _).orElse (ihq _)
  | choice _ ih => exact Parser.Related.choice fun i => ih i _
  | select f f' _ ih => exact (ih _).select (noted_same f f')
  | apply _ _ iha ihf => exact (iha _).apply ((ihf _).map fun f f' _ => noted_same f f')
  | lift₂ f f' _ _ ihx ihy =>
    exact Parser.Related.lift₂ (fun a a' _ => noted_same (f a) (f' a')) (ihx _) (ihy _)
  | boxed _ ih => exact ih _

/-- Two grammars of one shape succeed on the same inputs and leave the same rest, and fail on the
others with the same message. They call the same primitives on the same inputs and the functions at
the same places, in the same order, and record the same events at the same moments. Their calls are
seen by observing them, and the observed runs are faithful to the runs. -/
theorem runs_agree (h : SameShape p p') (s : ι) :
    Outcome.Related (fun x x' => x.2 = x'.2) ((p.parser : Parser κ ι α).outcome s)
        ((p'.parser : Parser κ ι α').outcome s) ∧
      (p.observed []).log s = (p'.observed []).log s ∧
      ((p.parser : Parser κ ι α).run s).events = ((p'.parser : Parser κ ι α').run s).events ∧
      p.ObservedFaithfully s ∧ p'.ObservedFaithfully s := by
  obtain ⟨hlog, houtcome⟩ := h.observed_related [] (rfl : s = s)
  refine ⟨?_, hlog, ?_, p.observedFaithfully s, p'.observedFaithfully s⟩
  · rw [← outcome_observed [], ← outcome_observed []]
    revert houtcome
    generalize (p.observed []).outcome s = o, (p'.observed []).outcome s = o'
    rintro (hx | e)
    · exact .success hx.2
    · exact .failure e
  · rw [← events_observed [], ← events_observed []]
    exact congrArg (List.filterMap Entry.event?) hlog

/-- A sum of two numbers against a text, behind a fallback and with other functions everywhere. -/
theorem runs_agree_lift₂ :
    let p : Grammar Char Nat :=
      .lift₂ (· + ·) (.orElse (.select (.element 'a') Char.toNat) (.ret 0))
        (.apply (.element 'b') (.ret Char.toNat))
    let p' : Grammar Char String :=
      .lift₂ (fun _ y => y) (.orElse (.select (.element 'a') Char.isDigit) (.ret true))
        (.apply (.element 'b') (.ret fun _ => "b"))
    let q : Parser Unit (List Char) Nat := p.parser
    let q' : Parser Unit (List Char) String := p'.parser
    SameShape p p' ∧
      q.outcome ['b', 'c'] = .success (98, ['c']) ∧
      Outcome.Related (fun x x' => x.2 = x'.2) (q.outcome ['b', 'c']) (q'.outcome ['b', 'c']) ∧
      (p.observed []).log ['b', 'c'] = (p'.observed []).log ['b', 'c'] ∧
      (q.run ['b', 'c']).events = (q'.run ['b', 'c']).events ∧
      p.ObservedFaithfully ['b', 'c'] ∧ p'.ObservedFaithfully ['b', 'c'] := by
  intro p p' q q'
  have hshape : SameShape p p' :=
    .lift₂ _ _ (.orElse (.select _ _ (.element 'a')) (.ret _ _)) (.apply (.element 'b') (.ret _ _))
  obtain ⟨houtcome, hlog, hevents, hfaithful⟩ := runs_agree (κ := Unit) hshape ['b', 'c']
  exact ⟨hshape, rfl, houtcome, hlog, hevents, hfaithful⟩

end Grammar.SameShape

end ApplicativeParsing

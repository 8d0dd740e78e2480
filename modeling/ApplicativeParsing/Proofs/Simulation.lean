import ApplicativeParsing.Grammar.Observation
import ApplicativeParsing.Proofs.FiniteInput

/-!
# Inputs that step alike

A run looks at its input by stepping through it. Two inputs that show the same elements step by
step, of whatever kinds they are, are therefore parsed alike: the same calls are made on inputs that
still step alike, the same events are recorded, and the outcomes differ at most in the
representation of the rest. A finite input steps as the list of its elements.

## Main definitions

* `Call.Alike`: the same call on inputs that are related.

## Main statements

* `Grammar.observed_related_of_simulation`: a grammar runs alike on inputs that step alike.
* `Grammar.outcome_elements`: a run ends as the run on the list of elements.
-/

namespace ApplicativeParsing

open FiniteInput (elements)

variable {κ κ' ι ι' σ α : Type}

/-- The same call, on inputs that are related by `R`. -/
inductive Call.Alike (R : ι → ι' → Prop) : Call ι σ → Call ι' σ → Prop where
  /-- The parser for one element ran on related inputs. -/
  | element (path : Path) (e : σ) {s : ι} {s' : ι'} (h : R s s') :
    Alike R (.element path e s) (.element path e s')
  /-- The parser that yields a value ran on related inputs. -/
  | ret (path : Path) {s : ι} {s' : ι'} (h : R s s') : Alike R (.ret path s) (.ret path s')
  /-- The same function was called. -/
  | mapping (path : Path) : Alike R (.mapping path) (.mapping path)

/-- A finite input steps as the list of its elements does. -/
theorem FiniteInput.simulation [FiniteInput ι σ] :
    Input.Simulation fun (s : ι) (l : List σ) => elements s = l where
  first_eq h := h ▸ FiniteInput.first_eq_head? _
  rest h := h ▸ FiniteInput.elements_rest_eq_tail _

namespace Grammar

variable [BEq σ] [ToString σ]

/-- On inputs that step alike a grammar makes the same calls, which any relation of logs relates
that relates single calls, and ends alike. -/
theorem observed_related_of_simulation [Input ι σ] [Input ι' σ] {R : ι → ι' → Prop}
    (hR : Input.Simulation R) {L : LogRelation (Call ι σ) (Call ι' σ)}
    (hL : ∀ c c', Call.Alike R c c' → L.Rel [.note c] [.note c']) (path : Path)
    (p : Grammar σ α) :
    Parser.Related L R Eq (p.observed path : Parser _ ι α) (p.observed path : Parser _ ι' α) := by
  -- a function that notes its call is the same on both sides
  have hnoted {β γ : Type} (path : Path) (f : β → γ) : Parser.RelatedMapping L Eq Eq
      (fun a => do Traced.note (.mapping path); return f a)
      (fun a => do Traced.note (.mapping path); return f a) := by
    rintro a _ rfl
    exact ⟨hL _ _ (.mapping path), rfl⟩
  induction p generalizing path with
  | element e =>
    exact Parser.Related.probe (fun _ _ h => hL _ _ (.element path e h)) (.element hR e)
  | ret a => exact Parser.Related.probe (fun _ _ h => hL _ _ (.ret path h)) (.ret rfl)
  | andThen p q ihp ihq => exact ((ihp _).andThen (ihq _)).mono fun _ _ h => Prod.ext h.1 h.2
  | orElse p q ihp ihq => exact (ihp _).orElse (ihq _)
  | choice ps ih => exact Parser.Related.choice fun i => ih i _
  | select p f ih => exact (ih _).select (hnoted path f)
  | apply arg fn iha ihf =>
    refine (iha _).apply ((ihf _).map ?_)
    rintro f _ rfl
    exact hnoted path f
  | lift₂ f x y ihx ihy =>
    refine Parser.Related.lift₂ ?_ (ihx _) (ihy _)
    rintro a _ rfl
    exact hnoted path (f a)
  | boxed p ih => exact ih _

/-- A run on a finite input ends as the run on the list of its elements. -/
theorem outcome_elements [FiniteInput ι σ] (p : Grammar σ α) (s : ι) :
    Outcome.Related (fun x x' => x.1 = x'.1 ∧ elements x.2 = x'.2)
      ((p.parser : Parser κ ι α).outcome s)
      ((p.parser : Parser κ (List σ) α).outcome (elements s)) := by
  have hcalls (c : Call ι σ) (c' : Call (List σ) σ) :
      Call.Alike (fun s l => elements s = l) c c' → LogRelation.events.Rel [.note c] [.note c'] :=
    fun _ => rfl
  have h := observed_related_of_simulation FiniteInput.simulation hcalls [] p
  rw [← outcome_observed [], ← outcome_observed []]
  exact (h rfl).2

end Grammar

end ApplicativeParsing

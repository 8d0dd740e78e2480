import Mathlib.Data.List.Forall2
import ApplicativeParsing.Proofs.History
import ApplicativeParsing.Proofs.Simulation

/-!
# The representation of the input

A grammar does not say what its input is. Over two kinds of input whose steps show the same
elements it makes the same calls at the same places, on inputs that still correspond, and the
library records the same events between them; what is left of the one input in the end corresponds
to what is left of the other. The characters of a string may be read from its bytes one by one, or
all at once into a list that is then parsed.

## Main definitions

* `Entry.Related`: the same event, or related notes.
* `Grammar.RunsAlike`: two runs of one grammar that correspond.

## Main statements

* `Grammar.runsAlike_of_simulation`: runs on inputs that step alike correspond.
* `Grammar.runsAlike_on_any_representation`: the same with string slices and lists of characters as
  an instance.
-/

namespace ApplicativeParsing

variable {κ κ' ι ι' σ α : Type}

/-- Both entries record the same event, or they are related notes. -/
inductive Entry.Related (S : κ → κ' → Prop) : Entry κ → Entry κ' → Prop where
  /-- The same event. -/
  | event (e : Event) : Related S (.event e) (.event e)
  /-- Related notes. -/
  | note {k : κ} {k' : κ'} (h : S k k') : Related S (.note k) (.note k')

/-- Logs whose entries are related one by one. -/
def LogRelation.entrywise (S : κ → κ' → Prop) : LogRelation κ κ' where
  Rel := List.Forall₂ (Entry.Related S)
  nil := .nil
  append h h' := List.rel_append h h'
  event e := .cons (.event e) .nil

/-- Logs whose entries are related hold the same events. -/
theorem Entry.Related.events_eq {S : κ → κ' → Prop} {l : List (Entry κ)} {l' : List (Entry κ')}
    (h : List.Forall₂ (Entry.Related S) l l') :
    l.filterMap Entry.event? = l'.filterMap Entry.event? := by
  induction h with
  | nil => rfl
  | cons hx _ ih =>
    -- a note is left out on both sides
    cases hx with
    | event e => exact congrArg (e :: ·) ih
    | note _ => exact ih

namespace Grammar

variable [BEq σ] [ToString σ]

/-- Two runs of one grammar correspond, on inputs of two kinds that are related by `R`. -/
structure RunsAlike [Input ι σ] [Input ι' σ] (R : ι → ι' → Prop) (p : Grammar σ α) (s : ι)
    (s' : ι') : Prop where
  /-- Both fail with one message, or succeed with the same value and related rests. -/
  outcome (κ : Type) : Outcome.Related (fun x x' => x.1 = x'.1 ∧ R x.2 x'.2)
    ((p.parser : Parser κ ι α).outcome s) ((p.parser : Parser κ ι' α).outcome s')
  /-- The same calls are made on related inputs, with the same events between them. -/
  log : List.Forall₂ (Entry.Related (Call.Alike R)) ((p.observed []).log s) ((p.observed []).log s')
  /-- The same events are recorded when no calls are noted. -/
  events (κ : Type) :
    ((p.parser : Parser κ ι α).run s).events = ((p.parser : Parser κ ι' α).run s').events
  /-- The calls of the one run are those that its observation notes. -/
  observed : p.ObservedFaithfully s
  /-- So are the calls of the other run. -/
  observed' : p.ObservedFaithfully s'

/-- Runs on inputs that step alike correspond. -/
theorem runsAlike_of_simulation [Input ι σ] [Input ι' σ] {R : ι → ι' → Prop}
    (hR : Input.Simulation R) (p : Grammar σ α) {s : ι} {s' : ι'} (h : R s s') :
    p.RunsAlike R s s' := by
  -- calls of the same part on related inputs are related entries
  have hrelated := observed_related_of_simulation (L := .entrywise (Call.Alike R)) hR
    (fun _ _ hc => .cons (.note hc) .nil) [] p
  obtain ⟨hlog, houtcome⟩ := hrelated h
  refine ⟨fun κ => ?_, hlog, fun κ => ?_, p.observedFaithfully s, p.observedFaithfully s'⟩
  -- observation has changed neither the outcomes nor the events
  · rw [← outcome_observed [], ← outcome_observed []]
    exact houtcome
  · rw [← events_observed [], ← events_observed []]
    exact Entry.Related.events_eq hlog

/-- If related inputs show the same next element and have related rests, then a grammar runs alike
on related inputs. A string slice is related in this way to the list of its characters, whatever
bytes encode them, so parsing a slice and parsing the list agree. -/
theorem runsAlike_on_any_representation :
    (∀ {ι ι' : Type} [Input ι σ] [Input ι' σ] {R : ι → ι' → Prop}, Input.Simulation R →
      ∀ {α : Type} (p : Grammar σ α) (s : ι) (s' : ι'), R s s' → p.RunsAlike R s s') ∧
    (Input.Simulation fun (s : String.Slice) (cs : List Char) => s.copy.toList = cs) ∧
    ∀ {α : Type} (p : Grammar Char α) (s : String.Slice),
      p.RunsAlike (fun (s : String.Slice) (cs : List Char) => s.copy.toList = cs) s
        s.copy.toList :=
  ⟨fun hR _ p _ _ h => runsAlike_of_simulation hR p h, Input.Simulation.slice,
    fun p _ => runsAlike_of_simulation Input.Simulation.slice p rfl⟩

/-- Characters of one, two and three bytes. -/
theorem runsAlike_on_any_representation_bytes :
    let R := fun (s : String.Slice) (cs : List Char) => s.copy.toList = cs
    let p : Grammar Char (Char × Char) :=
      .andThen (.element 'é') (.orElse (.element '.') (.element '→'))
    Input.Simulation R ∧ R "é→.".toSlice ['é', '→', '.'] ∧
      (p.parser : Parser Unit (List Char) _).outcome ['é', '→', '.'] =
        .success (('é', '→'), ['.']) ∧
      p.RunsAlike R "é→.".toSlice ['é', '→', '.'] := by
  intro R p
  have hR : Input.Simulation R := Input.Simulation.slice
  have hs : R "é→.".toSlice ['é', '→', '.'] := by simp [R]
  obtain ⟨halike, -, -⟩ := runsAlike_on_any_representation (σ := Char)
  exact ⟨hR, hs, rfl, halike hR p _ _ hs⟩

end Grammar

end ApplicativeParsing

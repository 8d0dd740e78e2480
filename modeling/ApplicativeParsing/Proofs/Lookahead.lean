import ApplicativeParsing.Grammar.Bounds
import ApplicativeParsing.Proofs.Language
import ApplicativeParsing.Proofs.Recovery
import ApplicativeParsing.Proofs.Simulation

/-!
# Lookahead

A run that never meets the end of its input does not notice what stands behind the part that it
looked at. It is not enough that the run succeeds: an alternative that failed at the end of the
input may succeed when the input goes on. So the condition is on all calls of the run, those in
alternatives that failed included, and it passes from a run to the runs of its parts because the
calls of the parts are among those of the whole.

How far a run can look is read off the tree. A sequence looks as far as its second part looks from
where the first one stopped, so the bound on the calls needs the bound on consumption.

## Main definitions

* `Call.Inside`: no element was asked for at the end of the input.
* `Parser.Stable`: what follows the input does not matter to a run whose calls are all inside.
* `Parser.Within`: a number of elements that keeps all calls inside and that no success exceeds.

## Main statements

* `Grammar.stable_observed`, `Grammar.within_observed`: the two properties of a grammar.
* `Grammar.stable_within_lookahead`: both together, and what follows for inputs that begin alike.
-/

namespace ApplicativeParsing

open FiniteInput (elements)

variable {κ ι σ α β γ : Type} [FiniteInput ι σ]

/-- The call is not one of a parser for one element at the end of the input. -/
def Call.Inside : Call ι σ → Prop
  | element _ _ s => elements s ≠ []
  | _ => True

/-- Logs of the same events and calls, the inputs of the calls on the right followed by `u`. -/
def LogRelation.followedBy (u : List σ) : LogRelation (Call ι σ) (Call ι σ) :=
  .image (Call.mapInput fun s => elements s ++ u) (Call.mapInput elements)

namespace Parser

/-! ### Stability -/

/-- If all calls in the run on an input are inside, then the run on the same input followed by `u`
makes the same calls, records the same events and ends alike, with a rest followed by `u`. -/
def Stable (u : List σ) (p : Parser (Call ι σ) ι α) : Prop :=
  ∀ ⦃s s'⦄, elements s' = elements s ++ u → (∀ c ∈ (p.run s).notes, c.Inside) →
    (LogRelation.followedBy u).Rel (p.log s) (p.log s') ∧
      Outcome.Related (fun x x' => x.1 = x'.1 ∧ elements x'.2 = elements x.2 ++ u)
        (p.outcome s) (p.outcome s')

namespace Stable

variable {u : List σ}

/-- The next element of an input is the next element of a longer one. -/
theorem element [BEq σ] [ToString σ] (path : Path) (e : σ) :
    Stable u ((Parser.element e : Parser _ ι σ).probe (.element path e)) := by
  intro s s' hs hinside
  have hne : elements s ≠ [] := hinside (.element path e s) List.mem_cons_self
  obtain ⟨x, w, hxw⟩ := List.exists_cons_of_ne_nil hne
  have hs' : elements s' = x :: (w ++ u) := by rw [hs, hxw, List.cons_append]
  -- both runs see `x`, and step over it if they accept it
  have hfirst : Input.first s' = Input.first s := by
    rw [FiniteInput.first_eq_head?, FiniteInput.first_eq_head?, hs', hxw, List.head?_cons,
      List.head?_cons]
  have hrest : elements (Input.rest s') = elements (Input.rest s) ++ u := by
    rw [FiniteInput.elements_rest_eq_tail, FiniteInput.elements_rest_eq_tail, hs', hxw,
      List.tail_cons, List.tail_cons]
  refine ⟨?_, ?_⟩
  · change [Entry.note (Call.element path e (elements s ++ u))] =
      [Entry.note (Call.element path e (elements s'))]
    rw [hs]
  · rw [outcome_probe, outcome_probe, outcome_element, outcome_element, element.failure?,
      element.failure?, hfirst]
    cases Input.first s with
    | none => exact .failure _
    | some y =>
      cases hy : y == e with
      | false => simpa [hy] using Outcome.Related.failure _
      | true => simpa [hy] using Outcome.Related.success ⟨rfl, hrest⟩

theorem ret (path : Path) (a : α) :
    Stable u ((Parser.ret a : Parser (Call ι σ) ι α).probe (.ret path)) := by
  intro s s' hs _
  refine ⟨?_, .success ⟨rfl, hs⟩⟩
  change [Entry.note (Call.ret path (elements s ++ u))] = [Entry.note (Call.ret path (elements s'))]
  rw [hs]

theorem fail (e : String) : Stable u (Parser.fail e : Parser (Call ι σ) ι α) :=
  fun _ _ _ _ => ⟨rfl, .failure e⟩

/-- The second part of a sequence runs on a rest that is followed by `u` again. -/
theorem andThen {p : Parser (Call ι σ) ι α} {q : Parser (Call ι σ) ι β} (hp : Stable u p)
    (hq : Stable u q) : Stable u (p.andThen q) := by
  intro s s' hs hinside
  rw [notes_andThen] at hinside
  obtain ⟨hl, ho⟩ := hp hs fun c hc => hinside c (List.mem_append_left _ hc)
  replace hinside := fun c hc => hinside c (List.mem_append_right _ hc)
  rw [log_andThen, log_andThen, outcome_andThen, outcome_andThen]
  revert ho hinside
  generalize p.outcome s = o, p.outcome s' = o'
  rintro (@⟨⟨a, r⟩, ⟨a', r'⟩, ⟨rfl, hr⟩⟩ | e) hinside
  · obtain ⟨hl', ho'⟩ := hq hr hinside
    refine ⟨LogRelation.append _ hl hl', ?_⟩
    simp only [Outcome.andThen_success]
    revert ho'
    generalize q.outcome r = o, q.outcome r' = o'
    rintro (⟨hb, hr'⟩ | e)
    · exact .success ⟨congrArg (Prod.mk a) hb, hr'⟩
    · exact .failure e
  · exact ⟨LogRelation.append _ hl (LogRelation.nil _), .failure e⟩

/-- A recovery runs on the input again, and so does the recovery on the longer one. The calls of the
part that failed have to be inside too, otherwise it might succeed there. -/
theorem recover {event : String → Event} {p : Parser (Call ι σ) ι α}
    {q : String → Parser (Call ι σ) ι α} (hp : Stable u p) (hq : ∀ e, Stable u (q e)) :
    Stable u (p.recover event q) := by
  intro s s' hs hinside
  rw [notes_recover] at hinside
  obtain ⟨hl, ho⟩ := hp hs fun c hc => hinside c (List.mem_append_left _ hc)
  replace hinside := fun c hc => hinside c (List.mem_append_right _ hc)
  rw [log_recover, log_recover, outcome_recover, outcome_recover]
  revert ho hinside
  generalize p.outcome s = o, p.outcome s' = o'
  rintro (h | e) hinside
  · exact ⟨LogRelation.append _ hl (LogRelation.nil _), .success h⟩
  · obtain ⟨hl', ho'⟩ := hq e hs hinside
    exact ⟨LogRelation.append _ hl (LogRelation.append _ (LogRelation.event _ _) hl'), ho'⟩

theorem orElse {p q : Parser (Call ι σ) ι α} (hp : Stable u p) (hq : Stable u q) :
    Stable u (p.orElse q) := by
  rw [orElse_eq_recover]
  exact hp.recover fun _ => hq

theorem choice {n : Nat} {ps : Fin (n + 1) → Parser (Call ι σ) ι α} (h : ∀ i, Stable u (ps i)) :
    Stable u (Choice.ofFn ps).parser :=
  Choice.parser_induction fail recover h

/-- A function whose log does not show the input. -/
theorem select {p : Parser (Call ι σ) ι α} {f : α → Traced (Call ι σ) β} (hp : Stable u p)
    (hf : ∀ a, (LogRelation.followedBy u).Rel (f a).log (f a).log) : Stable u (p.select f) := by
  intro s s' hs hinside
  rw [notes_select] at hinside
  obtain ⟨hl, ho⟩ := hp hs fun c hc => hinside c (List.mem_append_left _ hc)
  rw [log_select, log_select, outcome_select, outcome_select]
  revert ho
  generalize p.outcome s = o, p.outcome s' = o'
  rintro (@⟨⟨a, r⟩, ⟨a', r'⟩, ⟨rfl, hr⟩⟩ | e)
  · exact ⟨LogRelation.append _ hl (hf a), .success ⟨rfl, hr⟩⟩
  · exact ⟨LogRelation.append _ hl (LogRelation.nil _), .failure e⟩

theorem lift₂ {x : Parser (Call ι σ) ι α} {y : Parser (Call ι σ) ι β}
    {f : α → β → Traced (Call ι σ) γ} (hx : Stable u x) (hy : Stable u y)
    (hf : ∀ a b, (LogRelation.followedBy u).Rel (f a b).log (f a b).log) :
    Stable u (Parser.lift₂ f x y) := by
  rw [lift₂_eq_select]
  exact (hx.andThen hy).select fun v => hf v.1 v.2

end Stable

/-! ### Bounds -/

/-- On inputs of at least `n` elements all calls are inside, and no success consumes more than `n`
elements. -/
structure Within (n : Nat) (p : Parser (Call ι σ) ι α) : Prop where
  /-- Among `n` elements all calls are inside. -/
  inside {s : ι} : n ≤ (elements s).length → ∀ c ∈ (p.run s).notes, c.Inside
  /-- At most `n` elements are consumed. -/
  consumes {s r : ι} {v : α} :
    p.outcome s = .success (v, r) → (elements s).length ≤ (elements r).length + n

namespace Within

variable {n m : Nat}

theorem mono {p : Parser (Call ι σ) ι α} (hp : Within n p) (h : n ≤ m) : Within m p where
  inside hs := hp.inside (Nat.le_trans h hs)
  consumes hsuccess := Nat.le_trans (hp.consumes hsuccess) (Nat.add_le_add_left h _)

theorem element [BEq σ] [ToString σ] (path : Path) (e : σ) :
    Within 1 ((Parser.element e : Parser _ ι σ).probe (.element path e)) where
  inside {s} hs c hc := by
    obtain rfl : c = .element path e s := List.mem_singleton.1 hc
    exact List.length_pos_iff.1 hs
  consumes h := by
    rw [outcome_probe] at h
    obtain ⟨-, -, x, hs, -⟩ := outcome_element_eq_success.1 h
    rw [hs, List.length_cons]

theorem ret (path : Path) (a : α) :
    Within 0 ((Parser.ret a : Parser (Call ι σ) ι α).probe (.ret path)) where
  inside {s} _ c hc := by
    obtain rfl : c = .ret path s := List.mem_singleton.1 hc
    trivial
  consumes h := by
    cases h
    exact Nat.le_refl _

theorem fail (n : Nat) (e : String) : Within n (Parser.fail e : Parser (Call ι σ) ι α) where
  inside _ _ hc := nomatch hc
  consumes h := nomatch h

/-- What the first part leaves is enough for the second, because the first consumes at most what it
may look at. -/
theorem andThen {p : Parser (Call ι σ) ι α} {q : Parser (Call ι σ) ι β} (hp : Within n p)
    (hq : Within m q) : Within (n + m) (p.andThen q) where
  inside {s} hs c hc := by
    rw [notes_andThen] at hc
    rcases List.mem_append.1 hc with hc | hc
    · exact hp.inside (by omega) c hc
    cases hps : p.outcome s with
    | failure e =>
      rw [hps] at hc
      cases hc
    | success x =>
      rw [hps] at hc
      have hr := hp.consumes hps
      exact hq.inside (by omega) c hc
  consumes h := by
    obtain ⟨t, hps, hqt⟩ := outcome_andThen_eq_success.1 h
    have hs := hp.consumes hps
    have ht := hq.consumes hqt
    omega

theorem recover {event : String → Event} {p : Parser (Call ι σ) ι α}
    {q : String → Parser (Call ι σ) ι α} (hp : Within n p) (hq : ∀ e, Within n (q e)) :
    Within n (p.recover event q) where
  inside {s} hs c hc := by
    rw [notes_recover] at hc
    rcases List.mem_append.1 hc with hc | hc
    · exact hp.inside hs c hc
    cases hps : p.outcome s with
    | success x =>
      rw [hps] at hc
      cases hc
    | failure e =>
      rw [hps] at hc
      exact (hq e).inside hs c hc
  consumes {s r v} h := by
    rw [outcome_recover] at h
    cases hps : p.outcome s with
    | success x =>
      rw [hps] at h
      cases h
      exact hp.consumes hps
    | failure e =>
      rw [hps] at h
      exact (hq e).consumes h

theorem orElse {p q : Parser (Call ι σ) ι α} (hp : Within n p) (hq : Within m q) :
    Within (max n m) (p.orElse q) := by
  rw [orElse_eq_recover]
  exact (hp.mono (Nat.le_max_left n m)).recover fun _ => hq.mono (Nat.le_max_right n m)

theorem choice {k : Nat} {bounds : Fin (k + 1) → Nat} {ps : Fin (k + 1) → Parser (Call ι σ) ι α}
    (h : ∀ i, Within (bounds i) (ps i)) : Within (greatest bounds) (Choice.ofFn ps).parser :=
  Choice.parser_induction (fail _) recover fun i => (h i).mono (le_greatest bounds i)

theorem select {p : Parser (Call ι σ) ι α} {f : α → Traced (Call ι σ) β} (hp : Within n p)
    (hf : ∀ a, ∀ c ∈ (f a).notes, c.Inside) : Within n (p.select f) where
  inside {s} hs c hc := by
    rw [notes_select] at hc
    rcases List.mem_append.1 hc with hc | hc
    · exact hp.inside hs c hc
    cases hps : p.outcome s with
    | failure e =>
      rw [hps] at hc
      cases hc
    | success x =>
      rw [hps] at hc
      exact hf x.1 c hc
  consumes h := by
    obtain ⟨a, hps, -⟩ := outcome_select_eq_success.1 h
    exact hp.consumes hps

theorem lift₂ {x : Parser (Call ι σ) ι α} {y : Parser (Call ι σ) ι β}
    {f : α → β → Traced (Call ι σ) γ} (hx : Within n x) (hy : Within m y)
    (hf : ∀ a b, ∀ c ∈ (f a b).notes, c.Inside) : Within (n + m) (Parser.lift₂ f x y) := by
  rw [lift₂_eq_select]
  exact (hx.andThen hy).select fun v => hf v.1 v.2

end Within

end Parser

namespace Grammar

/-- A note of a function call does not mention the input. -/
private theorem inside_of_mem_noted {path : Path} {c : Call ι σ} (a : α)
    (hc : c ∈ (do Traced.note (.mapping path); return a : Traced (Call ι σ) α).notes) :
    c.Inside := by
  obtain rfl : c = .mapping path := List.mem_singleton.1 hc
  trivial

variable [BEq σ] [ToString σ]

/-- The observed parser of a grammar is stable. -/
theorem stable_observed (u : List σ) (path : Path) (p : Grammar σ α) :
    (p.observed path : Parser _ ι α).Stable u := by
  induction p generalizing path with
  | element e => exact .element path e
  | ret a => exact .ret path a
  | andThen p q ihp ihq => exact (ihp _).andThen (ihq _)
  | orElse p q ihp ihq => exact (ihp _).orElse (ihq _)
  | choice ps ih => exact .choice fun i => ih i _
  | select p f ih => exact (ih _).select fun _ => rfl
  | apply arg fn iha ihf =>
    rw [observed, Parser.apply_map_eq_lift₂]
    exact (ihf _).lift₂ (iha _) fun _ _ => rfl
  | lift₂ f x y ihx ihy => exact (ihx _).lift₂ (ihy _) fun _ _ => rfl
  | boxed p ih => exact ih _

/-- The observed parser of a grammar is within the greatest number of elements of the grammar. -/
theorem within_observed (path : Path) (p : Grammar σ α) :
    (p.observed path : Parser _ ι α).Within p.hi := by
  induction p generalizing path with
  | element e => exact .element path e
  | ret a => exact .ret path a
  | andThen p q ihp ihq => exact (ihp _).andThen (ihq _)
  | orElse p q ihp ihq => exact (ihp _).orElse (ihq _)
  | choice ps ih => exact .choice fun i => ih i _
  | select p f ih => exact (ih _).select fun a _ => inside_of_mem_noted (f a)
  | apply arg fn iha ihf =>
    rw [observed, Parser.apply_map_eq_lift₂]
    exact (ihf _).lift₂ (iha _) fun f a _ => inside_of_mem_noted (f a)
  | lift₂ f x y ihx ihy => exact (ihx _).lift₂ (ihy _) fun a b _ => inside_of_mem_noted (f a b)
  | boxed p ih => exact ih _

/-- If all calls in a run are inside, the run ends alike when more input follows. -/
theorem outcome_related_of_inside (p : Grammar σ α) {s : ι} (s' : ι) {u : List σ}
    (hs : elements s' = elements s ++ u) (hinside : ∀ c ∈ p.calls s, c.Inside) :
    Outcome.Related (fun x x' => x.1 = x'.1 ∧ elements x'.2 = elements x.2 ++ u)
      ((p.parser : Parser κ ι α).outcome s) ((p.parser : Parser κ ι α).outcome s') := by
  rw [← outcome_observed [], ← outcome_observed []]
  exact (stable_observed u [] p hs hinside).2

/-- If all calls in a run are inside, the run records the same events when more input follows. -/
theorem events_eq_of_inside (p : Grammar σ α) {s s' : ι} {u : List σ}
    (hs : elements s' = elements s ++ u) (hinside : ∀ c ∈ p.calls s, c.Inside) :
    ((p.parser : Parser κ ι α).run s').events = ((p.parser : Parser κ ι α).run s).events := by
  -- the events can be read off the entries whatever the notes are replaced by
  have hevents (g : Call ι σ → Call (List σ) σ) (l : List (Entry (Call ι σ))) :
      (l.map (Entry.map g)).filterMap Entry.event? = l.filterMap Entry.event? := by
    rw [List.filterMap_map]
    congr 1
    funext x
    cases x <;> rfl
  have hl : (LogRelation.followedBy u).Rel ((p.observed []).log s) ((p.observed []).log s') :=
    (stable_observed u [] p hs hinside).1
  rw [← events_observed [], ← events_observed [], Traced.events, Traced.events, ← hevents,
    ← hevents (Call.mapInput fun t => elements t ++ u)]
  exact congrArg _ hl.symm

/-- On lists that begin with the same `p.hi` elements a grammar ends alike and consumes the same. -/
theorem outcome_related_of_take_eq (p : Grammar σ α) {l l' : List σ}
    (h : l.take p.hi = l'.take p.hi) :
    Outcome.Related (fun x x' => x.1 = x'.1 ∧ ∃ w, l = w ++ x.2 ∧ l' = w ++ x'.2)
      ((p.parser : Parser κ (List σ) α).outcome l)
      ((p.parser : Parser κ (List σ) α).outcome l') := by
  have hl := List.take_append_drop p.hi l
  have hl' := List.take_append_drop p.hi l'
  by_cases hlen : p.hi ≤ l.length
  -- the run on the elements that the lists share goes on as the runs on both
  · have hinside : ∀ c ∈ p.calls (l.take p.hi), c.Inside := by
      refine (within_observed [] p).inside ?_
      change p.hi ≤ (l.take p.hi).length
      rw [List.length_take, Nat.min_eq_left hlen]
    have ho := p.outcome_related_of_inside (κ := κ) l hl.symm hinside
    have ho' := p.outcome_related_of_inside (κ := κ) l' (h ▸ hl'.symm) hinside
    refine (ho.symm.trans ho').imp ?_
    rintro ⟨a, r⟩ ⟨a', r'⟩ hsuccess - ⟨⟨b, t⟩, ⟨rfl, hr⟩, rfl, hr'⟩
    replace hr : r = t ++ l.drop p.hi := hr
    replace hr' : r' = t ++ l'.drop p.hi := hr'
    -- what is consumed of one list is consumed of what they share
    obtain ⟨w, hw, -⟩ := derives_of_outcome_eq_success p hsuccess
    replace hw : l = w ++ r := hw
    have hshared : l.take p.hi ++ l.drop p.hi = w ++ t ++ l.drop p.hi := by
      rw [hl, List.append_assoc, ← hr, ← hw]
    refine ⟨rfl, w, hw, ?_⟩
    rw [hr', ← List.append_assoc, ← List.append_cancel_right hshared, h, hl']
  -- one list is shorter than that, so it is the other one as well
  · have hlen' : l'.length < p.hi := by
      have hlength := congrArg List.length h
      rw [List.length_take, List.length_take] at hlength
      omega
    rw [List.take_of_length_le (by omega), List.take_of_length_le (by omega)] at h
    subst h
    cases ho : (p.parser : Parser κ (List σ) α).outcome l with
    | failure e => exact .failure e
    | success x =>
      obtain ⟨w, hw, -⟩ := derives_of_outcome_eq_success p ho
      exact .success ⟨rfl, w, hw, hw⟩

/-- A run that asks for no element at the end of its input makes the same calls, records the same
events and ends alike when more input follows. Nothing is asked for at the end of an input of at
least `p.hi` elements. So inputs that begin with the same `p.hi` elements have the same failure, or
the same value and the same elements consumed. -/
theorem stable_within_lookahead (p : Grammar σ α) :
    (∀ (s s' : ι) (u : List σ), elements s' = elements s ++ u → (∀ c ∈ p.calls s, c.Inside) →
      ((p.observed []).log s').map (Entry.map (Call.mapInput elements)) =
          ((p.observed []).log s).map (Entry.map (Call.mapInput fun t => elements t ++ u)) ∧
        ((p.parser : Parser κ ι α).run s').events = ((p.parser : Parser κ ι α).run s).events ∧
        Outcome.Related (fun x x' => x.1 = x'.1 ∧ elements x'.2 = elements x.2 ++ u)
          ((p.parser : Parser κ ι α).outcome s) ((p.parser : Parser κ ι α).outcome s')) ∧
    (∀ s : ι, p.hi ≤ (elements s).length → ∀ c ∈ p.calls s, c.Inside) ∧
    ∀ s s' : ι, (elements s).take p.hi = (elements s').take p.hi →
      Outcome.Related
        (fun x x' => x.1 = x'.1 ∧
          ∃ w, elements s = w ++ elements x.2 ∧ elements s' = w ++ elements x'.2)
        ((p.parser : Parser κ ι α).outcome s) ((p.parser : Parser κ ι α).outcome s') := by
  refine ⟨fun s s' u hs hinside => ?_, fun s hs => (within_observed [] p).inside hs, ?_⟩
  · exact ⟨(stable_observed u [] p hs hinside).1.symm, p.events_eq_of_inside hs hinside,
      p.outcome_related_of_inside s' hs hinside⟩
  · intro s s' h
    -- by way of the runs on the lists of elements
    have hs := p.outcome_elements (κ := κ) s
    have hs' := p.outcome_elements (κ := κ) s'
    refine ((hs.trans (p.outcome_related_of_take_eq h)).trans hs'.symm).imp ?_
    rintro ⟨a, r⟩ ⟨a', r'⟩ - - ⟨⟨b', t'⟩, ⟨⟨b, t⟩, ⟨rfl, rfl⟩, rfl, w, hw, hw'⟩, rfl, rfl⟩
    exact ⟨rfl, w, hw, hw'⟩

/-- A grammar that looks at two elements and may consume one. -/
theorem stable_within_lookahead_two :
    let p : Grammar Char Char :=
      .orElse (.select (.andThen (.element 'a') (.element 'b')) Prod.snd) (.element 'a')
    let q : Parser Unit (List Char) Char := p.parser
    p.hi = 2 ∧ (∀ c ∈ p.calls ['a', 'c'], c.Inside) ∧
      (q.run ['a', 'c', 'd']).events = (q.run ['a', 'c']).events ∧
      q.outcome ['a', 'c'] = .success ('a', ['c']) ∧
      Outcome.Related (fun x x' => x.1 = x'.1 ∧ x'.2 = x.2 ++ ['d']) (q.outcome ['a', 'c'])
        (q.outcome ['a', 'c', 'd']) ∧
      Outcome.Related
        (fun x x' => x.1 = x'.1 ∧ ∃ w, ['a', 'c', 'd'] = w ++ x.2 ∧ ['a', 'c', 'e'] = w ++ x'.2)
        (q.outcome ['a', 'c', 'd']) (q.outcome ['a', 'c', 'e']) := by
  intro p q
  obtain ⟨hstable, hwithin, hsame⟩ := stable_within_lookahead (κ := Unit) (ι := List Char) p
  have hinside : ∀ c ∈ p.calls ['a', 'c'], c.Inside := hwithin ['a', 'c'] (by decide)
  obtain ⟨-, hevents, houtcome⟩ := hstable ['a', 'c'] ['a', 'c', 'd'] ['d'] rfl hinside
  exact ⟨rfl, hinside, hevents, rfl, houtcome, hsame ['a', 'c', 'd'] ['a', 'c', 'e'] rfl⟩

end Grammar

end ApplicativeParsing

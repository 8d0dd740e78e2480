import ApplicativeParsing.Parser.Alternation
import ApplicativeParsing.Parser.Sequencing

/-!
# Related runs

Two parsers are related when on related inputs they leave related logs and end alike: both fail with
one message, or both succeed with related values and related rests. Inputs, values and notes of the
two sides may have different types. Every combinator takes related parts to related wholes, so a
statement about two runs needs to be checked only for the parts that differ.

## Main definitions

* `LogRelation`, `Outcome.Related`, `Parser.Related`.
* `Input.Simulation`: a relation between inputs that step alike.

## Main statements

* `Parser.Related.andThen`, `orElse`, `firstOf`, `select`, `apply`, `lift₂`: the combinators keep
  relatedness.
-/

namespace ApplicativeParsing

universe u

/-- A relation between logs that relates every event of the library to itself and is kept when
related logs follow each other. -/
structure LogRelation (κ κ' : Type) where
  /-- The relation. -/
  Rel : List (Entry κ) → List (Entry κ') → Prop
  /-- Nothing is related to nothing. -/
  nil : Rel [] []
  /-- Related logs may follow each other. -/
  append : ∀ {l m l' m'}, Rel l l' → Rel m m' → Rel (l ++ m) (l' ++ m')
  /-- An event is related to itself. -/
  event : ∀ e, Rel [.event e] [.event e]

namespace LogRelation

variable {κ κ' ν : Type}

/-- Logs with the same events of the library, whatever is noted between them. -/
def events : LogRelation κ κ' where
  Rel l l' := l.filterMap Entry.event? = l'.filterMap Entry.event?
  nil := rfl
  append h h' := by rw [List.filterMap_append, List.filterMap_append, h, h']
  event _ := rfl

/-- Logs that are the same once every note is replaced by its image. -/
def image (f : κ → ν) (g : κ' → ν) : LogRelation κ κ' where
  Rel l l' := l.map (Entry.map f) = l'.map (Entry.map g)
  nil := rfl
  append h h' := by rw [List.map_append, List.map_append, h, h']
  event _ := rfl

end LogRelation

namespace Input

variable {ι ι' σ : Type} [Input ι σ] [Input ι' σ]

/-- Related inputs have the same next element and related rests. -/
structure Simulation (R : ι → ι' → Prop) : Prop where
  /-- The next elements are the same. -/
  first_eq : ∀ {s s'}, R s s' → first s = first s'
  /-- The rests are related again. -/
  rest : ∀ {s s'}, R s s' → R (rest s) (rest s')

/-- Every kind of input simulates itself. -/
theorem Simulation.eq : Simulation (Eq : ι → ι → Prop) := ⟨fun h => h ▸ rfl, fun h => h ▸ rfl⟩

/-- A string slice and the list of its characters. -/
theorem Simulation.slice :
    Simulation fun (s : String.Slice) (cs : List Char) => s.copy.toList = cs where
  first_eq h := h ▸ first_slice _
  rest h := h ▸ rest_slice _

end Input

/-- Both outcomes are failures with one message, or both are successes with related values. -/
inductive Outcome.Related {α α' : Type} (S : α → α' → Prop) : Outcome α → Outcome α' → Prop where
  /-- Related values. -/
  | success {a a'} (h : S a a') : Related S (.success a) (.success a')
  /-- One message. -/
  | failure (e : String) : Related S (.failure e) (.failure e)

/-- Outcomes whose values and rests are equal are equal. -/
theorem Outcome.Related.eq {α ι : Type} {o o' : Outcome (α × ι)}
    (h : Related (fun x x' => x.1 = x'.1 ∧ x.2 = x'.2) o o') : o = o' := by
  cases h with
  | success h => rw [Prod.ext h.1 h.2]
  | failure e => rfl

namespace Outcome.Related

variable {α β γ : Type} {S : α → β → Prop}

/-- Related values are related in the other direction too. -/
theorem symm {o : Outcome α} {o' : Outcome β} (h : Related S o o') :
    Related (fun b a => S a b) o' o := by
  cases h with
  | success h => exact .success h
  | failure e => exact .failure e

/-- Outcomes that are related by way of a third one have values related by way of its value. -/
theorem trans {T : β → γ → Prop} {o : Outcome α} {o' : Outcome β} {o'' : Outcome γ}
    (h : Related S o o') (h' : Related T o' o'') :
    Related (fun a c => ∃ b, S a b ∧ T b c) o o'' := by
  cases h with
  | success h =>
    cases h' with
    | success h' => exact .success ⟨_, h, h'⟩
  | failure e =>
    cases h' with
    | failure => exact .failure e

/-- The values of two successes may be related by what else is known about these successes. -/
theorem imp {T : α → β → Prop} {o : Outcome α} {o' : Outcome β} (h : Related S o o')
    (hST : ∀ a b, o = .success a → o' = .success b → S a b → T a b) : Related T o o' := by
  cases h with
  | success h => exact .success (hST _ _ rfl rfl h)
  | failure e => exact .failure e

end Outcome.Related

/-- Outcomes with equal images are related by having equal images. -/
theorem Outcome.related_of_map_eq {α α' : Type} {β : Type u} {f : α → β} {f' : α' → β}
    {o : Outcome α} {o' : Outcome α'} (h : o.map f = o'.map f') :
    Related (fun a a' => f a = f' a') o o' := by
  cases o with
  | success a =>
    cases o' with
    | success a' => exact .success (Outcome.success.inj h)
    | failure e => cases h
  | failure e =>
    cases o' with
    | success a' => cases h
    | failure e' =>
      obtain rfl := Outcome.failure.inj h
      exact .failure e

namespace Parser

variable {κ κ' ι ι' α α' β β' γ γ' : Type}

/-- On inputs related by `R` the two parsers leave logs related by `L` and end alike, with values
related by `S` and rests related by `R`. -/
def Related (L : LogRelation κ κ') (R : ι → ι' → Prop) (S : α → α' → Prop)
    (p : Parser κ ι α) (p' : Parser κ' ι' α') : Prop :=
  ∀ ⦃s s'⦄, R s s' → L.Rel (p.log s) (p'.log s') ∧
    Outcome.Related (fun x x' => S x.1 x'.1 ∧ R x.2 x'.2) (p.outcome s) (p'.outcome s')

/-- Functions that take related arguments to related results with related logs. -/
def RelatedMapping (L : LogRelation κ κ') (S : α → α' → Prop) (T : β → β' → Prop)
    (f : α → Traced κ β) (f' : α' → Traced κ' β') : Prop :=
  ∀ ⦃a a'⦄, S a a' → L.Rel (f a).log (f' a').log ∧ T (f a).value (f' a').value

namespace Related

variable {L : LogRelation κ κ'} {R : ι → ι' → Prop} {S : α → α' → Prop} {T : β → β' → Prop}
  {U : γ → γ' → Prop}

/-- Values may be related by less. -/
theorem mono {T : α → α' → Prop} {p : Parser κ ι α} {p' : Parser κ' ι' α'}
    (h : Related L R S p p') (hST : ∀ ⦃a a'⦄, S a a' → T a a') : Related L R T p p' := by
  intro s s' hs
  obtain ⟨hl, ho⟩ := h hs
  refine ⟨hl, ?_⟩
  -- the outcomes are known only as related, so they are generalized before they are split
  revert ho
  generalize p.outcome s = o, p'.outcome s' = o'
  rintro (hx | e)
  · exact .success ⟨hST hx.1, hx.2⟩
  · exact .failure e

theorem ret {a : α} {a' : α'} (h : S a a') :
    Related L R S (.ret a : Parser κ ι α) (.ret a' : Parser κ' ι' α') :=
  fun _ _ hs => ⟨L.nil, .success ⟨h, hs⟩⟩

theorem element {σ : Type} [Input ι σ] [Input ι' σ] [BEq σ] [ToString σ]
    (hR : Input.Simulation R) (e : σ) :
    Related L R Eq (.element e : Parser κ ι σ) (.element e : Parser κ' ι' σ) := by
  intro s s' hs
  refine ⟨L.nil, ?_⟩
  rw [outcome_element, outcome_element, Parser.element.failure?, Parser.element.failure?,
    hR.first_eq hs]
  cases Input.first s' with
  | none => exact .failure _
  | some x =>
    cases h : x == e with
    | false => simpa [h] using Outcome.Related.failure _
    | true => simpa [h] using Outcome.Related.success ⟨rfl, hR.rest hs⟩

theorem probe {p : Parser κ ι α} {p' : Parser κ' ι' α'} {note : ι → κ} {note' : ι' → κ'}
    (hn : ∀ ⦃s s'⦄, R s s' → L.Rel [.note (note s)] [.note (note' s')])
    (h : Related L R S p p') : Related L R S (p.probe note) (p'.probe note') :=
  fun _ _ hs => ⟨L.append (hn hs) (h hs).1, (h hs).2⟩

theorem andThen {p : Parser κ ι α} {p' : Parser κ' ι' α'} {q : Parser κ ι β}
    {q' : Parser κ' ι' β'} (hp : Related L R S p p') (hq : Related L R T q q') :
    Related L R (fun x x' => S x.1 x'.1 ∧ T x.2 x'.2) (p.andThen q) (p'.andThen q') := by
  intro s s' hs
  obtain ⟨hl, ho⟩ := hp hs
  rw [log_andThen, log_andThen, outcome_andThen, outcome_andThen]
  revert ho
  generalize p.outcome s = o, p'.outcome s' = o'
  rintro (⟨hS, hr⟩ | e)
  -- both first parts succeeded, and the second ones run on related rests
  · obtain ⟨hl', ho'⟩ := hq hr
    refine ⟨L.append hl hl', ?_⟩
    simp only [Outcome.andThen_success]
    revert ho'
    generalize q.outcome _ = o, q'.outcome _ = o'
    rintro (⟨hT, hr'⟩ | e)
    · exact .success ⟨⟨hS, hT⟩, hr'⟩
    · exact .failure e
  · exact ⟨L.append hl L.nil, .failure e⟩

theorem orElse {p q : Parser κ ι α} {p' q' : Parser κ' ι' α'}
    (hp : Related L R S p p') (hq : Related L R S q q') :
    Related L R S (p.orElse q) (p'.orElse q') := by
  intro s s' hs
  obtain ⟨hl, ho⟩ := hp hs
  rw [log_orElse, log_orElse, outcome_orElse, outcome_orElse]
  revert ho
  generalize p.outcome s = o, p'.outcome s' = o'
  rintro (h | e)
  · exact ⟨L.append hl L.nil, .success h⟩
  · exact ⟨L.append hl (L.append (L.event _) (hq hs).1), (hq hs).2⟩

theorem firstOf (ps : List (Parser κ ι α × Parser κ' ι' α'))
    (h : ∀ x ∈ ps, Related L R S x.1 x.2) :
    Related L R S (.firstOf (ps.map Prod.fst)) (.firstOf (ps.map Prod.snd)) := by
  intro s s' hs
  simp only [log, outcome, run_firstOf]
  -- the message a search starts from changes on the way, so the induction is for all of them
  generalize BuildError.emptyChoice.message = e
  induction ps generalizing e with
  | nil => exact ⟨L.nil, .failure e⟩
  | cons x ps ih =>
    obtain ⟨hl, ho⟩ := h x List.mem_cons_self hs
    rw [List.map_cons, List.map_cons, search_cons, search_cons, id, id]
    revert ho
    generalize x.1.outcome s = o, x.2.outcome s' = o'
    rintro (hx | e')
    · exact ⟨hl, .success hx⟩
    · obtain ⟨hl', ho'⟩ := ih (fun y hy => h y (List.mem_cons_of_mem x hy)) e'
      exact ⟨L.append hl (L.append (L.event _) hl'), ho'⟩

theorem choice {n : Nat} {ps : Fin (n + 1) → Parser κ ι α} {ps' : Fin (n + 1) → Parser κ' ι' α'}
    (h : ∀ i, Related L R S (ps i) (ps' i)) :
    Related L R S (Choice.ofFn ps).parser (Choice.ofFn ps').parser := by
  have hall := firstOf (L := L) (R := R) (S := S) (List.ofFn fun i => (ps i, ps' i)) fun x hx => by
    obtain ⟨i, rfl⟩ := List.mem_ofFn.1 hx
    exact h i
  rw [List.map_ofFn, List.map_ofFn] at hall
  simpa [Choice.parser, Function.comp_def] using hall

theorem select {p : Parser κ ι α} {p' : Parser κ' ι' α'} {f : α → Traced κ β}
    {f' : α' → Traced κ' β'} (hp : Related L R S p p') (hf : RelatedMapping L S T f f') :
    Related L R T (p.select f) (p'.select f') := by
  intro s s' hs
  obtain ⟨hl, ho⟩ := hp hs
  rw [log_select, log_select, outcome_select, outcome_select]
  revert ho
  generalize p.outcome s = o, p'.outcome s' = o'
  rintro (⟨hS, hr⟩ | e)
  · exact ⟨L.append hl (hf hS).1, .success ⟨(hf hS).2, hr⟩⟩
  · exact ⟨L.append hl L.nil, .failure e⟩

theorem map {p : Parser κ ι α} {p' : Parser κ' ι' α'} {f : α → β} {f' : α' → β'}
    (hp : Related L R S p p') (hf : ∀ ⦃a a'⦄, S a a' → T (f a) (f' a')) :
    Related L R T (p.map f) (p'.map f') :=
  hp.select fun _ _ h => ⟨L.nil, hf h⟩

theorem apply {arg : Parser κ ι α} {arg' : Parser κ' ι' α'}
    {fn : Parser κ ι (α → Traced κ β)} {fn' : Parser κ' ι' (α' → Traced κ' β')}
    (ha : Related L R S arg arg') (hf : Related L R (RelatedMapping L S T) fn fn') :
    Related L R T (.apply arg fn) (.apply arg' fn') :=
  (hf.andThen ha).select fun _ _ h => h.1 h.2

theorem lift₂ {x : Parser κ ι α} {x' : Parser κ' ι' α'} {y : Parser κ ι β}
    {y' : Parser κ' ι' β'} {f : α → β → Traced κ γ} {f' : α' → β' → Traced κ' γ'}
    (hf : ∀ ⦃a a'⦄, S a a' → RelatedMapping L T U (f a) (f' a'))
    (hx : Related L R S x x') (hy : Related L R T y y') :
    Related L R U (.lift₂ f x y) (.lift₂ f' x' y') :=
  hy.apply (hx.apply (ret fun _ _ h => ⟨L.nil, hf h⟩))

end Related

end Parser

end ApplicativeParsing

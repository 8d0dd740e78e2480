import ApplicativeParsing.Description.Construction

/-!
# Building is all or nothing

A description is built from its parts upwards, and the only step that can be refused is a choice
without alternatives. So what building yields and records depends on one thing, the numbers of
alternatives of the choices in the order in which they are built. As long as they are positive each
choice is built and recorded. The first that is zero is refused and recorded, and nothing happens
any more. Building runs no parser and calls no mapping function, so that probes and tagged mappings
leave no note.

## Main definitions

* `Description.Builds`: a computation builds choices of these sizes, or is refused at one of them.

## Main statements

* `Description.Builds.bind`: sizes are appended where steps follow each other.
* `Description.builds_build`: building a description builds the choices in it.
* `Description.build_all_or_nothing`: what building a description yields and records.
-/

namespace ApplicativeParsing

variable {σ μ ν α β : Type}

namespace Description

/-- The events of building choices of these sizes are those of all choices in front of the first
empty one, and of its refusal. -/
theorem eventsOfSizes_eq (sizes : List Nat) :
    eventsOfSizes sizes =
      (sizes.takeWhile (0 < ·)).map .builtChoice ++
        if 0 ∈ sizes then [.rejectedEmptyChoice] else [] := by
  induction sizes with
  | nil => rfl
  | cons n sizes ih =>
    cases n with
    | zero => simp [eventsOfSizes]
    | succ n => simp [eventsOfSizes, ih]

/-! ### Steps of building -/

/-- Choices of these sizes are built one after another. The log is the one that follows from the
sizes. An empty choice among them is refused, and otherwise there is a value, of which `P` holds. -/
structure Builds (sizes : List Nat) (P : α → Prop) (x : Building α) : Prop where
  /-- What is recorded follows from the sizes. -/
  log : x.run.log = (eventsOfSizes sizes).map .event
  /-- An empty choice is refused. -/
  refused : 0 ∈ sizes → x.run.value = .error .emptyChoice
  /-- Without an empty choice there is a value. -/
  yields : 0 ∉ sizes → ∃ a, x.run.value = .ok a ∧ P a

namespace Builds

variable {sizes sizes' : List Nat} {P : α → Prop} {Q : β → Prop} {x : Building α}

/-- Nothing but an empty choice is refused. -/
theorem refused_iff (hx : Builds sizes P x) : x.run.value = .error .emptyChoice ↔ 0 ∈ sizes := by
  refine ⟨fun hrefused => Decidable.byContradiction fun h0 => ?_, hx.refused⟩
  obtain ⟨a, ha, -⟩ := hx.yields h0
  exact nomatch ha.symm.trans hrefused

/-- The library records the choices. -/
theorem events (hx : Builds sizes P x) : x.run.events = eventsOfSizes sizes := by
  rw [Traced.events, hx.log, List.filterMap_map]
  exact List.filterMap_some

/-- Nothing else is noted. -/
theorem notes (hx : Builds sizes P x) : x.run.notes = [] := by
  rw [Traced.notes, hx.log, List.filterMap_map, List.filterMap_eq_nil_iff]
  exact fun _ _ => rfl

/-- A value without building any choice. -/
theorem pure {a : α} (h : P a) : Builds [] P (Pure.pure a : Building α) where
  log := rfl
  refused h0 := nomatch h0
  yields _ := ⟨a, rfl, h⟩

/-- Building goes on unless it was refused. -/
theorem bind {f : α → Building β} (hx : Builds sizes P x)
    (hf : ∀ a, P a → Builds sizes' Q (f a)) : Builds (sizes ++ sizes') Q (x >>= f) := by
  by_cases h0 : 0 ∈ sizes
  -- the second step is not taken, and the sizes behind an empty choice do not count
  · have hrun := run_bind_of_error (hx.refused h0) f
    exact {
      log := by rw [hrun, hx.log, eventsOfSizes_append, if_pos h0]
      refused := fun _ => by rw [hrun]
      yields := fun h => absurd (List.mem_append_left _ h0) h }
  -- the second step builds on the value of the first, whichever it is
  · obtain ⟨a, ha, hPa⟩ := hx.yields h0
    have hrun := run_bind_of_ok ha f
    have hfa := hf a hPa
    have hmem : 0 ∈ sizes ++ sizes' ↔ 0 ∈ sizes' := by simp [h0]
    exact {
      log := by rw [hrun, hx.log, hfa.log, eventsOfSizes_append, if_neg h0, List.map_append]
      refused := fun h => by rw [hrun, hfa.refused (hmem.1 h)]
      yields := fun h => by
        rw [hrun]
        exact hfa.yields (mt hmem.2 h) }

/-- A last step that only puts the parts together. -/
theorem bind_pure {f : α → β} (hx : Builds sizes P x) (hf : ∀ a, P a → Q (f a)) :
    Builds sizes Q (x >>= fun a => Pure.pure (f a)) := by
  simpa using hx.bind fun a ha => Builds.pure (hf a ha)

/-- One choice, over all that is given and in this order. -/
theorem ofList (xs : List α) :
    Builds [xs.length] (fun c => c.alternatives = xs) (ExceptT.mk (Choice.ofList xs)) := by
  cases xs with
  | nil =>
    exact {
      log := rfl
      refused := fun _ => rfl
      yields := fun h => absurd (List.mem_singleton.2 rfl) h }
  | cons x xs =>
    exact {
      log := rfl
      refused := fun h => nomatch List.mem_singleton.1 h
      yields := fun _ => ⟨⟨x, xs⟩, rfl, rfl⟩ }

end Builds

/-! ### Building a description -/

mutual

/-- Building a description builds the choices in it, and yields an assembly that is described by
it. -/
theorem builds_build (d : Description σ μ ν) :
    Builds d.choiceSizes (fun a => a.description = d.expand) d.build := by
  match d with
  | built _ | element _ | ret _ | fail _ | take _ => exact .pure rfl
  | anyOf es =>
    refine (Builds.ofList es).bind_pure fun c hc => ?_
    rw [← hc]
    rfl
  | choice ps =>
    refine (builds_buildAll ps).bind fun as has => ?_
    -- the size that is recorded is that of the list of parsers, as many as are described
    have hlength : as.length = ps.length := by
      rw [← Assembly.length_descriptions, has, length_expandAll]
    rw [← hlength]
    refine (Builds.ofList as).bind_pure fun c hc => ?_
    rw [Assembly.description, expand, ← has, ← hc, Choice.alternatives, Assembly.descriptions]
  -- of the two parts of `apply` the argument is built first, although it runs last
  | andThen p q | orElse p q | apply p q =>
    refine (builds_build p).bind fun a ha => (builds_build q).bind_pure fun b hb => ?_
    rw [Assembly.description, expand, ha, hb]
  | lift₂ m x y =>
    refine (builds_build x).bind fun a ha => (builds_build y).bind_pure fun b hb => ?_
    rw [Assembly.description, expand, ha, hb]
  | select p _ | boxed p | peek p | probe _ p =>
    refine (builds_build p).bind_pure fun a ha => ?_
    rw [Assembly.description, expand, ha]

/-- Building parts builds the choices in each of them in turn. -/
theorem builds_buildAll (ds : List (Description σ μ ν)) :
    Builds (choiceSizesAll ds) (fun as => Assembly.descriptions as = expandAll ds)
      (buildAll ds) := by
  match ds with
  | [] => exact .pure rfl
  | d :: ds =>
    refine (builds_build d).bind fun a ha => (builds_buildAll ds).bind_pure fun as has => ?_
    rw [Assembly.descriptions, expandAll, ha, has]

end

end Description

namespace Assembly

mutual

/-- The choices in an assembly have as many alternatives as its description says. -/
theorem alternatives?_choices (a : Assembly σ μ ν) :
    a.choices.map alternatives? = a.description.choiceSizes.map some := by
  match a with
  | element _ | ret _ | fail _ | take _ => rfl
  | anyOf e es => rfl
  | choice p ps =>
    simp [choices, description, Description.choiceSizes, Description.choiceSizesAll, alternatives?,
      alternatives?_choices p, alternatives?_choicesAll ps]
  | andThen p q | orElse p q | apply p q =>
    simp only [choices, description, Description.choiceSizes, List.map_append,
      alternatives?_choices p, alternatives?_choices q]
  | lift₂ _ x y =>
    simp only [choices, description, Description.choiceSizes, List.map_append,
      alternatives?_choices x, alternatives?_choices y]
  | select p _ | boxed p | peek p | probe _ p => exact alternatives?_choices p

/-- So have the choices in some assemblies. -/
theorem alternatives?_choicesAll (as : List (Assembly σ μ ν)) :
    (choicesAll as).map alternatives? =
      (Description.choiceSizesAll (descriptions as)).map some := by
  match as with
  | [] => rfl
  | a :: as =>
    simp only [choicesAll, descriptions, Description.choiceSizesAll, List.map_append,
      alternatives?_choices a, alternatives?_choicesAll as]

end

/-- No choice in an assembly is empty, for it could not have been built. -/
theorem zero_notMem_choiceSizes (a : Assembly σ μ ν) : 0 ∉ a.description.choiceSizes := by
  intro h0
  have hrefused := (Description.builds_build a.description).refused h0
  rw [build_description] at hrefused
  exact nomatch hrefused

end Assembly

namespace Description

/-- Building is all or nothing. It is refused if and only if some choice in the description is
empty. Otherwise it yields a parser with every part that is described, in its place, so that each
choice is over the given alternatives in the given order, and there is at least one. Recorded are
the choices in front of the first empty one, the parts of a choice before it and each with the
number of its alternatives, and then the refusal, if there is one. Nothing is noted, also not where
parsers are probed and the calls of mapping functions are tagged: neither is any parser run, nor any
function called. -/
theorem build_all_or_nothing (d : Description σ μ ν) :
    let sizes := d.choiceSizes
    (d.build.run.value = .error .emptyChoice ↔ 0 ∈ sizes) ∧
    (0 ∉ sizes → ∃ a, d.build.run.value = .ok a ∧ a.description = d.expand ∧
      a.choices.map Assembly.alternatives? = d.expand.choiceSizes.map some ∧
      ∀ n ∈ d.expand.choiceSizes, 1 ≤ n) ∧
    (d.build.run.events.map fun e => (e.level, e.fields)) =
      ((sizes.takeWhile (0 < ·)).map fun n =>
        (.trace, [("message", "built choice"), ("alternatives", toString n)])) ++
      (if 0 ∈ sizes then [(.debug, [("message", "rejecting choice over an empty sequence")])]
        else []) ∧
    d.build.run.notes = [] := by
  intro sizes
  have hd : Builds sizes (fun a => a.description = d.expand) d.build := builds_build d
  refine ⟨hd.refused_iff, fun h0 => ?_, ?_, hd.notes⟩
  · obtain ⟨a, ha, hdescription⟩ := hd.yields h0
    refine ⟨a, ha, hdescription, ?_, fun n hn => Nat.pos_of_ne_zero ?_⟩
    · rw [← hdescription, Assembly.alternatives?_choices]
    · rintro rfl
      exact a.zero_notMem_choiceSizes (hdescription ▸ hn)
  · rw [hd.events, eventsOfSizes_eq, List.map_append, List.map_map, apply_ite (List.map _)]
    rfl

/-- The first description is built as it is. In the second one a choice is empty behind two that are
built, and the one behind it and the whole are not reached. -/
theorem build_all_or_nothing_nested :
    let tagged : Mapper := ⟨.function .id [], some "mapped"⟩
    let ab : Description := .anyOf [.char 'a', .char 'b']
    let abc : Description := .choice [ab, .probe "probed" (.element (.char 'c')), ab]
    let full : Description := .select (.andThen abc (.boxed ab)) tagged
    let lacking : Description := .choice [abc, .apply (.anyOf []) ab]
    0 ∉ full.choiceSizes ∧
      (∃ a, full.build.run.value = .ok a ∧ a.description = full ∧
        a.choices.map Assembly.alternatives? = [some 2, some 2, some 3, some 2]) ∧
      lacking.build.run.value = .error .emptyChoice ∧
      (lacking.build.run.events.map fun e => (e.level, e.fields)) =
        [(.trace, [("message", "built choice"), ("alternatives", "2")]),
          (.trace, [("message", "built choice"), ("alternatives", "2")]),
          (.trace, [("message", "built choice"), ("alternatives", "3")]),
          (.debug, [("message", "rejecting choice over an empty sequence")])] ∧
      lacking.build.run.notes = [] := by
  intro tagged ab abc full lacking
  have h0 : 0 ∉ full.choiceSizes := by decide
  obtain ⟨-, hfull, -⟩ := build_all_or_nothing full
  obtain ⟨a, ha, hdescription, hchoices, -⟩ := hfull h0
  obtain ⟨hrefused, -, hevents, hnotes⟩ := build_all_or_nothing lacking
  exact ⟨h0, ⟨a, ha, hdescription, hchoices⟩, hrefused.2 (by decide), hevents.trans (by decide),
    hnotes⟩

end Description

end ApplicativeParsing

import ApplicativeParsing.Description.Basic

/-!
# What building does

What building a description records and yields, stated on the tree of the description: the sizes of
its choices in the order in which they are built, the events that follow from these sizes, and the
description that an assembly shows of itself.

## Main definitions

* `Description.choiceSizes`, `Description.eventsOfSizes`.
* `Assembly.description`, and `Description.expand`, which writes parts out that are there already.
* `Assembly.choices`: the choices in an assembly.

## Main statements

* `Description.run_bind_of_ok`, `Description.run_bind_of_error`: how two steps of building run.
* `Assembly.build_description`: every assembly is built from its own description.
-/

namespace ApplicativeParsing

variable {σ μ ν : Type}

namespace Assembly

mutual

/-- The description of an assembly. -/
def description : Assembly σ μ ν → Description σ μ ν
  | element e => .element e
  | anyOf e es => .anyOf (e :: es)
  | choice p ps => .choice (p.description :: descriptions ps)
  | andThen p q => .andThen p.description q.description
  | orElse p q => .orElse p.description q.description
  | select p m => .select p.description m
  | ret v => .ret v
  | boxed p => .boxed p.description
  | apply arg fn => .apply arg.description fn.description
  | lift₂ m x y => .lift₂ m x.description y.description
  | fail e => .fail e
  | take n => .take n
  | peek p => .peek p.description
  | probe id p => .probe id p.description

/-- The descriptions of assemblies. -/
def descriptions : List (Assembly σ μ ν) → List (Description σ μ ν)
  | [] => []
  | p :: ps => p.description :: descriptions ps

end

mutual

/-- The choices in an assembly, those in its parts before an assembly that is a choice itself. -/
def choices : Assembly σ μ ν → List (Assembly σ μ ν)
  | anyOf e es => [anyOf e es]
  | choice p ps => p.choices ++ choicesAll ps ++ [choice p ps]
  | andThen p q => p.choices ++ q.choices
  | orElse p q => p.choices ++ q.choices
  | select p _ => p.choices
  | boxed p => p.choices
  | apply arg fn => arg.choices ++ fn.choices
  | lift₂ _ x y => x.choices ++ y.choices
  | peek p => p.choices
  | probe _ p => p.choices
  | _ => []

/-- The choices in some assemblies. -/
def choicesAll : List (Assembly σ μ ν) → List (Assembly σ μ ν)
  | [] => []
  | p :: ps => p.choices ++ choicesAll ps

end

@[simp] theorem length_descriptions (ps : List (Assembly σ μ ν)) :
    (descriptions ps).length = ps.length := by
  induction ps with
  | nil => rfl
  | cons p ps ih => rw [descriptions, List.length_cons, List.length_cons, ih]

end Assembly

namespace Description

mutual

/-- The numbers of alternatives of all choices in a description, in the order in which the choices
are built: those in the parts before the whole. -/
def choiceSizes : Description σ μ ν → List Nat
  | anyOf es => [es.length]
  | choice ps => choiceSizesAll ps ++ [ps.length]
  | andThen p q => p.choiceSizes ++ q.choiceSizes
  | orElse p q => p.choiceSizes ++ q.choiceSizes
  | select p _ => p.choiceSizes
  | boxed p => p.choiceSizes
  | apply arg fn => arg.choiceSizes ++ fn.choiceSizes
  | lift₂ _ x y => x.choiceSizes ++ y.choiceSizes
  | peek p => p.choiceSizes
  | probe _ p => p.choiceSizes
  | _ => []

/-- The numbers of alternatives of all choices in some descriptions. -/
def choiceSizesAll : List (Description σ μ ν) → List Nat
  | [] => []
  | p :: ps => p.choiceSizes ++ choiceSizesAll ps

end

/-- The events of building choices of these sizes one after another. The first empty one ends it. -/
def eventsOfSizes : List Nat → List Event
  | [] => []
  | 0 :: _ => [.rejectedEmptyChoice]
  | (n + 1) :: sizes => .builtChoice (n + 1) :: eventsOfSizes sizes

mutual

/-- The description with the parts that are there already written out. -/
def expand : Description σ μ ν → Description σ μ ν
  | built a => a.description
  | choice ps => .choice (expandAll ps)
  | andThen p q => .andThen p.expand q.expand
  | orElse p q => .orElse p.expand q.expand
  | select p m => .select p.expand m
  | boxed p => .boxed p.expand
  | apply arg fn => .apply arg.expand fn.expand
  | lift₂ m x y => .lift₂ m x.expand y.expand
  | peek p => .peek p.expand
  | probe id p => .probe id p.expand
  | p => p

/-- The descriptions with the parts that are there already written out. -/
def expandAll : List (Description σ μ ν) → List (Description σ μ ν)
  | [] => []
  | p :: ps => p.expand :: expandAll ps

end

@[simp] theorem length_expandAll (ps : List (Description σ μ ν)) :
    (expandAll ps).length = ps.length := by
  induction ps with
  | nil => rfl
  | cons p ps ih => rw [expandAll, List.length_cons, List.length_cons, ih]

/-- Only the sizes up to the first empty choice matter. -/
theorem eventsOfSizes_append (m n : List Nat) :
    eventsOfSizes (m ++ n) =
      if 0 ∈ m then eventsOfSizes m else eventsOfSizes m ++ eventsOfSizes n := by
  induction m with
  | nil => simp [eventsOfSizes]
  | cons k m ih =>
    cases k with
    | zero => simp [eventsOfSizes]
    | succ k => by_cases h : 0 ∈ m <;> simp [eventsOfSizes, ih, h]

/-- The value of two steps of building: the second is taken if the first can be. -/
theorem value_run_bind {α β : Type} (x : Building α) (f : α → Building β) :
    (x >>= f).run.value =
      match x.run.value with
      | .ok a => (f a).run.value
      | .error e => .error e := by
  rw [ExceptT.run_bind, Traced.value_bind]
  cases x.run.value <;> rfl

/-- Two steps of building are taken if both can be. -/
theorem value_bind_eq_ok_iff {α β : Type} {x : Building α} {f : α → Building β} {b : β} :
    (x >>= f).run.value = .ok b ↔ ∃ a, x.run.value = .ok a ∧ (f a).run.value = .ok b := by
  rw [value_run_bind]
  cases x.run.value <;> simp

/-- They are refused if the first is, or the second behind it. -/
theorem value_bind_eq_error_iff {α β : Type} {x : Building α} {f : α → Building β}
    {e : BuildError} :
    (x >>= f).run.value = .error e ↔
      x.run.value = .error e ∨ ∃ a, x.run.value = .ok a ∧ (f a).run.value = .error e := by
  rw [value_run_bind]
  cases x.run.value <;> simp

/-- Behind a step that has a value the next one is taken. -/
theorem run_bind_of_ok {α β : Type} {x : Building α} {a : α} (h : x.run.value = .ok a)
    (f : α → Building β) :
    (x >>= f).run = ⟨x.run.log ++ (f a).run.log, (f a).run.value⟩ := by
  refine Traced.ext ?_ (by rw [value_run_bind, h])
  rw [ExceptT.run_bind, Traced.log_bind, h]

/-- Behind a step that has a value the next one decides. -/
theorem value_bind_of_ok {α β : Type} {x : Building α} {a : α} (h : x.run.value = .ok a)
    (f : α → Building β) : (x >>= f).run.value = (f a).run.value := by
  rw [value_run_bind, h]

/-- Behind a refusal nothing happens any more. -/
theorem run_bind_of_error {α β : Type} {x : Building α} {e : BuildError}
    (h : x.run.value = .error e) (f : α → Building β) :
    (x >>= f).run = ⟨x.run.log, .error e⟩ := by
  refine Traced.ext ?_ (by rw [value_run_bind, h])
  rw [ExceptT.run_bind, Traced.log_bind, h]
  exact List.append_nil _

/-- All parts are built if the first one is and the others are. -/
theorem buildAll_cons_of_ok {d : Description σ μ ν} {ds : List (Description σ μ ν)}
    {a : Assembly σ μ ν} {as : List (Assembly σ μ ν)} (hd : d.build.run.value = .ok a)
    (hds : (buildAll ds).run.value = .ok as) :
    (buildAll (d :: ds)).run.value = .ok (a :: as) := by
  rw [buildAll, value_bind_of_ok hd, value_bind_of_ok hds]
  rfl

end Description

namespace Assembly

open Description (buildAll_cons_of_ok value_bind_of_ok)

mutual

/-- Every assembly is built from its own description. -/
theorem build_description (a : Assembly σ μ ν) : a.description.build.run.value = .ok a := by
  match a with
  | element _ | anyOf _ _ | ret _ | fail _ | take _ => rfl
  | choice p ps =>
    rw [description, Description.build, value_bind_of_ok
      (buildAll_cons_of_ok (build_description p) (buildAll_descriptions ps))]
    rfl
  | andThen p q | orElse p q | apply p q =>
    rw [description, Description.build, value_bind_of_ok (build_description p),
      value_bind_of_ok (build_description q)]
    rfl
  | lift₂ m x y =>
    rw [description, Description.build, value_bind_of_ok (build_description x),
      value_bind_of_ok (build_description y)]
    rfl
  | select p _ | boxed p | peek p | probe _ p =>
    rw [description, Description.build, value_bind_of_ok (build_description p)]
    rfl

/-- All assemblies are built from their own descriptions. -/
theorem buildAll_descriptions (ps : List (Assembly σ μ ν)) :
    (Description.buildAll (descriptions ps)).run.value = .ok ps := by
  match ps with
  | [] => rfl
  | p :: ps => exact buildAll_cons_of_ok (build_description p) (buildAll_descriptions ps)

end

end Assembly

end ApplicativeParsing

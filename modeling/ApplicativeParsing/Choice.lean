import ApplicativeParsing.Trace

/-!
# Choices

A choice holds at least one alternative, in order. It cannot be empty, and `Choice.ofList` is the
way to build one from a list: it refuses the empty list, and it records what it did.

## Main statements

* `Choice.ofList_nil`, `Choice.ofList_cons`: what building a choice yields and records.
-/

namespace ApplicativeParsing

/-- At least one alternative. -/
structure Choice (π : Type) where
  /-- The alternative that comes first. -/
  first : π
  /-- The alternatives after it, in order. -/
  others : List π
  deriving DecidableEq, Repr

namespace Choice

variable {κ π ρ : Type}

/-- All alternatives, in order. -/
def alternatives (c : Choice π) : List π := c.first :: c.others

/-- How many alternatives there are. -/
def size (c : Choice π) : Nat := c.others.length + 1

/-- Replace every alternative by its image. -/
def map (f : π → ρ) (c : Choice π) : Choice ρ := ⟨f c.first, c.others.map f⟩

/-- The choice between the values of a function, in order. -/
def ofFn {n : Nat} (f : Fin (n + 1) → π) : Choice π := ⟨f 0, List.ofFn fun i => f i.succ⟩

/-- Build a choice over a list of alternatives, or refuse to if there is nothing to choose from. -/
def ofList : List π → Traced κ (Except BuildError (Choice π))
  | [] => do
    Traced.record .rejectedEmptyChoice
    return .error .emptyChoice
  | p :: ps => do
    let c : Choice π := ⟨p, ps⟩
    Traced.record (.builtChoice c.size)
    return .ok c

theorem alternatives_ne_nil (c : Choice π) : c.alternatives ≠ [] := List.cons_ne_nil _ _

theorem alternatives_map (f : π → ρ) (c : Choice π) :
    (c.map f).alternatives = c.alternatives.map f := rfl

@[simp] theorem alternatives_ofFn {n : Nat} (f : Fin (n + 1) → π) :
    (ofFn f).alternatives = List.ofFn f := by
  simp [alternatives, ofFn, List.ofFn_succ]

@[simp] theorem size_ofFn {n : Nat} (f : Fin (n + 1) → π) : (ofFn f).size = n + 1 := by
  simp [size, ofFn]

/-- Nothing to choose from: the refusal is recorded. -/
theorem ofList_nil :
    (ofList [] : Traced κ (Except BuildError (Choice π))) =
      ⟨[.event .rejectedEmptyChoice], .error .emptyChoice⟩ := rfl

/-- Something to choose from: the number of alternatives is recorded, and all are kept. -/
theorem ofList_cons (p : π) (ps : List π) :
    (ofList (p :: ps) : Traced κ _) =
      ⟨[.event (.builtChoice (p :: ps).length)], .ok ⟨p, ps⟩⟩ := rfl

end Choice

end ApplicativeParsing

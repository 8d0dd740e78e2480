import ApplicativeParsing.Parser.Alternation
import ApplicativeParsing.Parser.Sequencing

/-!
# Trees of alternatives and of sequences

Alternatives can be nested in many ways, and so can sequences. Here is what all ways of nesting one
list of parsers have in common: a tree, its list of leaves, and what a run over that list does,
stated by recursion on the list and without any combinator.

## Main definitions

* `Alternation`: nested alternatives of arbitrary parsers, with `Alternation.leaves`.
* `Parser.tried`: the alternatives that a run over a list comes to, each with what it does.
* `Sequencing`: nested sequences of arbitrary parsers, with `Sequencing.leaves`.
* `Parser.inTurn`: the run of a list of parsers one after another.
-/

namespace ApplicativeParsing

variable {κ ι α β : Type}

/-! ### Alternatives -/

/-- Parsers nested by combinators of alternatives. -/
inductive Alternation (κ ι α : Type) where
  /-- Any parser. -/
  | leaf (p : Parser κ ι α)
  /-- Two alternatives. -/
  | orElse (t u : Alternation κ ι α)
  /-- At least one alternative. -/
  | choice {n : Nat} (ts : Fin (n + 1) → Alternation κ ι α)
  /-- A tree whose parts are hidden. -/
  | boxed (t : Alternation κ ι α)

namespace Alternation

/-- The parser that a tree stands for. -/
def parser : Alternation κ ι α → Parser κ ι α
  | leaf p => p
  | orElse t u => t.parser.orElse u.parser
  | choice ts => (Choice.ofFn fun i => (ts i).parser).parser
  | boxed t => t.parser

/-- The parsers in a tree from left to right. -/
def leaves : Alternation κ ι α → List (Parser κ ι α)
  | leaf p => [p]
  | orElse t u => t.leaves ++ u.leaves
  | choice ts => (List.ofFn fun i => (ts i).leaves).flatten
  | boxed t => t.leaves

/-- No `choice` in the tree. -/
def Binary : Alternation κ ι α → Prop
  | leaf _ => True
  | orElse t u => t.Binary ∧ u.Binary
  | choice _ => False
  | boxed t => t.Binary

/-- A tree has a leaf. -/
theorem leaves_ne_nil (t : Alternation κ ι α) : t.leaves ≠ [] := by
  induction t with
  | leaf p => simp [leaves]
  | orElse t u iht _ => simp [leaves, iht]
  | choice ts ih =>
    intro h
    rw [leaves, List.flatten_eq_nil_iff] at h
    exact ih 0 (h _ (List.mem_ofFn.2 ⟨0, rfl⟩))
  | boxed t ih => exact ih

end Alternation

namespace Parser

/-- The alternatives that a run over `ps` on `s` comes to: those up to the first that succeeds. -/
def tried (s : ι) : List (Parser κ ι α) → List (Parser κ ι α)
  | [] => []
  | p :: ps => if (p.outcome s).isSuccess then [p] else p :: tried s ps

end Parser

/-! ### Sequences -/

/-- Parsers nested by sequencing, with the type of the nested pairs that they yield. -/
inductive Sequencing (κ ι : Type) : Type → Type 1 where
  /-- Any parser. -/
  | leaf {α : Type} (p : Parser κ ι α) : Sequencing κ ι α
  /-- Two trees, one after the other. -/
  | andThen {α β : Type} (t : Sequencing κ ι α) (u : Sequencing κ ι β) : Sequencing κ ι (α × β)

/-- A parser together with the type of its values. -/
abbrev SomeParser (κ ι : Type) := (α : Type) × Parser κ ι α

/-- A value together with its type. -/
abbrev SomeValue := (α : Type) × α

namespace Sequencing

/-- The parser that a tree stands for. -/
def parser : {α : Type} → Sequencing κ ι α → Parser κ ι α
  | _, leaf p => p
  | _, andThen t u => t.parser.andThen u.parser

/-- The parsers in a tree from left to right. -/
def leaves : {α : Type} → Sequencing κ ι α → List (SomeParser κ ι)
  | _, leaf p => [⟨_, p⟩]
  | _, andThen t u => t.leaves ++ u.leaves

/-- The values in nested pairs from left to right. -/
def values : {α : Type} → Sequencing κ ι α → α → List SomeValue
  | _, leaf _, a => [⟨_, a⟩]
  | _, andThen t u, (a, b) => t.values a ++ u.values b

/-- There are as many values as leaves. -/
theorem length_values (t : Sequencing κ ι α) (a : α) :
    (t.values a).length = t.leaves.length := by
  induction t with
  | leaf p => rfl
  | andThen t u iht ihu =>
    rw [values, leaves, List.length_append, List.length_append, iht, ihu]

end Sequencing

namespace Parser

/-- Run parsers one after another, each on what the one before it left, up to the first failure. -/
def inTurn : List (SomeParser κ ι) → ι → Traced κ (Outcome (List SomeValue × ι))
  | [], s => ⟨[], .success ([], s)⟩
  | ⟨α, p⟩ :: ps, s =>
    match p.run s with
    | ⟨log, .failure e⟩ => ⟨log, .failure e⟩
    | ⟨log, .success (a, r)⟩ =>
      let rest := inTurn ps r
      ⟨log ++ rest.log, rest.value.map fun (vs, r) => (⟨α, a⟩ :: vs, r)⟩

/-- Running a list in turn is running its parts in turn. -/
theorem inTurn_append (ps qs : List (SomeParser κ ι)) (s : ι) :
    inTurn (ps ++ qs) s =
      match inTurn ps s with
      | ⟨log, .failure e⟩ => ⟨log, .failure e⟩
      | ⟨log, .success (vs, r)⟩ =>
        ⟨log ++ (inTurn qs r).log, (inTurn qs r).value.map fun (ws, r) => (vs ++ ws, r)⟩ := by
  induction ps generalizing s with
  | nil => simp [inTurn]
  | cons x ps ih =>
    obtain ⟨α, p⟩ := x
    rw [List.cons_append, inTurn, inTurn]
    rcases p.run s with ⟨log, ⟨a, r⟩ | e⟩
    · simp only [ih]
      rcases inTurn ps r with ⟨log', ⟨vs, r'⟩ | e⟩
      · simp
      · rfl
    · rfl

end Parser

end ApplicativeParsing

import ApplicativeParsing.Parser.Alternation
import ApplicativeParsing.Parser.Sequencing

/-!
# Grammars

A grammar is the tree of combinators that a parser is built from, with the types of its values. It
is the data that properties of all such parsers are stated over; `Grammar.parser` is the parser that
it stands for. Alternatives are a non-empty family, as a choice that was built always has one.

## Main definitions

* `Grammar`, `Grammar.anyOf`, `Grammar.choiceOf`, `Grammar.parser`.
* `Grammar.Sequential`: the grammars without alternation.
-/

namespace ApplicativeParsing

/-- A tree of combinators over elements `σ`, with values in `α`. -/
inductive Grammar (σ : Type) : Type → Type 1 where
  /-- One expected element. -/
  | element (expected : σ) : Grammar σ σ
  /-- A value without reading. -/
  | ret {α : Type} (a : α) : Grammar σ α
  /-- Two grammars, one after the other. -/
  | andThen {α β : Type} (p : Grammar σ α) (q : Grammar σ β) : Grammar σ (α × β)
  /-- Two alternatives. -/
  | orElse {α : Type} (p q : Grammar σ α) : Grammar σ α
  /-- At least one alternative. -/
  | choice {α : Type} {n : Nat} (ps : Fin (n + 1) → Grammar σ α) : Grammar σ α
  /-- A grammar whose values are mapped. -/
  | select {α β : Type} (p : Grammar σ α) (f : α → β) : Grammar σ β
  /-- A grammar of functions, read before the grammar of their arguments. -/
  | apply {α β : Type} (arg : Grammar σ α) (fn : Grammar σ (α → β)) : Grammar σ β
  /-- Two grammars whose values are mapped together. -/
  | lift₂ {α β γ : Type} (f : α → β → γ) (x : Grammar σ α) (y : Grammar σ β) : Grammar σ γ
  /-- A grammar whose parts are hidden. -/
  | boxed {α : Type} (p : Grammar σ α) : Grammar σ α

namespace Grammar

variable {κ ι σ : Type}

/-- One element out of at least one candidate. -/
def anyOf {n : Nat} (candidates : Fin (n + 1) → σ) : Grammar σ σ :=
  choice fun i => element (candidates i)

/-- A choice between the members of a list that is not empty. -/
def choiceOf {α : Type} (p : Grammar σ α) (ps : List (Grammar σ α)) : Grammar σ α :=
  choice fun i : Fin (ps.length + 1) => (p :: ps).get i

/-- The parser that a grammar stands for. -/
def parser [Input ι σ] [BEq σ] [ToString σ] : {α : Type} → Grammar σ α → Parser κ ι α
  | _, element e => .element e
  | _, ret a => .ret a
  | _, andThen p q => p.parser.andThen q.parser
  | _, orElse p q => p.parser.orElse q.parser
  | _, choice ps => (Choice.ofFn fun i => (ps i).parser).parser
  | _, select p f => p.parser.map f
  | _, apply arg fn => .apply arg.parser (fn.parser.map fun f a => pure (f a))
  | _, lift₂ f x y => .lift₂ (fun a b => pure (f a b)) x.parser y.parser
  | _, boxed p => p.parser

/-- No alternation anywhere. -/
def Sequential : {α : Type} → Grammar σ α → Prop
  | _, element _ => True
  | _, ret _ => True
  | _, andThen p q => p.Sequential ∧ q.Sequential
  | _, orElse _ _ => False
  | _, choice _ => False
  | _, select p _ => p.Sequential
  | _, apply arg fn => arg.Sequential ∧ fn.Sequential
  | _, lift₂ _ x y => x.Sequential ∧ y.Sequential
  | _, boxed p => p.Sequential

/-- The parser of a choice between elements is the one that is built from the list of them. -/
theorem parser_anyOf [Input ι σ] [BEq σ] [ToString σ] {n : Nat} (es : Fin (n + 1) → σ) :
    (anyOf es).parser = (Parser.firstOf ((List.ofFn es).map .element) : Parser κ ι σ) := by
  simp [anyOf, parser, Choice.parser, List.map_ofFn]
  rfl

/-- The parser of a choice between the members of a list is the one that is built from their
parsers. -/
theorem parser_choiceOf [Input ι σ] [BEq σ] [ToString σ] {α : Type} (p : Grammar σ α)
    (ps : List (Grammar σ α)) :
    (choiceOf p ps).parser = (Parser.firstOf ((p :: ps).map parser) : Parser κ ι α) := by
  have hmap : List.ofFn (fun i => ((p :: ps).get i).parser) =
      ((p :: ps).map parser : List (Parser κ ι α)) :=
    List.map_ofFn.symm.trans (congrArg (List.map parser) List.ofFn_getElem)
  rw [choiceOf, parser, Choice.parser, Choice.alternatives_ofFn]
  exact congrArg Parser.firstOf hmap

end Grammar

end ApplicativeParsing

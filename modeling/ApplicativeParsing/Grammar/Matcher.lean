import ApplicativeParsing.Grammar.Basic

/-!
# Matchers

A matcher is a grammar without mapping functions and without values of its own: it is built from
elements, sequences, alternatives and boxes. Its values are nested pairs of elements, so they can be
written out again.

## Main definitions

* `Nest`: the shape of nested pairs; `Nest.Value`, `Nest.flatten`.
* `Matcher`, with `Matcher.grammar` and `Matcher.elements`; `Matcher.anyOf`.
-/

namespace ApplicativeParsing

/-- A shape of nested pairs. -/
inductive Nest where
  /-- One element. -/
  | leaf
  /-- A pair. -/
  | pair (l r : Nest)
  deriving DecidableEq

namespace Nest

/-- Nested pairs of elements of a given shape. -/
def Value (σ : Type) : Nest → Type
  | leaf => σ
  | pair l r => l.Value σ × r.Value σ

/-- The elements in nested pairs from left to right. -/
def flatten {σ : Type} : (n : Nest) → n.Value σ → List σ
  | leaf, x => [x]
  | pair l r, v => l.flatten v.1 ++ r.flatten v.2

/-- There is at least one element. -/
theorem flatten_ne_nil {σ : Type} (n : Nest) (v : n.Value σ) : n.flatten v ≠ [] := by
  induction n with
  | leaf => exact List.cons_ne_nil _ _
  | pair l r ihl _ => exact List.append_ne_nil_of_left_ne_nil (ihl v.1) _

end Nest

/-- A grammar that only reads, with the shape of its values. -/
inductive Matcher (σ : Type) : Nest → Type where
  /-- One expected element. -/
  | element (expected : σ) : Matcher σ .leaf
  /-- Two matchers, one after the other. -/
  | andThen {l r : Nest} (p : Matcher σ l) (q : Matcher σ r) : Matcher σ (.pair l r)
  /-- Two alternatives. -/
  | orElse {n : Nest} (p q : Matcher σ n) : Matcher σ n
  /-- At least one alternative. -/
  | choice {n : Nest} {k : Nat} (ps : Fin (k + 1) → Matcher σ n) : Matcher σ n
  /-- A matcher whose parts are hidden. -/
  | boxed {n : Nest} (p : Matcher σ n) : Matcher σ n

namespace Matcher

variable {σ : Type}

/-- The grammar that a matcher is. -/
def grammar : {n : Nest} → Matcher σ n → Grammar σ (n.Value σ)
  | _, element e => .element e
  | _, andThen p q => .andThen p.grammar q.grammar
  | _, orElse p q => .orElse p.grammar q.grammar
  | _, choice ps => .choice fun i => (ps i).grammar
  | _, boxed p => .boxed p.grammar

/-- The expected elements of a matcher, from left to right. -/
def elements : {n : Nest} → Matcher σ n → List σ
  | _, element e => [e]
  | _, andThen p q => p.elements ++ q.elements
  | _, orElse p q => p.elements ++ q.elements
  | _, choice ps => (List.ofFn fun i => (ps i).elements).flatten
  | _, boxed p => p.elements

/-- One element out of at least one candidate. -/
def anyOf {k : Nat} (candidates : Fin (k + 1) → σ) : Matcher σ .leaf :=
  choice fun i => element (candidates i)

/-- One element out of some candidates is the grammar of that name. -/
theorem grammar_anyOf {k : Nat} (candidates : Fin (k + 1) → σ) :
    (anyOf candidates).grammar = .anyOf candidates := rfl

/-- The expected elements of one element out of some candidates are the candidates, in order. -/
theorem elements_anyOf {k : Nat} (candidates : Fin (k + 1) → σ) :
    (anyOf candidates).elements = List.ofFn candidates := by
  calc
    (List.ofFn fun i => [candidates i]).flatten = (List.ofFn candidates).flatMap fun e => [e] := by
      rw [List.flatMap_def, List.map_ofFn]
      rfl
    _ = List.ofFn candidates := List.flatMap_singleton' _

end Matcher

end ApplicativeParsing

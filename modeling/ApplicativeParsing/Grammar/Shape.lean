import ApplicativeParsing.Grammar.Basic

/-!
# Shapes

Two grammars have the same shape when they are the same nesting of combinators over the same
expected elements. Their values, mapping functions and value types may differ.

## Main definitions

* `Grammar.SameShape`.
-/

namespace ApplicativeParsing.Grammar

variable {σ : Type}

/-- The same nesting over the same expected elements, with any values and functions in it. -/
inductive SameShape : {α β : Type} → Grammar σ α → Grammar σ β → Prop where
  /-- The same expected element. -/
  | element (e : σ) : SameShape (.element e) (.element e)
  /-- Any two values. -/
  | ret {α β : Type} (a : α) (b : β) : SameShape (.ret a) (.ret b)
  /-- Two sequences. -/
  | andThen {α β α' β' : Type} {p : Grammar σ α} {q : Grammar σ β} {p' : Grammar σ α'}
      {q' : Grammar σ β'} (hp : SameShape p p') (hq : SameShape q q') :
      SameShape (.andThen p q) (.andThen p' q')
  /-- Two alternations. -/
  | orElse {α α' : Type} {p q : Grammar σ α} {p' q' : Grammar σ α'} (hp : SameShape p p')
      (hq : SameShape q q') : SameShape (.orElse p q) (.orElse p' q')
  /-- Two choices with as many alternatives. -/
  | choice {α α' : Type} {n : Nat} {ps : Fin (n + 1) → Grammar σ α}
      {ps' : Fin (n + 1) → Grammar σ α'} (h : ∀ i, SameShape (ps i) (ps' i)) :
      SameShape (.choice ps) (.choice ps')
  /-- Any two mapping functions. -/
  | select {α β α' β' : Type} {p : Grammar σ α} {p' : Grammar σ α'} (f : α → β) (f' : α' → β')
      (h : SameShape p p') : SameShape (.select p f) (.select p' f')
  /-- Two applications. -/
  | apply {α β α' β' : Type} {arg : Grammar σ α} {fn : Grammar σ (α → β)} {arg' : Grammar σ α'}
      {fn' : Grammar σ (α' → β')} (ha : SameShape arg arg') (hf : SameShape fn fn') :
      SameShape (.apply arg fn) (.apply arg' fn')
  /-- Any two mapping functions of two arguments. -/
  | lift₂ {α β γ α' β' γ' : Type} {x : Grammar σ α} {y : Grammar σ β} {x' : Grammar σ α'}
      {y' : Grammar σ β'} (f : α → β → γ) (f' : α' → β' → γ') (hx : SameShape x x')
      (hy : SameShape y y') : SameShape (.lift₂ f x y) (.lift₂ f' x' y')
  /-- Two boxes. -/
  | boxed {α α' : Type} {p : Grammar σ α} {p' : Grammar σ α'} (h : SameShape p p') :
      SameShape (.boxed p) (.boxed p')

/-- Every grammar has its own shape. -/
theorem SameShape.refl {α : Type} (p : Grammar σ α) : SameShape p p := by
  induction p with
  | element e => exact .element e
  | ret a => exact .ret a a
  | andThen p q ihp ihq => exact .andThen ihp ihq
  | orElse p q ihp ihq => exact .orElse ihp ihq
  | choice ps ih => exact .choice ih
  | select p f ih => exact .select f f ih
  | apply arg fn iha ihf => exact .apply iha ihf
  | lift₂ f x y ihx ihy => exact .lift₂ f f ihx ihy
  | boxed p ih => exact .boxed ih

/-- Having the same shape does not depend on the order. -/
theorem SameShape.symm {α β : Type} {p : Grammar σ α} {q : Grammar σ β} (h : SameShape p q) :
    SameShape q p := by
  induction h with
  | element e => exact .element e
  | ret a b => exact .ret b a
  | andThen _ _ ihp ihq => exact .andThen ihp ihq
  | orElse _ _ ihp ihq => exact .orElse ihp ihq
  | choice _ ih => exact .choice ih
  | select f f' _ ih => exact .select f' f ih
  | apply _ _ iha ihf => exact .apply iha ihf
  | lift₂ f f' _ _ ihx ihy => exact .lift₂ f' f ihx ihy
  | boxed _ ih => exact .boxed ih

end ApplicativeParsing.Grammar

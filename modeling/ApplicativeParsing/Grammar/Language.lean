import ApplicativeParsing.Grammar.Basic

/-!
# Languages

The language of a grammar is the set of words it can consume, each with the value it then has, when
alternatives are not ordered and any of them may be taken. It is defined without reference to
parsers. A grammar is separated when no word of one alternative is the start of a word of another;
then the order of alternatives cannot matter.

## Main definitions

* `Grammar.Derives`: the language, as a relation between words and values.
* `Grammar.Separated`.
-/

namespace ApplicativeParsing.Grammar

variable {σ : Type}

/-- The word `w` has the value `v`. The elements of the word stand on the left of `==`. -/
def Derives [BEq σ] : {α : Type} → Grammar σ α → (w : List σ) → (v : α) → Prop
  | _, element e, w, v => ∃ x, w = [x] ∧ (x == e) = true ∧ v = e
  | _, ret a, w, v => w = [] ∧ v = a
  | _, andThen p q, w, v =>
    ∃ w₁ w₂, w = w₁ ++ w₂ ∧ p.Derives w₁ v.1 ∧ q.Derives w₂ v.2
  | _, orElse p q, w, v => p.Derives w v ∨ q.Derives w v
  | _, choice ps, w, v => ∃ i, (ps i).Derives w v
  | _, select p f, w, v => ∃ a, p.Derives w a ∧ v = f a
  | _, apply arg fn, w, v =>
    ∃ w₁ w₂ f a, w = w₁ ++ w₂ ∧ fn.Derives w₁ f ∧ arg.Derives w₂ a ∧ v = f a
  | _, lift₂ f x y, w, v =>
    ∃ w₁ w₂ a b, w = w₁ ++ w₂ ∧ x.Derives w₁ a ∧ y.Derives w₂ b ∧ v = f a b
  | _, boxed p, w, v => p.Derives w v

/-- No word of the one grammar is the start of a word of the other. -/
def Apart [BEq σ] {α β : Type} (p : Grammar σ α) (q : Grammar σ β) : Prop :=
  ∀ ⦃w v w' v'⦄, p.Derives w v → q.Derives w' v' → ¬w <+: w' ∧ ¬w' <+: w

/-- Wherever there are alternatives, any two of them are apart. -/
def Separated [BEq σ] : {α : Type} → Grammar σ α → Prop
  | _, element _ => True
  | _, ret _ => True
  | _, andThen p q => p.Separated ∧ q.Separated
  | _, orElse p q => p.Separated ∧ q.Separated ∧ p.Apart q
  | _, choice ps => (∀ i, (ps i).Separated) ∧ ∀ i j, i ≠ j → (ps i).Apart (ps j)
  | _, select p _ => p.Separated
  | _, apply arg fn => fn.Separated ∧ arg.Separated
  | _, lift₂ _ x y => x.Separated ∧ y.Separated
  | _, boxed p => p.Separated

theorem Apart.symm [BEq σ] {α β : Type} {p : Grammar σ α} {q : Grammar σ β} (h : p.Apart q) :
    q.Apart p := fun _ _ _ _ hq hp => (h hp hq).symm

/-- A word of a choice between elements is one element that one of the candidates accepts. -/
theorem derives_anyOf [BEq σ] {n : Nat} (es : Fin (n + 1) → σ) (w : List σ) (v : σ) :
    (anyOf es).Derives w v ↔ ∃ x i, w = [x] ∧ (x == es i) = true ∧ v = es i := by
  constructor
  · rintro ⟨i, x, h⟩
    exact ⟨x, i, h⟩
  · rintro ⟨x, i, h⟩
    exact ⟨i, x, h⟩

end ApplicativeParsing.Grammar

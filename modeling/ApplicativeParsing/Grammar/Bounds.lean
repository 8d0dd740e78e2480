import ApplicativeParsing.Grammar.Basic

/-!
# Bounds on consumption

How few and how many elements a success of a grammar can consume, read off the tree.

## Main definitions

* `Grammar.lo`, `Grammar.hi`.
* `least`, `greatest`: the least and the greatest value of a non-empty finite family.
-/

namespace ApplicativeParsing

/-- The least value of a family. -/
def least : {n : Nat} → (Fin (n + 1) → Nat) → Nat
  | 0, f => f 0
  | _ + 1, f => min (f 0) (least fun i => f i.succ)

/-- The greatest value of a family. -/
def greatest : {n : Nat} → (Fin (n + 1) → Nat) → Nat
  | 0, f => f 0
  | _ + 1, f => max (f 0) (greatest fun i => f i.succ)

/-- The least value is below every value. -/
theorem least_le {n : Nat} (f : Fin (n + 1) → Nat) (i : Fin (n + 1)) : least f ≤ f i := by
  induction n with
  | zero =>
    obtain rfl : i = 0 := by omega
    exact Nat.le_refl _
  | succ n ih =>
    cases i using Fin.cases with
    | zero => exact Nat.min_le_left _ _
    | succ i => exact Nat.le_trans (Nat.min_le_right _ _) (ih (fun i => f i.succ) i)

/-- The greatest value is above every value. -/
theorem le_greatest {n : Nat} (f : Fin (n + 1) → Nat) (i : Fin (n + 1)) : f i ≤ greatest f := by
  induction n with
  | zero =>
    obtain rfl : i = 0 := by omega
    exact Nat.le_refl _
  | succ n ih =>
    cases i using Fin.cases with
    | zero => exact Nat.le_max_left _ _
    | succ i => exact Nat.le_trans (ih (fun i => f i.succ) i) (Nat.le_max_right _ _)

/-- The least value is one of the values. -/
theorem exists_eq_least {n : Nat} (f : Fin (n + 1) → Nat) : ∃ i, f i = least f := by
  induction n with
  | zero => exact ⟨0, rfl⟩
  | succ n ih =>
    obtain ⟨i, hi⟩ := ih fun i => f i.succ
    rcases Nat.le_total (f 0) (least fun i => f i.succ) with h | h
    · exact ⟨0, (Nat.min_eq_left h).symm⟩
    · exact ⟨i.succ, hi.trans (Nat.min_eq_right h).symm⟩

namespace Grammar

variable {σ : Type}

/-- The least number of elements that a success consumes. -/
def lo : {α : Type} → Grammar σ α → Nat
  | _, element _ => 1
  | _, ret _ => 0
  | _, andThen p q => p.lo + q.lo
  | _, orElse p q => min p.lo q.lo
  | _, choice ps => least fun i => (ps i).lo
  | _, select p _ => p.lo
  | _, apply arg fn => fn.lo + arg.lo
  | _, lift₂ _ x y => x.lo + y.lo
  | _, boxed p => p.lo

/-- The greatest number of elements that a success consumes. -/
def hi : {α : Type} → Grammar σ α → Nat
  | _, element _ => 1
  | _, ret _ => 0
  | _, andThen p q => p.hi + q.hi
  | _, orElse p q => max p.hi q.hi
  | _, choice ps => greatest fun i => (ps i).hi
  | _, select p _ => p.hi
  | _, apply arg fn => fn.hi + arg.hi
  | _, lift₂ _ x y => x.hi + y.hi
  | _, boxed p => p.hi

/-- The bounds are in order. -/
theorem lo_le_hi {α : Type} (p : Grammar σ α) : p.lo ≤ p.hi := by
  induction p with
  | element e => exact Nat.le_refl _
  | ret a => exact Nat.le_refl _
  | andThen p q ihp ihq => exact Nat.add_le_add ihp ihq
  | orElse p q ihp ihq => simp only [lo, hi]; omega
  | choice ps ih =>
    -- by way of the first alternative, there always is one
    exact Nat.le_trans (least_le _ 0) (Nat.le_trans (ih 0) (le_greatest (fun i => (ps i).hi) 0))
  | select p f ih => exact ih
  | apply arg fn iha ihf => exact Nat.add_le_add ihf iha
  | lift₂ f x y ihx ihy => exact Nat.add_le_add ihx ihy
  | boxed p ih => exact ih

end Grammar

end ApplicativeParsing

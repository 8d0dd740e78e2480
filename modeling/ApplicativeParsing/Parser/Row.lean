import ApplicativeParsing.Parser.Sequencing

/-!
# Rows

A row is a non-empty sequence of parsers with values of one type, nested to the left, and the value
of a row is the tuple of their values, nested in the same way.

## Main definitions

* `Row`, `Row.ofFn`, `Row.foldl`: the tuples.
* `Parser.row`: the parsers one after the other; `Parser.foldRow`: the same, folding the values on
  the way.

## Main statements

* `Parser.outcome_row_succ`, `Parser.outcome_foldRow_succ`: the last part runs behind the others.
-/

namespace ApplicativeParsing

/-- Tuples of `n + 1` values, nested to the left. -/
def Row (α : Type) : Nat → Type
  | 0 => α
  | n + 1 => Row α n × α

namespace Row

variable {α β : Type}

/-- The tuple of the values of a function. -/
def ofFn : {n : Nat} → (Fin (n + 1) → α) → Row α n
  | 0, f => f 0
  | n + 1, f => (ofFn fun i : Fin (n + 1) => f i.castSucc, f (Fin.last (n + 1)))

/-- Fold a tuple from the left. -/
def foldl (init : α → β) (step : β → α → β) : {n : Nat} → Row α n → β
  | 0, a => init a
  | n + 1, r => step (foldl init step (n := n) r.1) r.2

end Row

namespace Parser

variable {κ ι α β : Type}

/-- Run parsers one after the other. -/
def row : {n : Nat} → (Fin (n + 1) → Parser κ ι α) → Parser κ ι (Row α n)
  | 0, ps => ps 0
  | n + 1, ps => (row fun i : Fin (n + 1) => ps i.castSucc).andThen (ps (Fin.last (n + 1)))

/-- Run parsers one after the other and fold their values on the way. -/
def foldRow (init : α → β) (step : β → α → Traced κ β) :
    {n : Nat} → (Fin (n + 1) → Parser κ ι α) → Parser κ ι β
  | 0, ps => (ps 0).map init
  | n + 1, ps =>
    lift₂ step (foldRow init step fun i : Fin (n + 1) => ps i.castSucc) (ps (Fin.last (n + 1)))

/-- The last part of a row runs behind the row of the others. -/
theorem outcome_row_succ {n : Nat} (ps : Fin (n + 2) → Parser κ ι α) (s : ι) :
    (row ps).outcome s =
      ((row fun i : Fin (n + 1) => ps i.castSucc).outcome s).andThen fun (v, r) =>
        ((ps (Fin.last (n + 1))).outcome r).map fun (a, r) => ((v, a), r) :=
  outcome_andThen _ _ _

/-- The last step of a fold is made behind the last part. -/
theorem outcome_foldRow_succ (init : α → β) (step : β → α → Traced κ β) {n : Nat}
    (ps : Fin (n + 2) → Parser κ ι α) (s : ι) :
    (foldRow init step ps).outcome s =
      ((foldRow init step fun i : Fin (n + 1) => ps i.castSucc).outcome s).andThen fun (b, r) =>
        ((ps (Fin.last (n + 1))).outcome r).map fun (a, r) => ((step b a).value, r) :=
  outcome_lift₂ _ _ _ _

end Parser

end ApplicativeParsing

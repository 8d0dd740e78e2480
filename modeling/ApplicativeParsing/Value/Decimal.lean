import ApplicativeParsing.Text.Layout

/-!
# Decimal numbers

Floating-point numbers as far as they are read, compared and written: by their decimal texts. Zero
has a sign, there are two infinities, and there is a number that is not one. Comparison is numeric,
so it is not reflexive.

## Main definitions

* `Decimal`, read by `Decimal.ofText?` and written by `Decimal.text`.
* `BEq Decimal`: `nan` differs from everything, and the two zeros are equal.
-/

namespace ApplicativeParsing

/-- A number with a sign and finitely many decimal places, or one of the exceptional numbers. -/
inductive Decimal where
  /-- Not a number. -/
  | nan
  /-- An infinity. -/
  | infinite (negative : Bool)
  /-- The number of absolute value `coefficient / 10 ^ places`. -/
  | finite (negative : Bool) (coefficient places : Nat)
  deriving DecidableEq, Repr

namespace Decimal

/-- The number whose numeral is that of `n` with some zeros behind it. -/
def shift (n : Nat) : Nat → Nat
  | 0 => n
  | zeros + 1 => shift (10 * n) zeros

/-- Numeric equality. -/
protected def beq : Decimal → Decimal → Bool
  | infinite s, infinite t => s == t
  | finite s m p, finite t n q => shift m q == shift n p && (s == t || m == 0)
  | _, _ => false

instance : BEq Decimal := ⟨Decimal.beq⟩

/-- Drop the zeros at the end of the decimal places. -/
def trim (coefficient : Nat) : Nat → Nat × Nat
  | 0 => (coefficient, 0)
  | places + 1 =>
    if coefficient % 10 = 0 then trim (coefficient / 10) places else (coefficient, places + 1)

/-- The number that decimal digits denote. -/
def ofDigits? (digits : List Char) : Option Nat :=
  if digits.all Char.isDigit && !digits.isEmpty then
    some (digits.foldl (fun n c => 10 * n + (c.toNat - '0'.toNat)) 0)
  else none

/-- Read digits with at most one point between them. -/
def ofUnsigned? (negative : Bool) (digits : List Char) : Option Decimal :=
  let whole := digits.takeWhile (· != '.')
  match digits.dropWhile (· != '.') with
  | [] => (ofDigits? whole).map fun n => finite negative n 0
  | _ :: fraction => do
    -- there must be digits on both sides of the point
    let _ ← ofDigits? whole
    let _ ← ofDigits? fraction
    let n ← ofDigits? (whole ++ fraction)
    let (coefficient, places) := trim n fraction.length
    return finite negative coefficient places

/-- Read a number from its text. -/
def ofText? (text : String) : Option Decimal :=
  match text.toList with
  | ['N', 'a', 'N'] => some nan
  | ['i', 'n', 'f'] => some (infinite false)
  | ['-', 'i', 'n', 'f'] => some (infinite true)
  | '-' :: digits => ofUnsigned? true digits
  | digits => ofUnsigned? false digits

/-- The numeral of `coefficient` with a point before its last `places` digits. -/
def numeral (coefficient places : Nat) : String :=
  -- there is a digit before the point, and a small number has zeros behind it
  let digits := Nat.toDigits 10 coefficient
  let digits := List.replicate (places + 1 - digits.length) '0' ++ digits
  let (whole, fraction) := digits.splitAt (digits.length - places)
  String.ofList (if places = 0 then whole else whole ++ '.' :: fraction)

/-- Write a number. A whole number has no point, and negative zero keeps its sign. -/
def text : Decimal → String
  | nan => "NaN"
  | infinite negative => (if negative then "-" else "") ++ "inf"
  | finite negative coefficient places =>
    (if negative then "-" else "") ++ numeral coefficient places

instance : ToString Decimal := ⟨text⟩

/-- In a layout a whole number is told from an integer by a decimal place. -/
def layout (d : Decimal) : Text.Layout :=
  match d with
  | finite _ _ 0 => .word (d.text ++ ".0")
  | _ => .word d.text

/-- The number that is not one differs from itself. -/
@[simp] theorem nan_beq (d : Decimal) : (nan == d) = false := rfl

/-- The two zeros are equal. -/
example : (finite false 0 0 == finite true 0 0) = true := rfl

end Decimal

end ApplicativeParsing

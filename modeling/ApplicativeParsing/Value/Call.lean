import ApplicativeParsing.Value.Basic
import ApplicativeParsing.Value.Width

/-!
# Calls

Functions are applied to one argument at a time. A function that has all its arguments computes;
before that it is a value that waits. Calling what is not a function, or a function with arguments
that it has no answer for, yields `Value.unit`.

## Main definitions

* `Builtin.eval`: what a named function computes from all its arguments.
* `Value.call`: one more argument.
-/

namespace ApplicativeParsing

/-- The value of an ASCII decimal digit. -/
def digit? (c : Char) : Option Nat :=
  if c.isDigit then some (c.toNat - '0'.toNat) else none

/-- The integer that a numeral denotes: one optional sign and at least one ASCII digit. What is no
numeral, or lies outside of 64-bit signed integers, counts as zero. -/
def integerOrZero (numeral : String) : Int :=
  let (negative, digits) :=
    match numeral.toList with
    | '-' :: rest => (true, rest)
    | '+' :: rest => (false, rest)
    | rest => (false, rest)
  if digits.isEmpty || !digits.all Char.isDigit then 0
  else
    let magnitude : Nat := digits.foldl (fun n c => 10 * n + (c.toNat - '0'.toNat)) 0
    -- the sign counts before the range: there is one more number below zero than above
    let n : Int := if negative then -magnitude else magnitude
    if fitsSigned64 n then n else 0

namespace Builtin

/-- What a function computes from all its arguments. -/
def eval : Builtin → List Value → Value
  | .id, [x] => x
  | upper, [.element (.char c)] => .element (.char c.toUpper)
  | upper, [.element (.word s)] => .string (s.map Char.toUpper)
  | lower, [.element (.char c)] => .element (.char c.toLower)
  | lower, [.element (.word s)] => .string (s.map Char.toLower)
  | digit, [.element (.char c)] =>
    match digit? c with
    | some n => .present (.int n)
    | none => .absent
  | ord, [.element (.char c)] => .int c.toNat
  | inc, [.element (.int n)] => .int (reduce128 (n + 1))
  | neg, [.element (.int n)] => .int (reduce128 (-n))
  | toInt, [.element (.word s)] => .int (integerOrZero s)
  | len, [.element (.word s)] => .int s.length
  | len, [.list xs] => .int xs.length
  | rev, [.element (.word s)] => .string (String.ofList s.toList.reverse)
  | rev, [.list xs] => .list xs.reverse
  | shown, [x] => .string x.layout.compact
  | text, [x] => .string x.text
  | fst, [.pair x _] => x
  | snd, [.pair _ y] => y
  | swap, [.pair x y] => .pair y x
  | dup, [x] => .pair x x
  | .present, [x] => .present x
  | singleton, [x] => .list [x]
  | .sum, [x] => .int (reduce128 x.sum)
  | const, [x, _] => x
  | .pair, [x, y] => .pair x y
  | add, [.element (.int m), .element (.int n)] => .int (reduce128 (m + n))
  | sub, [.element (.int m), .element (.int n)] => .int (reduce128 (m - n))
  | mul, [.element (.int m), .element (.int n)] => .int (reduce128 (m * n))
  | concat, [x, y] => .string (x.text ++ y.text)
  | cons, [x, .list xs] => .list (x :: xs)
  | eq, [x, y] => .element (.bool (x == y))
  | concat₃, [x, y, z] => .string (x.text ++ y.text ++ z.text)
  | _, _ => .unit

end Builtin

namespace Value

/-- Give a function one more argument, and let it compute if that was the last one. -/
def call (f x : Value) : Value :=
  match f with
  | function b arguments =>
    let arguments := arguments ++ [x]
    if arguments.length < b.arity then function b arguments else b.eval arguments
  | _ => unit

end Value

end ApplicativeParsing

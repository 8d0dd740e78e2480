import ApplicativeParsing.Value.Builtin
import ApplicativeParsing.Value.Element

/-!
# Values

What the parsers of a session yield: elements, data built from them, and named functions that wait
for more arguments. The module holds the type, its comparison, its plain text and its layout.

Lists can be long, so the functions here that walk along a list carry their result with them.

## Main definitions

* `Value`, with `BEq Value`, `Value.text`, `Value.sum` and `Value.layout`.
-/

namespace ApplicativeParsing

open Text (Layout)

/-- A value that a parser yields. -/
inductive Value where
  /-- The value that says nothing. -/
  | unit
  /-- An element of an input. -/
  | element (e : Element)
  /-- Two values. -/
  | pair (x y : Value)
  /-- Any number of values. -/
  | list (xs : List Value)
  /-- An optional value that is missing. -/
  | absent
  /-- An optional value that is there. -/
  | present (x : Value)
  /-- A named function and the arguments it has so far. -/
  | function (f : Builtin) (arguments : List Value)
  deriving Repr

namespace Value

/-- A string as a value. -/
def string (s : String) : Value := element (.word s)

/-- An integer as a value. -/
def int (n : Int) : Value := element (.int n)

mutual

/-- Comparison of values: their shapes are compared by identity, the elements in them by their own
`==`. -/
protected def beq : Value → Value → Bool
  | unit, unit => true
  | element d, element e => d == e
  | pair x y, pair x' y' => x.beq x' && y.beq y'
  | list xs, list ys => Value.beqAll xs ys
  | absent, absent => true
  | present x, present y => x.beq y
  | function f xs, function g ys => f == g && Value.beqAll xs ys
  | _, _ => false

/-- Comparison of values in order. -/
protected def beqAll : List Value → List Value → Bool
  | [], [] => true
  | x :: xs, y :: ys => x.beq y && Value.beqAll xs ys
  | _, _ => false

end

instance : BEq Value := ⟨Value.beq⟩

mutual

/-- Write the text of a value behind `done`. -/
def writeText (done : String) : Value → String
  | unit | absent | function _ _ => done
  | element e => done ++ e.text
  | pair x y => writeText (writeText done x) y
  | list xs => writeTexts done xs
  | present x => writeText done x

/-- Write the texts of values behind `done`. -/
def writeTexts (done : String) : List Value → String
  | [] => done
  | x :: xs => writeTexts (writeText done x) xs

end

/-- The text of a value: the texts of the elements in it, one after another. -/
def text (v : Value) : String := writeText "" v

mutual

/-- Add the integers in a value to `total`. -/
def addTo (total : Int) : Value → Int
  | element (.int n) => total + n
  | pair x y => addTo (addTo total x) y
  | list xs => addAllTo total xs
  | _ => total

/-- Add the integers in values to `total`. -/
def addAllTo (total : Int) : List Value → Int
  | [] => total
  | x :: xs => addAllTo (addTo total x) xs

end

/-- The sum of the integers that a value consists of, directly or through pairs and lists. -/
def sum (v : Value) : Int := addTo 0 v

mutual

/-- The value as a structured text. -/
def layout : Value → Layout
  | unit => .word "()"
  | element e => e.layout
  | pair x y => .tuple "" [x.layout, y.layout]
  | list xs => .list (layouts xs)
  | absent => .word "None"
  | present x => .tuple "Some" [x.layout]
  | function f xs => .word ("<fn " ++ f.name ++ "/" ++ toString xs.length ++ ">")

/-- Values as structured texts. -/
def layouts : List Value → List Layout
  | [] => []
  | x :: xs => x.layout :: layouts xs

end

end Value

end ApplicativeParsing

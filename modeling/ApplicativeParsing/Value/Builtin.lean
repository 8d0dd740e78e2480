/-!
# Named functions

The functions that descriptions of parsers can name. Here are only their names and the number of
arguments each one waits for; `Value.call` says what they compute.
-/

namespace ApplicativeParsing

/-- A named function. -/
inductive Builtin where
  /-- The argument itself. -/
  | id
  /-- ASCII letters in upper case, in a character or a string. -/
  | upper
  /-- ASCII letters in lower case, in a character or a string. -/
  | lower
  /-- The value of a character that is an ASCII decimal digit, if it is one. -/
  | digit
  /-- The code of a character. -/
  | ord
  /-- One more than an integer. -/
  | inc
  /-- The opposite of an integer. -/
  | neg
  /-- The integer that a string denotes. -/
  | toInt
  /-- The length of a string or a list. -/
  | len
  /-- A string or a list from back to front. -/
  | rev
  /-- The structured text of any value, in one line. -/
  | shown
  /-- The text of any value. -/
  | text
  /-- The left part of a pair. -/
  | fst
  /-- The right part of a pair. -/
  | snd
  /-- A pair with its parts exchanged. -/
  | swap
  /-- A value paired with itself. -/
  | dup
  /-- A value as an optional value that is there. -/
  | present
  /-- The list of one value. -/
  | singleton
  /-- The sum of the integers in a value. -/
  | sum
  /-- The first of two arguments. -/
  | const
  /-- The pair of two arguments. -/
  | pair
  /-- The sum of two integers. -/
  | add
  /-- The difference of two integers. -/
  | sub
  /-- The product of two integers. -/
  | mul
  /-- The texts of two values, one after the other. -/
  | concat
  /-- A value in front of a list. -/
  | cons
  /-- Whether two values are equal. -/
  | eq
  /-- The texts of three values, one after the other. -/
  | concat₃
  deriving DecidableEq, Repr

namespace Builtin

/-- All named functions. -/
def all : List Builtin :=
  [id, upper, lower, digit, ord, inc, neg, toInt, len, rev, shown, text, fst, snd, swap, dup,
    present, singleton, sum, const, pair, add, sub, mul, concat, cons, eq, concat₃]

/-- The name of a function. -/
def name : Builtin → String
  | id => "id"
  | upper => "upper"
  | lower => "lower"
  | digit => "digit"
  | ord => "ord"
  | inc => "inc"
  | neg => "neg"
  | toInt => "to_int"
  | len => "len"
  | rev => "rev"
  | shown => "show"
  | text => "text"
  | fst => "fst"
  | snd => "snd"
  | swap => "swap"
  | dup => "dup"
  | present => "some"
  | singleton => "list"
  | sum => "sum"
  | const => "const"
  | pair => "pair"
  | add => "add"
  | sub => "sub"
  | mul => "mul"
  | concat => "concat"
  | cons => "cons"
  | eq => "eq"
  | concat₃ => "concat3"

/-- How many arguments a function waits for. -/
def arity : Builtin → Nat
  | const | pair | add | sub | mul | concat | cons | eq => 2
  | concat₃ => 3
  | _ => 1

/-- The function of a name. -/
def ofName? (name : String) : Option Builtin := all.find? (·.name == name)

/-- No two functions share a name. -/
theorem ofName?_name (f : Builtin) : ofName? f.name = some f := by
  cases f <;> decide

end Builtin

end ApplicativeParsing

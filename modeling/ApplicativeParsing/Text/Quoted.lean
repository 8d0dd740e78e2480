import ApplicativeParsing.Text.Plain

/-!
# Quoted characters and strings

The quoted form of a character or a string stands between quotes and shows every character so that
it can be told apart: by itself, by a short escape, or by its number.

## Main definitions

* `escape`: how one character is written between quotes of a given kind.
* `quoteChar`, `quoteString`: the quoted forms.
-/

namespace ApplicativeParsing.Text

/-- The hexadecimal numeral of `n` in lower case, without padding. -/
def hexadecimal (n : Nat) : String := String.ofList (Nat.toDigits 16 n)

/-- One character as it is written between two `quote` marks. The quote itself and the backslash are
escaped by a backslash, the most common controls have a letter, and a character without a plain
form is written by its number. -/
def escape (quote c : Char) : String :=
  match c with
  | '\x00' => "\\0"
  | '\t' => "\\t"
  | '\n' => "\\n"
  | '\r' => "\\r"
  | '\\' => "\\\\"
  | c =>
    if c = quote then "\\".push c
    else if isPlain c then c.toString
    else "\\u\x7b" ++ hexadecimal c.toNat ++ "\x7d"

/-- A character between apostrophes. -/
def quoteChar (c : Char) : String := "'" ++ escape '\'' c ++ "'"

/-- A string between double quotes. -/
def quoteString (s : String) : String :=
  s.foldl (fun done c => done ++ escape '"' c) "\"" ++ "\""

example : quoteChar '\'' = "'\\''" ∧ quoteChar '"' = "'\"'" := by decide

end ApplicativeParsing.Text

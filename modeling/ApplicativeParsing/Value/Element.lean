import ApplicativeParsing.Text.Quoted
import ApplicativeParsing.Value.Decimal

/-!
# Elements

The elements that inputs of a session are made of. Each sort of element has a comparison of its own,
and no law holds for all of them: decimals are not reflexive, globs are not symmetric, caseless
characters and tokens are coarser than identity.

## Main definitions

* `Element`, with its comparison, its text in messages (`Element.text`) and its layout.
-/

namespace ApplicativeParsing

open Text (Layout)

/-- One element of an input. -/
inductive Element where
  /-- A character. -/
  | char (c : Char)
  /-- An integer. -/
  | int (n : Int)
  /-- A truth value. -/
  | bool (b : Bool)
  /-- A decimal number. -/
  | decimal (d : Decimal)
  /-- A whole string. -/
  | word (s : String)
  /-- A character whose case does not matter. -/
  | caseless (c : Char)
  /-- A character that may stand for any other when it is the expected one. -/
  | glob (c : Char)
  /-- A name found at a position, of which only the name matters. -/
  | token (name : String) (position : Int)
  deriving DecidableEq, Repr

namespace Element

/-- The comparison of elements. It may tell its arguments apart: the right one is the pattern. Case
is that of ASCII letters. -/
protected def beq : Element → Element → Bool
  | char c, char d => c == d
  | int m, int n => m == n
  | bool a, bool b => a == b
  | decimal x, decimal y => x == y
  | word s, word t => s == t
  | caseless c, caseless d => c.toLower == d.toLower
  | glob c, glob d => c == d || d == '?'
  | token s _, token t _ => s == t
  | _, _ => false

instance : BEq Element := ⟨Element.beq⟩

/-- The element as it appears in messages. -/
def text : Element → String
  | char c => c.toString
  | int n => toString n
  | bool b => toString b
  | decimal d => d.text
  | word s => s
  | caseless c => "~".push c
  | glob c => c.toString
  | token name position => name ++ "@" ++ toString position

instance : ToString Element := ⟨text⟩

/-- The element as a structured text, in which its sort can be seen. -/
def layout : Element → Layout
  | char c => .word (Text.quoteChar c)
  | int n => .word (toString n)
  | bool b => .word (toString b)
  | decimal d => d.layout
  | word s => .word (Text.quoteString s)
  | caseless c => .tuple "Ci" [.word (Text.quoteChar c)]
  | glob c => .tuple "Glob" [.word (Text.quoteChar c)]
  | token name position =>
    .record "Tok" [("name", .word (Text.quoteString name)), ("pos", .word (toString position))]

/-- A glob that is a question mark accepts every glob, and is accepted by no other. -/
theorem glob_beq_question (c : Char) :
    (glob c == glob '?') = true ∧ ((glob '?' == glob c) = true ↔ c = '?') := by
  refine ⟨by simp [BEq.beq, Element.beq], ?_⟩
  simp only [BEq.beq, Element.beq]
  simp [eq_comm]

end Element

end ApplicativeParsing

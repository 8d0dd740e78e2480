import ApplicativeParsing.Value.Element
import ApplicativeParsing.Value.Width

/-!
# Kinds of inputs

Every input of a session has a kind, which says what sort its elements are. The module also says
which element of a kind a code number stands for, so that candidates can be given as a range.

## Main definitions

* `Kind`, `Kind.Holds`, `Kind.ofCode?` and `Kind.range`.

## Main statements

* `Kind.holds_of_mem_range`: the elements of a range are of the kind.
-/

namespace ApplicativeParsing

/-- What an input consists of. -/
inductive Kind where
  /-- A text, read by characters. -/
  | text
  /-- A list of characters. -/
  | chars
  /-- Unsigned 8-bit integers. -/
  | bytes
  /-- Signed 64-bit integers. -/
  | signed
  /-- Unsigned 64-bit integers. -/
  | unsigned
  /-- Truth values. -/
  | bools
  /-- Decimal numbers. -/
  | decimals
  /-- Strings, each of which is one element. -/
  | words
  /-- Characters whose case does not matter. -/
  | caseless
  /-- Characters that may be patterns. -/
  | globs
  /-- Names at positions. -/
  | tokens
  deriving DecidableEq, Repr

namespace Kind

/-- The elements of each kind. -/
inductive Holds : Kind → Element → Prop where
  /-- A text is read by characters. -/
  | text (c : Char) : Holds text (.char c)
  /-- A character. -/
  | chars (c : Char) : Holds chars (.char c)
  /-- An integer that is a byte. -/
  | bytes {n : Int} (h : fitsByte n) : Holds bytes (.int n)
  /-- An integer of 64 bits with a sign. -/
  | signed {n : Int} (h : fitsSigned64 n) : Holds signed (.int n)
  /-- An integer of 64 bits without a sign. -/
  | unsigned {n : Int} (h : fitsUnsigned64 n) : Holds unsigned (.int n)
  /-- A truth value. -/
  | bools (b : Bool) : Holds bools (.bool b)
  /-- A decimal number. -/
  | decimals (d : Decimal) : Holds decimals (.decimal d)
  /-- A whole string. -/
  | words (s : String) : Holds words (.word s)
  /-- A character whose case does not matter. -/
  | caseless (c : Char) : Holds caseless (.caseless c)
  /-- A character that may be a pattern. -/
  | globs (c : Char) : Holds globs (.glob c)
  /-- A name at a position. -/
  | tokens (name : String) (position : Int) : Holds tokens (.token name position)

/-- The element that a code number stands for, in the kinds whose elements are numbered: a scalar
value for characters, and the number itself for integers that have room for it. -/
def ofCode? (kind : Kind) (code : Int) : Option Element :=
  match kind with
  | text | chars =>
    if 0 ≤ code && code.toNat.isValidChar then some (.char (Char.ofNat code.toNat)) else none
  | bytes => if fitsByte code then some (.int code) else none
  | signed => if fitsSigned64 code then some (.int code) else none
  | unsigned => if fitsUnsigned64 code then some (.int code) else none
  | _ => none

/-- The elements of `size` code numbers from `start` on, without the numbers that stand for none. -/
def range (kind : Kind) (start : Int) (size : Nat) : List Element :=
  (List.range size).filterMap fun i : Nat => kind.ofCode? (start + i)

/-- A code number stands for an element of the kind. -/
theorem holds_of_ofCode? {kind : Kind} {code : Int} {e : Element}
    (h : kind.ofCode? code = some e) : kind.Holds e := by
  cases kind with
  | text | chars =>
    rw [ofCode?, Option.ite_none_right_eq_some] at h
    cases h.2
    constructor
  | bytes | signed | unsigned =>
    rw [ofCode?, Option.ite_none_right_eq_some] at h
    cases h.2
    constructor
    exact h.1
  | bools | decimals | words | caseless | globs | tokens => nomatch h

/-- So the candidates in a range are elements of the kind. -/
theorem holds_of_mem_range {kind : Kind} {start : Int} {size : Nat} {e : Element}
    (h : e ∈ kind.range start size) : kind.Holds e := by
  obtain ⟨i, -, hi⟩ := List.mem_filterMap.1 h
  exact holds_of_ofCode? hi

end Kind

end ApplicativeParsing

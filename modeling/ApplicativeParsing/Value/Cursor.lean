import ApplicativeParsing.Input
import ApplicativeParsing.Text.ToLayout
import ApplicativeParsing.Value.Basic

/-!
# Cursors

The inputs of a session: a text, whose elements are its characters, or a list of elements.

## Main statements

* `Cursor.first_eq`, `Cursor.elements_rest`: either form steps as the list of its elements does.
-/

namespace ApplicativeParsing

open Text (Layout)

instance : ToLayout Element := ⟨Element.layout⟩

instance : ToLayout Value := ⟨Value.layout⟩

/-- An input of a session. -/
inductive Cursor where
  /-- A text. -/
  | text (s : String.Slice)
  /-- A list of elements. -/
  | list (xs : List Element)

namespace Cursor

/-- A text from its start. -/
def ofString (s : String) : Cursor := text s.toSlice

/-- The elements that are left. -/
def elements : Cursor → List Element
  | text s => s.copy.toList.map Element.char
  | list xs => xs

instance : Input Cursor Element where
  first
    | text s => (Input.first s).map Element.char
    | list xs => Input.first xs
  rest
    | text s => text (Input.rest s)
    | list xs => list (Input.rest xs)

/-- Texts are compared by identity, and lists element by element. -/
protected def beq : Cursor → Cursor → Bool
  | text s, text t => s.copy == t.copy
  | list xs, list ys => xs == ys
  | _, _ => false

instance : BEq Cursor := ⟨Cursor.beq⟩

instance : ToLayout Cursor where
  layout
    | text s => layout s.copy
    | list xs => .list (xs.map layout)

/-- The next element of a cursor is the first that is left. -/
theorem first_eq (c : Cursor) : Input.first c = c.elements.head? := by
  cases c with
  | text s =>
    change (Input.first s).map Element.char = _
    rw [Input.first_slice]
    simp [elements, Input.first]
  | list xs => rfl

/-- Stepping drops the next element. -/
theorem elements_rest (c : Cursor) : (Input.rest c).elements = c.elements.tail := by
  cases c with
  | text s =>
    change (Input.rest s).copy.toList.map Element.char = _
    rw [Input.rest_slice]
    simp [elements, Input.rest]
  | list xs => rfl

end Cursor

end ApplicativeParsing

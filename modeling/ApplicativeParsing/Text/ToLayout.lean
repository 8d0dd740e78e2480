import ApplicativeParsing.Outcome
import ApplicativeParsing.Text.Quoted
import ApplicativeParsing.Text.Layout
import ApplicativeParsing.Trace

/-!
# Layouts of outcomes and failures

The class of types whose values have a structured text, with the layouts of outcomes and of the
causes of failure.

## Main definitions

* `ToLayout`.
* `Outcome.display`: an outcome for a reader, in which a message stands unescaped.
-/

namespace ApplicativeParsing

open Text (Layout)

/-- Types whose values have a structured text. -/
class ToLayout (α : Type) where
  /-- The structured text of a value. -/
  layout : α → Layout

export ToLayout (layout)

variable {α β : Type}

instance : ToLayout String := ⟨fun s => .word (Text.quoteString s)⟩

instance [ToLayout α] [ToLayout β] : ToLayout (α × β) :=
  ⟨fun (a, b) => .tuple "" [layout a, layout b]⟩

instance [ToLayout α] : ToLayout (Outcome α) where
  layout
    | .success a => .tuple "Success" [layout a]
    | .failure e => .tuple "Failure" [layout e]

instance : ToLayout ParseFailure where
  layout
    | .noMoreInput => .word "NoMoreInput"
    | .mismatch expected actual =>
      .record "Mismatch" [("expected", layout expected), ("actual", layout actual)]

instance : ToLayout BuildError where
  layout
    | .emptyChoice => .word "EmptyChoice"

/-- An outcome for a reader: the value in one line, or the message between quotes as it is. -/
def Outcome.display [ToLayout α] : Outcome α → String
  | .success a => "Success " ++ (layout a).compact
  | .failure e => "Failure \"" ++ e ++ "\""

end ApplicativeParsing

/-!
# Causes of failure

The two causes for which an element parser fails, and the one cause for which a parser cannot be
built. A run reports only the wording of its failure, so the wording is fixed here, once.

## Main definitions

* `ParseFailure` and `ParseFailure.message`: no more input, or an element that was not expected.
* `BuildError` and `BuildError.message`: a choice over nothing.
-/

namespace ApplicativeParsing

/-- Why an element could not be read. -/
inductive ParseFailure where
  /-- The input has no next element. -/
  | noMoreInput
  /-- The next element is not the expected one; both are kept as they are shown. -/
  | mismatch (expected actual : String)
  deriving DecidableEq, Repr

namespace ParseFailure

/-- The mismatch between two elements, kept as their texts. -/
def ofElements {σ : Type} [ToString σ] (expected actual : σ) : ParseFailure :=
  mismatch (toString expected) (toString actual)

/-- The wording of a failure. The two texts of a mismatch stand between apostrophes as they are. -/
def message : ParseFailure → String
  | noMoreInput => "No more input"
  | mismatch expected actual => "Expecting '" ++ expected ++ "'. Got '" ++ actual ++ "'."

instance : ToString ParseFailure := ⟨message⟩

@[simp] theorem message_noMoreInput : noMoreInput.message = "No more input" := rfl

theorem message_mismatch (expected actual : String) :
    (mismatch expected actual).message =
      "Expecting '" ++ expected ++ "'. Got '" ++ actual ++ "'." := rfl

/-- The first character of the wording of a mismatch, by which it is told from other wordings. -/
theorem head?_message_mismatch (expected actual : String) :
    (mismatch expected actual).message.toList.head? = some 'E' := by
  simp [message_mismatch]

end ParseFailure

/-- Why a parser could not be built. -/
inductive BuildError where
  /-- A choice needs at least one alternative. -/
  | emptyChoice
  deriving DecidableEq, Repr

namespace BuildError

/-- The wording of a build error. -/
def message : BuildError → String
  | emptyChoice => "Choice on empty sequence"

instance : ToString BuildError := ⟨message⟩

@[simp] theorem message_emptyChoice : emptyChoice.message = "Choice on empty sequence" := rfl

end BuildError

end ApplicativeParsing

/-!
# Inputs

A parser sees its input only through `Input.first`, the next element if there is one, and
`Input.rest`, what remains after it. Lists of elements are inputs, and so are string slices, whose
elements are the characters that their bytes encode.

## Main statements

* `Input.first_slice`, `Input.rest_slice`: a string slice steps exactly as the list of its
  characters does.
-/

namespace ApplicativeParsing

/-- Something that is read from the front, one element of type `σ` at a time. -/
class Input (ι : Type) (σ : outParam Type) where
  /-- The next element, or `none` at the end. -/
  first : ι → Option σ
  /-- What remains after the next element. At the end it is the input itself, or one like it. -/
  rest : ι → ι

namespace Input

variable {ι σ : Type}

/-- Whether there is no next element. -/
def isEmpty [Input ι σ] (s : ι) : Bool := (first s).isNone

/-- Take `n` elements from the front, or fail if there are fewer. -/
def splitAt? [Input ι σ] : Nat → ι → Option (List σ × ι)
  | 0, s => some ([], s)
  | n + 1, s =>
    match first s with
    | none => none
    | some x => (splitAt? n (rest s)).map fun (xs, r) => (x :: xs, r)

instance : Input (List σ) σ where
  first := List.head?
  rest := List.tail

instance : Input String.Slice Char where
  first := String.Slice.front?
  rest s := s.drop 1

@[simp] theorem first_nil : first ([] : List σ) = none := rfl

@[simp] theorem first_cons (x : σ) (s : List σ) : first (x :: s) = some x := rfl

@[simp] theorem rest_nil : rest ([] : List σ) = [] := rfl

@[simp] theorem rest_cons (x : σ) (s : List σ) : rest (x :: s) = s := rfl

@[simp] theorem isEmpty_list (s : List σ) : isEmpty s = s.isEmpty := by
  cases s <;> rfl

/-- The next element of a string slice is the first of its characters. -/
theorem first_slice (s : String.Slice) : first s = first s.copy.toList :=
  String.Slice.front?_eq

/-- The rest of a string slice holds the other characters. -/
theorem rest_slice (s : String.Slice) : (rest s).copy.toList = rest s.copy.toList :=
  String.Slice.toList_copy_drop.trans (by simp [rest])

end Input

end ApplicativeParsing

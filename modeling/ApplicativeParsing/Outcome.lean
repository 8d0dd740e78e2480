/-!
# Outcomes

An `Outcome` is what a run ends in: a value, or the message of a failure. The module holds the
type, its two views (`value?`, `message?`), the two ways of going on from a success (`map` and
`andThen`, each also with effects), and the passage to and from `Except String`.

## Main statements

* `Outcome.ext_views`: the two views together determine an outcome.
* `Outcome.ofExcept_toExcept`, `Outcome.toExcept_ofExcept`: an outcome and its `Except` form carry
  the same information.
* outcomes form a lawful monad whose `bind` is `andThen`.
-/

namespace ApplicativeParsing

universe u v w

/-- The result of a run: a value, or a failure with a message for the reader. -/
inductive Outcome (α : Type u) where
  /-- The run produced `value`. -/
  | success (value : α)
  /-- The run failed; `message` says why. -/
  | failure (message : String)
  deriving DecidableEq, Repr

namespace Outcome

variable {α : Type u} {β : Type v} {m : Type v → Type w}

/-- Whether the outcome is a success. -/
def isSuccess : Outcome α → Bool
  | success _ => true
  | failure _ => false

/-- Whether the outcome is a failure. -/
def isFailure : Outcome α → Bool
  | success _ => false
  | failure _ => true

/-- The value of a success. -/
def value? : Outcome α → Option α
  | success a => some a
  | failure _ => none

/-- The message of a failure. -/
def message? : Outcome α → Option String
  | success _ => none
  | failure e => some e

/-- Equality of outcomes over a comparison of values that need not obey any law: failures are equal
when their messages are, successes when `==` holds of their values, the left one on the left. -/
protected def beq [BEq α] : Outcome α → Outcome α → Bool
  | success a, success b => a == b
  | failure e, failure f => e == f
  | _, _ => false

instance [BEq α] : BEq (Outcome α) := ⟨Outcome.beq⟩

/-- Transform the value of a success. -/
def map (f : α → β) : Outcome α → Outcome β
  | success a => success (f a)
  | failure e => failure e

/-- Transform the value of a success by a function with effects; a failure does not run it. -/
def mapM [Monad m] (f : α → m β) : Outcome α → m (Outcome β)
  | success a => success <$> f a
  | failure e => pure (failure e)

/-- Go on from the value of a success; a failure is passed on. -/
def andThen (o : Outcome α) (f : α → Outcome β) : Outcome β :=
  match o with
  | success a => f a
  | failure e => failure e

/-- Go on from the value of a success with effects; a failure is passed on without any. -/
def andThenM [Monad m] (o : Outcome α) (f : α → m (Outcome β)) : m (Outcome β) :=
  match o with
  | success a => f a
  | failure e => pure (failure e)

/-- The outcome as a value or an error. -/
def toExcept : Outcome α → Except String α
  | success a => .ok a
  | failure e => .error e

/-- The outcome that a value or an error stands for. -/
def ofExcept : Except String α → Outcome α
  | .ok a => success a
  | .error e => failure e

instance : Monad Outcome.{u} where
  pure := success
  bind := andThen
  map f o := o.map f

/-! ### The views -/

@[simp] theorem value?_success (a : α) : (success a).value? = some a := rfl

@[simp] theorem value?_failure (e : String) : (failure e : Outcome α).value? = none := rfl

@[simp] theorem message?_success (a : α) : (success a).message? = none := rfl

@[simp] theorem message?_failure (e : String) : (failure e : Outcome α).message? = some e := rfl

@[simp] theorem isSuccess_success (a : α) : (success a).isSuccess = true := rfl

@[simp] theorem isSuccess_failure (e : String) : (failure e : Outcome α).isSuccess = false := rfl

@[simp] theorem isFailure_eq_not_isSuccess (o : Outcome α) : o.isFailure = !o.isSuccess := by
  cases o <;> rfl

/-- An outcome is a success exactly when it has a value. -/
theorem isSome_value? (o : Outcome α) : o.value?.isSome = o.isSuccess := by
  cases o <;> rfl

/-- An outcome is a success exactly when it has no message. -/
theorem isNone_message? (o : Outcome α) : o.message?.isNone = o.isSuccess := by
  cases o <;> rfl

/-- Two outcomes with the same value, if any, and the same message, if any, are the same. -/
theorem ext_views {o o' : Outcome α} (hv : o.value? = o'.value?)
    (hm : o.message? = o'.message?) : o = o' := by
  cases o <;> cases o' <;> simp_all

/-! ### Going on -/

@[simp] theorem map_success (f : α → β) (a : α) : (success a).map f = success (f a) := rfl

@[simp] theorem map_failure (f : α → β) (e : String) :
    (failure e : Outcome α).map f = failure e := rfl

@[simp] theorem map_id' (o : Outcome α) : (o.map fun a => a) = o := by
  cases o <;> rfl

@[simp] theorem map_map {γ : Type w} (f : α → β) (g : β → γ) (o : Outcome α) :
    (o.map f).map g = o.map fun a => g (f a) := by
  cases o <;> rfl

@[simp] theorem andThen_success (f : α → Outcome β) (a : α) : (success a).andThen f = f a := rfl

@[simp] theorem andThen_failure (f : α → Outcome β) (e : String) :
    (failure e : Outcome α).andThen f = failure e := rfl

@[simp] theorem mapM_success [Monad m] (f : α → m β) (a : α) :
    (success a).mapM f = success <$> f a := rfl

@[simp] theorem mapM_failure [Monad m] (f : α → m β) (e : String) :
    (failure e : Outcome α).mapM f = pure (failure e) := rfl

@[simp] theorem andThenM_success [Monad m] (f : α → m (Outcome β)) (a : α) :
    (success a).andThenM f = f a := rfl

@[simp] theorem andThenM_failure [Monad m] (f : α → m (Outcome β)) (e : String) :
    (failure e : Outcome α).andThenM f = pure (failure e) := rfl

instance : LawfulMonad Outcome.{u} :=
  LawfulMonad.mk' Outcome (fun o => by cases o <;> rfl) (fun _ _ => rfl)
    (fun o _ _ => by cases o <;> rfl) (fun _ _ => rfl) (fun o _ => by cases o <;> rfl)
    (fun o _ => by cases o <;> rfl) (fun _ o => by cases o <;> rfl)

/-! ### The `Except` form -/

@[simp] theorem ofExcept_toExcept (o : Outcome α) : ofExcept o.toExcept = o := by
  cases o <;> rfl

@[simp] theorem toExcept_ofExcept (r : Except String α) : (ofExcept r).toExcept = r := by
  cases r <;> rfl

end Outcome

end ApplicativeParsing

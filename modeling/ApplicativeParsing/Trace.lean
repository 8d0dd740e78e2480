import ApplicativeParsing.Failure

/-!
# Traced computations

Building a parser and running one leave a log. An entry of the log is an `Event`, which the
library records itself, or a note of the caller, of a type `κ` that the caller chooses. A
`Traced κ α` is a value together with the log of what happened until it was there; sequencing
concatenates the logs, so `Traced κ` is a lawful monad and order of effects is order in the log.

## Main definitions

* `Event`, with its `level`, `component` and `fields` as a log reader sees them.
* `Traced`, `Traced.record` and `Traced.note`.
-/

namespace ApplicativeParsing

universe u

/-- How much an event matters to a log reader. -/
inductive Level where
  /-- Part of the normal course of a run. -/
  | trace
  /-- Worth a look while looking for a mistake. -/
  | debug
  deriving DecidableEq, Repr

/-- The name of a level in a log. -/
def Level.text : Level → String
  | trace => "TRACE"
  | debug => "DEBUG"

/-- What the library records about building and running parsers. -/
inductive Event where
  /-- A choice was built over this many alternatives. -/
  | builtChoice (alternatives : Nat)
  /-- A choice over nothing was refused. -/
  | rejectedEmptyChoice
  /-- An alternative of a choice failed with this message. -/
  | alternativeFailed (message : String)
  /-- The first of two alternatives failed with this message, and the second is tried. -/
  | fellBack (discarded : String)
  deriving DecidableEq, Repr

namespace Event

/-- The level at which an event is recorded. -/
def level : Event → Level
  | rejectedEmptyChoice => .debug
  | _ => .trace

/-- The combinator that records an event. -/
def component : Event → String
  | fellBack _ => "or_else"
  | _ => "choice"

/-- The fields of an event in recorded order. A failed alternative has two fields of one name: what
happened, and the failure. -/
def fields : Event → List (String × String)
  | builtChoice n => [("message", "built choice"), ("alternatives", toString n)]
  | rejectedEmptyChoice => [("message", "rejecting choice over an empty sequence")]
  | alternativeFailed e => [("message", "alternative failed"), ("message", e)]
  | fellBack e => [("message", "first alternative failed, trying second"), ("discarded", e)]

end Event

/-- One entry of a log: an event of the library or a note of the caller. -/
inductive Entry (κ : Type) where
  /-- The library recorded `event`. -/
  | event (event : Event)
  /-- The caller noted `note`. -/
  | note (note : κ)
  deriving DecidableEq, Repr

namespace Entry

variable {κ ν : Type}

/-- The event of an entry that is one. -/
def event? : Entry κ → Option Event
  | event e => some e
  | note _ => none

/-- The note of an entry that is one. -/
def note? : Entry κ → Option κ
  | event _ => none
  | note k => some k

/-- The entry with the image of its note. -/
def map (f : κ → ν) : Entry κ → Entry ν
  | event e => event e
  | note k => note (f k)

end Entry

/-- A value and the log of what happened until it was there. -/
structure Traced (κ : Type) (α : Type u) where
  /-- What happened, in order. -/
  log : List (Entry κ)
  /-- What came out. -/
  value : α
  deriving DecidableEq, Repr

namespace Traced

variable {κ : Type} {α β : Type u}

/-- Two traced computations with equal logs and equal values are equal. -/
@[ext] theorem ext {x y : Traced κ α} (hl : x.log = y.log) (hv : x.value = y.value) : x = y := by
  cases x; cases y; simp_all

/-- A value with nothing recorded. -/
protected def pure (a : α) : Traced κ α := ⟨[], a⟩

/-- Run one computation and then the one its value selects; the logs follow each other. -/
protected def bind (x : Traced κ α) (f : α → Traced κ β) : Traced κ β :=
  let y := f x.value
  ⟨x.log ++ y.log, y.value⟩

/-- Transform the value and leave the log. -/
protected def map (f : α → β) (x : Traced κ α) : Traced κ β := ⟨x.log, f x.value⟩

instance : Monad (Traced.{u} κ) where
  pure := Traced.pure
  bind := Traced.bind
  map := Traced.map

/-- Record an event of the library. -/
def record (e : Event) : Traced κ Unit := ⟨[.event e], ()⟩

/-- Make a note. -/
def note (k : κ) : Traced κ Unit := ⟨[.note k], ()⟩

/-- The events of the log, without the notes. -/
def events (x : Traced κ α) : List Event := x.log.filterMap Entry.event?

/-- The notes of the log, without the events. -/
def notes (x : Traced κ α) : List κ := x.log.filterMap Entry.note?

/-! ### Logs and values -/

@[simp] theorem log_pure (a : α) : (pure a : Traced κ α).log = [] := rfl

@[simp] theorem value_pure (a : α) : (pure a : Traced κ α).value = a := rfl

@[simp] theorem log_bind (x : Traced κ α) (f : α → Traced κ β) :
    (x >>= f).log = x.log ++ (f x.value).log := rfl

@[simp] theorem value_bind (x : Traced κ α) (f : α → Traced κ β) :
    (x >>= f).value = (f x.value).value := rfl

@[simp] theorem log_map (f : α → β) (x : Traced κ α) : (f <$> x).log = x.log := rfl

@[simp] theorem value_map (f : α → β) (x : Traced κ α) : (f <$> x).value = f x.value := rfl

@[simp] theorem log_record (e : Event) : (record e : Traced κ Unit).log = [.event e] := rfl

@[simp] theorem log_note (k : κ) : (note k).log = [.note k] := rfl

instance : LawfulMonad (Traced.{u} κ) :=
  LawfulMonad.mk' (Traced κ) (fun _ => rfl) (fun _ _ => ext (by simp) rfl)
    (fun _ _ _ => ext (by simp) rfl) (fun _ _ => rfl)
    (fun _ _ => ext (by simp [SeqLeft.seqLeft, Traced.bind, Traced.pure]) rfl)
    (fun _ _ => ext (by simp [SeqRight.seqRight, Traced.bind]) rfl)
    (fun _ _ => ext (by simp) rfl)

end Traced

end ApplicativeParsing

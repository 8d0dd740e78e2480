import ApplicativeParsing.Description.Basic

/-!
# Sessions

A session keeps parsers by name and an input that is read bit by bit, its cursor. It is driven by
steps. Each step answers and leaves a log; a step that cannot build a parser it needs answers with
the error and leaves the session as it was.

## Main definitions

* `Session`, `Step`, `Answer` and `Session.step`.

## Main statements

* `Session.step_eq_self_of_error`: a step that is refused changes nothing.
-/

namespace ApplicativeParsing

/-- Named parsers and the input being read. -/
structure Session where
  /-- Parsers by name, the latest definition first. -/
  definitions : List (String × Assembly)
  /-- What is left of the input. -/
  cursor : Cursor

/-- What a session can be asked to do. -/
inductive Step where
  /-- Build a parser and keep it under a name. -/
  | define (name : String) (p : Description)
  /-- Put the cursor at the start of an input. -/
  | load (input : Cursor)
  /-- Run a parser on an input, away from the cursor. -/
  | run (p : Description) (input : Cursor)
  /-- Run a parser at the cursor, and move the cursor behind what it read. -/
  | next (p : Description)
  /-- Run two parsers on an input and compare their outcomes. -/
  | same (p q : Description) (input : Cursor)
  /-- Look at the element at the cursor. -/
  | first
  /-- Look whether the cursor is at the end. -/
  | isEmpty
  /-- Move the cursor behind the next element. -/
  | rest
  /-- Show a parser, in one line or in many. -/
  | debug (p : Description) (pretty : Bool)
  /-- Count the alternatives of a parser that is a choice. -/
  | alternatives (p : Description)
  /-- Name the element that a parser for one element expects. -/
  | expected (p : Description)

/-- What a step answers. -/
inductive Answer where
  /-- A parser is kept under this name. -/
  | defined (name : String)
  /-- Where the cursor is now. -/
  | cursor (input : Cursor)
  /-- The outcome of a run. -/
  | outcome (o : Outcome (Value × Cursor))
  /-- The outcome of a run at the cursor, and where the cursor is now. -/
  | moved (o : Outcome (Value × Cursor)) (input : Cursor)
  /-- Whether two outcomes are equal. -/
  | same (equal : Bool)
  /-- The element at the cursor, if any. -/
  | first (e? : Option Element)
  /-- Whether the cursor is at the end. -/
  | isEmpty (empty : Bool)
  /-- A parser as text. -/
  | debug (text : String)
  /-- A number of alternatives, if the parser is a choice. -/
  | alternatives (n? : Option Nat)
  /-- An expected element, if the parser is for one element. -/
  | expected (e? : Option Element)

namespace Session

/-- A session at the start of an input, without any named parser. -/
def start (input : Cursor) : Session := ⟨[], input⟩

/-- The parser kept under a name. -/
def find? (s : Session) (name : String) : Option Assembly := s.definitions.lookup name

/-- Run an assembly while building goes on. -/
def runOn (a : Assembly) (input : Cursor) : Description.Building (Outcome (Value × Cursor)) :=
  ExceptT.lift (a.parser.run input)

/-- The answer to a step and the session after it, if all parsers can be built. -/
def tryStep (s : Session) : Step → Description.Building (Answer × Session)
  | .define name p => do
    let a ← p.build
    return (.defined name, { s with definitions := (name, a) :: s.definitions })
  | .load input => return (.cursor input, { s with cursor := input })
  | .run p input => do
    let a ← p.build
    return (.outcome (← runOn a input), s)
  | .next p => do
    let a ← p.build
    match ← runOn a s.cursor with
    | .success (v, r) => return (.moved (.success (v, r)) r, { s with cursor := r })
    | .failure e => return (.moved (.failure e) s.cursor, s)
  | .same p q input => do
    -- the second parser is built only after the run of the first
    let a ← p.build
    let o ← runOn a input
    let b ← q.build
    let o' ← runOn b input
    return (.same (o == o'), s)
  | .first => return (.first (Input.first s.cursor), s)
  | .isEmpty => return (.isEmpty (Input.isEmpty s.cursor), s)
  | .rest =>
    let r := Input.rest s.cursor
    return (.cursor r, { s with cursor := r })
  | .debug p pretty => do
    let a ← p.build
    return (.debug (if pretty then a.layout.pretty else a.layout.compact), s)
  | .alternatives p => return (.alternatives (← p.build).alternatives?, s)
  | .expected p => return (.expected (← p.build).expected?, s)

/-- The answer to a step and the session after it. An error leaves the session as it was. -/
def step (s : Session) (st : Step) : Traced Mark (Except BuildError Answer × Session) := do
  match ← (s.tryStep st).run with
  | .ok (answer, s') => return (.ok answer, s')
  | .error e => return (.error e, s)

/-- What is tried decides on the answer and on the session after a step. -/
theorem value_step (s : Session) (st : Step) :
    (s.step st).value =
      match (s.tryStep st).run.value with
      | .ok (answer, s') => (.ok answer, s')
      | .error e => (.error e, s) := by
  rw [step, Traced.value_bind]
  cases (s.tryStep st).run.value <;> rfl

/-- What happens in a step is logged whether the step is refused or not. -/
theorem log_step (s : Session) (st : Step) : (s.step st).log = (s.tryStep st).run.log := by
  rw [step, Traced.log_bind]
  cases (s.tryStep st).run.value <;> exact List.append_nil _

/-- A step answers with an error if what it tries is refused. -/
theorem value_step_fst_eq_error_iff {s : Session} {st : Step} {e : BuildError} :
    (s.step st).value.1 = .error e ↔ (s.tryStep st).run.value = .error e := by
  rw [value_step]
  cases (s.tryStep st).run.value <;> simp

/-- A step that is refused leaves the session as it was. -/
theorem step_eq_self_of_error {s : Session} {st : Step} {e : BuildError}
    (h : (s.step st).value.1 = .error e) : (s.step st).value.2 = s := by
  rw [value_step, value_step_fst_eq_error_iff.1 h]

end Session

end ApplicativeParsing

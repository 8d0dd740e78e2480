import ApplicativeParsing.Choice
import ApplicativeParsing.Parser.Alternation
import ApplicativeParsing.Parser.Sequencing
import ApplicativeParsing.Value.Call
import ApplicativeParsing.Value.Cursor

/-!
# Assemblies

An assembly is a built parser whose parts can still be seen. Every choice in it has an alternative,
by its type. An assembly says three things: how it parses (`Assembly.parser`), how it is shown
(`Assembly.layout`), and, for a choice or an element at its top, what it was built over.

## Main definitions

* `Mark`: what the parsers of a session note in the log.
* `Assembly`, with `Assembly.parser`, `Assembly.layout`, `Assembly.alternatives?` and
  `Assembly.expected?`.
-/

namespace ApplicativeParsing

open Text (Layout)

/-- A note of a parser in the log of a session. -/
inductive Mark where
  /-- The probe of this name is about to run its parser. -/
  | probed (id : String)
  /-- The mapping function with this tag is called. -/
  | mapped (tag : String)
  deriving DecidableEq, Repr

/-- A mapping function: a function value, and a tag if its calls are to be noted. -/
structure Mapper where
  /-- The function. -/
  function : Value
  /-- What its calls are noted as. -/
  tag? : Option String
  deriving Repr

namespace Mapper

/-- Note a call of the function. -/
def mark (m : Mapper) : Traced Mark Unit :=
  match m.tag? with
  | some tag => Traced.note (.mapped tag)
  | none => pure ()

/-- Call the function on one argument. -/
def call (m : Mapper) (x : Value) : Traced Mark Value := do
  m.mark
  return m.function.call x

/-- Call the function on two arguments. -/
def call₂ (m : Mapper) (x y : Value) : Traced Mark Value := do
  m.mark
  return (m.function.call x).call y

end Mapper

/-- A built parser, made of elements `σ`, mapping functions `μ` and values `ν`. Those of a session
are meant where nothing else is said. -/
inductive Assembly (σ : Type := Element) (μ : Type := Mapper) (ν : Type := Value) where
  /-- Read one element. -/
  | element (expected : σ)
  /-- Read one of some elements. -/
  | anyOf (first : σ) (others : List σ)
  /-- The first of some parsers that succeeds. -/
  | choice (first : Assembly σ μ ν) (others : List (Assembly σ μ ν))
  /-- Two parsers, one after the other. -/
  | andThen (p q : Assembly σ μ ν)
  /-- The second parser where the first one fails. -/
  | orElse (p q : Assembly σ μ ν)
  /-- A parser whose values are mapped. -/
  | select (p : Assembly σ μ ν) (mapper : μ)
  /-- A value without reading. -/
  | ret (v : ν)
  /-- A parser whose parts are hidden. -/
  | boxed (p : Assembly σ μ ν)
  /-- A parser of functions, then a parser of arguments. -/
  | apply (arg fn : Assembly σ μ ν)
  /-- Two parsers whose values are mapped together. -/
  | lift₂ (mapper : μ) (x y : Assembly σ μ ν)
  /-- A failure without reading. -/
  | fail (message : String)
  /-- Read a number of elements. -/
  | take (n : Nat)
  /-- A parser that gives back what it read. -/
  | peek (p : Assembly σ μ ν)
  /-- A parser whose runs are noted. -/
  | probe (id : String) (p : Assembly σ μ ν)

namespace Assembly

variable {σ μ ν : Type}

/-- What an assembly does on an input. -/
abbrev Runner := Parser Mark Cursor Value

/-- The parser for one element, as a value. -/
def readElement (e : Element) : Runner := (Parser.element e).map Value.element

mutual

/-- The parser that an assembly is. Parsers with parts are deferred, since one part may stand in
very many places. -/
def parser : Assembly → Runner
  | element e => readElement e
  | anyOf e es => .firstOfMap readElement (e :: es)
  | choice p ps => .deferred fun _ => (Choice.mk p.parser (parsers ps)).parser
  | andThen p q => .deferred fun _ => (p.parser.andThen q.parser).map fun (x, y) => .pair x y
  | orElse p q => .deferred fun _ => p.parser.orElse q.parser
  | select p m => .deferred fun _ => p.parser.select m.call
  | ret v => .ret v
  | boxed p => .deferred fun _ => p.parser
  | apply arg fn =>
    .deferred fun _ => .apply arg.parser (fn.parser.map fun f x => pure (f.call x))
  | lift₂ m x y => .deferred fun _ => .lift₂ m.call₂ x.parser y.parser
  | fail e => .fail e
  | take n => (Parser.take n).map fun es => .list (es.map .element)
  | peek p => .deferred fun _ => p.parser.peek
  | probe id p => .deferred fun _ => p.parser.probe fun _ => .probed id

/-- The parsers that assemblies are. -/
def parsers : List Assembly → List Runner
  | [] => []
  | p :: ps => p.parser :: parsers ps

end

/-- The word that stands for a parser whose parts are hidden. -/
def hidden : Layout := .word "BoxedParser(<parser>)"

/-- An assembly as a structured text. The alternatives of a choice are hidden, and a probe does not
show. -/
def layout : Assembly → Layout
  | element e => .record "CharParser" [("expected", e.layout)]
  | anyOf _ es => .record "Choice" [("parsers", .list (hidden :: es.map fun _ => hidden))]
  | choice _ ps => .record "Choice" [("parsers", .list (hidden :: ps.map fun _ => hidden))]
  | andThen p q => .record "AndThen" [("parser1", p.layout), ("parser2", q.layout)]
  | orElse p q => .record "OrElse" [("parser1", p.layout), ("parser2", q.layout)]
  | select p _ => .record "Select" [("parser", p.layout), ("mapper", .word "\"<function>\"")]
  | ret v => .record "Return" [("value", v.layout)]
  | boxed _ => hidden
  | apply arg fn =>
    -- shown as it runs: the function first
    .record "Apply" [("sequenced",
      .record "AndThen" [("parser1", fn.layout), ("parser2", arg.layout)])]
  | lift₂ _ _ _ => .word "<lift2>"
  | fail e => .tuple "Fail" [ApplicativeParsing.layout e]
  | take n => .tuple "Take" [.word (toString n)]
  | peek p => .tuple "Peek" [p.layout]
  | probe _ p => p.layout

instance : ToLayout Assembly := ⟨layout⟩

/-- The number of alternatives of a choice. -/
def alternatives? : Assembly σ μ ν → Option Nat
  | anyOf _ es => some (es.length + 1)
  | choice _ ps => some (ps.length + 1)
  | _ => none

/-- The element that a parser for one element expects. -/
def expected? : Assembly σ μ ν → Option σ
  | element e => some e
  | _ => none

end Assembly

end ApplicativeParsing

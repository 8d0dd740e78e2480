import ApplicativeParsing.Description.Assembly

/-!
# Descriptions of parsers

A description says which parser is wanted, and building it gives an `Assembly`, or the one error
that there is: a choice without alternatives. Parts are built before the whole, in the order in
which they are listed (for `apply` the argument, then the function), and the first refusal ends the
building. What happens meanwhile is in the log.

## Main definitions

* `Description`, and `Description.sequence`, `Description.alternation` for more than two parts.
* `Description.build`.
-/

namespace ApplicativeParsing

/-- Which parser is wanted. -/
inductive Description (σ : Type := Element) (μ : Type := Mapper) (ν : Type := Value) where
  /-- One that is there already. -/
  | built (assembly : Assembly σ μ ν)
  /-- Read one element. -/
  | element (expected : σ)
  /-- Read one of some elements. -/
  | anyOf (candidates : List σ)
  /-- The first of some parsers that succeeds. -/
  | choice (ps : List (Description σ μ ν))
  /-- Two parsers, one after the other. -/
  | andThen (p q : Description σ μ ν)
  /-- The second parser where the first one fails. -/
  | orElse (p q : Description σ μ ν)
  /-- A parser whose values are mapped. -/
  | select (p : Description σ μ ν) (mapper : μ)
  /-- A value without reading. -/
  | ret (v : ν)
  /-- A parser whose parts are hidden. -/
  | boxed (p : Description σ μ ν)
  /-- A parser of functions, run before the parser of arguments. -/
  | apply (arg fn : Description σ μ ν)
  /-- Two parsers whose values are mapped together. -/
  | lift₂ (mapper : μ) (x y : Description σ μ ν)
  /-- A failure without reading. -/
  | fail (message : String)
  /-- Read a number of elements. -/
  | take (n : Nat)
  /-- A parser that gives back what it read. -/
  | peek (p : Description σ μ ν)
  /-- A parser whose runs are noted. -/
  | probe (id : String) (p : Description σ μ ν)

namespace Description

variable {σ μ ν : Type}

/-- On which side a row of more than two parts is nested. -/
inductive Nesting where
  /-- The first two parts are innermost. -/
  | left
  /-- The last two parts are innermost. -/
  | right
  deriving DecidableEq, Repr

/-- Join a row of parts pairwise. One part is left as it is. -/
def nest (join : Description σ μ ν → Description σ μ ν → Description σ μ ν) :
    Nesting → Description σ μ ν → List (Description σ μ ν) → Description σ μ ν
  | .left, p, ps => ps.foldl join p
  | .right, p, [] => p
  | .right, p, q :: ps => join p (nest join .right q ps)

/-- Parsers one after the other. -/
def sequence (side : Nesting) (p : Description σ μ ν) (ps : List (Description σ μ ν)) :
    Description σ μ ν :=
  nest andThen side p ps

/-- Parsers of which each one stands in for the failure of those before it. -/
def alternation (side : Nesting) (p : Description σ μ ν) (ps : List (Description σ μ ν)) :
    Description σ μ ν :=
  nest orElse side p ps

/-- Building: a build error ends it, and the log goes on. -/
abbrev Building := ExceptT BuildError (Traced Mark)

mutual

/-- Build what is described. -/
def build : Description σ μ ν → Building (Assembly σ μ ν)
  | built a => return a
  | element e => return .element e
  | anyOf es => do
    let c ← ExceptT.mk (Choice.ofList es)
    return .anyOf c.first c.others
  | choice ps => do
    let ps ← buildAll ps
    let c ← ExceptT.mk (Choice.ofList ps)
    return .choice c.first c.others
  | andThen p q => return .andThen (← p.build) (← q.build)
  | orElse p q => return .orElse (← p.build) (← q.build)
  | select p m => return .select (← p.build) m
  | ret v => return .ret v
  | boxed p => return .boxed (← p.build)
  | apply arg fn => return .apply (← arg.build) (← fn.build)
  | lift₂ m x y => return .lift₂ m (← x.build) (← y.build)
  | fail e => return .fail e
  | take n => return .take n
  | peek p => return .peek (← p.build)
  | probe id p => return .probe id (← p.build)

/-- Build parts in order. -/
def buildAll : List (Description σ μ ν) → Building (List (Assembly σ μ ν))
  | [] => return []
  | p :: ps => return (← p.build) :: (← buildAll ps)

end

/-- Build a parser once and run it on each of some inputs. -/
def parseAll (d : Description) (inputs : List Cursor) :
    Building (List (Traced Mark (Outcome (Value × Cursor)))) := do
  let a ← d.build
  return inputs.map a.parser.run

end Description

end ApplicativeParsing

import ApplicativeParsing.Grammar.Basic
import ApplicativeParsing.Parser.Relation

/-!
# Observed runs

Which parts of a grammar are called in a run, and in which order, cannot be seen in its outcome. The
observed parser of a grammar is the same parser except that it notes every call of a primitive (an
element or a value without reading) and every call of a mapping function. A part is named by its
path from the root, so that equal parts at different places are told apart.

## Main definitions

* `Site`: a part of a grammar that can be called; `Call`: a site together with the input.
* `Grammar.observed`: the parser that notes its calls.
* `Grammar.order`: all sites of a grammar in the order in which a run may come to them.

## Main statements

* `Grammar.outcome_observed`, `Grammar.events_observed`: observation changes neither the outcome nor
  the events of the library.
-/

namespace ApplicativeParsing

/-- A path to a part of a grammar: which child to take, the last step first. -/
abbrev Path := List Nat

/-- A part of a grammar that can be called. -/
inductive Site (σ : Type) where
  /-- The parser for one element. -/
  | element (path : Path) (expected : σ)
  /-- The parser that yields a value without reading. -/
  | ret (path : Path)
  /-- The function of a mapping combinator. -/
  | mapping (path : Path)
  deriving DecidableEq

/-- A call of a part of a grammar in a run. -/
inductive Call (ι σ : Type) where
  /-- The parser for one element ran on `input`. -/
  | element (path : Path) (expected : σ) (input : ι)
  /-- The parser that yields a value without reading ran on `input`. -/
  | ret (path : Path) (input : ι)
  /-- The function of a mapping combinator was called. -/
  | mapping (path : Path)
  deriving DecidableEq

namespace Call

variable {ι ι' σ : Type}

/-- What was called. -/
def site : Call ι σ → Site σ
  | element path e _ => .element path e
  | ret path _ => .ret path
  | mapping path => .mapping path

/-- Whether a primitive was called, and not a function. -/
def isPrimitive : Call ι σ → Bool
  | mapping _ => false
  | _ => true

/-- The failure of the call, if it failed. -/
def failure? [Input ι σ] [BEq σ] [ToString σ] : Call ι σ → Option ParseFailure
  | element _ e s => Parser.element.failure? e s
  | _ => none

/-- The call with another input. -/
def mapInput (f : ι → ι') : Call ι σ → Call ι' σ
  | element path e s => element path e (f s)
  | ret path s => ret path (f s)
  | mapping path => mapping path

end Call

namespace Grammar

variable {ι σ : Type}

/-- The sites of a grammar at `path`, in the order in which a run may come to them. A function is
called after its operands, and the functions of `apply` are read before their arguments. -/
def order (path : Path) : {α : Type} → Grammar σ α → List (Site σ)
  | _, element e => [.element path e]
  | _, ret _ => [.ret path]
  | _, andThen p q => p.order (0 :: path) ++ q.order (1 :: path)
  | _, orElse p q => p.order (0 :: path) ++ q.order (1 :: path)
  | _, choice ps => (List.ofFn fun i => (ps i).order (i.val :: path)).flatten
  | _, select p _ => p.order (0 :: path) ++ [.mapping path]
  | _, apply arg fn => fn.order (0 :: path) ++ arg.order (1 :: path) ++ [.mapping path]
  | _, lift₂ _ x y => x.order (0 :: path) ++ y.order (1 :: path) ++ [.mapping path]
  | _, boxed p => p.order (0 :: path)

/-- The parser of a grammar at `path`, which notes its calls. -/
def observed [Input ι σ] [BEq σ] [ToString σ] (path : Path) :
    {α : Type} → Grammar σ α → Parser (Call ι σ) ι α
  | _, element e => (Parser.element e).probe (.element path e)
  | _, ret a => (Parser.ret a).probe (.ret path)
  | _, andThen p q => (p.observed (0 :: path)).andThen (q.observed (1 :: path))
  | _, orElse p q => (p.observed (0 :: path)).orElse (q.observed (1 :: path))
  | _, choice ps => (Choice.ofFn fun i => (ps i).observed (i.val :: path)).parser
  | _, select p f => (p.observed (0 :: path)).select fun a => do
      Traced.note (.mapping path)
      return f a
  | _, apply arg fn => .apply (arg.observed (1 :: path)) <|
      (fn.observed (0 :: path)).map fun f a => do
        Traced.note (.mapping path)
        return f a
  | _, lift₂ f x y => .lift₂ (fun a b => do
      Traced.note (.mapping path)
      return f a b) (x.observed (0 :: path)) (y.observed (1 :: path))
  | _, boxed p => p.observed (0 :: path)

/-- The calls in a run of a grammar, in order. -/
def calls [Input ι σ] [BEq σ] [ToString σ] {α : Type} (p : Grammar σ α) (s : ι) :
    List (Call ι σ) := ((p.observed []).run s).notes

/-! ### Observation changes nothing -/

/-- Parts whose values are equal pair to equal values. -/
private theorem pair_eq {α β : Type} ⦃x x' : α × β⦄ (h : x.1 = x'.1 ∧ x.2 = x'.2) : x = x' :=
  Prod.ext h.1 h.2

/-- A mapping function that notes its call does otherwise what it does without. -/
private theorem noted_related {κ α β : Type} (k : Call ι σ) (f : α → β) :
    Parser.RelatedMapping (.events : LogRelation (Call ι σ) κ) Eq Eq
      (fun a => do Traced.note k; return f a) fun a => pure (f a) :=
  fun _ _ h => ⟨rfl, congrArg f h⟩

/-- The observed parser and the plain one have the same outcomes and the same events. -/
theorem observed_related [Input ι σ] [BEq σ] [ToString σ] {κ α : Type} (path : Path)
    (p : Grammar σ α) :
    Parser.Related LogRelation.events Eq Eq (p.observed path : Parser _ ι α)
      (p.parser : Parser κ ι α) := by
  induction p generalizing path with
  | element e =>
    have h : Parser.Related LogRelation.events Eq Eq (.element e : Parser (Call ι σ) ι σ)
        (.element e : Parser κ ι σ) := .element Input.Simulation.eq e
    exact fun _ _ hs => ⟨rfl, (h hs).2⟩
  | ret a => exact fun _ _ hs => ⟨rfl, .success ⟨rfl, hs⟩⟩
  | andThen p q ihp ihq => exact ((ihp _).andThen (ihq _)).mono pair_eq
  | orElse p q ihp ihq => exact (ihp _).orElse (ihq _)
  | choice ps ih => exact Parser.Related.choice fun i => ih i _
  | select p f ih => exact (ih _).select (noted_related _ f)
  | apply arg fn iha ihf =>
    -- equal functions become mappings of which one notes its call
    refine (iha _).apply ((ihf _).map ?_)
    rintro f _ rfl
    exact noted_related _ f
  | lift₂ f x y ihx ihy =>
    refine Parser.Related.lift₂ ?_ (ihx _) (ihy _)
    rintro a _ rfl
    exact noted_related _ (f a)
  | boxed p ih => exact ih _

/-- Observation does not change outcomes. -/
theorem outcome_observed [Input ι σ] [BEq σ] [ToString σ] {κ α : Type} (path : Path)
    (p : Grammar σ α) (s : ι) :
    (p.observed path).outcome s = (p.parser : Parser κ ι α).outcome s :=
  (observed_related path p rfl).2.eq

/-- Observation does not change the events of the library. -/
theorem events_observed [Input ι σ] [BEq σ] [ToString σ] {κ α : Type} (path : Path)
    (p : Grammar σ α) (s : ι) :
    ((p.observed path).run s).events = ((p.parser : Parser κ ι α).run s).events :=
  (observed_related path p rfl).1

end Grammar

end ApplicativeParsing

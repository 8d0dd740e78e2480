import Mathlib.Data.List.Forall2
import Mathlib.Data.Option.NAry
import ApplicativeParsing.Description.Assembly
import ApplicativeParsing.Parser.Relation
import ApplicativeParsing.Proofs.History
import ApplicativeParsing.Proofs.Language
import ApplicativeParsing.Proofs.Mapping

/-!
# What assemblies stand for

The parsers of a session are assemblies, which have values of one type, and not grammars. An
assembly of combinators stands for a grammar all the same. It runs as the parser of that grammar,
and the library records the same events, so that what is known of grammars is known of what a
session builds. An assembly may note more, where it has probes or tagged functions.

A parser that always fails, one that reads whatever there is, and one that gives back what it read
are no combinations of elements, and an assembly with one of them in it stands for no grammar.

## Main definitions

* `Assembly.grammar?`: the grammar that an assembly stands for.

## Main statements

* `Assembly.parser_related`: an assembly runs as the grammar that it stands for.
* `Assembly.outcome_parser_eq`, `Assembly.events_parser_eq`: it ends alike, with the same events.
-/

namespace ApplicativeParsing

/-- Alternatives that are related one by one are related as a list. -/
theorem Parser.Related.firstOf_of_forall₂ {κ κ' ι ι' α α' : Type} {L : LogRelation κ κ'}
    {R : ι → ι' → Prop} {S : α → α' → Prop} {ps : List (Parser κ ι α)}
    {ps' : List (Parser κ' ι' α')} (h : List.Forall₂ (Related L R S) ps ps') :
    Related L R S (.firstOf ps) (.firstOf ps') := by
  have hall := firstOf (ps.zip ps') fun _ hx => List.forall₂_zip h hx
  rwa [List.map_fst_zip h.length_eq.le, List.map_snd_zip h.length_eq.ge] at hall

namespace Assembly

/-- The grammar of one element as a value. -/
def readGrammar (e : Element) : Grammar Element Value := .select (.element e) Value.element

mutual

/-- The grammar that an assembly stands for, if it is made of combinators. -/
def grammar? : Assembly → Option (Grammar Element Value)
  | element e => some (readGrammar e)
  | anyOf e es => some (.choiceOf (readGrammar e) (es.map readGrammar))
  | choice p ps => Option.map₂ .choiceOf p.grammar? (grammars? ps)
  | andThen p q =>
    Option.map₂ (fun g h => .select (.andThen g h) fun x => .pair x.1 x.2) p.grammar? q.grammar?
  | orElse p q => Option.map₂ .orElse p.grammar? q.grammar?
  | select p m => p.grammar?.map fun g => .select g m.function.call
  | ret v => some (.ret v)
  | boxed p => p.grammar?.map .boxed
  | apply arg fn =>
    Option.map₂ (fun g h => .apply g (.select h Value.call)) arg.grammar? fn.grammar?
  | lift₂ m x y =>
    Option.map₂ (.lift₂ fun v w => (m.function.call v).call w) x.grammar? y.grammar?
  | probe _ p => p.grammar?
  | fail _ | take _ | peek _ => none

/-- The grammars that assemblies stand for. -/
def grammars? : List Assembly → Option (List (Grammar Element Value))
  | [] => some []
  | p :: ps => Option.map₂ List.cons p.grammar? (grammars? ps)

end

/-- To be noted or tagged does not matter, and to give back what was read does. -/
example :
    let p : Assembly :=
      .probe "pair" (.andThen (.anyOf (.char 'a') [.char 'b']) (.element (.char 'c')))
    let first : Mapper := ⟨.function .fst [], some "first"⟩
    (select p first).grammar?.isSome = true ∧ (peek p).grammar?.isSome = false := ⟨rfl, rfl⟩

variable {κ : Type}

/-! ### Assemblies run as grammars -/

/-- A parser for one element runs as its grammar. -/
theorem readElement_related (e : Element) :
    Parser.Related LogRelation.events Eq Eq (readElement e)
      ((readGrammar e).parser : Parser κ Cursor Value) :=
  (Parser.Related.element Input.Simulation.eq e).map fun _ _ h => congrArg Value.element h

/-- A note of a call is no event. -/
theorem events_mark (m : Mapper) (v : Value) :
    (do m.mark; return v : Traced Mark Value).events = [] := by
  rw [Traced.events, Traced.log_bind, Traced.log_pure, List.append_nil, Mapper.mark]
  split <;> rfl

theorem call_related (m : Mapper) :
    Parser.RelatedMapping (LogRelation.events : LogRelation Mark κ) Eq Eq m.call
      fun v => pure (m.function.call v) := by
  rintro v _ rfl
  exact ⟨events_mark m _, rfl⟩

theorem call₂_related (m : Mapper) (v : Value) :
    Parser.RelatedMapping (LogRelation.events : LogRelation Mark κ) Eq Eq (m.call₂ v)
      fun w => pure ((m.function.call v).call w) := by
  rintro w _ rfl
  exact ⟨events_mark m _, rfl⟩

mutual

/-- An assembly runs as the grammar that it stands for. -/
theorem parser_related (a : Assembly) {g : Grammar Element Value} (h : a.grammar? = some g) :
    Parser.Related LogRelation.events Eq Eq a.parser (g.parser : Parser κ Cursor Value) := by
  -- in each case the parts stand for grammars too, since otherwise the whole would stand for none
  match a with
  | element e =>
    cases h
    exact readElement_related e
  | anyOf e es =>
    cases h
    rw [parser, Parser.firstOfMap_eq, Grammar.parser_choiceOf]
    -- parsers and grammars are made of the same candidates
    refine .firstOf_of_forall₂ ?_
    rw [← List.map_cons, List.map_map, List.forall₂_map_left_iff, List.forall₂_map_right_iff]
    exact List.forall₂_same.2 fun e _ => readElement_related e
  | choice p ps =>
    rw [grammar?] at h
    obtain ⟨g, gs, hp, hps, rfl⟩ := Option.map₂_eq_some_iff.1 h
    rw [parser, Parser.deferred_eq, Grammar.parser_choiceOf, Choice.parser, Choice.alternatives]
    exact .firstOf_of_forall₂ (.cons (parser_related p hp) (parsers_related ps hps))
  | andThen p q =>
    rw [grammar?] at h
    obtain ⟨g, g', hp, hq, rfl⟩ := Option.map₂_eq_some_iff.1 h
    rw [parser, Parser.deferred_eq, Grammar.parser, Grammar.parser]
    refine ((parser_related p hp).andThen (parser_related q hq)).map ?_
    rintro ⟨v, w⟩ ⟨v', w'⟩ ⟨hv, hw⟩
    exact congrArg₂ Value.pair hv hw
  | orElse p q =>
    rw [grammar?] at h
    obtain ⟨g, g', hp, hq, rfl⟩ := Option.map₂_eq_some_iff.1 h
    rw [parser, Parser.deferred_eq, Grammar.parser]
    exact (parser_related p hp).orElse (parser_related q hq)
  | select p m =>
    rw [grammar?] at h
    obtain ⟨g, hp, rfl⟩ := Option.map_eq_some_iff.1 h
    rw [parser, Parser.deferred_eq, Grammar.parser]
    exact (parser_related p hp).select (call_related m)
  | ret v =>
    cases h
    exact .ret rfl
  | boxed p =>
    rw [grammar?] at h
    obtain ⟨g, hp, rfl⟩ := Option.map_eq_some_iff.1 h
    rw [parser, Parser.deferred_eq, Grammar.parser]
    exact parser_related p hp
  | apply arg fn =>
    rw [grammar?] at h
    obtain ⟨g, g', harg, hfn, rfl⟩ := Option.map₂_eq_some_iff.1 h
    rw [parser, Parser.deferred_eq, Grammar.parser, Grammar.parser]
    -- what the assembly has as a value the grammar has as the function that calls it
    have hcall : Parser.Related LogRelation.events Eq (fun f f' => f.call = f') fn.parser
        (g'.parser.map Value.call : Parser κ Cursor (Value → Value)) := by
      rw [← Parser.map_id fn.parser]
      exact (parser_related fn hfn).map fun _ _ h => congrArg Value.call h
    refine (parser_related arg harg).apply (hcall.map ?_)
    rintro f _ rfl v _ rfl
    exact ⟨rfl, rfl⟩
  | lift₂ m x y =>
    rw [grammar?] at h
    obtain ⟨g, g', hx, hy, rfl⟩ := Option.map₂_eq_some_iff.1 h
    rw [parser, Parser.deferred_eq, Grammar.parser]
    refine .lift₂ ?_ (parser_related x hx) (parser_related y hy)
    rintro v _ rfl
    exact call₂_related m v
  | probe id p =>
    rw [grammar?] at h
    rw [parser, Parser.deferred_eq]
    exact fun _ _ hs => parser_related p h hs
  | fail _ | take _ | peek _ => nomatch h

/-- Assemblies run one by one as the grammars that they stand for. -/
theorem parsers_related (as : List Assembly) {gs : List (Grammar Element Value)}
    (h : grammars? as = some gs) :
    List.Forall₂ (Parser.Related LogRelation.events Eq Eq) (parsers as)
      (gs.map fun g => (g.parser : Parser κ Cursor Value)) := by
  match as with
  | [] =>
    cases h
    exact .nil
  | a :: as =>
    rw [grammars?] at h
    obtain ⟨g, gs, ha, has, rfl⟩ := Option.map₂_eq_some_iff.1 h
    exact .cons (parser_related a ha) (parsers_related as has)

end

/-- An assembly ends as its grammar does. -/
theorem outcome_parser_eq {a : Assembly} {g : Grammar Element Value} (h : a.grammar? = some g)
    (s : Cursor) : a.parser.outcome s = g.outcome s := (parser_related a h rfl).2.eq

/-- The library records the same events for both. -/
theorem events_parser_eq {a : Assembly} {g : Grammar Element Value} (h : a.grammar? = some g)
    (s : Cursor) :
    (a.parser.run s).events = ((g.parser : Parser κ Cursor Value).run s).events :=
  (parser_related a h rfl).1

end Assembly

end ApplicativeParsing

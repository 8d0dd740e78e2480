import ApplicativeParsing.Proofs.Flattening
import ApplicativeParsing.Proofs.Recovery

/-!
# What alternatives report

A choice and a nesting of fallbacks over the same alternatives end alike, but they do not report
alike. Both let the alternatives run in order up to the one that decides, and both report the failed
ones between the runs. They use different events, and only the choice reports the failure of the
last alternative. How fallbacks are nested cannot be seen at all: falling back is associative as an
equation between parsers, although the inner fallback of a nesting to the left fails with the
message of its last alternative, and the inner one of a nesting to the right has no message to give.

The alternatives are arbitrary, so their logs may hold the same events as those of the combinator
around them. To tell the two apart the alternatives are quoted: all that they record becomes notes,
and what is left as an event was recorded by the combinator itself.

## Main definitions

* `Parser.Decides`: which alternative decides between several.
* `Parser.reported`: the log of a parser and then the report of its failure.
* `Parser.quoted`, `Entry.unquote`: logs in which the entries of the alternatives are notes.

## Main statements

* `Parser.Decides.log_firstOf`: the log of a list of alternatives.
* `Alternation.parser_eq_rightFold`: all nestings of fallbacks are the same parser.
* `Alternation.logs_of_nestings`: the log of a choice and the log of all nestings of fallbacks.
-/

namespace ApplicativeParsing

variable {κ ι α : Type}

/-- The event of a fallback in the place of the event of a choice. -/
def Event.toFallback : Event → Event
  | alternativeFailed e => fellBack e
  | e => e

/-- The entry that was quoted, or the event that was not, with a change to the latter. -/
def Entry.unquote (f : Event → Event) : Entry (Entry κ) → Entry κ
  | event e => event (f e)
  | note x => x

namespace Parser

/-- On `s` the alternative `p` decides between those in `front`, itself and those in `back`: all in
front of it fail, and it succeeds or is the last one. -/
structure Decides (s : ι) (front : List (Parser κ ι α)) (p : Parser κ ι α)
    (back : List (Parser κ ι α)) : Prop where
  /-- What comes before it fails. -/
  front_fails : ∀ q ∈ front, ∃ e, q.outcome s = .failure e
  /-- It succeeds, unless nothing is left to try. -/
  succeeds_or_last : (∃ r, p.outcome s = .success r) ∨ back = []

/-- Some alternative decides. -/
theorem exists_decides (s : ι) {ps : List (Parser κ ι α)} (hps : ps ≠ []) :
    ∃ front p back, ps = front ++ p :: back ∧ Decides s front p back := by
  induction ps with
  | nil => exact absurd rfl hps
  | cons p ps ih =>
    cases hp : p.outcome s with
    | success r => exact ⟨[], p, ps, rfl, by simp, .inl ⟨r, hp⟩⟩
    | failure e =>
      by_cases hnil : ps = []
      · exact ⟨[], p, ps, rfl, by simp, .inr hnil⟩
      -- the alternative that decides between the others decides between all
      · obtain ⟨front, q, back, rfl, hfront, hq⟩ := ih hnil
        refine ⟨p :: front, q, back, rfl, ?_, hq⟩
        simpa [hp] using hfront

/-- Of a failing alternative and others, one of the others decides. -/
theorem Decides.of_cons {s : ι} {p q : Parser κ ι α} {front back : List (Parser κ ι α)}
    (h : Decides s (p :: front) q back) : Decides s front q back :=
  ⟨fun x hx => h.front_fails x (List.mem_cons_of_mem p hx), h.succeeds_or_last⟩

/-- A list of alternatives ends as the one that decides. -/
theorem Decides.outcome_firstOf {s : ι} {p : Parser κ ι α} {front back : List (Parser κ ι α)}
    (h : Decides s front p back) : (firstOf (front ++ p :: back)).outcome s = p.outcome s := by
  induction front with
  | nil =>
    rw [List.nil_append]
    rcases h.succeeds_or_last with ⟨r, hp⟩ | rfl
    · obtain ⟨q, hq⟩ := exists_firstOf_cons_eq_recover p back
      rw [hq, outcome_recover, hp]
    · exact outcome_firstOf_singleton p s
  | cons q front ih =>
    obtain ⟨e, he⟩ := h.front_fails q List.mem_cons_self
    rw [List.cons_append, firstOf_cons_eq_recover q (by simp), outcome_recover, he]
    exact ih h.of_cons

/-! ### Reports -/

/-- The log of `p` on `s` and then, if `p` fails, the report of its failure. -/
def reported (p : Parser κ ι α) (report : String → Event) (s : ι) : List (Entry κ) :=
  p.log s ++ (p.outcome s).message?.toList.map fun e => .event (report e)

/-- A success is not reported. -/
theorem reported_of_success {p : Parser κ ι α} {s : ι} {r : α × ι}
    (h : p.outcome s = .success r) (report : String → Event) : p.reported report s = p.log s := by
  simp [reported, h]

/-- A failure is reported with its message. -/
theorem reported_of_failure {p : Parser κ ι α} {s : ι} {e : String}
    (h : p.outcome s = .failure e) (report : String → Event) :
    p.reported report s = p.log s ++ [.event (report e)] := by
  simp [reported, h]

/-- Whatever is done about a failure comes behind the report of it. -/
theorem log_recover_eq_reported (event : String → Event) (p : Parser κ ι α)
    (q : String → Parser κ ι α) (s : ι) :
    (p.recover event q).log s =
      p.reported event s ++
        match p.outcome s with
        | .success _ => []
        | .failure e => (q e).log s := by
  rw [log_recover]
  cases h : p.outcome s with
  | success r => rw [reported_of_success h]
  | failure e => simp [reported_of_failure h]

/-- A list of alternatives reports every one that fails, up to the one that decides and with it. -/
theorem Decides.log_firstOf {s : ι} {p : Parser κ ι α} {front back : List (Parser κ ι α)}
    (h : Decides s front p back) :
    (firstOf (front ++ p :: back)).log s =
      (front.flatMap fun q => q.reported .alternativeFailed s) ++
        p.reported .alternativeFailed s := by
  induction front with
  | nil =>
    rw [List.nil_append, List.flatMap_nil, List.nil_append]
    rcases h.succeeds_or_last with ⟨r, hp⟩ | rfl
    · obtain ⟨q, hq⟩ := exists_firstOf_cons_eq_recover p back
      rw [hq, log_recover_eq_reported, hp, List.append_nil]
    · rw [firstOf_singleton_eq_recover, log_recover_eq_reported]
      rcases p.outcome s with r | e <;> simp
  | cons q front ih =>
    obtain ⟨e, he⟩ := h.front_fails q List.mem_cons_self
    rw [List.cons_append, firstOf_cons_eq_recover q (by simp), log_recover_eq_reported, he,
      List.flatMap_cons, List.append_assoc]
    exact congrArg _ (ih h.of_cons)

/-- Without the report of the last failure, the decisive alternative only adds its own log. -/
theorem Decides.log_firstOf_without_last {s : ι} {p : Parser κ ι α}
    {front back : List (Parser κ ι α)} (h : Decides s front p back) :
    (if ((firstOf (front ++ p :: back)).outcome s).isSuccess then
        (firstOf (front ++ p :: back)).log s
      else ((firstOf (front ++ p :: back)).log s).dropLast) =
      (front.flatMap fun q => q.reported .alternativeFailed s) ++ p.log s := by
  rw [h.outcome_firstOf, h.log_firstOf]
  cases hp : p.outcome s with
  | success r =>
    rw [reported_of_success hp]
    rfl
  | failure e =>
    rw [reported_of_failure hp, ← List.append_assoc]
    exact List.dropLast_concat

/-! ### Quotation -/

/-- The parser in the log of which all entries are notes. -/
def quoted (p : Parser κ ι α) : Parser (Entry κ) ι α where
  run s := ⟨(p.log s).map .note, p.outcome s⟩

theorem outcome_quoted (p : Parser κ ι α) (s : ι) : p.quoted.outcome s = p.outcome s := rfl

theorem log_quoted (p : Parser κ ι α) (s : ι) : p.quoted.log s = (p.log s).map .note := rfl

/-- Unquoting gives the log back. -/
theorem map_unquote_log_quoted (p : Parser κ ι α) (f : Event → Event) (s : ι) :
    (p.quoted.log s).map (.unquote f) = p.log s := by
  rw [log_quoted, List.map_map]
  exact List.map_id _

/-- Of a quoted parser with a report behind it only the report changes. -/
theorem map_unquote_reported_quoted (p : Parser κ ι α) (report : String → Event)
    (f : Event → Event) (s : ι) :
    (p.quoted.reported report s).map (.unquote f) = p.reported (fun e => f (report e)) s := by
  rw [reported, List.map_append, map_unquote_log_quoted, List.map_map]
  rfl

theorem map_unquote_flatMap_reported (ps : List (Parser κ ι α)) (report : String → Event)
    (f : Event → Event) (s : ι) :
    ((ps.map quoted).flatMap fun q => q.reported report s).map (.unquote f) =
      ps.flatMap fun q => q.reported (fun e => f (report e)) s := by
  rw [List.map_flatMap, List.flatMap_map]
  simp only [map_unquote_reported_quoted]

/-- Quoting does not change which alternative decides. -/
theorem Decides.quoted {s : ι} {p : Parser κ ι α} {front back : List (Parser κ ι α)}
    (h : Decides s front p back) :
    Decides s (front.map Parser.quoted) p.quoted (back.map Parser.quoted) where
  front_fails q hq := by
    obtain ⟨q, hmem, rfl⟩ := List.mem_map.1 hq
    exact h.front_fails q hmem
  succeeds_or_last := h.succeeds_or_last.imp_right fun hback => by rw [hback, List.map_nil]

end Parser

namespace Alternation

/-! ### Nested fallbacks -/

/-- Two lists of fallbacks, one behind the other. -/
theorem parser_rightFold_go_append (p q : Parser κ ι α) (ps qs : List (Parser κ ι α)) :
    (rightFold.go p (ps ++ q :: qs)).parser =
      (rightFold.go p ps).parser.orElse (rightFold.go q qs).parser := by
  induction ps generalizing p with
  | nil => rfl
  | cons p' ps ih =>
    calc p.orElse (rightFold.go p' (ps ++ q :: qs)).parser
        = p.orElse ((rightFold.go p' ps).parser.orElse (rightFold.go q qs).parser) := by rw [ih]
      _ = (p.orElse (rightFold.go p' ps).parser).orElse (rightFold.go q qs).parser :=
          (Parser.orElse_assoc _ _ _).symm

/-- A nesting of fallbacks is the nesting to the right of its leaves. -/
theorem parser_eq_rightFold {t : Alternation κ ι α} (ht : t.Binary) {c : Choice (Parser κ ι α)}
    (h : t.leaves = c.alternatives) : t.parser = (rightFold c).parser := by
  obtain ⟨p, ps⟩ := c
  induction t generalizing p ps with
  | leaf q =>
    obtain ⟨rfl, rfl⟩ := List.cons.inj h
    rfl
  | orElse t u iht ihu =>
    obtain ⟨hbt, hbu⟩ := ht
    obtain ⟨p', ps', hpt⟩ := List.exists_cons_of_ne_nil t.leaves_ne_nil
    obtain ⟨q, qs, hqu⟩ := List.exists_cons_of_ne_nil u.leaves_ne_nil
    -- the leaves of the second tree follow those of the first
    rw [leaves, hpt, hqu] at h
    obtain ⟨rfl, rfl⟩ := List.cons.inj h
    calc t.parser.orElse u.parser
        = (rightFold ⟨p', ps'⟩).parser.orElse (rightFold ⟨q, qs⟩).parser := by
          rw [iht hbt p' ps' hpt, ihu hbu q qs hqu]
      _ = (rightFold ⟨p', ps' ++ q :: qs⟩).parser := (parser_rightFold_go_append p' q ps' qs).symm
  | choice ts ih => exact ht.elim
  | boxed t ih => exact ih ht p ps h

theorem parser_rightFold_cons (p q : Parser κ ι α) (ps : List (Parser κ ι α)) :
    (rightFold ⟨p, q :: ps⟩).parser =
      p.recover .fellBack fun _ => (rightFold ⟨q, ps⟩).parser := rfl

/-- A nesting to the right reports every failed alternative in front of the one that decides. -/
theorem log_rightFold {s : ι} {c : Choice (Parser κ ι α)} {front back : List (Parser κ ι α)}
    {p : Parser κ ι α} (hc : c.alternatives = front ++ p :: back)
    (h : Parser.Decides s front p back) :
    (rightFold c).parser.log s = (front.flatMap fun q => q.reported .fellBack s) ++ p.log s := by
  obtain ⟨first, others⟩ := c
  induction front generalizing first others with
  | nil =>
    obtain ⟨rfl, rfl⟩ : first = p ∧ others = back := List.cons.inj hc
    cases others with
    | nil => rfl
    | cons q others =>
      -- something is left to try, so this is a success
      obtain ⟨r, hp⟩ := h.succeeds_or_last.resolve_right (List.cons_ne_nil _ _)
      rw [parser_rightFold_cons, Parser.log_recover, hp, List.append_nil]
      rfl
  | cons q front ih =>
    obtain ⟨rfl, hothers⟩ : first = q ∧ others = front ++ p :: back := List.cons.inj hc
    obtain ⟨e, he⟩ := h.front_fails first List.mem_cons_self
    cases others with
    | nil => exact absurd hothers.symm (by simp)
    | cons q others =>
      rw [parser_rightFold_cons, Parser.log_recover_eq_reported, he, List.flatMap_cons,
        List.append_assoc]
      exact congrArg _ (ih h.of_cons q others hothers)

/-- The nesting to the left is one of fallbacks only. -/
theorem binary_leftFold (c : Choice (Parser κ ι α)) : (leftFold c).Binary := by
  have hfold (t : Alternation κ ι α) (ht : t.Binary) (ps : List (Parser κ ι α)) :
      (ps.foldl (fun t q => orElse t (leaf q)) t).Binary := by
    induction ps generalizing t with
    | nil => exact ht
    | cons q ps ih => exact ih _ ⟨ht, trivial⟩
  exact hfold (leaf c.first) trivial c.others

/-- So is the nesting to the right. -/
theorem binary_rightFold (c : Choice (Parser κ ι α)) : (rightFold c).Binary := by
  have hfold (p : Parser κ ι α) (ps : List (Parser κ ι α)) : (rightFold.go p ps).Binary := by
    induction ps generalizing p with
    | nil => trivial
    | cons q ps ih => exact ⟨trivial, ih q⟩
  exact hfold c.first c.others

/-- Of the alternatives in front of the one that decides, and of that one, a choice records the logs
in order with a report behind each that fails. A nesting of fallbacks, whichever it is, records the
same logs with reports of its own kind between them, and none behind the last. So all nestings
record the same. It is what the choice records, with other events in the place of those of the
choice itself and without the one for the last alternative. -/
theorem logs_of_nestings (c : Choice (Parser κ ι α)) (s : ι) :
    (∃ front p back, c.alternatives = front ++ p :: back ∧ Parser.Decides s front p back ∧
      c.parser.log s =
        (front.flatMap fun q => q.reported .alternativeFailed s) ++
          p.reported .alternativeFailed s ∧
      ∀ t : Alternation κ ι α, t.Binary → t.leaves = c.alternatives →
        t.parser.log s = (front.flatMap fun q => q.reported .fellBack s) ++ p.log s) ∧
    (∀ t ∈ [leftFold c, rightFold c], t.Binary ∧ t.leaves = c.alternatives) ∧
    -- what the alternatives record are notes here, and what the choice itself records are events
    let own := (c.map .quoted).parser.log s
    c.parser.log s = own.map (.unquote id) ∧
      ∀ t : Alternation κ ι α, t.Binary → t.leaves = c.alternatives →
        t.parser.log s =
          (if (c.parser.outcome s).isSuccess then own else own.dropLast).map
            (.unquote .toFallback) := by
  obtain ⟨front, p, back, hc, h⟩ := Parser.exists_decides s c.alternatives_ne_nil
  have hchoice : c.parser = .firstOf (front ++ p :: back) := by rw [Choice.parser, hc]
  have hquoted : (c.map .quoted).parser =
      .firstOf (front.map .quoted ++ p.quoted :: back.map .quoted) := by
    rw [Choice.parser, Choice.alternatives_map, hc, List.map_append, List.map_cons]
  have hnested (t : Alternation κ ι α) (ht : t.Binary) (hleaves : t.leaves = c.alternatives) :
      t.parser.log s = (front.flatMap fun q => q.reported .fellBack s) ++ p.log s := by
    rw [parser_eq_rightFold ht hleaves, log_rightFold hc h]
  refine ⟨⟨front, p, back, hc, h, ?_, hnested⟩, ?_, ?_, fun t ht hleaves => ?_⟩
  · rw [hchoice, h.log_firstOf]
  · intro t ht
    rcases List.mem_cons.1 ht with rfl | ht
    · exact ⟨binary_leftFold c, leaves_leftFold c⟩
    · obtain rfl := List.mem_singleton.1 ht
      exact ⟨binary_rightFold c, leaves_rightFold c⟩
  · rw [hchoice, hquoted, h.log_firstOf, h.quoted.log_firstOf, List.map_append,
      Parser.map_unquote_flatMap_reported, Parser.map_unquote_reported_quoted]
    rfl
  -- quoting changes no outcome, so the last report is left out of both or of none
  · have houtcome : c.parser.outcome s = (c.map .quoted).parser.outcome s := by
      rw [hchoice, hquoted, h.outcome_firstOf, h.quoted.outcome_firstOf, Parser.outcome_quoted]
    rw [houtcome, hquoted, h.quoted.log_firstOf_without_last, List.map_append,
      Parser.map_unquote_flatMap_reported, Parser.map_unquote_log_quoted]
    exact hnested t ht hleaves

/-- A nesting to the left of three alternatives that all fail. The second one is a choice, and its
own reports stay as they are. -/
theorem logs_of_nestings_three :
    let a : Parser Unit (List Char) Char := .element 'a'
    let b : Parser Unit (List Char) Char := .firstOf [.element 'b', .element 'c']
    let d : Parser Unit (List Char) Char := .element 'd'
    let c : Choice (Parser Unit (List Char) Char) := ⟨a, [b, d]⟩
    let t := orElse (orElse (leaf a) (leaf b)) (leaf d)
    let own := (c.map .quoted).parser.log ['z']
    t.Binary ∧ t.leaves = c.alternatives ∧
      own = [.event (.alternativeFailed "Expecting 'a'. Got 'z'."),
        .note (.event (.alternativeFailed "Expecting 'b'. Got 'z'.")),
        .note (.event (.alternativeFailed "Expecting 'c'. Got 'z'.")),
        .event (.alternativeFailed "Expecting 'c'. Got 'z'."),
        .event (.alternativeFailed "Expecting 'd'. Got 'z'.")] ∧
      t.parser.log ['z'] = own.dropLast.map (.unquote .toFallback) ∧
      t.parser.log ['z'] = [.event (.fellBack "Expecting 'a'. Got 'z'."),
        .event (.alternativeFailed "Expecting 'b'. Got 'z'."),
        .event (.alternativeFailed "Expecting 'c'. Got 'z'."),
        .event (.fellBack "Expecting 'c'. Got 'z'.")] := by
  intro a b d c t own
  have hbinary : t.Binary := ⟨⟨trivial, trivial⟩, trivial⟩
  have hleaves : t.leaves = c.alternatives := rfl
  obtain ⟨-, -, -, hnested⟩ := logs_of_nestings c ['z']
  have hlog : t.parser.log ['z'] = own.dropLast.map (.unquote .toFallback) :=
    hnested t hbinary hleaves
  exact ⟨hbinary, hleaves, rfl, hlog, hlog.trans rfl⟩

end Alternation

end ApplicativeParsing

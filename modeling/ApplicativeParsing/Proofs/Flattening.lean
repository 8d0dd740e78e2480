import Mathlib.Data.List.OfFn
import ApplicativeParsing.Parser.Relation
import ApplicativeParsing.Proofs.Notes

/-!
# Nested alternatives are flat

However alternatives are nested, they behave as one flat list of them: the first leaf that succeeds
decides, the last one if none does, and the leaves up to the one that decides are called once each,
in order, on the input of the whole. The library records different events for different nestings,
so two nestings are compared by their outcomes and by the notes of their leaves.

Fallback is associative, a flat list is a fallback from its first member to the others, and a list
of lists is the list of all their members. A tree is flattened by these three laws, along its shape.

## Main definitions

* `Parser.Alike`: equal outcomes and equal notes on every input.
* `Alternation.observed`, `Alternation.calls`: which leaves of a tree are called, and on what.
* `Alternation.flat`, `Alternation.leftFold`, `Alternation.rightFold`: the usual nestings.

## Main statements

* `Parser.orElse_assoc`, `Parser.firstOf_append`, `Parser.firstOf_flatten`: the laws.
* `Alternation.alike_firstOf_leaves`: a tree is alike to the list of its leaves.
* `Alternation.outcome_and_calls`: the outcome of a tree and the leaves that it calls.
-/

namespace ApplicativeParsing

variable {κ κ' ι α : Type}

/-- Logs with the same notes, whatever the library records between them. -/
def LogRelation.notes : LogRelation κ κ where
  Rel l l' := l.filterMap Entry.note? = l'.filterMap Entry.note?
  nil := rfl
  append h h' := by rw [List.filterMap_append, List.filterMap_append, h, h']
  event _ := rfl

namespace Parser

/-- The two parsers have the same outcomes and make the same notes. -/
def Alike (p q : Parser κ ι α) : Prop := Related LogRelation.notes Eq Eq p q

theorem alike_iff {p q : Parser κ ι α} :
    Alike p q ↔ ∀ s, p.outcome s = q.outcome s ∧ (p.run s).notes = (q.run s).notes := by
  constructor
  · exact fun h s => ⟨(h rfl).2.eq, (h rfl).1⟩
  · rintro h s _ rfl
    refine ⟨(h s).2, ?_⟩
    rw [(h s).1]
    rcases q.outcome s with r | e
    · exact .success ⟨rfl, rfl⟩
    · exact .failure e

namespace Alike

variable {p q r : Parser κ ι α}

theorem refl (p : Parser κ ι α) : Alike p p := alike_iff.2 fun _ => ⟨rfl, rfl⟩

theorem symm (h : Alike p q) : Alike q p :=
  alike_iff.2 fun s => ⟨(alike_iff.1 h s).1.symm, (alike_iff.1 h s).2.symm⟩

theorem trans (h : Alike p q) (h' : Alike q r) : Alike p r :=
  alike_iff.2 fun s => ⟨(alike_iff.1 h s).1.trans (alike_iff.1 h' s).1,
    (alike_iff.1 h s).2.trans (alike_iff.1 h' s).2⟩

instance : Trans (Alike (κ := κ) (ι := ι) (α := α)) Alike Alike := ⟨trans⟩

/-- Alike parts may stand for each other in a fallback. -/
theorem orElse {p' q' : Parser κ ι α} (hp : Alike p p') (hq : Alike q q') :
    Alike (p.orElse q) (p'.orElse q') := Related.orElse hp hq

end Alike

/-! ### The laws of alternatives -/

/-- Falling back is associative, and not only up to what is recorded. -/
theorem orElse_assoc (p q r : Parser κ ι α) :
    (p.orElse q).orElse r = p.orElse (q.orElse r) := by
  refine ext_views (fun s => ?_) fun s => ?_
  · simp only [outcome_orElse]
    rcases p.outcome s with x | e <;> rfl
  · simp only [log_orElse, outcome_orElse]
    rcases p.outcome s with x | e <;> simp

/-- A list of one alternative is that alternative. -/
theorem firstOf_singleton (p : Parser κ ι α) : Alike (firstOf [p]) p :=
  alike_iff.2 fun s => ⟨outcome_firstOf_singleton p s, notes_firstOf_singleton p s⟩

/-- The others are what the first alternative falls back to. -/
theorem firstOf_cons (p : Parser κ ι α) {ps : List (Parser κ ι α)} (hps : ps ≠ []) :
    Alike (firstOf (p :: ps)) (p.orElse (firstOf ps)) := by
  obtain ⟨q, ps, rfl⟩ := List.exists_cons_of_ne_nil hps
  refine alike_iff.2 fun s => ⟨?_, ?_⟩
  · rw [outcome_firstOf_cons_cons, outcome_orElse]
  · rw [notes_firstOf_cons_cons, notes_orElse]

/-- Two lists of alternatives, one behind the other. -/
theorem firstOf_append {ps qs : List (Parser κ ι α)} (hps : ps ≠ []) (hqs : qs ≠ []) :
    Alike (firstOf (ps ++ qs)) ((firstOf ps).orElse (firstOf qs)) := by
  induction ps with
  | nil => exact absurd rfl hps
  | cons p ps ih =>
    -- a single alternative in front is not a fallback yet, so it is a case of its own
    cases ps with
    | nil =>
      calc Alike (firstOf (p :: qs)) (p.orElse (firstOf qs)) := firstOf_cons p hqs
        Alike _ ((firstOf [p]).orElse (firstOf qs)) := (firstOf_singleton p).symm.orElse (.refl _)
    | cons p' ps =>
      have hne : p' :: ps ≠ [] := List.cons_ne_nil _ _
      calc Alike (firstOf (p :: (p' :: ps ++ qs))) (p.orElse (firstOf (p' :: ps ++ qs))) :=
          firstOf_cons p (by simp)
        Alike _ (p.orElse ((firstOf (p' :: ps)).orElse (firstOf qs))) :=
          (Alike.refl p).orElse (ih hne)
        Alike _ ((p.orElse (firstOf (p' :: ps))).orElse (firstOf qs)) := by
          rw [orElse_assoc]
          exact .refl _
        Alike _ ((firstOf (p :: p' :: ps)).orElse (firstOf qs)) :=
          (firstOf_cons p hne).symm.orElse (Alike.refl _)

/-- A list of lists of alternatives is the list of all of them. -/
theorem firstOf_flatten {pss : List (List (Parser κ ι α))} (hpss : pss ≠ [])
    (hne : ∀ ps ∈ pss, ps ≠ []) : Alike (firstOf (pss.map firstOf)) (firstOf pss.flatten) := by
  induction pss with
  | nil => exact absurd rfl hpss
  | cons ps pss ih =>
    cases pss with
    | nil => simpa using firstOf_singleton (firstOf ps)
    | cons qs pss =>
      have ih := ih (List.cons_ne_nil _ _) fun ps' h => hne ps' (List.mem_cons_of_mem _ h)
      have hps : ps ≠ [] := hne ps List.mem_cons_self
      have hqs : (qs :: pss).flatten ≠ [] := by
        rw [List.flatten_cons]
        exact List.append_ne_nil_of_left_ne_nil (hne qs (by simp)) _
      calc Alike (firstOf (firstOf ps :: (qs :: pss).map firstOf))
            ((firstOf ps).orElse (firstOf ((qs :: pss).map firstOf))) :=
          firstOf_cons (firstOf ps) (by simp)
        Alike _ ((firstOf ps).orElse (firstOf (qs :: pss).flatten)) := (Alike.refl _).orElse ih
        Alike _ (firstOf (ps ++ (qs :: pss).flatten)) := (firstOf_append hps hqs).symm

/-- The notes of a parser left out. The events of the library stay. -/
def silenced (p : Parser κ ι α) : Parser κ' ι α where
  run s := ⟨(p.run s).events.map .event, p.outcome s⟩

/-- The parser that notes only when it is called, under which number and on what input. -/
def numbered (k : Nat) (p : Parser κ ι α) : Parser (Nat × ι) ι α :=
  p.silenced.probe fun s => (k, s)

theorem outcome_silenced (p : Parser κ ι α) (s : ι) :
    (p.silenced : Parser κ' ι α).outcome s = p.outcome s := rfl

/-- A silenced parser notes its calls and nothing else. -/
theorem notes_probe_silenced (note : ι → κ') (p : Parser κ ι α) (s : ι) :
    ((p.silenced.probe note).run s).notes = [note s] := by
  change note s :: ((p.run s).events.map Entry.event).filterMap Entry.note? = _
  rw [List.filterMap_map]
  simp [Function.comp_def, Entry.note?]

theorem outcome_numbered (k : Nat) (p : Parser κ ι α) (s : ι) :
    (p.numbered k).outcome s = p.outcome s := rfl

theorem notes_numbered (k : Nat) (p : Parser κ ι α) (s : ι) :
    ((p.numbered k).run s).notes = [(k, s)] := notes_probe_silenced (fun s => (k, s)) p s

/-- A numbered parser has the outcomes and the events of the parser. -/
theorem numbered_related (k : Nat) (p : Parser κ ι α) :
    Related LogRelation.events Eq Eq (p.numbered k) p := by
  rintro s _ rfl
  refine ⟨?_, ?_⟩
  · change ((p.run s).events.map Entry.event).filterMap Entry.event? = (p.run s).events
    rw [List.filterMap_map]
    exact List.filterMap_some
  · rw [outcome_numbered]
    rcases p.outcome s with r | e
    · exact .success ⟨rfl, rfl⟩
    · exact .failure e

/-- The parsers of a list with their numbers, counted from `k`. -/
def numberedFrom (k : Nat) : List (Parser κ ι α) → List (Parser (Nat × ι) ι α)
  | [] => []
  | p :: ps => p.numbered k :: numberedFrom (k + 1) ps

theorem numberedFrom_append (k : Nat) (ps qs : List (Parser κ ι α)) :
    numberedFrom k (ps ++ qs) = numberedFrom k ps ++ numberedFrom (k + ps.length) qs := by
  induction ps generalizing k with
  | nil => rfl
  | cons p ps ih =>
    rw [List.cons_append, numberedFrom, ih, numberedFrom, List.length_cons, List.cons_append,
      Nat.add_right_comm, Nat.add_assoc]

/-- How many members of a family of lists stand before list `i`. -/
def offset {n : Nat} (pss : Fin n → List (Parser κ ι α)) (i : Fin n) : Nat :=
  ((List.ofFn pss).take i).flatten.length

theorem numberedFrom_flatten {n : Nat} (k : Nat) (pss : Fin n → List (Parser κ ι α)) :
    numberedFrom k (List.ofFn pss).flatten =
      (List.ofFn fun i => numberedFrom (k + offset pss i) (pss i)).flatten := by
  induction n generalizing k with
  | zero => rfl
  | succ n ih =>
    -- the lists behind the first are counted from where the first one ends
    have hoffset (i : Fin n) :
        k + offset pss i.succ = k + (pss 0).length + offset (fun j => pss j.succ) i := by
      rw [offset, offset, List.ofFn_succ, Fin.val_succ, List.take_succ_cons, List.flatten_cons,
        List.length_append, Nat.add_assoc]
    rw [List.ofFn_succ, List.flatten_cons, numberedFrom_append, ih, List.ofFn_succ,
      List.flatten_cons]
    simp only [hoffset]
    rfl

/-- Of numbered alternatives those up to the first that succeeds are called, each on the input. -/
theorem notes_firstOf_numberedFrom {ps : List (Parser κ ι α)} (hps : ps ≠ []) (k : Nat) (s : ι) :
    ((firstOf (numberedFrom k ps)).run s).notes =
      (List.range' k (min (ps.findIdx (fun p => (p.outcome s).isSuccess) + 1) ps.length)).map
        (·, s) := by
  induction ps generalizing k with
  | nil => exact absurd rfl hps
  | cons p ps ih =>
    rw [List.findIdx_cons, List.length_cons, Nat.add_min_add_right]
    cases ps with
    | nil => simp [numberedFrom, notes_firstOf_singleton, notes_numbered]
    | cons q ps =>
      have ih := ih (List.cons_ne_nil q ps) (k + 1)
      rw [numberedFrom, numberedFrom, notes_firstOf_cons_cons, notes_numbered, outcome_numbered]
      rcases p.outcome s with r | e
      · simp
      -- after a failure the others are called, and their numbers go on from the next one
      · rw [← numberedFrom, ih, List.range'_succ]
        simp

end Parser

namespace Alternation

/-! ### Trees -/

/-- A tree is alike to the flat list of its leaves. -/
theorem alike_firstOf_leaves (t : Alternation κ ι α) :
    Parser.Alike t.parser (.firstOf t.leaves) := by
  induction t with
  | leaf p => exact (Parser.firstOf_singleton p).symm
  | orElse t u iht ihu =>
    exact (iht.orElse ihu).trans (Parser.firstOf_append t.leaves_ne_nil u.leaves_ne_nil).symm
  | choice ts ih =>
    -- flatten the alternatives by the induction hypotheses, and then the list of their lists
    have hparts : Parser.Alike (choice ts).parser
        (Choice.ofFn fun i => Parser.firstOf (ts i).leaves).parser := Parser.Related.choice ih
    have hlists : (Choice.ofFn fun i => Parser.firstOf (ts i).leaves).parser =
        .firstOf ((List.ofFn fun i => (ts i).leaves).map .firstOf) := by
      rw [Choice.parser_ofFn, List.map_ofFn]
      rfl
    rw [hlists] at hparts
    refine hparts.trans (Parser.firstOf_flatten (by simp) fun ps hps => ?_)
    obtain ⟨i, rfl⟩ := List.mem_ofFn.1 hps
    exact (ts i).leaves_ne_nil
  | boxed t ih => exact ih

/-- The tree whose leaves note when they are called, under their numbers from left to right. -/
def observed : Nat → Alternation κ ι α → Alternation (Nat × ι) ι α
  | k, leaf p => leaf (p.numbered k)
  | k, orElse t u => orElse (t.observed k) (u.observed (k + t.leaves.length))
  | k, choice ts => choice fun i => (ts i).observed (k + Parser.offset (fun j => (ts j).leaves) i)
  | k, boxed t => boxed (t.observed k)

/-- The calls of leaves in a run of a tree, in order: the number of the leaf and its input. -/
def calls (t : Alternation κ ι α) (s : ι) : List (Nat × ι) := ((t.observed 0).parser.run s).notes

/-- The leaves of the observed tree are the numbered leaves of the tree. -/
theorem leaves_observed (k : Nat) (t : Alternation κ ι α) :
    (t.observed k).leaves = Parser.numberedFrom k t.leaves := by
  induction t generalizing k with
  | leaf p => rfl
  | orElse t u iht ihu => rw [observed, leaves, leaves, iht, ihu, Parser.numberedFrom_append]
  | choice ts ih => simp only [observed, leaves, ih, Parser.numberedFrom_flatten]
  | boxed t ih => exact ih k

/-- Observation changes neither the outcome nor the events of the library. -/
theorem observed_related (k : Nat) (t : Alternation κ ι α) :
    Parser.Related LogRelation.events Eq Eq (t.observed k).parser t.parser := by
  induction t generalizing k with
  | leaf p => exact p.numbered_related k
  | orElse t u iht ihu => exact (iht _).orElse (ihu _)
  | choice ts ih => exact Parser.Related.choice fun i => ih i _
  | boxed t ih => exact ih _

/-- The leaves called by a tree are those up to the first that succeeds, each on the input. -/
theorem calls_eq (t : Alternation κ ι α) (s : ι) :
    t.calls s =
      (List.range (min (t.leaves.findIdx (fun p => (p.outcome s).isSuccess) + 1)
        t.leaves.length)).map (·, s) := by
  rw [calls, (Parser.alike_iff.1 (alike_firstOf_leaves _) s).2, leaves_observed,
    Parser.notes_firstOf_numberedFrom t.leaves_ne_nil, List.range_eq_range']

/-! ### The usual nestings -/

/-- One choice between all alternatives. -/
def flat (c : Choice (Parser κ ι α)) : Alternation κ ι α :=
  choice fun i : Fin (c.others.length + 1) => leaf (c.alternatives.get i)

/-- A choice between choices. -/
def nested (cs : Choice (Choice (Parser κ ι α))) : Alternation κ ι α :=
  choice fun i : Fin (cs.others.length + 1) => flat (cs.alternatives.get i)

/-- Every alternative stands in for the failure of all those before it. -/
def leftFold (c : Choice (Parser κ ι α)) : Alternation κ ι α :=
  c.others.foldl (fun t q => orElse t (leaf q)) (leaf c.first)

/-- Every alternative falls back to all those behind it. -/
def rightFold (c : Choice (Parser κ ι α)) : Alternation κ ι α :=
  go c.first c.others
where
  /-- The fold over the alternatives from `p` on. -/
  go (p : Parser κ ι α) : List (Parser κ ι α) → Alternation κ ι α
    | [] => leaf p
    | q :: ps => orElse (leaf p) (go q ps)

theorem leaves_flat (c : Choice (Parser κ ι α)) : (flat c).leaves = c.alternatives := by
  have hmap : (List.ofFn fun i : Fin (c.others.length + 1) => [c.alternatives.get i]) =
      c.alternatives.map fun p => [p] := List.ofFn_getElem_eq_map c.alternatives fun p => [p]
  simp only [flat, leaves]
  rw [hmap, ← List.flatMap_def, List.flatMap_singleton']

theorem leaves_nested (cs : Choice (Choice (Parser κ ι α))) :
    (nested cs).leaves = cs.alternatives.flatMap Choice.alternatives := by
  have hmap : (List.ofFn fun i : Fin (cs.others.length + 1) =>
      (cs.alternatives.get i).alternatives) = cs.alternatives.map Choice.alternatives :=
    List.ofFn_getElem_eq_map cs.alternatives Choice.alternatives
  simp only [nested, leaves, leaves_flat]
  rw [hmap, List.flatMap_def]

theorem leaves_leftFold (c : Choice (Parser κ ι α)) : (leftFold c).leaves = c.alternatives := by
  -- the accumulator of the fold is general, it already holds the leaves that were passed
  have hfold (t : Alternation κ ι α) (ps : List (Parser κ ι α)) :
      (ps.foldl (fun t q => orElse t (leaf q)) t).leaves = t.leaves ++ ps := by
    induction ps generalizing t with
    | nil => exact (List.append_nil _).symm
    | cons q ps ih =>
      rw [List.foldl_cons, ih, leaves, leaves, List.append_assoc, List.singleton_append]
  exact hfold (leaf c.first) c.others

theorem leaves_rightFold (c : Choice (Parser κ ι α)) : (rightFold c).leaves = c.alternatives := by
  have hfold (p : Parser κ ι α) (ps : List (Parser κ ι α)) :
      (rightFold.go p ps).leaves = p :: ps := by
    induction ps generalizing p with
    | nil => rfl
    | cons q ps ih => rw [rightFold.go, leaves, ih, leaves, List.singleton_append]
  exact hfold c.first c.others

/-! ### What a tree does -/

/-- A tree ends as the first of its leaves that succeeds, and as the last one if none does. It calls
the leaves up to the one that decides, once each, from left to right and on the input of the whole.
So all nestings of the same leaves do the same. -/
theorem outcome_and_calls (t : Alternation κ ι α) (s : ι) :
    t.parser.outcome s =
        ((t.leaves.find? fun p => (p.outcome s).isSuccess).getD
          (t.leaves.getLast t.leaves_ne_nil)).outcome s ∧
      t.calls s =
        (List.range (min (t.leaves.findIdx (fun p => (p.outcome s).isSuccess) + 1)
          t.leaves.length)).map (·, s) ∧
      (∀ u : Alternation κ ι α, u.leaves = t.leaves →
        u.parser.outcome s = t.parser.outcome s ∧ u.calls s = t.calls s) ∧
      (∀ c : Choice (Parser κ ι α), c.alternatives = t.leaves →
        ∀ u ∈ [flat c, leftFold c, rightFold c],
          u.parser.outcome s = t.parser.outcome s ∧ u.calls s = t.calls s) ∧
      ∀ cs : Choice (Choice (Parser κ ι α)),
        cs.alternatives.flatMap Choice.alternatives = t.leaves →
        (nested cs).parser.outcome s = t.parser.outcome s ∧ (nested cs).calls s = t.calls s := by
  -- only the leaves of a tree count, so one fact covers every other nesting
  have hsame (u : Alternation κ ι α) (h : u.leaves = t.leaves) :
      u.parser.outcome s = t.parser.outcome s ∧ u.calls s = t.calls s := by
    have halike := (alike_firstOf_leaves u).trans (h ▸ (alike_firstOf_leaves t).symm)
    refine ⟨(Parser.alike_iff.1 halike s).1, ?_⟩
    rw [calls_eq, calls_eq, h]
  refine ⟨?_, calls_eq t s, hsame, ?_, fun cs h => hsame _ ((leaves_nested cs).trans h)⟩
  · rw [(Parser.alike_iff.1 (alike_firstOf_leaves t) s).1]
    exact Parser.outcome_firstOf_eq_find? t.leaves_ne_nil s
  · intro c h u hu
    rcases List.mem_cons.1 hu with rfl | hu
    · exact hsame _ ((leaves_flat c).trans h)
    rcases List.mem_cons.1 hu with rfl | hu
    · exact hsame _ ((leaves_leftFold c).trans h)
    obtain rfl := List.mem_singleton.1 hu
    exact hsame _ ((leaves_rightFold c).trans h)

/-- A choice inside a fallback against a fold of the same three leaves, of which the second one
succeeds. -/
theorem outcome_and_calls_three :
    let a : Parser Unit (List Char) Char := .element 'a'
    let b : Parser Unit (List Char) Char := .element 'b'
    let c : Parser Unit (List Char) Char := .element 'c'
    let t := orElse (flat ⟨a, [b]⟩) (boxed (leaf c))
    let u := rightFold ⟨a, [b, c]⟩
    u.leaves = t.leaves ∧ t.parser.outcome ['b', 'z'] = .success ('b', ['z']) ∧
      t.calls ['b', 'z'] = [(0, ['b', 'z']), (1, ['b', 'z'])] ∧
      u.parser.outcome ['b', 'z'] = t.parser.outcome ['b', 'z'] ∧
      u.calls ['b', 'z'] = t.calls ['b', 'z'] := by
  intro a b c t u
  have hleaves : u.leaves = t.leaves := rfl
  obtain ⟨houtcome, hcalls, hsame, -, -⟩ := outcome_and_calls t ['b', 'z']
  exact ⟨hleaves, houtcome, hcalls, hsame u hleaves⟩

end Alternation

end ApplicativeParsing

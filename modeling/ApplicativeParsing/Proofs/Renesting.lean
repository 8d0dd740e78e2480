import ApplicativeParsing.Proofs.Flattening

/-!
# Nested sequences are flat

However sequences are nested, they run their leaves in turn, each on what the one before it left,
and stop at the first failure. Two nestings of the same leaves have values of different types, but
the values are made of the same parts in the same order, and the nesting of a tree can be filled
with a list of parts in at most one way. The log is the same for all nestings, with the events and
the notes of the leaves, because a sequence records nothing of its own.

Which leaves are called cannot be read off the log of arbitrary leaves, so the leaves are replaced
by numbered ones that note their calls.

## Main definitions

* `Parser.reached`: the inputs on which the parsers of a list are called when they run in turn.
* `Sequencing.observed`, `Sequencing.calls`: which leaves of a tree are called, and on what.
* `Sequencing.leftFold`, `Sequencing.rightFold`: the usual nestings.
* `Sequencing.Agrees`: two trees do the same up to the nesting of their values.

## Main statements

* `Sequencing.inTurn_leaves`: a tree runs its leaves in turn.
* `Sequencing.values_injective`: a value is determined by its parts.
* `Sequencing.calls_eq`: the calls of a tree.
* `Sequencing.runs_leaves_in_turn`: all of this, and that all nestings agree.
-/

namespace ApplicativeParsing

variable {κ ι α β : Type}

namespace Parser

/-! ### Lists that run in turn -/

theorem value_inTurn_cons (p : Parser κ ι α) (ps : List (SomeParser κ ι)) (s : ι) :
    (inTurn (⟨α, p⟩ :: ps) s).value =
      (p.outcome s).andThen fun (a, r) =>
        (inTurn ps r).value.map fun (vs, r) => (⟨α, a⟩ :: vs, r) := by
  rw [inTurn, outcome]
  rcases p.run s with ⟨l, ⟨a, r⟩ | e⟩ <;> rfl

theorem value_inTurn_append (ps qs : List (SomeParser κ ι)) (s : ι) :
    (inTurn (ps ++ qs) s).value =
      (inTurn ps s).value.andThen fun (vs, r) =>
        (inTurn qs r).value.map fun (ws, r) => (vs ++ ws, r) := by
  rw [inTurn_append]
  rcases inTurn ps s with ⟨l, ⟨vs, r⟩ | e⟩ <;> rfl

/-- The inputs on which the parsers of a list are called when they run in turn on `s`. Behind the
first failure there are none. -/
def reached : List (SomeParser κ ι) → ι → List ι
  | [], _ => []
  | ⟨_, p⟩ :: ps, s =>
    s :: match p.outcome s with
      | .success (_, r) => reached ps r
      | .failure _ => []

theorem reached_append (ps qs : List (SomeParser κ ι)) (s : ι) :
    reached (ps ++ qs) s =
      reached ps s ++
        match (inTurn ps s).value with
        | .success (_, r) => reached qs r
        | .failure _ => [] := by
  induction ps generalizing s with
  | nil => rfl
  | cons x ps ih =>
    obtain ⟨α, p⟩ := x
    rw [List.cons_append, reached, reached, value_inTurn_cons]
    rcases p.outcome s with ⟨a, r⟩ | e
    -- after a success of `p` the parts are reached as the others let them
    · simp only [ih, Outcome.andThen_success]
      rcases (inTurn ps r).value with ⟨vs, r'⟩ | e <;> rfl
    · rfl

/-- All parsers of a list are called if all of them succeed. -/
theorem length_reached {ps : List (SomeParser κ ι)} {s : ι} {x : List SomeValue × ι}
    (h : (inTurn ps s).value = .success x) : (reached ps s).length = ps.length := by
  induction ps generalizing s x with
  | nil => rfl
  | cons p ps ih =>
    rw [value_inTurn_cons] at h
    obtain ⟨⟨a, r⟩, hp, hmap⟩ := Outcome.andThen_eq_success.1 h
    obtain ⟨y, hps, -⟩ := Outcome.map_eq_success.1 hmap
    rw [reached, hp, List.length_cons, List.length_cons, ih hps]

/-- Of the parsers of a list that run in turn on `s`, the one at place `i` is the first that fails,
and it fails with `e`. -/
def FailsFirst (l : List (SomeParser κ ι)) (s : ι) (i : Nat) (e : String) : Prop :=
  ∃ ps p qs vs r, l = ps ++ p :: qs ∧ ps.length = i ∧ (inTurn ps s).value = .success (vs, r) ∧
    p.2.outcome r = .failure e

/-- The first failure ends a run in turn with its message, and nothing behind it is called. -/
theorem FailsFirst.ends {l : List (SomeParser κ ι)} {s : ι} {i : Nat} {e : String}
    (h : FailsFirst l s i e) :
    (inTurn l s).value = .failure e ∧ (reached l s).length = i + 1 := by
  obtain ⟨ps, ⟨α, p⟩, qs, vs, r, rfl, rfl, hps, hp⟩ := h
  refine ⟨?_, ?_⟩
  · have hfail : (inTurn (⟨α, p⟩ :: qs) r).value = .failure e := by
      rw [value_inTurn_cons]
      exact Outcome.andThen_eq_failure.2 (.inl hp)
    rw [value_inTurn_append]
    exact Outcome.andThen_eq_failure.2 (.inr ⟨(vs, r), hps, Outcome.map_eq_failure.2 hfail⟩)
  · rw [reached_append, hps, List.length_append, length_reached hps]
    simp [reached, hp]

/-- A run in turn that fails has a first failure. -/
theorem exists_failsFirst {l : List (SomeParser κ ι)} {s : ι} {e : String}
    (h : (inTurn l s).value = .failure e) : ∃ i, FailsFirst l s i e := by
  induction l generalizing s with
  | nil => cases h
  | cons p ps ih =>
    obtain ⟨α, p⟩ := p
    rw [value_inTurn_cons] at h
    rcases Outcome.andThen_eq_failure.1 h with hp | ⟨⟨a, r⟩, hp, hrest⟩
    · exact ⟨0, [], ⟨α, p⟩, ps, [], s, rfl, rfl, rfl, hp⟩
    -- the first failure of the others, one place further
    · obtain ⟨i, ps', q, qs, vs, t, rfl, rfl, hps', hq⟩ := ih (Outcome.map_eq_failure.1 hrest)
      refine ⟨ps'.length + 1, ⟨α, p⟩ :: ps', q, qs, ⟨α, a⟩ :: vs, t, rfl, rfl, ?_, hq⟩
      rw [value_inTurn_cons]
      exact Outcome.andThen_eq_success.2
        ⟨(a, r), hp, Outcome.map_eq_success.2 ⟨(vs, t), hps', rfl⟩⟩

end Parser

namespace Sequencing

/-! ### Trees -/

/-- A tree has a leaf. -/
theorem leaves_ne_nil (t : Sequencing κ ι α) : t.leaves ≠ [] := by
  induction t with
  | leaf p => exact List.cons_ne_nil _ _
  | andThen t u iht _ => exact List.append_ne_nil_of_left_ne_nil iht _

/-- A tree runs its leaves in turn: with the same log, and with the same outcome once its value is
taken apart. -/
theorem inTurn_leaves (t : Sequencing κ ι α) (s : ι) :
    Parser.inTurn t.leaves s =
      ⟨t.parser.log s, (t.parser.outcome s).map fun (v, r) => (t.values v, r)⟩ := by
  induction t generalizing s with
  | leaf p =>
    rw [leaves, parser, Parser.outcome, Parser.log, Parser.inTurn]
    rcases p.run s with ⟨l, ⟨a, r⟩ | e⟩
    · simp [Parser.inTurn, values]
    · rfl
  | andThen t u iht ihu =>
    rw [leaves, Parser.inTurn_append, iht, parser, Parser.log_andThen, Parser.outcome_andThen]
    rcases t.parser.outcome s with ⟨a, r⟩ | e
    -- the leaves of the second tree go on from the rest of the first, as the tree itself does
    · simp [ihu, values]
    · simp

/-- There is at most one way to fill the nesting of a tree with given values. -/
theorem values_injective (t : Sequencing κ ι α) : Function.Injective t.values := by
  induction t with
  | leaf p =>
    intro a b h
    cases h
    rfl
  | andThen t u iht ihu =>
    rintro ⟨a, b⟩ ⟨a', b'⟩ h
    -- the parts of the first halves are as many as the leaves of the first tree
    have hlength : (t.values a).length = (t.values a').length := by
      rw [length_values, length_values]
    obtain ⟨ha, hb⟩ := List.append_inj h hlength
    exact Prod.ext (iht ha) (ihu hb)

/-- The tree whose leaves note when they are called, under their numbers from left to right. -/
def observed : Nat → {α : Type} → Sequencing κ ι α → Sequencing (Nat × ι) ι α
  | k, _, leaf p => leaf (p.numbered k)
  | k, _, andThen t u => andThen (t.observed k) (u.observed (k + t.leaves.length))

/-- The calls of leaves in a run of a tree, in order: the number of the leaf and its input. -/
def calls (t : Sequencing κ ι α) (s : ι) : List (Nat × ι) := ((t.observed 0).parser.run s).notes

/-- Observation changes neither the outcome nor the events of the library. -/
theorem observed_related (k : Nat) (t : Sequencing κ ι α) :
    Parser.Related LogRelation.events Eq Eq (t.observed k).parser t.parser := by
  induction t generalizing k with
  | leaf p => exact p.numbered_related k
  | andThen t u iht ihu => exact ((iht _).andThen (ihu _)).mono fun _ _ h => Prod.ext h.1 h.2

theorem notes_observed (k : Nat) (t : Sequencing κ ι α) (s : ι) :
    ((t.observed k).parser.run s).notes =
      ((Parser.reached t.leaves s).zipIdx k).map Prod.swap := by
  induction t generalizing k s with
  | leaf p =>
    rw [observed, parser, Parser.notes_numbered, leaves, Parser.reached]
    rcases p.outcome s with ⟨a, r⟩ | e <;> rfl
  | andThen t u iht ihu =>
    have houtcome : (t.observed k).parser.outcome s = t.parser.outcome s :=
      (observed_related k t rfl).2.eq
    rw [observed, parser, Parser.notes_andThen, iht, houtcome, leaves, Parser.reached_append,
      inTurn_leaves]
    cases ht : t.parser.outcome s with
    | failure e => simp
    | success x =>
      obtain ⟨a, r⟩ := x
      -- all leaves of the first tree have been called, so the second one starts at their number
      have hlength : (Parser.reached t.leaves s).length = t.leaves.length := by
        refine Parser.length_reached (x := (t.values a, r)) ?_
        rw [inTurn_leaves, ht]
        rfl
      simp only [Outcome.map_success]
      rw [ihu, List.zipIdx_append, List.map_append, hlength]

/-- The leaves called by a tree are those that are reached in turn, each on its input. -/
theorem calls_eq (t : Sequencing κ ι α) (s : ι) :
    t.calls s = (Parser.reached t.leaves s).zipIdx.map Prod.swap := notes_observed 0 t s

/-- The leaves called by a tree are the first ones, once each and in their order. -/
theorem map_fst_calls (t : Sequencing κ ι α) (s : ι) :
    (t.calls s).map Prod.fst = List.range (Parser.reached t.leaves s).length := by
  rw [calls_eq, List.map_map, List.range_eq_range', ← List.zipIdx_map_snd]
  rfl

/-! ### The usual nestings -/

/-- Every parser follows all those before it. -/
def leftFold (p : SomeParser κ ι) (ps : List (SomeParser κ ι)) : (α : Type) × Sequencing κ ι α :=
  ps.foldl (fun t q => ⟨_, andThen t.2 (leaf q.2)⟩) ⟨_, leaf p.2⟩

/-- Every parser is followed by all those behind it. -/
def rightFold (p : SomeParser κ ι) : List (SomeParser κ ι) → (α : Type) × Sequencing κ ι α
  | [] => ⟨_, leaf p.2⟩
  | q :: ps => ⟨_, andThen (leaf p.2) (rightFold q ps).2⟩

theorem leaves_leftFold (p : SomeParser κ ι) (ps : List (SomeParser κ ι)) :
    (leftFold p ps).2.leaves = p :: ps := by
  -- the accumulator of the fold is general, it already holds the leaves that were passed
  have hfold (t : (α : Type) × Sequencing κ ι α) (ps : List (SomeParser κ ι)) :
      (ps.foldl (fun t q => ⟨_, andThen t.2 (leaf q.2)⟩) t).2.leaves = t.2.leaves ++ ps := by
    induction ps generalizing t with
    | nil => exact (List.append_nil _).symm
    | cons q ps ih =>
      rw [List.foldl_cons, ih, leaves, leaves, List.append_assoc, List.singleton_append]
  exact hfold ⟨_, leaf p.2⟩ ps

theorem leaves_rightFold (p : SomeParser κ ι) (ps : List (SomeParser κ ι)) :
    (rightFold p ps).2.leaves = p :: ps := by
  induction ps generalizing p with
  | nil => rfl
  | cons q ps ih => rw [rightFold, leaves, ih, leaves, List.singleton_append]

/-! ### What a tree does -/

/-- Two trees do the same on `s`, up to the nesting of their values. -/
structure Agrees (t : Sequencing κ ι α) (u : Sequencing κ ι β) (s : ι) : Prop where
  /-- The same happens, in the same order. -/
  log_eq : t.parser.log s = u.parser.log s
  /-- The same leaves are called on the same inputs. -/
  calls_eq : t.calls s = u.calls s
  /-- Both fail with one message, or succeed with the same parts and the same rest. -/
  outcome : Outcome.Related (fun x x' => t.values x.1 = u.values x'.1 ∧ x.2 = x'.2)
    (t.parser.outcome s) (u.parser.outcome s)

/-- Trees with the same leaves do the same. -/
theorem agrees_of_leaves_eq {t : Sequencing κ ι α} {u : Sequencing κ ι β}
    (h : t.leaves = u.leaves) (s : ι) : t.Agrees u s := by
  have hrun := h ▸ t.inTurn_leaves s
  rw [inTurn_leaves] at hrun
  refine ⟨congrArg Traced.log hrun.symm, by rw [calls_eq, calls_eq, h], ?_⟩
  have hparts := Outcome.related_of_map_eq (congrArg Traced.value hrun.symm)
  exact hparts.imp fun _ _ _ _ h => Prod.ext_iff.1 h

/-- A tree runs its leaves in turn, each on what the one before it left. Its value is the one way to
nest the values of the leaves in the shape of the tree. The first leaf that fails ends the run with
its message, and the leaves behind it are not called. So all nestings of the same leaves agree. -/
theorem runs_leaves_in_turn (t : Sequencing κ ι α) (s : ι) :
    Parser.inTurn t.leaves s =
        ⟨t.parser.log s, (t.parser.outcome s).map fun (v, r) => (t.values v, r)⟩ ∧
      Function.Injective t.values ∧
      t.calls s = (Parser.reached t.leaves s).zipIdx.map Prod.swap ∧
      (∀ x, t.parser.outcome s = .success x →
        (t.calls s).map Prod.fst = List.range t.leaves.length) ∧
      (∀ i e, Parser.FailsFirst t.leaves s i e →
        t.parser.outcome s = .failure e ∧ (t.calls s).map Prod.fst = List.range (i + 1)) ∧
      (∀ e, t.parser.outcome s = .failure e → ∃ i, Parser.FailsFirst t.leaves s i e) ∧
      (∀ {β : Type} (u : Sequencing κ ι β), u.leaves = t.leaves → u.Agrees t s) ∧
      ∃ p ps, t.leaves = p :: ps ∧ (leftFold p ps).2.Agrees t s ∧
        (rightFold p ps).2.Agrees t s := by
  have hvalue : (t.parser.outcome s).map (fun (v, r) => (t.values v, r)) =
      (Parser.inTurn t.leaves s).value := by rw [inTurn_leaves]
  refine ⟨t.inTurn_leaves s, t.values_injective, t.calls_eq s, ?_, ?_, ?_,
    fun u h => agrees_of_leaves_eq h s, ?_⟩
  · intro x hx
    rw [hx] at hvalue
    rw [map_fst_calls, Parser.length_reached hvalue.symm]
  · intro i e hfirst
    obtain ⟨hfail, hlength⟩ := hfirst.ends
    rw [map_fst_calls, hlength]
    exact ⟨Outcome.map_eq_failure.1 (hvalue.trans hfail), rfl⟩
  · intro e he
    rw [he] at hvalue
    exact Parser.exists_failsFirst hvalue.symm
  -- the folds are two of the trees with the same leaves
  · obtain ⟨p, ps, hps⟩ := List.exists_cons_of_ne_nil t.leaves_ne_nil
    exact ⟨p, ps, hps, agrees_of_leaves_eq ((leaves_leftFold p ps).trans hps.symm) s,
      agrees_of_leaves_eq ((leaves_rightFold p ps).trans hps.symm) s⟩

/-- Three leaves in two nestings, of which the last leaf fails; and a run in which none does. -/
theorem runs_leaves_in_turn_three :
    let a : Parser Unit (List Char) Char := .element 'a'
    let b : Parser Unit (List Char) Bool := (Parser.element 'b').map Char.isUpper
    let c : Parser Unit (List Char) Char := .firstOf [.element 'd', .element 'c']
    let t := andThen (leaf a) (andThen (leaf b) (leaf c))
    let u := andThen (andThen (leaf a) (leaf b)) (leaf c)
    u.leaves = t.leaves ∧
      t.parser.outcome ['a', 'b', 'c', 'z'] = .success (('a', false, 'c'), ['z']) ∧
      (t.calls ['a', 'b', 'c', 'z']).map Prod.fst = [0, 1, 2] ∧
      u.Agrees t ['a', 'b', 'c', 'z'] ∧
      Parser.FailsFirst t.leaves ['a', 'z', 'c'] 1 "Expecting 'b'. Got 'z'." ∧
      t.parser.outcome ['a', 'z', 'c'] = .failure "Expecting 'b'. Got 'z'." ∧
      (t.calls ['a', 'z', 'c']).map Prod.fst = [0, 1] ∧ u.Agrees t ['a', 'z', 'c'] := by
  intro a b c t u
  have hleaves : u.leaves = t.leaves := rfl
  have hsuccess : t.parser.outcome ['a', 'b', 'c', 'z'] = .success (('a', false, 'c'), ['z']) := rfl
  have hfirst : Parser.FailsFirst t.leaves ['a', 'z', 'c'] 1 "Expecting 'b'. Got 'z'." :=
    ⟨[⟨_, a⟩], ⟨_, b⟩, [⟨_, c⟩], [⟨Char, 'a'⟩], ['z', 'c'], rfl, rfl, rfl, rfl⟩
  obtain ⟨-, -, -, hcalls, -, -, hagrees, -⟩ := runs_leaves_in_turn t ['a', 'b', 'c', 'z']
  obtain ⟨-, -, -, -, hends, -, hagrees', -⟩ := runs_leaves_in_turn t ['a', 'z', 'c']
  obtain ⟨hfail, hcalls'⟩ := hends _ _ hfirst
  exact ⟨hleaves, hsuccess, hcalls _ hsuccess, hagrees u hleaves, hfirst, hfail, hcalls',
    hagrees' u hleaves⟩

end Sequencing

end ApplicativeParsing

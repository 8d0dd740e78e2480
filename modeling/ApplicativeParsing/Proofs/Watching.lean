import Mathlib.Data.Fin.VecNotation
import Mathlib.Data.List.Nodup
import Mathlib.Data.List.OfFn
import ApplicativeParsing.Grammar.Observation

/-!
# Watched runs

The calls of a run do not show which parts of a grammar succeeded in it: a part may end without a
call, and a part whose last call succeeded may have succeeded or still have to go on. A watched run
makes a note of every success as well, at the moment at which the part ends.

What a run can come to, and in which order, is read off the grammar. In this plan every function is
listed with the parts whose values it is called on. No two steps of the plan are alike, as each has
the path of its part.

## Main definitions

* `RunStep`: a call, or the success of a part.
* `Grammar.plan`: all steps of a grammar in the order in which a run may come to them.
* `Grammar.watched`: the parser that notes its steps; `Grammar.steps`, `Grammar.succeeded`.

## Main statements

* `Grammar.site?_plan`, `Grammar.nodup_order`: the calls that are planned are the sites of the
  grammar, and no site is listed twice.
* `Grammar.outcome_watched`, `Grammar.site?_steps`: watching changes neither the outcome of a run
  nor its calls.
-/

namespace ApplicativeParsing

variable {κ κ' ι ι' σ α α' β : Type}

/-- Where a site is. -/
def Site.path : Site σ → Path
  | element path _ => path
  | ret path => path
  | mapping path => path

/-- Where a function is called, if the site is one of a function. -/
def Site.mapping? : Site σ → Option Path
  | mapping path => some path
  | _ => none

/-- Something that a run comes to at a part of a grammar. -/
inductive RunStep (σ : Type) where
  /-- The parser for one element is called. -/
  | element (path : Path) (expected : σ)
  /-- The parser that yields a value without reading is called. -/
  | ret (path : Path)
  /-- The function of a mapping combinator is called on the values of its operands. -/
  | applied (path : Path) (operands : List Path)
  /-- The part succeeds. -/
  | succeeded (path : Path)
  deriving DecidableEq

namespace RunStep

/-- What is called, if something is. -/
def site? : RunStep σ → Option (Site σ)
  | element path e => some (.element path e)
  | ret path => some (.ret path)
  | applied path _ => some (.mapping path)
  | succeeded _ => none

/-- The part that succeeds, if one does. -/
def success? : RunStep σ → Option Path
  | succeeded path => some path
  | _ => none

/-- Where the step takes place. -/
def path : RunStep σ → Path
  | element path _ => path
  | ret path => path
  | applied path _ => path
  | succeeded path => path

/-- The place of a step, and whether something is called there. -/
def key (x : RunStep σ) : Path × Bool := (x.path, x.site?.isSome)

/-- A site that is called is at the place of the step. -/
theorem key_of_site? {x : RunStep σ} {c : Site σ} (h : x.site? = some c) :
    x.key = (c.path, true) := by
  cases x <;> cases h <;> rfl

end RunStep

/-! ### Plans -/

/-- Below a place the first step of a path leads to one child only. -/
theorem Path.child_unique {i j : Nat} {path z : Path} (hi : i :: path <:+ z)
    (hj : j :: path <:+ z) : i = j := by
  have hsuffix : i :: path <:+ j :: path := List.suffix_of_suffix_length_le hi hj (by simp)
  exact (List.cons.inj (hsuffix.eq_of_length (by simp))).1

/-- The steps of the part at `path`. They take place there or further inside, and no two of them are
calls, or successes, at the same place. -/
structure Laid (path : Path) (plan : List (RunStep σ)) : Prop where
  /-- A step takes place inside the part. -/
  inside : ∀ x ∈ plan, path <:+ x.path
  /-- No two steps are of one kind and at one place. -/
  nodup : (plan.map RunStep.key).Nodup

/-- What the part at `path` does after its children: it succeeds, possibly after a call. -/
inductive Ending (path : Path) : List (RunStep σ) → Prop where
  /-- There is nothing to call. -/
  | success : Ending path [.succeeded path]
  /-- Something is called at `path`. -/
  | call {x : RunStep σ} (h : x.key = (path, true)) : Ending path [x, .succeeded path]

namespace Ending

variable {path : Path} {own : List (RunStep σ)}

theorem path_eq (h : Ending path own) {x : RunStep σ} (hx : x ∈ own) : x.path = path := by
  cases h with
  | success => rw [List.mem_singleton.1 hx, RunStep.path]
  | call h =>
    rcases List.mem_pair.1 hx with rfl | rfl
    · exact congrArg Prod.fst h
    · rfl

theorem nodup (h : Ending path own) : (own.map RunStep.key).Nodup := by
  cases h with
  | success => exact List.nodup_singleton _
  | @call x h =>
    change [x.key, (path, false)].Nodup
    simp [h]

end Ending

namespace Laid

variable {path : Path} {l m own : List (RunStep σ)}

/-- The steps of the children of a part, one child after another, and then its own ones. -/
theorem node {n : Nat} (plans : Fin n → List (RunStep σ))
    (h : ∀ i, Laid (i.val :: path) (plans i)) (hown : Ending path own) :
    Laid path ((List.ofFn plans).flatten ++ own) := by
  -- a step of a child is below the place of the child
  have hchild : ∀ x ∈ (List.ofFn plans).flatten, ∃ i : Fin n, i.val :: path <:+ x.path := by
    intro x hx
    obtain ⟨l, hl, hx⟩ := List.mem_flatten.1 hx
    obtain ⟨i, rfl⟩ := List.mem_ofFn.1 hl
    exact ⟨i, (h i).inside x hx⟩
  refine ⟨fun x hx => ?_, ?_⟩
  · rcases List.mem_append.1 hx with hx | hx
    · obtain ⟨i, hi⟩ := hchild x hx
      exact (List.suffix_cons i.val path).trans hi
    · exact (hown.path_eq hx).symm ▸ List.suffix_rfl
  · have hnodup := hown.nodup
    rw [List.Nodup, List.pairwise_map] at hnodup ⊢
    refine List.pairwise_append.2 ⟨List.pairwise_flatten.2 ⟨fun l hl => ?_, ?_⟩, hnodup, ?_⟩
    · obtain ⟨i, rfl⟩ := List.mem_ofFn.1 hl
      exact List.pairwise_map.1 (h i).nodup
    -- steps of two children are below different places
    · refine List.pairwise_ofFn.2 fun i j hij x hx y hy hkey => ?_
      have hpath : x.path = y.path := congrArg Prod.fst hkey
      have hval := Path.child_unique ((h i).inside x hx) (hpath ▸ (h j).inside y hy)
      exact absurd hval (Nat.ne_of_lt hij)
    -- a step of a child is not at the place of its parent
    · intro x hx y hy hkey
      obtain ⟨i, hi⟩ := hchild x hx
      have hpath : x.path = path := (congrArg Prod.fst hkey).trans (hown.path_eq hy)
      have hlength := (hpath ▸ hi).length_le
      rw [List.length_cons] at hlength
      omega

theorem leaf (hown : Ending path own) : Laid path own :=
  node (n := 0) nofun nofun hown

theorem one (h : Laid (0 :: path) l) (hown : Ending path own) : Laid path (l ++ own) := by
  have hnode := node (fun _ : Fin 1 => l) (fun i => by rwa [Fin.fin_one_eq_zero i]) hown
  simpa using hnode

theorem two (hl : Laid (0 :: path) l) (hm : Laid (1 :: path) m) (hown : Ending path own) :
    Laid path (l ++ m ++ own) := by
  have hnode := node ![l, m] (Fin.forall_fin_two.2 ⟨hl, hm⟩) hown
  simpa using hnode

end Laid

namespace Grammar

/-- The steps of a grammar at `path`, in the order in which a run may come to them. -/
def plan (path : Path) : {α : Type} → Grammar σ α → List (RunStep σ)
  | _, element e => [.element path e, .succeeded path]
  | _, ret _ => [.ret path, .succeeded path]
  | _, andThen p q => p.plan (0 :: path) ++ q.plan (1 :: path) ++ [.succeeded path]
  | _, orElse p q => p.plan (0 :: path) ++ q.plan (1 :: path) ++ [.succeeded path]
  | _, choice ps => (List.ofFn fun i => (ps i).plan (i.val :: path)).flatten ++ [.succeeded path]
  | _, select p _ => p.plan (0 :: path) ++ [.applied path [0 :: path]] ++ [.succeeded path]
  | _, apply arg fn =>
    fn.plan (0 :: path) ++ arg.plan (1 :: path) ++ [.applied path [0 :: path, 1 :: path]] ++
      [.succeeded path]
  | _, lift₂ _ x y =>
    x.plan (0 :: path) ++ y.plan (1 :: path) ++ [.applied path [0 :: path, 1 :: path]] ++
      [.succeeded path]
  | _, boxed p => p.plan (0 :: path) ++ [.succeeded path]

/-- The calls in a plan are the sites in their order. -/
theorem site?_plan (path : Path) (p : Grammar σ α) :
    (p.plan path).filterMap RunStep.site? = p.order path := by
  induction p generalizing path with
  | element e => rfl
  | ret a => rfl
  | andThen p q ihp ihq => simp [plan, order, RunStep.site?, ihp, ihq]
  | orElse p q ihp ihq => simp [plan, order, RunStep.site?, ihp, ihq]
  | choice ps ih =>
    simp [plan, order, RunStep.site?, List.filterMap_flatten, List.map_ofFn, Function.comp_def, ih]
  | select p f ih => simp [plan, order, RunStep.site?, ih]
  | apply arg fn iha ihf => simp [plan, order, RunStep.site?, iha, ihf]
  | lift₂ f x y ihx ihy => simp [plan, order, RunStep.site?, ihx, ihy]
  | boxed p ih => simp [plan, order, RunStep.site?, ih]

/-- The steps of a grammar are told apart by their places. -/
theorem laid_plan (path : Path) (p : Grammar σ α) : Laid path (p.plan path) := by
  induction p generalizing path with
  | element e => exact .leaf (.call rfl)
  | ret a => exact .leaf (.call rfl)
  | andThen p q ihp ihq => exact (ihp _).two (ihq _) .success
  | orElse p q ihp ihq => exact (ihp _).two (ihq _) .success
  | choice ps ih => exact .node _ (fun i => ih i _) .success
  | select p f ih =>
    -- the call of the function and the success belong to the part itself
    rw [plan, List.append_assoc]
    exact (ih _).one (.call rfl)
  | apply arg fn iha ihf =>
    rw [plan, List.append_assoc]
    exact (ihf _).two (iha _) (.call rfl)
  | lift₂ f x y ihx ihy =>
    rw [plan, List.append_assoc]
    exact (ihx _).two (ihy _) (.call rfl)
  | boxed p ih => exact (ih _).one .success

/-- No step is planned twice. -/
theorem nodup_plan (path : Path) (p : Grammar σ α) : (p.plan path).Nodup :=
  (laid_plan path p).nodup.of_map

/-- No site is listed twice. -/
theorem nodup_order (path : Path) (p : Grammar σ α) : (p.order path).Nodup := by
  have hnodup := (laid_plan path p).nodup
  rw [List.Nodup, List.pairwise_map] at hnodup
  rw [← site?_plan]
  -- steps that call the same site have the same key
  refine hnodup.filterMap _ fun x y hkey c hc d hd hcd => hkey ?_
  rw [RunStep.key_of_site? hc, RunStep.key_of_site? hd, hcd]

end Grammar

/-! ### Watching -/

/-- Transform the value of `p`, and note `k` when that happens. -/
def Parser.noting (k : κ) (f : α → β) (p : Parser κ ι α) : Parser κ ι β :=
  p.select fun a => do
    Traced.note k
    return f a

namespace Grammar

/-- The parser of a grammar at `path`, which notes its steps. -/
def watched [Input ι σ] [BEq σ] [ToString σ] (path : Path) :
    {α : Type} → Grammar σ α → Parser (RunStep σ) ι α
  | _, element e =>
    ((Parser.element e).probe fun _ => .element path e).noting (.succeeded path) id
  | _, ret a => ((Parser.ret a).probe fun _ => .ret path).noting (.succeeded path) id
  | _, andThen p q =>
    ((p.watched (0 :: path)).andThen (q.watched (1 :: path))).noting (.succeeded path) id
  | _, orElse p q =>
    ((p.watched (0 :: path)).orElse (q.watched (1 :: path))).noting (.succeeded path) id
  | _, choice ps =>
    (Choice.ofFn fun i => (ps i).watched (i.val :: path)).parser.noting (.succeeded path) id
  | _, select p f =>
    ((p.watched (0 :: path)).noting (.applied path [0 :: path]) f).noting (.succeeded path) id
  | _, apply arg fn =>
    (Parser.apply (arg.watched (1 :: path)) <|
      (fn.watched (0 :: path)).map fun f a => do
        Traced.note (.applied path [0 :: path, 1 :: path])
        return f a).noting (.succeeded path) id
  | _, lift₂ f x y =>
    (Parser.lift₂ (fun a b => do
      Traced.note (.applied path [0 :: path, 1 :: path])
      return f a b) (x.watched (0 :: path)) (y.watched (1 :: path))).noting (.succeeded path) id
  | _, boxed p => (p.watched (0 :: path)).noting (.succeeded path) id

/-- The steps in a run of a grammar, in order. -/
def steps [Input ι σ] [BEq σ] [ToString σ] (p : Grammar σ α) (s : ι) : List (RunStep σ) :=
  ((p.watched []).run s).notes

/-- The places of the functions that are called in a run of a grammar, in order. -/
def functionCalls [Input ι σ] [BEq σ] [ToString σ] (p : Grammar σ α) (s : ι) : List Path :=
  ((p.calls s).map Call.site).filterMap Site.mapping?

/-- The parts that are run and succeed in a run of a grammar, in the order in which they end. -/
def succeeded [Input ι σ] [BEq σ] [ToString σ] (p : Grammar σ α) (s : ι) : List Path :=
  (p.steps s).filterMap RunStep.success?

end Grammar

/-- Logs of the same calls: on one side they are noted as steps, and on the other with their
inputs. -/
def LogRelation.sites : LogRelation (RunStep σ) (Call ι σ) where
  Rel l l' := (l.filterMap Entry.note?).filterMap RunStep.site? =
    (l'.filterMap Entry.note?).map Call.site
  nil := rfl
  append h h' := by
    rw [List.filterMap_append, List.filterMap_append, h, h', List.filterMap_append, List.map_append]
  event _ := rfl

/-- A note that no log on the other side has to match may be made in the end. -/
theorem Parser.Related.noting {L : LogRelation κ κ'} {R : ι → ι' → Prop} {S : α → α' → Prop}
    {p : Parser κ ι α} {p' : Parser κ' ι' α'} {k : κ} (h : Related L R S p p')
    (hk : L.Rel [.note k] []) : Related L R S (p.noting k id) p' := by
  intro s s' hs
  obtain ⟨hl, ho⟩ := h hs
  -- what is noted after a success stands against nothing on the other side
  rw [Parser.noting, log_select, outcome_select, ← List.append_nil (p'.log s')]
  revert ho
  generalize p.outcome s = o, p'.outcome s' = o'
  rintro (hx | e)
  · exact ⟨L.append hl hk, .success hx⟩
  · exact ⟨L.append hl L.nil, .failure e⟩

namespace Grammar

/-- The call of a function is noted on both sides. -/
private theorem applied_related (path : Path) (operands : List Path) (f : α → β) :
    Parser.RelatedMapping (.sites : LogRelation (RunStep σ) (Call ι σ)) Eq Eq
      (fun a => do Traced.note (.applied path operands); return f a)
      fun a => do Traced.note (.mapping path); return f a :=
  fun _ _ h => ⟨rfl, congrArg f h⟩

variable [Input ι σ] [BEq σ] [ToString σ]

/-- The watched parser makes the calls of the observed one and has the same outcomes. -/
theorem watched_related (path : Path) (p : Grammar σ α) :
    Parser.Related LogRelation.sites Eq Eq (p.watched path : Parser _ ι α) (p.observed path) := by
  induction p generalizing path with
  | element e =>
    have h : Parser.Related LogRelation.sites Eq Eq (.element e : Parser (RunStep σ) ι σ)
        (.element e : Parser (Call ι σ) ι σ) := .element Input.Simulation.eq e
    exact (Parser.Related.probe (fun _ _ _ => rfl) h).noting rfl
  | ret a => exact (Parser.Related.probe (fun _ _ _ => rfl) (.ret rfl)).noting rfl
  | andThen p q ihp ihq =>
    exact (((ihp _).andThen (ihq _)).mono fun _ _ h => Prod.ext h.1 h.2).noting rfl
  | orElse p q ihp ihq => exact ((ihp _).orElse (ihq _)).noting rfl
  | choice ps ih => exact (Parser.Related.choice fun i => ih i _).noting rfl
  | select p f ih => exact ((ih _).select (applied_related path _ f)).noting rfl
  | apply arg fn iha ihf =>
    -- equal functions become mappings that note one call on each side
    refine ((iha _).apply ((ihf _).map ?_)).noting rfl
    rintro f _ rfl
    exact applied_related path _ f
  | lift₂ f x y ihx ihy =>
    refine (Parser.Related.lift₂ ?_ (ihx _) (ihy _)).noting rfl
    rintro a _ rfl
    exact applied_related path _ (f a)
  | boxed p ih => exact (ih _).noting rfl

/-- Watching does not change outcomes. -/
theorem outcome_watched (path : Path) (p : Grammar σ α) (s : ι) :
    (p.watched path).outcome s = (p.parser : Parser κ ι α).outcome s :=
  (watched_related path p rfl).2.eq.trans (outcome_observed path p s)

/-- The calls among the steps of a run are the calls of the run. -/
theorem site?_steps (p : Grammar σ α) (s : ι) :
    (p.steps s).filterMap RunStep.site? = (p.calls s).map Call.site :=
  (watched_related [] p rfl).1

end Grammar

end ApplicativeParsing

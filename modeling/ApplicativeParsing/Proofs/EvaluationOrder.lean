import ApplicativeParsing.Proofs.Recovery
import ApplicativeParsing.Proofs.Watching

/-!
# Evaluation order

A run goes through the plan of a grammar once, from the front to the back, and leaves steps out
where a failure ends a sequence or a success ends a choice. It never turns back: an alternative
reads the same input again, but no part is run twice. A function is called when all its operands
have succeeded.

Whether a step is among those of a run is decided within the part that it belongs to, because all
steps of the plan are different. So what is known about the steps of a part stays true when the run
goes on with other parts. Without alternatives nothing is left out in front of a step that is made,
and the steps of a run are the first ones of the plan.

## Main definitions

* `Consistent`: steps of a run as they may be left of a plan.
* `Parser.Follows`, `Parser.Reports`: the runs of a parser are consistent with a plan, and show
  whether they succeeded.
* `Parser.Straight`: runs that leave out nothing but the end of a plan.

## Main statements

* `Grammar.reports_watched`, `Grammar.straight_watched`: the runs of a grammar.
* `Grammar.calls_in_order`: which calls are made, in which order and how often.
-/

namespace ApplicativeParsing

variable {κ ι σ α β γ : Type}

/-! ### Steps and plans -/

/-- The operands of every function are planned with it, and there is at least one. -/
def Closed (plan : List (RunStep σ)) : Prop :=
  ∀ path operands, .applied path operands ∈ plan →
    operands ≠ [] ∧ ∀ o ∈ operands, .succeeded o ∈ plan

/-- Steps are left of a plan in its order, and a function is among them exactly when all its
operands have succeeded. -/
structure Consistent (plan steps : List (RunStep σ)) : Prop where
  /-- The steps are some of the plan, in its order. -/
  sublist : steps.Sublist plan
  /-- A function is called when its operands have succeeded. -/
  applied_iff : ∀ path operands, .applied path operands ∈ plan →
    (.applied path operands ∈ steps ↔ ∀ o ∈ operands, .succeeded o ∈ steps)

section

variable {l m x y : List (RunStep σ)} {path : Path} {operands : List Path}

theorem Closed.append (hl : Closed l) (hm : Closed m) : Closed (l ++ m) := by
  intro path operands h
  rcases List.mem_append.1 h with h | h
  · obtain ⟨hne, hmem⟩ := hl path operands h
    exact ⟨hne, fun o ho => List.mem_append_left m (hmem o ho)⟩
  · obtain ⟨hne, hmem⟩ := hm path operands h
    exact ⟨hne, fun o ho => List.mem_append_right l (hmem o ho)⟩

/-- A function may be planned behind its operands. -/
theorem Closed.concat (hl : Closed l) (hne : operands ≠ [])
    (hmem : ∀ o ∈ operands, .succeeded o ∈ l) : Closed (l ++ [.applied path operands]) := by
  intro path' operands' h
  rcases List.mem_append.1 h with h | h
  · obtain ⟨hne', hmem'⟩ := hl path' operands' h
    exact ⟨hne', fun o ho => List.mem_append_left _ (hmem' o ho)⟩
  · cases List.mem_singleton.1 h
    exact ⟨hne, fun o ho => List.mem_append_left _ (hmem o ho)⟩

/-- A step of one part of a plan is not made in another one. -/
private theorem mem_append_iff_left (hnodup : (l ++ m).Nodup) (hy : y.Sublist m) {z : RunStep σ}
    (hz : z ∈ l) : z ∈ x ++ y ↔ z ∈ x := by
  rw [List.mem_append, or_iff_left]
  exact fun hzy => List.disjoint_of_nodup_append hnodup hz (hy.subset hzy)

private theorem mem_append_iff_right (hnodup : (l ++ m).Nodup) (hx : x.Sublist l) {z : RunStep σ}
    (hz : z ∈ m) : z ∈ x ++ y ↔ z ∈ y := by
  rw [List.mem_append, or_iff_right]
  exact fun hzx => List.disjoint_of_nodup_append hnodup (hx.subset hzx) hz

namespace Consistent

/-- A part that is not run. -/
theorem nil (hl : Closed l) : Consistent l [] where
  sublist := List.nil_sublist l
  applied_iff path operands h := by
    obtain ⟨o, ho⟩ := List.exists_mem_of_ne_nil operands (hl path operands h).1
    exact ⟨fun hmem => absurd hmem List.not_mem_nil,
      fun hall => absurd (hall o ho) List.not_mem_nil⟩

/-- Steps of one part of a plan may be followed by steps of the next. -/
theorem append (hx : Consistent l x) (hy : Consistent m y) (hnodup : (l ++ m).Nodup)
    (hl : Closed l) (hm : Closed m) : Consistent (l ++ m) (x ++ y) where
  sublist := hx.sublist.append hy.sublist
  applied_iff path operands h := by
    -- a function is planned in one part with its operands, and the other part has none of these
    rcases List.mem_append.1 h with h | h
    · rw [mem_append_iff_left hnodup hy.sublist h, hx.applied_iff path operands h]
      exact forall₂_congr fun o ho =>
        (mem_append_iff_left hnodup hy.sublist ((hl path operands h).2 o ho)).symm
    · rw [mem_append_iff_right hnodup hx.sublist h, hy.applied_iff path operands h]
      exact forall₂_congr fun o ho =>
        (mem_append_iff_right hnodup hx.sublist ((hm path operands h).2 o ho)).symm

/-- A function is called behind its operands if all of them have succeeded. -/
theorem call (hx : Consistent l x) (hnodup : (l ++ [RunStep.applied path operands]).Nodup)
    (hy : y.Sublist [.applied path operands])
    (hiff : .applied path operands ∈ y ↔ ∀ o ∈ operands, .succeeded o ∈ x) :
    Consistent (l ++ [.applied path operands]) (x ++ y) where
  sublist := hx.sublist.append hy
  applied_iff path' operands' h := by
    -- the call itself is no success
    have hmem (o : Path) : .succeeded o ∈ x ++ y ↔ RunStep.succeeded o ∈ x := by
      rw [List.mem_append, or_iff_left]
      exact fun h => nomatch List.mem_singleton.1 (hy.subset h)
    simp only [hmem]
    rcases List.mem_append.1 h with h | h
    · rw [mem_append_iff_left hnodup hy h, hx.applied_iff path' operands' h]
    · rw [mem_append_iff_right hnodup hx.sublist h]
      cases List.mem_singleton.1 h
      exact hiff

end Consistent

end

/-! ### Parsers and plans -/

/-- To transform values does not make a failure of a success. -/
theorem Outcome.isSuccess_map (f : α → β) (o : Outcome α) : (o.map f).isSuccess = o.isSuccess := by
  cases o <;> rfl

namespace Parser

/-- A parser that makes no notes of its own. -/
theorem notes_probe (k : κ) {p : Parser κ ι α} (hp : ∀ s, p.log s = []) (s : ι) :
    ((p.probe fun _ => k).run s).notes = [k] := by
  rw [Traced.notes_eq_filterMap, ← log, log_probe, hp s]
  rfl

/-- What `noting` adds to the notes of a run, which succeeds or not. -/
def noted (k : κ) (success : Bool) : List κ := if success then [k] else []

theorem noted_sublist (k : κ) (success : Bool) : (noted k success).Sublist [k] := by
  cases success with
  | true => exact List.Sublist.refl _
  | false => exact List.nil_sublist _

theorem mem_noted {k : κ} {success : Bool} : k ∈ noted k success ↔ success = true := by
  cases success <;> simp [noted]

theorem notes_noting (k : κ) (f : α → β) (p : Parser κ ι α) (s : ι) :
    ((p.noting k f).run s).notes =
      (p.run s).notes ++ noted k (p.outcome s).isSuccess := by
  rw [noting, notes_select]
  rcases p.outcome s with ⟨a, r⟩ | e <;> rfl

theorem isSuccess_noting (k : κ) (f : α → β) (p : Parser κ ι α) (s : ι) :
    ((p.noting k f).outcome s).isSuccess = (p.outcome s).isSuccess := by
  rw [noting, outcome_select, Outcome.isSuccess_map]

/-- The runs of a parser are consistent with a plan, as far as its steps are different. -/
structure Follows (plan : List (RunStep σ)) (p : Parser (RunStep σ) ι α) : Prop where
  /-- Operands are planned with their functions. -/
  closed : Closed plan
  /-- The steps of every run are consistent with the plan. -/
  consistent : plan.Nodup → ∀ s, Consistent plan (p.run s).notes

/-- A parser for the part at `path` follows a plan, and shows its successes. -/
structure Reports (path : Path) (plan : List (RunStep σ)) (p : Parser (RunStep σ) ι α) : Prop
    extends Follows plan p where
  /-- The success of the part is planned. -/
  planned : .succeeded path ∈ plan
  /-- The success of the part is noted in the runs that succeed. -/
  noted_iff : plan.Nodup → ∀ s,
    .succeeded path ∈ (p.run s).notes ↔ (p.outcome s).isSuccess = true

namespace Follows

variable {l m : List (RunStep σ)}

theorem fail (e : String) : Follows [] (Parser.fail e : Parser (RunStep σ) ι α) where
  closed _ _ h := absurd h List.not_mem_nil
  consistent _ _ := .nil fun _ _ h => absurd h List.not_mem_nil

/-- A parser that is no more than one call, of something that is not a function. -/
theorem probe (k : RunStep σ) {p : Parser (RunStep σ) ι α}
    (hk : ∀ path operands, k ≠ .applied path operands) (hp : ∀ s, p.log s = []) :
    Follows [k] (p.probe fun _ => k) where
  closed path operands h := absurd (List.mem_singleton.1 h).symm (hk path operands)
  consistent _ s := by
    rw [notes_probe k hp s]
    exact ⟨List.Sublist.refl _, fun path operands h =>
      absurd (List.mem_singleton.1 h).symm (hk path operands)⟩

theorem andThen {p : Parser (RunStep σ) ι α} {q : Parser (RunStep σ) ι β} (hp : Follows l p)
    (hq : Follows m q) : Follows (l ++ m) (p.andThen q) where
  closed := hp.closed.append hq.closed
  consistent hnodup s := by
    have hps := hp.consistent hnodup.of_append_left s
    have hqs := hq.consistent hnodup.of_append_right
    rw [notes_andThen]
    refine hps.append ?_ hnodup hp.closed hq.closed
    -- after a failure of the first part all steps of the second one are left out
    rcases p.outcome s with ⟨a, r⟩ | e
    · exact hqs r
    · exact .nil hq.closed

theorem recover {event : String → Event} {p : Parser (RunStep σ) ι α}
    {q : String → Parser (RunStep σ) ι α} (hp : Follows l p) (hq : ∀ e, Follows m (q e)) :
    Follows (l ++ m) (p.recover event q) where
  closed := hp.closed.append (hq "").closed
  consistent hnodup s := by
    have hps := hp.consistent hnodup.of_append_left s
    have hqs := fun e => (hq e).consistent hnodup.of_append_right s
    rw [notes_recover]
    refine hps.append ?_ hnodup hp.closed (hq "").closed
    -- and after a success all steps of the recovery
    rcases p.outcome s with r | e
    · exact .nil (hq "").closed
    · exact hqs e

theorem orElse {p q : Parser (RunStep σ) ι α} (hp : Follows l p) (hq : Follows m q) :
    Follows (l ++ m) (p.orElse q) := by
  rw [orElse_eq_recover]
  exact hp.recover fun _ => hq

theorem choice {n : Nat} {plans : Fin (n + 1) → List (RunStep σ)}
    {ps : Fin (n + 1) → Parser (RunStep σ) ι α} (h : ∀ i, Follows (plans i) (ps i)) :
    Follows (List.ofFn plans).flatten (Choice.ofFn ps).parser :=
  Choice.ofFn_induction fail recover plans h

/-- A function is called when the parser of its operands succeeds, and this shows in its steps. -/
theorem call {path : Path} {operands : List Path} {p : Parser (RunStep σ) ι α} (f : α → β)
    (hp : Follows l p) (hne : operands ≠ []) (hmem : ∀ o ∈ operands, .succeeded o ∈ l)
    (hiff : l.Nodup → ∀ s,
      (p.outcome s).isSuccess = true ↔ ∀ o ∈ operands, .succeeded o ∈ (p.run s).notes) :
    Follows (l ++ [.applied path operands]) (p.noting (.applied path operands) f) where
  closed := hp.closed.concat hne hmem
  consistent hnodup s := by
    have hl := hnodup.of_append_left
    rw [notes_noting]
    exact (hp.consistent hl s).call hnodup (noted_sublist _ _) (mem_noted.trans (hiff hl s))

/-- The success of a part is noted behind everything else. -/
theorem reports {path : Path} {p : Parser (RunStep σ) ι α} (f : α → β) (hp : Follows l p) :
    Reports path (l ++ [.succeeded path]) (p.noting (.succeeded path) f) where
  closed := hp.closed.append fun _ _ h => nomatch List.mem_singleton.1 h
  consistent hnodup s := by
    have hclosed : Closed [RunStep.succeeded (σ := σ) path] :=
      fun _ _ h => nomatch List.mem_singleton.1 h
    rw [notes_noting]
    refine (hp.consistent hnodup.of_append_left s).append ?_ hnodup hp.closed hclosed
    exact ⟨noted_sublist _ _, fun _ _ h => nomatch List.mem_singleton.1 h⟩
  planned := List.mem_append_right l List.mem_cons_self
  noted_iff hnodup s := by
    have hps := hp.consistent hnodup.of_append_left s
    rw [notes_noting, isSuccess_noting,
      mem_append_iff_right hnodup hps.sublist List.mem_cons_self, mem_noted]

end Follows

namespace Reports

variable {path : Path} {l m : List (RunStep σ)}

/-- The function of a mapping combinator with one operand. -/
theorem call₁ {p : Parser (RunStep σ) ι α} (f : α → β) (hp : Reports (0 :: path) l p) :
    Follows (l ++ [.applied path [0 :: path]]) (p.noting (.applied path [0 :: path]) f) := by
  refine hp.toFollows.call f (List.cons_ne_nil _ _) ?_ fun hl s => ?_
  · exact List.forall_mem_singleton.2 hp.planned
  · rw [List.forall_mem_singleton]
    exact (hp.noted_iff hl s).symm

/-- The function of a mapping combinator with two operands. -/
theorem call₂ {p : Parser (RunStep σ) ι α} {q : Parser (RunStep σ) ι β} (f : α → β → γ)
    (hp : Reports (0 :: path) l p) (hq : Reports (1 :: path) m q) :
    Follows (l ++ m ++ [.applied path [0 :: path, 1 :: path]])
      ((p.andThen q).noting (.applied path [0 :: path, 1 :: path]) fun v => f v.1 v.2) := by
  refine (hp.toFollows.andThen hq.toFollows).call _ (List.cons_ne_nil _ _) ?_ fun hlm s => ?_
  · rw [List.forall_mem_cons, List.forall_mem_singleton]
    exact ⟨List.mem_append_left m hp.planned, List.mem_append_right l hq.planned⟩
  · have hp' := hp.noted_iff hlm.of_append_left s
    have hq' := hq.noted_iff hlm.of_append_right
    have hps := (hp.consistent hlm.of_append_left s).sublist
    rw [List.forall_mem_cons, List.forall_mem_singleton, notes_andThen, outcome_andThen,
      mem_append_iff_right hlm hps hq.planned]
    rcases ho : p.outcome s with ⟨a, r⟩ | e
    -- the first operand has succeeded, so the second one decides
    · rw [ho] at hp'
      rw [Outcome.andThen_success, Outcome.isSuccess_map, hq' r]
      exact (and_iff_right (List.mem_append_left _ (hp'.2 rfl))).symm
    · exact ⟨fun h => (nomatch h), fun h => absurd h.2 List.not_mem_nil⟩

end Reports

/-! ### Without alternatives -/

/-- The notes of every run are the first ones of a plan, and the whole plan if the run succeeds. -/
structure Straight (plan : List κ) (p : Parser κ ι α) : Prop where
  /-- Nothing is left out before the end. -/
  isPrefix : ∀ s, (p.run s).notes <+: plan
  /-- Nothing is left out by a success. -/
  complete : ∀ s, (p.outcome s).isSuccess = true → (p.run s).notes = plan

namespace Straight

variable {l m : List κ}

theorem probe (k : κ) {p : Parser κ ι α} (hp : ∀ s, p.log s = []) :
    Straight [k] (p.probe fun _ => k) where
  isPrefix s := notes_probe k hp s ▸ List.prefix_rfl
  complete s _ := notes_probe k hp s

theorem andThen {p : Parser κ ι α} {q : Parser κ ι β} (hp : Straight l p) (hq : Straight m q) :
    Straight (l ++ m) (p.andThen q) where
  isPrefix s := by
    rw [notes_andThen]
    rcases ho : p.outcome s with ⟨a, r⟩ | e
    · rw [hp.complete s (by rw [ho]; rfl)]
      exact (List.prefix_append_right_inj l).2 (hq.isPrefix r)
    · rw [List.append_nil]
      exact (hp.isPrefix s).trans (List.prefix_append l m)
  complete s h := by
    rw [outcome_andThen] at h
    rw [notes_andThen]
    rcases ho : p.outcome s with ⟨a, r⟩ | e
    · rw [ho, Outcome.andThen_success, Outcome.isSuccess_map] at h
      rw [hp.complete s (by rw [ho]; rfl)]
      exact congrArg (l ++ ·) (hq.complete r h)
    · rw [ho] at h
      cases h

theorem noting {p : Parser κ ι α} (hp : Straight l p) (k : κ) (f : α → β) :
    Straight (l ++ [k]) (p.noting k f) where
  isPrefix s := by
    rw [notes_noting]
    cases h : (p.outcome s).isSuccess with
    | true => exact hp.complete s h ▸ List.prefix_rfl
    | false => exact (List.append_nil _).symm ▸ (hp.isPrefix s).trans (List.prefix_append l [k])
  complete s h := by
    rw [isSuccess_noting] at h
    rw [notes_noting, hp.complete s h, h]
    rfl

end Straight

end Parser

/-! ### Grammars -/

namespace Grammar

variable [Input ι σ] [BEq σ] [ToString σ]

/-- The runs of a grammar follow its plan, and show the successes of its parts. -/
theorem reports_watched (path : Path) (p : Grammar σ α) :
    (p.watched path : Parser _ ι α).Reports path (p.plan path) := by
  induction p generalizing path with
  | element e =>
    exact (Parser.Follows.probe (.element path e) nofun (Parser.log_element e)).reports id
  | ret a => exact (Parser.Follows.probe (.ret path) nofun (Parser.log_ret a)).reports id
  | andThen p q ihp ihq => exact ((ihp _).toFollows.andThen (ihq _).toFollows).reports id
  | orElse p q ihp ihq => exact ((ihp _).toFollows.orElse (ihq _).toFollows).reports id
  | choice ps ih =>
    have hfollows := Parser.Follows.choice fun i => (ih i (i.val :: path)).toFollows
    exact hfollows.reports id
  | select p f ih => exact ((ih _).call₁ f).reports id
  | apply arg fn iha ihf =>
    -- the functions are read in front of their arguments, and are the first operand
    rw [watched, Parser.apply_map_eq_lift₂, Parser.lift₂_eq_select]
    have hfollows := (ihf (0 :: path)).call₂ (fun f a => f a) (iha (1 :: path))
    exact hfollows.reports id
  | lift₂ f x y ihx ihy =>
    rw [watched, Parser.lift₂_eq_select]
    have hfollows := (ihx (0 :: path)).call₂ f (ihy (1 :: path))
    exact hfollows.reports id
  | boxed p ih => exact (ih _).toFollows.reports id

/-- Without alternatives the runs of a grammar go straight through its plan. -/
theorem straight_watched {p : Grammar σ α} (h : p.Sequential) (path : Path) :
    (p.watched path : Parser _ ι α).Straight (p.plan path) := by
  induction p generalizing path with
  | element e =>
    exact (Parser.Straight.probe (RunStep.element path e) (Parser.log_element e)).noting _ _
  | ret a => exact (Parser.Straight.probe (RunStep.ret path) (Parser.log_ret a)).noting _ _
  | andThen p q ihp ihq => exact ((ihp h.1 _).andThen (ihq h.2 _)).noting _ _
  | orElse p q ihp ihq => exact h.elim
  | choice ps ih => exact h.elim
  | select p f ih => exact ((ih h _).noting _ f).noting _ _
  | apply arg fn iha ihf =>
    rw [watched, Parser.apply_map_eq_lift₂, Parser.lift₂_eq_select]
    exact (((ihf h.2 _).andThen (iha h.1 _)).noting _ fun v => v.1 v.2).noting _ _
  | lift₂ f x y ihx ihy =>
    rw [watched, Parser.lift₂_eq_select]
    exact (((ihx h.1 _).andThen (ihy h.2 _)).noting _ fun v => f v.1 v.2).noting _ _
  | boxed p ih => exact (ih h _).noting _ _

/-- The steps of a run are consistent with the plan. -/
theorem consistent_steps (p : Grammar σ α) (s : ι) : Consistent (p.plan []) (p.steps s) :=
  (reports_watched [] p).consistent (nodup_plan [] p) s

/-- The calls of a run are some of the sites, in their order. -/
theorem calls_sublist_order (p : Grammar σ α) (s : ι) :
    ((p.calls s).map Call.site).Sublist (p.order []) := by
  rw [← site?_steps, ← site?_plan]
  exact (consistent_steps p s).sublist.filterMap _

/-- Without alternatives the calls of a run are the first sites, and all of them after a success. -/
theorem calls_prefix_order {p : Grammar σ α} (h : p.Sequential) (s : ι) :
    (p.calls s).map Call.site <+: p.order [] ∧
      (((p.parser : Parser κ ι α).outcome s).isSuccess = true →
        (p.calls s).map Call.site = p.order []) := by
  have hstraight : (p.watched [] : Parser _ ι α).Straight (p.plan []) := straight_watched h []
  rw [← site?_steps, ← site?_plan, ← outcome_watched []]
  exact ⟨(hstraight.isPrefix s).filterMap _, fun hs => congrArg _ (hstraight.complete s hs)⟩

theorem mem_succeeded {p : Grammar σ α} {s : ι} {path : Path} :
    path ∈ p.succeeded s ↔ .succeeded path ∈ p.steps s := by
  rw [succeeded, List.mem_filterMap]
  constructor
  · rintro ⟨x, hx, hpath⟩
    cases x <;> cases hpath
    exact hx
  · exact fun h => ⟨_, h, rfl⟩

/-- The only step that calls the function at a place is the planned one. -/
theorem mem_functionCalls {p : Grammar σ α} {s : ι} {path : Path} {operands : List Path}
    (h : .applied path operands ∈ p.plan []) :
    path ∈ p.functionCalls s ↔ .applied path operands ∈ p.steps s := by
  have hsite : path ∈ p.functionCalls s ↔
      Site.mapping path ∈ (p.steps s).filterMap RunStep.site? := by
    rw [site?_steps, functionCalls, List.mem_filterMap]
    constructor
    · rintro ⟨c, hc, hpath⟩
      cases c <;> cases hpath
      exact hc
    · exact fun h => ⟨_, h, rfl⟩
  rw [hsite, List.mem_filterMap]
  constructor
  · rintro ⟨x, hx, hpath⟩
    -- the step is a planned one with the key of the function, and no other step has this key
    have hplan : x ∈ p.plan [] := (consistent_steps p s).sublist.subset hx
    have hkey : x.key = (RunStep.applied path operands).key :=
      (RunStep.key_of_site? hpath).trans (RunStep.key_of_site? rfl).symm
    have heq := List.inj_on_of_nodup_map (laid_plan [] p).nodup hplan h hkey
    exact heq ▸ hx
  · exact fun h => ⟨_, h, rfl⟩

/-- A function is called once if all its operands have succeeded, and not at all otherwise. -/
theorem count_functionCalls {p : Grammar σ α} (s : ι) {path : Path} {operands : List Path}
    (h : .applied path operands ∈ p.plan []) :
    (p.functionCalls s).count path = if ∀ o ∈ operands, o ∈ p.succeeded s then 1 else 0 := by
  have hnodup : (p.functionCalls s).Nodup := by
    -- a path belongs to one function site at most
    have hcalls := (calls_sublist_order p s).nodup (nodup_order [] p)
    refine hcalls.filterMap fun c d path hc hd => ?_
    cases c <;> cases hc
    cases d <;> cases hd
    rfl
  have hiff : path ∈ p.functionCalls s ↔ ∀ o ∈ operands, o ∈ p.succeeded s := by
    rw [mem_functionCalls h]
    simp only [mem_succeeded]
    exact (consistent_steps p s).applied_iff path operands h
  rw [hnodup.count]
  exact if_congr hiff rfl rfl

/-- The calls of a run are some of the sites of the grammar, each at most once and in their order.
The function at a place is called exactly once if all its operands were run and succeeded, and not
at all otherwise, where the plan has all functions, and the steps of the run all its calls. Without
alternatives no site is left out before the run ends, and none at all if it succeeds. -/
theorem calls_in_order (p : Grammar σ α) (s : ι) :
    (p.order []).Nodup ∧
      ((p.calls s).map Call.site).Sublist (p.order []) ∧
      (p.plan []).filterMap RunStep.site? = p.order [] ∧
      (p.steps s).filterMap RunStep.site? = (p.calls s).map Call.site ∧
      (∀ path operands, .applied path operands ∈ p.plan [] →
        (p.functionCalls s).count path = if ∀ o ∈ operands, o ∈ p.succeeded s then 1 else 0) ∧
      (p.Sequential →
        (p.calls s).map Call.site <+: p.order [] ∧
          (((p.parser : Parser κ ι α).outcome s).isSuccess = true →
            (p.calls s).map Call.site = p.order [])) :=
  ⟨nodup_order [] p, calls_sublist_order p s, site?_plan [] p, site?_steps p s,
    fun _ _ h => count_functionCalls s h, fun h => calls_prefix_order h s⟩

/-- A sum of two numbers. The first operand falls back to a value, and then its own function is left
out, while the sum is called. Without the fallback a run stops at the first failure. -/
theorem calls_in_order_lift₂ :
    let x : Grammar Char Nat := .select (.element 'a') Char.toNat
    let y : Grammar Char Nat := .select (.element 'b') Char.toNat
    let p : Grammar Char Nat := .lift₂ (· + ·) (.orElse x (.ret 0)) y
    let q : Grammar Char Nat := .lift₂ (· + ·) x y
    (p.functionCalls ['b']).count [0, 0] = 0 ∧ (p.functionCalls ['b']).count [1] = 1 ∧
      (p.functionCalls ['b']).count [] = 1 ∧
      (q.calls ['a']).map Call.site <+: q.order [] ∧
      (q.calls ['a', 'b']).map Call.site = q.order [] := by
  intro x y p q
  obtain ⟨-, -, -, -, hcount, -⟩ := calls_in_order (κ := Unit) p ['b']
  obtain ⟨-, -, -, -, -, hfailure⟩ := calls_in_order (κ := Unit) q ['a']
  obtain ⟨-, -, -, -, -, hsuccess⟩ := calls_in_order (κ := Unit) q ['a', 'b']
  have hplanned : p.plan [] = [.element [0, 0, 0] 'a', .succeeded [0, 0, 0],
      .applied [0, 0] [[0, 0, 0]], .succeeded [0, 0], .ret [1, 0], .succeeded [1, 0],
      .succeeded [0], .element [0, 1] 'b', .succeeded [0, 1], .applied [1] [[0, 1]],
      .succeeded [1], .applied [] [[0], [1]], .succeeded []] := rfl
  refine ⟨?_, ?_, ?_, (hfailure ⟨trivial, trivial⟩).1, (hsuccess ⟨trivial, trivial⟩).2 rfl⟩
  · exact (hcount [0, 0] [[0, 0, 0]] (by simp [hplanned])).trans (if_neg (by decide))
  · exact (hcount [1] [[0, 1]] (by simp [hplanned])).trans (if_pos (by decide))
  · exact (hcount [] [[0], [1]] (by simp [hplanned])).trans (if_pos (by decide))

end Grammar

end ApplicativeParsing

import Mathlib.Data.List.Chain
import ApplicativeParsing.Proofs.Provenance
import ApplicativeParsing.Proofs.Recovery

/-!
# Recorded failures

A failure that is not the outcome of a run was recovered from, and every recovery is recorded. In
between nothing else happens: sequences and mappings hand a failure on without a trace, and a
nested alternative that ends with the failure of its last part has it recorded again by the one
around it. So behind a call that failed the log goes on with events that carry its message, until
another parser runs or the run ends.

The property of a log that this comes from is about neighbouring entries only. It speaks of the
failure with which the run ended as well, because that is what the next event has to carry.

## Main definitions

* `Event.message?`, `Entry.failure?`: the failure that is reported, or with which a call ended.
* `Accounted`: a log in which failures and events follow each other as they should.

## Main statements

* `Accounted.append`, `Accounted.report`: the run goes on after a success, and after a recovery.
* `Grammar.failures_recorded`: events carry the failure of the last primitive, and none is lost.
-/

namespace ApplicativeParsing

variable {κ ι σ α β γ : Type}

/-- The message that is carried by an event about a failed alternative. -/
def Event.message? : Event → Option String
  | alternativeFailed e => some e
  | fellBack e => some e
  | _ => none

/-- To transform values does not touch messages. -/
theorem Outcome.message?_map (f : α → β) (o : Outcome α) : (o.map f).message? = o.message? := by
  cases o <;> rfl

theorem Outcome.message?_eq_some_iff {o : Outcome α} {e : String} :
    o.message? = some e ↔ o = .failure e := by
  cases o <;> simp

variable [Input ι σ] [BEq σ] [ToString σ]

namespace Entry

/-- The failure that an entry is about: the one that an event reports, or the one that a call ended
with. -/
def failure? : Entry (Call ι σ) → Option String
  | event e => e.message?
  | note c => c.failure?.map ParseFailure.message

/-- `y` may stand right behind `x`. -/
structure Continues (x y : Entry (Call ι σ)) : Prop where
  /-- An event reports what the entry in front of it is about. -/
  reports : ∀ e, y = .event e → e.message? = x.failure?
  /-- Behind a call that failed there is an event. -/
  recovered : ∀ c f, x = .note c → c.failure? = some f → ∃ e, y = .event e

end Entry

/-- A log that accounts for all its failures but the one that the run ended with, if it failed. -/
structure Accounted (log : List (Entry (Call ι σ))) (failure? : Option String) : Prop where
  /-- Neighbours follow each other as they should. -/
  chain : log.IsChain Entry.Continues
  /-- A log does not begin with an event, as there is nothing yet to report. -/
  head : ∀ e, log.head? ≠ some (.event e)
  /-- The last entry is about the failure that the run ended with. -/
  failed : ∀ m, failure? = some m → ∃ x, log.getLast? = some x ∧ x.failure? = some m
  /-- Behind a call that failed a successful run goes on. -/
  succeeded : failure? = none → ∀ c, log.getLast? = some (.note c) → c.failure? = none

namespace Accounted

variable {l l' : List (Entry (Call ι σ))} {m : Option String}

/-- One call, which is the last. -/
theorem note {c : Call ι σ} (h : m = c.failure?.map ParseFailure.message) :
    Accounted [.note c] m where
  chain := List.isChain_singleton _
  head e h := nomatch h
  failed e he := ⟨.note c, rfl, h.symm.trans he⟩
  succeeded hm c' hc' := by
    cases hc'
    exact Option.map_eq_none_iff.1 (h.symm.trans hm)

theorem ne_nil {e : String} (h : Accounted l (some e)) : l ≠ [] := by
  rintro rfl
  obtain ⟨x, hx, -⟩ := h.failed e rfl
  cases hx

/-- After a success the log of what runs next follows. -/
theorem append (h : Accounted l none) (h' : Accounted l' m) : Accounted (l ++ l') m := by
  have hchain : (l ++ l').IsChain Entry.Continues := by
    refine h.chain.append h'.chain fun x hx y hy => ⟨?_, ?_⟩
    · rintro e rfl
      exact absurd hy (h'.head e)
    · rintro c f rfl hf
      have hnone := h.succeeded rfl c hx
      rw [hf] at hnone
      cases hnone
  have hhead (e : Event) : (l ++ l').head? ≠ some (.event e) := by
    cases l with
    | nil => exact h'.head e
    | cons x l => exact h.head e
  cases l' with
  | nil =>
    -- nothing more has happened, and so nothing has failed
    have hm : m = none := by
      cases m with
      | none => rfl
      | some e => exact absurd rfl h'.ne_nil
    subst hm
    rwa [List.append_nil]
  | cons y l' =>
    have hlast : (l ++ y :: l').getLast? = (y :: l').getLast? := by
      rw [List.getLast?_append_of_ne_nil _ (List.cons_ne_nil y l')]
    refine ⟨hchain, hhead, fun e he => ?_, fun hm c hc => ?_⟩
    · rw [hlast]
      exact h'.failed e he
    · rw [hlast] at hc
      exact h'.succeeded hm c hc

/-- A failure may be recorded by an event that carries it. It may still be what the run ends with,
and it need not be any more. -/
theorem report {e : String} {event : Event} (h : Accounted l (some e))
    (hevent : event.message? = some e) (hm : m = some e ∨ m = none) :
    Accounted (l ++ [.event event]) m where
  chain := by
    obtain ⟨x, hx, hxe⟩ := h.failed e rfl
    refine h.chain.append (List.isChain_singleton _) fun x' hx' y hy => ?_
    obtain rfl : x = x' := Option.some.inj (hx.symm.trans hx')
    obtain rfl : Entry.event event = y := Option.some.inj hy
    refine ⟨?_, fun _ _ _ _ => ⟨event, rfl⟩⟩
    rintro _ ⟨⟩
    rw [hevent, hxe]
  head e' := by
    obtain ⟨x, l, rfl⟩ := List.exists_cons_of_ne_nil h.ne_nil
    exact h.head e'
  failed e' he' := by
    refine ⟨.event event, List.getLast?_concat, ?_⟩
    rcases hm with rfl | rfl
    · exact hevent.trans he'
    · cases he'
  succeeded _ c hc := by
    rw [List.getLast?_concat] at hc
    cases hc

/-- In front of an event the last primitive that was called failed with the message that the event
carries. -/
theorem lastPrimitive?_of_event (h : Accounted l m) {i : Nat} {event : Event} {e : String}
    (hi : l[i]? = some (.event event)) (he : event.message? = some e) :
    ∃ c f, Call.lastPrimitive? ((l.take i).filterMap Entry.note?) = some c ∧
      c.failure? = some f ∧ e = f.message := by
  induction i generalizing event with
  | zero =>
    rw [← List.head?_eq_getElem?] at hi
    exact absurd hi (h.head event)
  | succ i ih =>
    obtain ⟨hlt, hevent⟩ := List.getElem?_eq_some_iff.1 hi
    have hnext : Entry.Continues l[i] l[i + 1] := List.isChain_iff_getElem.1 h.chain i hlt
    have hfailure : l[i].failure? = some e := by rw [← hnext.reports event hevent, he]
    have htake : l.take (i + 1) = l.take i ++ [l[i]] := by
      rw [List.take_append_getElem]
    rw [htake, List.filterMap_append]
    cases hx : l[i] with
    -- another event about the same failure, and so the call is in front of that one
    | event event' =>
      rw [hx] at hfailure
      have hi' : l[i]? = some (.event event') := List.getElem?_eq_some_iff.2 ⟨_, hx⟩
      obtain ⟨c, f, hlast, hf, rfl⟩ := ih hi' hfailure
      refine ⟨c, f, ?_, hf, rfl⟩
      change Call.lastPrimitive? ((l.take i).filterMap Entry.note? ++ []) = some c
      rw [List.append_nil, hlast]
    | note c =>
      rw [hx] at hfailure
      obtain ⟨f, hf, rfl⟩ := Option.map_eq_some_iff.1 hfailure
      have hprimitive : c.isPrimitive = true := by
        cases c with
        | mapping path => cases hf
        | _ => rfl
      refine ⟨c, f, Call.lastPrimitive?_append _ ?_, hf, rfl⟩
      simp [Call.lastPrimitive?, Entry.note?, hprimitive]

/-- Behind a call that failed comes an event that carries its message, or the run has ended with
this failure. -/
theorem recovered_or_last (h : Accounted l m) {i : Nat} {c : Call ι σ} {f : ParseFailure}
    (hi : l[i]? = some (.note c)) (hf : c.failure? = some f) :
    (∃ event, l[i + 1]? = some (.event event) ∧ event.message? = some f.message) ∨
      (i + 1 = l.length ∧ m = some f.message) := by
  obtain ⟨hlt, hc⟩ := List.getElem?_eq_some_iff.1 hi
  have hfailure : l[i].failure? = some f.message := by
    rw [hc]
    exact Option.map_eq_some_iff.2 ⟨f, hf, rfl⟩
  by_cases hnext : i + 1 < l.length
  · have hcontinues := List.isChain_iff_getElem.1 h.chain i hnext
    obtain ⟨event, hevent⟩ := hcontinues.recovered c f hc hf
    refine .inl ⟨event, List.getElem?_eq_some_iff.2 ⟨hnext, hevent⟩, ?_⟩
    rw [hcontinues.reports event hevent, hfailure]
  · have hlast : l.getLast? = some (.note c) := by
      rw [List.getLast?_eq_getElem?, ← hi]
      congr 1
      omega
    refine .inr ⟨by omega, ?_⟩
    cases m with
    | none =>
      have hnone := h.succeeded rfl c hlast
      rw [hf] at hnone
      cases hnone
    | some e =>
      obtain ⟨x, hx, hxe⟩ := h.failed e rfl
      obtain rfl : x = .note c := Option.some.inj (hx.symm.trans hlast)
      rw [← hxe, ← hc, hfailure]

end Accounted

namespace Parser

/-- The runs of the parser account for their failures. -/
def Accounts (p : Parser (Call ι σ) ι α) : Prop :=
  ∀ s, Accounted (p.log s) (p.outcome s).message?

namespace Accounts

theorem element (path : Path) (e : σ) :
    Accounts ((Parser.element e : Parser _ ι σ).probe (.element path e)) := by
  intro s
  rw [log_probe, log_element, outcome_probe, outcome_element]
  refine Accounted.note ?_
  rw [Call.failure?]
  cases element.failure? e s <;> rfl

theorem ret (path : Path) (a : α) :
    Accounts ((Parser.ret a : Parser (Call ι σ) ι α).probe (.ret path)) :=
  fun _ => Accounted.note rfl

theorem andThen {p : Parser (Call ι σ) ι α} {q : Parser (Call ι σ) ι β} (hp : Accounts p)
    (hq : Accounts q) : Accounts (p.andThen q) := by
  intro s
  have hps := hp s
  rw [log_andThen, outcome_andThen]
  rcases ho : p.outcome s with ⟨a, r⟩ | e
  · rw [ho] at hps
    rw [Outcome.andThen_success, Outcome.message?_map]
    exact hps.append (hq r)
  · rw [ho] at hps
    rwa [List.append_nil]

/-- A failure that is recovered from is recorded, and what runs after that accounts for itself. -/
theorem recover {event : String → Event} {p : Parser (Call ι σ) ι α}
    {q : String → Parser (Call ι σ) ι α} (hp : Accounts p) (hq : ∀ e, Accounts (q e))
    (hevent : ∀ e, (event e).message? = some e) : Accounts (p.recover event q) := by
  intro s
  have hps := hp s
  rw [log_recover, outcome_recover]
  cases ho : p.outcome s with
  | success x =>
    rw [ho] at hps
    rwa [List.append_nil]
  | failure e =>
    rw [ho] at hps
    have hreport := hps.report (hevent e) (.inr rfl)
    have hqs := hreport.append (hq e s)
    rwa [List.append_assoc, List.singleton_append] at hqs

theorem orElse {p q : Parser (Call ι σ) ι α} (hp : Accounts p) (hq : Accounts q) :
    Accounts (p.orElse q) := by
  rw [orElse_eq_recover]
  exact hp.recover (fun _ => hq) fun _ => rfl

/-- The failure of the last alternative is recorded as well, and is what the list ends with. -/
theorem firstOf {ps : List (Parser (Call ι σ) ι α)} (hne : ps ≠ []) (h : ∀ p ∈ ps, Accounts p) :
    Accounts (firstOf ps) := by
  induction ps with
  | nil => exact absurd rfl hne
  | cons p ps ih =>
    have hp := h p List.mem_cons_self
    cases ps with
    | nil =>
      intro s
      have hps := hp s
      rw [log, outcome, run_firstOf_singleton]
      cases ho : p.outcome s with
      | success x =>
        rw [ho] at hps
        exact hps
      | failure e =>
        rw [ho] at hps
        exact hps.report rfl (.inl rfl)
    | cons q ps =>
      have hrest := ih (List.cons_ne_nil q ps) fun p' hp' => h p' (List.mem_cons_of_mem p hp')
      rw [firstOf_cons_cons_eq_recover]
      exact hp.recover (fun _ => hrest) fun _ => rfl

theorem choice {n : Nat} {ps : Fin (n + 1) → Parser (Call ι σ) ι α} (h : ∀ i, Accounts (ps i)) :
    Accounts (Choice.ofFn ps).parser := by
  rw [Choice.parser_ofFn]
  refine firstOf (by simp) fun p hp => ?_
  obtain ⟨i, rfl⟩ := List.mem_ofFn.1 hp
  exact h i

/-- A function that is called notes that, and cannot fail. -/
theorem select {p : Parser (Call ι σ) ι α} {f : α → Traced (Call ι σ) β} (hp : Accounts p)
    (hf : ∀ a, Accounted (f a).log none) : Accounts (p.select f) := by
  intro s
  have hps := hp s
  rw [log_select, outcome_select, Outcome.message?_map]
  rcases ho : p.outcome s with ⟨a, r⟩ | e
  · rw [ho] at hps
    exact hps.append (hf a)
  · rw [ho] at hps
    rwa [List.append_nil]

theorem lift₂ {x : Parser (Call ι σ) ι α} {y : Parser (Call ι σ) ι β}
    {f : α → β → Traced (Call ι σ) γ} (hx : Accounts x) (hy : Accounts y)
    (hf : ∀ a b, Accounted (f a b).log none) : Accounts (Parser.lift₂ f x y) := by
  rw [lift₂_eq_select]
  exact (hx.andThen hy).select fun v => hf v.1 v.2

end Accounts

end Parser

namespace Grammar

/-- The runs of a grammar account for their failures. -/
theorem accounts_observed (path : Path) (p : Grammar σ α) :
    (p.observed path : Parser _ ι α).Accounts := by
  induction p generalizing path with
  | element e => exact .element path e
  | ret a => exact .ret path a
  | andThen p q ihp ihq => exact (ihp _).andThen (ihq _)
  | orElse p q ihp ihq => exact (ihp _).orElse (ihq _)
  | choice ps ih => exact .choice fun i => ih i _
  | select p f ih => exact (ih _).select fun _ => .note rfl
  | apply arg fn iha ihf =>
    rw [observed, Parser.apply_map_eq_lift₂]
    exact (ihf _).lift₂ (iha _) fun _ _ => .note rfl
  | lift₂ f x y ihx ihy => exact (ihx _).lift₂ (ihy _) fun _ _ => .note rfl
  | boxed p ih => exact ih _

/-- In the log of a run, every event about a failed alternative carries the message of the primitive
that was called last before it, and this one did fail. Right behind a primitive that failed there is
an event that carries its message, unless the run ends there, and then it ends with this message.
The events are those that the library records, with or without calls being noted between them. -/
theorem failures_recorded (p : Grammar σ α) (s : ι) :
    let log := (p.observed []).log s
    log.filterMap Entry.event? = ((p.parser : Parser κ ι α).run s).events ∧
    (∀ (i : Nat) (event : Event) (m : String), log[i]? = some (.event event) →
      event.message? = some m →
      ∃ c f, Call.lastPrimitive? ((log.take i).filterMap Entry.note?) = some c ∧
        c.failure? = some f ∧ m = f.message) ∧
    ∀ (i : Nat) (c : Call ι σ) (f : ParseFailure), log[i]? = some (.note c) →
      c.failure? = some f →
      (∃ event, log[i + 1]? = some (.event event) ∧ event.message? = some f.message) ∨
        (i + 1 = log.length ∧ (p.parser : Parser κ ι α).outcome s = .failure f.message) := by
  intro log
  have haccounted : Accounted log ((p.observed []).outcome s).message? := accounts_observed [] p s
  refine ⟨events_observed [] p s, fun i event m hi hm => haccounted.lastPrimitive?_of_event hi hm,
    fun i c f hi hf => ?_⟩
  rcases haccounted.recovered_or_last hi hf with hnext | ⟨hlast, hm⟩
  · exact .inl hnext
  · rw [outcome_observed (κ := κ), Outcome.message?_eq_some_iff] at hm
    exact .inr ⟨hlast, hm⟩

/-- A choice inside a fallback. The last failure of the choice is recorded by both, and the failure
of the last alternative of the fallback is the outcome. -/
theorem failures_recorded_nested :
    let p : Grammar Char Char :=
      .orElse (.select (.andThen (.element 'a') (.anyOf (n := 1) ['b', 'c'].get)) Prod.snd)
        (.element 'x')
    let log := (p.observed []).log ['a', 'z']
    let q : Parser Unit (List Char) Char := p.parser
    log[5]? = some (.event (.fellBack "Expecting 'c'. Got 'z'.")) ∧
      (∃ c f, Call.lastPrimitive? ((log.take 5).filterMap Entry.note?) = some c ∧
        c.failure? = some f ∧ "Expecting 'c'. Got 'z'." = f.message) ∧
      log[1]? = some (.note (.element [0, 1, 0, 0] 'b' ['z'])) ∧
      ((∃ event, log[2]? = some (.event event) ∧
          event.message? = some "Expecting 'b'. Got 'z'.") ∨
        2 = log.length ∧ q.outcome ['a', 'z'] = .failure "Expecting 'b'. Got 'z'.") ∧
      log[6]? = some (.note (.element [1] 'x' ['a', 'z'])) ∧
      ((∃ event, log[7]? = some (.event event) ∧
          event.message? = some "Expecting 'x'. Got 'a'.") ∨
        7 = log.length ∧ q.outcome ['a', 'z'] = .failure "Expecting 'x'. Got 'a'.") := by
  intro p log q
  obtain ⟨-, hevents, hcalls⟩ := failures_recorded (κ := Unit) p ['a', 'z']
  have hb := hcalls 1 (.element [0, 1, 0, 0] 'b' ['z']) (.mismatch "b" "z") rfl rfl
  have hx := hcalls 6 (.element [1] 'x' ['a', 'z']) (.mismatch "x" "a") rfl rfl
  exact ⟨rfl, hevents 5 _ _ rfl rfl, rfl, hb, rfl, hx⟩

end Grammar

end ApplicativeParsing

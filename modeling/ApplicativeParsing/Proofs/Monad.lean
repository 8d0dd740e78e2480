import ApplicativeParsing.Parser.Sequencing

/-!
# Parsers as a monad

The combinators for sequences and mappings let no value decide what is parsed next. A parser that
may depend on the values before it is still a parser, and with it all of these combinators can be
written as one: run a parser and go on from its value. This operation obeys the monad laws with
respect to whole runs, outcome and log. So two ways of combining the same parsers are the same
parser whenever the monad laws say so, and no run has to be followed.

## Main definitions

* `Parser.bind`: go on from a value; `Parser.ofTraced`: record something without reading.

## Main statements

* parsers form a lawful monad whose `pure` is `Parser.ret`.
* `Parser.andThen_eq_bind`, `Parser.select_eq_bind`, `Parser.apply_eq_bind`,
  `Parser.lift₂_eq_bind`: the combinators by way of it.
-/

namespace ApplicativeParsing.Parser

variable {κ ι α β γ : Type}

/-- Run `p` and then, on what remains, the parser that `f` makes of the value. -/
protected def bind (p : Parser κ ι α) (f : α → Parser κ ι β) : Parser κ ι β where
  run s := do
    let o ← p.run s
    o.andThenM fun (a, r) => (f a).run r

/-- Record what `x` records and yield its value. Nothing is read. -/
def ofTraced (x : Traced κ α) : Parser κ ι α where
  run s := do
    let a ← x
    return .success (a, s)

instance : Monad (Parser κ ι) where
  pure := ret
  bind := Parser.bind

theorem run_pure (a : α) (s : ι) :
    (pure a : Parser κ ι α).run s = pure (.success (a, s)) := rfl

theorem run_bind (p : Parser κ ι α) (f : α → Parser κ ι β) (s : ι) :
    (p >>= f).run s = p.run s >>= fun o => o.andThenM fun (a, r) => (f a).run r := rfl

theorem run_ofTraced (x : Traced κ α) (s : ι) :
    (ofTraced x : Parser κ ι α).run s = x >>= fun a => pure (.success (a, s)) := rfl

instance : LawfulMonad (Parser κ ι) :=
  LawfulMonad.mk' (Parser κ ι)
    (fun p => ext_run fun s => by
      refine Eq.trans (bind_congr fun o => ?_) (bind_pure (p.run s))
      rcases o with r | e <;> rfl)
    (fun a f => ext_run fun s => by
      rw [run_bind, run_pure, pure_bind]
      rfl)
    (fun p f g => ext_run fun s => by
      rw [run_bind, run_bind, bind_assoc, run_bind]
      refine bind_congr fun o => ?_
      rcases o with ⟨a, r⟩ | e
      · rfl
      · exact pure_bind _ _)

/-- A parser that reads nothing and records nothing is the unit. -/
theorem ret_eq_pure (a : α) : (ret a : Parser κ ι α) = pure a := rfl

theorem ofTraced_pure (a : α) : (ofTraced (pure a) : Parser κ ι α) = pure a :=
  ext_run fun s => by rw [run_ofTraced, pure_bind, run_pure]

/-- What is recorded in two steps is recorded one after the other. -/
theorem ofTraced_bind (x : Traced κ α) (f : α → Traced κ β) :
    (ofTraced (x >>= f) : Parser κ ι β) = ofTraced x >>= fun a => ofTraced (f a) :=
  ext_run fun s => by
    simp only [run_bind, run_ofTraced, bind_assoc, pure_bind, Outcome.andThenM_success]

/-! ### The combinators -/

theorem andThen_eq_bind (p : Parser κ ι α) (q : Parser κ ι β) :
    p.andThen q = p >>= fun a => q >>= fun b => pure (a, b) := by
  refine ext_run fun s => bind_congr fun o => ?_
  rcases o with ⟨a, r⟩ | e
  · refine bind_congr fun o => ?_
    rcases o with ⟨b, r⟩ | e <;> rfl
  · rfl

theorem select_eq_bind (p : Parser κ ι α) (f : α → Traced κ β) :
    p.select f = p >>= fun a => ofTraced (f a) := by
  refine ext_run fun s => bind_congr fun o => ?_
  rcases o with ⟨a, r⟩ | e
  · simp only [Outcome.mapM_success, Outcome.andThenM_success, run_ofTraced, map_bind, map_pure]
  · rfl

theorem map_eq_bind (f : α → β) (p : Parser κ ι α) :
    p.map f = p >>= fun a => pure (f a) := by
  simp only [map, select_eq_bind, ofTraced_pure]

/-- The function is read first, and called after both. -/
theorem apply_eq_bind (arg : Parser κ ι α) (fn : Parser κ ι (α → Traced κ β)) :
    apply arg fn = fn >>= fun f => arg >>= fun a => ofTraced (f a) := by
  simp only [apply, select_eq_bind, andThen_eq_bind, bind_assoc, pure_bind]

theorem lift₂_eq_bind (f : α → β → Traced κ γ) (x : Parser κ ι α) (y : Parser κ ι β) :
    lift₂ f x y = x >>= fun a => y >>= fun b => ofTraced (f a b) := by
  simp only [lift₂, apply_eq_bind, ret_eq_pure, pure_bind, ofTraced_pure, bind_assoc]

end ApplicativeParsing.Parser

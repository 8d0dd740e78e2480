import ApplicativeParsing.Parser.Row
import ApplicativeParsing.Proofs.Flattening
import ApplicativeParsing.Proofs.Monad

/-!
# Parsers as an applicative

`Parser.apply` names the argument first and runs the function first, and `Parser.lift₂` is made of
two such steps. What they do is not seen in the order in which they are written, but it is simple: a
lifted function is one mapping of the pair of two values, and `Parser.apply` obeys the laws of an
applicative, each of them with the operands in the places that the names of the arguments ask for.

The laws are equalities of parsers, so that they hold of outcomes and of logs, for functions that
record something too. A lifted function that is folded over a row is called between the runs, and
not after all of them, and there only the outcomes are those of one mapping.

## Main definitions

* `Parser.combinationCalls`: what a combination of two parsers with a function calls, in order.
* `Parser.compose`: the composition of functions, as a function that can be applied to them.

## Main statements

* `Parser.lifting_as_one_map`: lifting and folding by means of one mapping.
* `Parser.applicative_laws`: identity, homomorphism, interchange and composition.
-/

namespace ApplicativeParsing

variable {κ ι α β γ δ ε : Type}

/-- A call during the run of a combination of two parsers with a function. -/
inductive CombinationCall (ι α β : Type) where
  /-- The first parser runs on `s`. -/
  | first (s : ι)
  /-- The second parser runs on `s`. -/
  | second (s : ι)
  /-- The function is called on `a` and `b`. -/
  | function (a : α) (b : β)
  deriving DecidableEq, Repr

namespace Parser

/-! ### Lifting -/

/-- The calls that a combination of `x` and `y` with `f` makes in a run on `s`, in order. -/
def combinationCalls
    (combine : (α → β → Traced (CombinationCall ι α β) γ) → Parser (CombinationCall ι α β) ι α →
      Parser (CombinationCall ι α β) ι β → Parser (CombinationCall ι α β) ι γ)
    (f : α → β → γ) (x : Parser κ ι α) (y : Parser κ ι β) (s : ι) :
    List (CombinationCall ι α β) :=
  let observed (a : α) (b : β) := do
    Traced.note (.function a b)
    return f a b
  ((combine observed (x.silenced.probe .first) (y.silenced.probe .second)).run s).notes

/-- A mapping of the pair calls the first parser on the input, then the second one on what is left,
and the function once if both succeed. -/
theorem combinationCalls_select (f : α → β → γ) (x : Parser κ ι α) (y : Parser κ ι β) (s : ι) :
    combinationCalls (fun g p q => (p.andThen q).select fun (a, b) => g a b) f x y s =
      .first s ::
        match x.outcome s with
        | .failure _ => []
        | .success (a, r) =>
          .second r ::
            match y.outcome r with
            | .failure _ => []
            | .success (b, _) => [.function a b] := by
  rw [combinationCalls, notes_select, notes_andThen, outcome_andThen, notes_probe_silenced,
    outcome_probe, outcome_silenced]
  rcases x.outcome s with ⟨a, r⟩ | e
  · simp only [notes_probe_silenced, Outcome.andThen_success, outcome_probe, outcome_silenced]
    rcases y.outcome r with ⟨b, r'⟩ | e <;> rfl
  · rfl

/-- To fold the values of a row on the way ends as to fold them at the end. -/
theorem outcome_foldRow (init : δ → ε) (step : ε → δ → Traced κ ε) {n : Nat}
    (ps : Fin (n + 1) → Parser κ ι δ) (s : ι) :
    (foldRow init step ps).outcome s =
      ((row ps).map (Row.foldl init fun b a => (step b a).value)).outcome s := by
  induction n with
  | zero => rfl
  | succ n ih =>
    rw [outcome_foldRow_succ, ih, outcome_map, outcome_map, outcome_row_succ]
    -- the fold of a longer tuple is one step from the fold of its front
    rcases (row fun i : Fin (n + 1) => ps i.castSucc).outcome s with ⟨a, r⟩ | e
    · rw [Outcome.map_success, Outcome.andThen_success, Outcome.andThen_success, Outcome.map_map]
      rfl
    · rfl

/-- A lifted function is one mapping over a sequence. It is the same parser whether the two values
are paired or the function is applied to one after the other, and it calls the first parser, then
the second one on what is left, and then the function, once and only if both succeeded. To fold by
lifted functions ends as one mapping over the whole sequence does. -/
theorem lifting_as_one_map (f : α → β → Traced κ γ) (x : Parser κ ι α) (y : Parser κ ι β)
    (init : δ → ε) (step : ε → δ → Traced κ ε) {n : Nat} (ps : Fin (n + 1) → Parser κ ι δ) :
    lift₂ f x y = (x.andThen y).select (fun (a, b) => f a b) ∧
      lift₂ f x y = apply y (x.map f) ∧
      (∀ (g : α → β → γ) (s : ι),
        let calls :=
          CombinationCall.first s ::
            match x.outcome s with
            | .failure _ => []
            | .success (a, r) =>
              .second r ::
                match y.outcome r with
                | .failure _ => []
                | .success (b, _) => [.function a b]
        combinationCalls lift₂ g x y s = calls ∧
          combinationCalls (fun h p q => (p.andThen q).select fun (a, b) => h a b) g x y s =
            calls) ∧
      ∀ s, (foldRow init step ps).outcome s =
        ((row ps).map (Row.foldl init fun b a => (step b a).value)).outcome s := by
  refine ⟨lift₂_eq_select f x y, (apply_map_eq_lift₂ y x f).symm, fun g s => ?_,
    outcome_foldRow init step ps⟩
  have hselect := combinationCalls_select g x y s
  refine ⟨?_, hselect⟩
  rw [combinationCalls, lift₂_eq_select]
  exact hselect

/-! ### The laws of an applicative -/

/-- For functions without effects `apply` is the application of the monad, with the operands in the
other order. -/
theorem seq_eq_apply (fn : Parser κ ι (α → β)) (arg : Parser κ ι α) :
    fn <*> arg = apply arg (fn.map fun f a => pure (f a)) := by
  simp only [seq_eq_bind_map, map_eq_pure_bind, apply_eq_bind, map_eq_bind, bind_assoc, pure_bind,
    ofTraced_pure]

/-- The function that maps `g` to the function that maps `f` to `f` and then `g`. -/
def compose (g : β → Traced κ γ) :
    Traced κ ((α → Traced κ β) → Traced κ (α → Traced κ γ)) :=
  pure fun f => pure fun a => f a >>= g

/-- To apply the identity changes nothing. -/
theorem apply_identity (v : Parser κ ι α) : apply v (ret pure) = v := by
  simp only [apply_eq_bind, ret_eq_pure, pure_bind, ofTraced_pure, bind_pure]

/-- To apply a function to a value reads nothing. -/
theorem apply_homomorphism (a : α) (f : α → Traced κ β) :
    apply (ret a) (ret f) = (ofTraced (f a) : Parser κ ι β) := by
  simp only [apply_eq_bind, ret_eq_pure, pure_bind]

/-- To apply functions that are read to one value is to apply to them the function that calls a
function on that value. -/
theorem apply_interchange (u : Parser κ ι (α → Traced κ β)) (a : α) :
    apply (ret a) u = apply u (ret fun g => g a) := by
  simp only [apply_eq_bind, ret_eq_pure, pure_bind]

/-- To apply two functions one after the other is to apply their composition. -/
theorem apply_composition (u : Parser κ ι (β → Traced κ γ)) (v : Parser κ ι (α → Traced κ β))
    (w : Parser κ ι α) :
    apply w (apply v (apply u (ret compose))) = apply (apply w v) u := by
  simp only [apply_eq_bind, ret_eq_pure, compose, pure_bind, bind_assoc, ofTraced_pure,
    ofTraced_bind]

/-- Two functions that are applied one after the other are read in front of the argument, the outer
one first, and are called after it, the inner one first. The first failure ends everything. -/
theorem run_apply_apply (u : Parser κ ι (β → Traced κ γ)) (v : Parser κ ι (α → Traced κ β))
    (w : Parser κ ι α) (s : ι) :
    (apply (apply w v) u).run s =
      match u.outcome s with
      | .failure e => ⟨u.log s, .failure e⟩
      | .success (g, r) =>
        match v.outcome r with
        | .failure e => ⟨u.log s ++ v.log r, .failure e⟩
        | .success (f, r') =>
          match w.outcome r' with
          | .failure e => ⟨u.log s ++ (v.log r ++ w.log r'), .failure e⟩
          | .success (a, r'') =>
            ⟨u.log s ++ (v.log r ++ (w.log r' ++ (f a >>= g).log)),
              .success ((f a >>= g).value, r'')⟩ := by
  have houtcome (r : ι) : (apply w v).outcome r = _ := congrArg Traced.value (run_apply w v r)
  have hlog (r : ι) : (apply w v).log r = _ := congrArg Traced.log (run_apply w v r)
  rw [run_apply]
  rcases u.outcome s with ⟨g, r⟩ | e
  · simp only [houtcome, hlog]
    rcases v.outcome r with ⟨f, r'⟩ | e
    · rcases ho : w.outcome r' with ⟨a, r''⟩ | e <;> simp [ho]
    · rfl
  · rfl

/-- The laws of an applicative, with the argument in front of the function. In the law of
composition the functions are read from the outside in, and then the argument. -/
theorem applicative_laws (u : Parser κ ι (β → Traced κ γ)) (v : Parser κ ι (α → Traced κ β))
    (w : Parser κ ι α) (a : α) (f : α → β) :
    apply w (ret pure) = w ∧
      apply (ret a) (ret fun a => pure (f a)) = (ret (f a) : Parser κ ι β) ∧
      apply (ret a) v = apply v (ret fun g => g a) ∧
      apply w (apply v (apply u (ret compose))) = apply (apply w v) u ∧
      ∀ s, (apply (apply w v) u).run s =
        match u.outcome s with
        | .failure e => ⟨u.log s, .failure e⟩
        | .success (g, r) =>
          match v.outcome r with
          | .failure e => ⟨u.log s ++ v.log r, .failure e⟩
          | .success (h, r') =>
            match w.outcome r' with
            | .failure e => ⟨u.log s ++ (v.log r ++ w.log r'), .failure e⟩
            | .success (a, r'') =>
              ⟨u.log s ++ (v.log r ++ (w.log r' ++ (h a >>= g).log)),
                .success ((h a >>= g).value, r'')⟩ :=
  ⟨apply_identity w, by rw [apply_homomorphism, ofTraced_pure, ret_eq_pure],
    apply_interchange v a, apply_composition u v w, run_apply_apply u v w⟩

end Parser

end ApplicativeParsing

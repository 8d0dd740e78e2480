import ApplicativeParsing.Parser.Basic

/-!
# Sequencing and mapping

Parsers that run one after another, and functions that are applied to their values. A function may
have effects of its own on the log (`α → Traced κ β`), so that the moment at which it is called can
be observed; `Parser.map` is the case without effects.

`apply arg fn` takes the argument first but runs the function parser first. `lift₂ f x y` applies
a curried `f` by two such steps and so runs `x` before `y`.

## Main statements

* `outcome_andThen`, `log_andThen`: the first failure ends a sequence, and nothing runs after it.
* `run_lift₂`: `lift₂ f x y` runs `x`, then `y` on the rest, and calls `f` once, after both.
-/

namespace ApplicativeParsing.Parser

variable {κ ι α β γ : Type}

/-- Run `p`, then `q` on what remains, and pair the two values. -/
def andThen (p : Parser κ ι α) (q : Parser κ ι β) : Parser κ ι (α × β) where
  run s := do
    let o ← p.run s
    o.andThenM fun (a, r) => do
      let o ← q.run r
      return o.map fun (b, r) => ((a, b), r)

/-- Call `f` on the value of `p`, if `p` succeeds. -/
def select (p : Parser κ ι α) (f : α → Traced κ β) : Parser κ ι β where
  run s := do
    let o ← p.run s
    o.mapM fun (a, r) => do
      let b ← f a
      return (b, r)

/-- Transform the value of `p`. -/
def map (f : α → β) (p : Parser κ ι α) : Parser κ ι β := p.select fun a => pure (f a)

/-- Run `fn`, then `arg` on what remains, and call the function that the first yields on the value
of the second. -/
def apply (arg : Parser κ ι α) (fn : Parser κ ι (α → Traced κ β)) : Parser κ ι β :=
  (fn.andThen arg).select fun (f, a) => f a

/-- Run `x`, then `y` on what remains, and call `f` on the two values. -/
def lift₂ (f : α → β → Traced κ γ) (x : Parser κ ι α) (y : Parser κ ι β) : Parser κ ι γ :=
  apply y (apply x (ret fun a => pure (f a)))

/-! ### Runs, case by case -/

theorem run_andThen (p : Parser κ ι α) (q : Parser κ ι β) (s : ι) :
    (p.andThen q).run s =
      match p.outcome s with
      | .success (a, r) => ⟨p.log s ++ q.log r, (q.outcome r).map fun (b, r) => ((a, b), r)⟩
      | .failure e => ⟨p.log s, .failure e⟩ := by
  simp only [andThen, outcome, log]
  rcases p.run s with ⟨l, ⟨a, r⟩ | e⟩
  · exact Traced.ext (by simp) rfl
  · exact Traced.ext (by simp) rfl

/-- The outcome of a sequence: the first failure, or the pair of the values. -/
theorem outcome_andThen (p : Parser κ ι α) (q : Parser κ ι β) (s : ι) :
    (p.andThen q).outcome s =
      (p.outcome s).andThen fun (a, r) => (q.outcome r).map fun (b, r) => ((a, b), r) := by
  rw [outcome, run_andThen]
  rcases p.outcome s with ⟨a, r⟩ | e <;> rfl

/-- The log of a sequence: the second parser adds to it only after a success of the first. -/
theorem log_andThen (p : Parser κ ι α) (q : Parser κ ι β) (s : ι) :
    (p.andThen q).log s =
      p.log s ++
        match p.outcome s with
        | .success (_, r) => q.log r
        | .failure _ => [] := by
  rw [log, run_andThen]
  rcases p.outcome s with ⟨a, r⟩ | e <;> simp

theorem run_select (p : Parser κ ι α) (f : α → Traced κ β) (s : ι) :
    (p.select f).run s =
      match p.outcome s with
      | .success (a, r) => ⟨p.log s ++ (f a).log, .success ((f a).value, r)⟩
      | .failure e => ⟨p.log s, .failure e⟩ := by
  simp only [select, outcome, log]
  rcases p.run s with ⟨l, ⟨a, r⟩ | e⟩
  · exact Traced.ext (by simp) rfl
  · exact Traced.ext (by simp) rfl

/-- The outcome of a mapped parser: the function transforms the value and nothing else. -/
theorem outcome_select (p : Parser κ ι α) (f : α → Traced κ β) (s : ι) :
    (p.select f).outcome s = (p.outcome s).map fun (a, r) => ((f a).value, r) := by
  rw [outcome, run_select]
  rcases p.outcome s with ⟨a, r⟩ | e <;> rfl

/-- The log of a mapped parser: the function is called after a success, and not at all otherwise. -/
theorem log_select (p : Parser κ ι α) (f : α → Traced κ β) (s : ι) :
    (p.select f).log s =
      p.log s ++
        match p.outcome s with
        | .success (a, _) => (f a).log
        | .failure _ => [] := by
  rw [log, run_select]
  rcases p.outcome s with ⟨a, r⟩ | e <;> simp

@[simp] theorem outcome_map (f : α → β) (p : Parser κ ι α) (s : ι) :
    (p.map f).outcome s = (p.outcome s).map fun (a, r) => (f a, r) := by
  simp [map, outcome_select]

@[simp] theorem log_map (f : α → β) (p : Parser κ ι α) (s : ι) : (p.map f).log s = p.log s := by
  rw [map, log_select]
  rcases p.outcome s with ⟨a, r⟩ | e <;> simp

/-- The function parser of `apply` runs first, then the argument parser, then the function. -/
theorem run_apply (arg : Parser κ ι α) (fn : Parser κ ι (α → Traced κ β)) (s : ι) :
    (apply arg fn).run s =
      match fn.outcome s with
      | .success (f, r) =>
        match arg.outcome r with
        | .success (a, r') =>
          ⟨fn.log s ++ (arg.log r ++ (f a).log), .success ((f a).value, r')⟩
        | .failure e => ⟨fn.log s ++ arg.log r, .failure e⟩
      | .failure e => ⟨fn.log s, .failure e⟩ := by
  rw [apply, run_select, outcome_andThen, log_andThen]
  rcases fn.outcome s with ⟨f, r⟩ | e
  · simp only [Outcome.andThen_success]
    rcases arg.outcome r with ⟨a, r'⟩ | e <;> simp
  · simp

/-- `lift₂ f x y` runs `x`, then `y` on the rest, and calls `f` once, after both. -/
theorem run_lift₂ (f : α → β → Traced κ γ) (x : Parser κ ι α) (y : Parser κ ι β) (s : ι) :
    (lift₂ f x y).run s =
      match x.outcome s with
      | .success (a, r) =>
        match y.outcome r with
        | .success (b, r') =>
          ⟨x.log s ++ (y.log r ++ (f a b).log), .success ((f a b).value, r')⟩
        | .failure e => ⟨x.log s ++ y.log r, .failure e⟩
      | .failure e => ⟨x.log s, .failure e⟩ := by
  have hx := run_apply x (ret fun a => pure (f a)) s
  rw [outcome_ret] at hx
  rw [lift₂, run_apply, outcome, log, hx]
  rcases ho : x.outcome s with ⟨a, r⟩ | e <;> simp [ho]

/-- The outcome of a lifted function: the first failure, or the function of the two values. -/
theorem outcome_lift₂ (f : α → β → Traced κ γ) (x : Parser κ ι α) (y : Parser κ ι β) (s : ι) :
    (lift₂ f x y).outcome s =
      (x.outcome s).andThen fun (a, r) =>
        (y.outcome r).map fun (b, r) => ((f a b).value, r) := by
  rw [outcome, run_lift₂]
  rcases x.outcome s with ⟨a, r⟩ | e
  · rcases ho : y.outcome r with ⟨b, r'⟩ | e <;> simp [ho]
  · rfl

end ApplicativeParsing.Parser

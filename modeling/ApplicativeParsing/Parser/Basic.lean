import ApplicativeParsing.Outcome
import ApplicativeParsing.Trace

/-!
# Parsers

A parser runs on an input and ends in an outcome: a value together with the rest of the input, or
a message. Its run leaves a log. A parser is nothing but its run, so it is deterministic: run twice
on the same input it does the same twice.

## Main definitions

* `Parser`, with the views `Parser.outcome` and `Parser.log` of its run.
* `Parser.ret`, `Parser.fail`: the parsers that do not look at the input.
* `Parser.probe`: a parser that notes when it is run, and on what.
* `Parser.deferred`: a parser that is put together only when it runs.
-/

namespace ApplicativeParsing

/-- A parser with values `α` over inputs `ι`, whose runs may make notes of type `κ`. -/
structure Parser (κ ι α : Type) where
  /-- One run: what happened during it, and how it ended. -/
  run : ι → Traced κ (Outcome (α × ι))

namespace Parser

variable {κ ι α β : Type}

/-- How the run of `p` on `s` ends. -/
def outcome (p : Parser κ ι α) (s : ι) : Outcome (α × ι) := (p.run s).value

/-- What happens during the run of `p` on `s`. -/
def log (p : Parser κ ι α) (s : ι) : List (Entry κ) := (p.run s).log

/-- The parser that succeeds with `a` and reads nothing. -/
def ret (a : α) : Parser κ ι α where
  run s := pure (.success (a, s))

/-- The parser that fails with `message` on every input. -/
def fail (message : String) : Parser κ ι α where
  run _ := pure (.failure message)

/-- Note `note s` whenever `p` is about to run on `s`. -/
def probe (note : ι → κ) (p : Parser κ ι α) : Parser κ ι α where
  run s := do
    Traced.note (note s)
    p.run s

/-- The parser that `p` puts together, anew in every run and not before the run reaches it. A parser
in which a part occurs again and again takes no more room than its parts then, and no more time than
the runs of the parts that are reached. -/
def deferred (p : Unit → Parser κ ι α) : Parser κ ι α where
  run s := (p ()).run s

/-- To defer a parser changes nothing about it. -/
@[simp] theorem deferred_eq (p : Unit → Parser κ ι α) : deferred p = p () := rfl

/-- Parsers with the same runs are the same. -/
theorem ext_run {p q : Parser κ ι α} (h : ∀ s, p.run s = q.run s) : p = q := by
  cases p; cases q
  congr
  exact funext h

/-- Parsers that end alike and log alike on every input are the same. -/
theorem ext_views {p q : Parser κ ι α} (ho : ∀ s, p.outcome s = q.outcome s)
    (hl : ∀ s, p.log s = q.log s) : p = q :=
  ext_run fun s => Traced.ext (hl s) (ho s)

@[simp] theorem outcome_ret (a : α) (s : ι) : (ret a : Parser κ ι α).outcome s = .success (a, s) :=
  rfl

@[simp] theorem log_ret (a : α) (s : ι) : (ret a : Parser κ ι α).log s = [] := rfl

@[simp] theorem outcome_fail (e : String) (s : ι) :
    (fail e : Parser κ ι α).outcome s = .failure e := rfl

@[simp] theorem log_fail (e : String) (s : ι) : (fail e : Parser κ ι α).log s = [] := rfl

@[simp] theorem outcome_probe (note : ι → κ) (p : Parser κ ι α) (s : ι) :
    (p.probe note).outcome s = p.outcome s := rfl

@[simp] theorem log_probe (note : ι → κ) (p : Parser κ ι α) (s : ι) :
    (p.probe note).log s = .note (note s) :: p.log s := rfl

end Parser

end ApplicativeParsing

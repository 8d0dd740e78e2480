import ApplicativeParsing.Parser.Element
import ApplicativeParsing.Value.Cursor
import ApplicativeParsing.Value.Kind

/-!
# What the wording of a failure tells

The wording of a mismatch quotes two texts as they are, without escaping them, and what stands
between them can occur in them too. So a wording can belong to different mismatches. It tells the
two texts if it can be seen where the first one ends: at the first apostrophe, where expected texts
have none, or behind as many characters as they all have. Then the second text is what is left. The
wording of the end of the input tells only that.

## Main definitions

* `ParseFailure.Separable`: texts whose ends can be seen in this way.

## Main statements

* `ParseFailure.message_mismatch_eq_iff`: separable mismatches are told apart by their wording.
* `Kind.separable_of_holds`: the elements of which all this holds.
* `ParseFailure.wording_identifies`: what is known of failures, and of failed runs, with one
  wording.
-/

namespace ApplicativeParsing

namespace ParseFailure

/-- Two texts without an apostrophe, or two that are equally long. With an apostrophe behind them it
can be seen where they end. -/
def Separable (e e' : String) : Prop :=
  ('\'' ∉ e.toList ∧ '\'' ∉ e'.toList) ∨ e.length = e'.length

/-! ### Where the first text ends -/

/-- What stands in front of the first apostrophe. -/
theorem takeWhile_append_quote {l : List Char} (h : '\'' ∉ l) (r : List Char) :
    (l ++ '\'' :: r).takeWhile (· ≠ '\'') = l := by
  have hl : ∀ c ∈ l, decide (c ≠ '\'') = true := fun c hc =>
    decide_eq_true fun hquote => h (hquote ▸ hc)
  rw [List.takeWhile_append_of_pos hl, List.takeWhile_cons_of_neg (by simp), List.append_nil]

/-- Texts without an apostrophe end at the first one, so they are equally long. -/
theorem length_eq_of_append_quote_eq {l l' r r' : List Char} (hl : '\'' ∉ l) (hl' : '\'' ∉ l')
    (h : l ++ '\'' :: r = l' ++ '\'' :: r') : l.length = l'.length := by
  rw [← takeWhile_append_quote hl r, h, takeWhile_append_quote hl' r']

/-- The wording of a mismatch as characters. -/
theorem toList_message_mismatch (e a : String) :
    (mismatch e a).message.toList =
      "Expecting '".toList ++
        (e.toList ++ '\'' :: (". Got '".toList ++ (a.toList ++ "'.".toList))) := by
  simp [message_mismatch]

/-- The end of the input is not worded like a mismatch. -/
theorem message_noMoreInput_ne (e a : String) : noMoreInput.message ≠ (mismatch e a).message := by
  -- the two texts differ in their first characters
  intro h
  have hhead := congrArg (fun text => text.toList.head?) h
  rw [head?_message_mismatch] at hhead
  exact absurd hhead (by decide)

/-- If the expected texts are separable, the wording of a mismatch tells both texts. -/
theorem message_mismatch_eq_iff {e a e' a' : String} (h : Separable e e') :
    (mismatch e a).message = (mismatch e' a').message ↔ e = e' ∧ a = a' := by
  refine ⟨fun hm => ?_, by rintro ⟨rfl, rfl⟩; rfl⟩
  rw [← String.toList_inj, toList_message_mismatch, toList_message_mismatch,
    List.append_right_inj] at hm
  -- either way both expected texts end at the same place
  have hlength : e.toList.length = e'.toList.length := by
    rcases h with ⟨he, he'⟩ | hlength
    · exact length_eq_of_append_quote_eq he he' hm
    · rw [String.length_toList, String.length_toList, hlength]
  obtain ⟨he, hrest⟩ := List.append_inj hm hlength
  rw [List.cons.injEq, List.append_right_inj, List.append_left_inj] at hrest
  exact ⟨String.toList_inj.1 he, String.toList_inj.1 hrest.2⟩

/-- Otherwise two mismatches may share their wording. -/
example : (mismatch "a" "b'. Got 'c").message = (mismatch "a'. Got 'b" "c").message := rfl

end ParseFailure

/-! ### Texts without an apostrophe -/

/-- No digit is an apostrophe. -/
theorem quote_notMem_toDigits (n : Nat) : '\'' ∉ Nat.toDigits 10 n := fun h =>
  absurd (Nat.isDigit_of_mem_toDigits (by decide) (by decide) h) (by decide)

/-- A numeral of an integer has no apostrophe. -/
theorem quote_notMem_toString_int (n : Int) : '\'' ∉ (toString n).toList := by
  cases n with
  | ofNat n =>
    change '\'' ∉ n.repr.toList
    rw [Nat.toList_repr]
    exact quote_notMem_toDigits n
  | negSucc n =>
    change '\'' ∉ ("-" ++ n.succ.repr).toList
    rw [String.toList_append, Nat.toList_repr, List.mem_append, not_or]
    exact ⟨by decide, quote_notMem_toDigits _⟩

namespace Decimal

/-- A numeral with a point has no apostrophe. -/
theorem quote_notMem_numeral (coefficient places : Nat) :
    '\'' ∉ (numeral coefficient places).toList := by
  have hdigits (zeros : Nat) :
      '\'' ∉ List.replicate zeros '0' ++ Nat.toDigits 10 coefficient := by
    rw [List.mem_append, not_or]
    exact ⟨fun h => absurd (List.eq_of_mem_replicate h) (by decide),
      quote_notMem_toDigits coefficient⟩
  rw [numeral, String.toList_ofList, List.splitAt_eq]
  dsimp only
  split
  · exact fun h => hdigits _ (List.mem_of_mem_take h)
  · rw [List.mem_append, List.mem_cons, not_or, not_or]
    exact ⟨fun h => hdigits _ (List.mem_of_mem_take h), by decide,
      fun h => hdigits _ (List.mem_of_mem_drop h)⟩

/-- Nor has the text of a decimal number. -/
theorem quote_notMem_text (d : Decimal) : '\'' ∉ d.text.toList := by
  cases d with
  | nan => decide
  | infinite negative => cases negative <;> decide
  | finite negative coefficient places =>
    rw [text, String.toList_append, List.mem_append, not_or]
    exact ⟨by cases negative <;> decide, quote_notMem_numeral coefficient places⟩

end Decimal

namespace Kind

variable {kind : Kind}

/-- In all kinds but words and tokens the texts of the elements are equally long, as those of
characters are, or have no apostrophe, as those of numbers and truth values. -/
theorem fixed_length_or_quote_notMem (hwords : kind ≠ .words) (htokens : kind ≠ .tokens) :
    (∃ n, ∀ e, kind.Holds e → (toString e).length = n) ∨
      ∀ e, kind.Holds e → '\'' ∉ (toString e).toList := by
  cases kind with
  | text | chars | globs =>
    refine .inl ⟨1, fun e he => ?_⟩
    cases he
    exact String.length_singleton
  | caseless =>
    refine .inl ⟨2, fun e he => ?_⟩
    cases he
    exact String.length_push _
  | bytes | signed | unsigned =>
    refine .inr fun e he => ?_
    cases he
    exact quote_notMem_toString_int _
  | bools =>
    refine .inr fun e he => ?_
    cases he with
    | bools b => cases b <;> decide
  | decimals =>
    refine .inr fun e he => ?_
    cases he
    exact Decimal.quote_notMem_text _
  | words => exact absurd rfl hwords
  | tokens => exact absurd rfl htokens

/-- So they are separable. -/
theorem separable_of_holds {e e' : Element} (hwords : kind ≠ .words) (htokens : kind ≠ .tokens)
    (he : kind.Holds e) (he' : kind.Holds e') :
    ParseFailure.Separable (toString e) (toString e') := by
  rcases fixed_length_or_quote_notMem hwords htokens with ⟨n, hn⟩ | hquote
  · exact .inr ((hn e he).trans (hn e' he').symm)
  · exact .inl ⟨hquote e he, hquote e' he'⟩

end Kind

/-! ### Failed runs -/

variable {κ ι ξ σ τ : Type} [Input ι σ] [BEq σ] [ToString σ] [Input ξ τ] [BEq τ] [ToString τ]

/-- Two parsers for one element that fail with one wording, while the texts of what they expect are
separable, fail for one cause. If they are not both at the end of the input, then there is an
element in front of both, and the expected and the actual elements have the same texts. -/
theorem Parser.element.failure?_eq_of_outcome {e : σ} {e' : τ} {s : ι} {s' : ξ} {m : String}
    (hseparable : ParseFailure.Separable (toString e) (toString e'))
    (h : (element e : Parser κ ι σ).outcome s = .failure m)
    (h' : (element e' : Parser κ ξ τ).outcome s' = .failure m) :
    element.failure? e s = element.failure? e' s' ∧
      (¬(Input.first s = none ∧ Input.first s' = none) →
        ∃ x x', Input.first s = some x ∧ Input.first s' = some x' ∧
          toString e = toString e' ∧ toString x = toString x') := by
  obtain ⟨f, hf, rfl⟩ := outcome_element_eq_failure.1 h
  obtain ⟨f', hf', hm⟩ := outcome_element_eq_failure.1 h'
  rw [hf, hf']
  rcases element.of_failure?_eq_some hf with ⟨hs, rfl⟩ | ⟨x, hs, rfl⟩ <;>
    rcases element.of_failure?_eq_some hf' with ⟨hs', rfl⟩ | ⟨x', hs', rfl⟩
  · exact ⟨rfl, fun hend => absurd ⟨hs, hs'⟩ hend⟩
  · exact absurd hm (ParseFailure.message_noMoreInput_ne _ _)
  · exact absurd hm.symm (ParseFailure.message_noMoreInput_ne _ _)
  · obtain ⟨he, hx⟩ := (ParseFailure.message_mismatch_eq_iff hseparable).1 hm
    rw [ParseFailure.ofElements, ParseFailure.ofElements, he, hx]
    exact ⟨rfl, fun _ => ⟨x, x', hs, hs', rfl, hx⟩⟩

namespace ParseFailure

/-- The wording of a failure identifies it. The end of the input is not worded like a mismatch, and
mismatches with one wording agree in both texts, if no expected text has an apostrophe or both are
equally long. So two failed runs of parsers for one element that end with one wording fail for one
cause; and unless both are at the end of the input, where the wording does not say what was
expected, the texts of the expected and of the actual elements agree. This applies to the elements
of all kinds but words and tokens. -/
theorem wording_identifies :
    (∀ e a : String, noMoreInput.message ≠ (mismatch e a).message) ∧
    (∀ e a e' a' : String, ('\'' ∉ e.toList ∧ '\'' ∉ e'.toList) ∨ e.length = e'.length →
      ((mismatch e a).message = (mismatch e' a').message ↔ e = e' ∧ a = a')) ∧
    (∀ (e : σ) (e' : τ) (s : ι) (s' : ξ) (m : String), Separable (toString e) (toString e') →
      (Parser.element e : Parser κ ι σ).outcome s = .failure m →
      (Parser.element e' : Parser κ ξ τ).outcome s' = .failure m →
      Parser.element.failure? e s = Parser.element.failure? e' s' ∧
        (¬(Input.first s = none ∧ Input.first s' = none) →
          ∃ x x', Input.first s = some x ∧ Input.first s' = some x' ∧
            toString e = toString e' ∧ toString x = toString x')) ∧
    ∀ (kind : Kind) (e e' : Element), kind ≠ .words → kind ≠ .tokens →
      kind.Holds e → kind.Holds e' → Separable (toString e) (toString e') :=
  ⟨message_noMoreInput_ne, fun _ _ _ _ h => message_mismatch_eq_iff h,
    fun _ _ _ _ _ hseparable h h' => Parser.element.failure?_eq_of_outcome hseparable h h',
    fun _ _ _ hwords htokens he he' => Kind.separable_of_holds hwords htokens he he'⟩

/-- An apostrophe is expected, as a character and as a pattern, and something else is found. -/
theorem wording_identifies_quote :
    let p : Parser Unit (List Char) Char := .element '\''
    let q : Parser Unit Cursor Element := .element (.glob '\'')
    let s : List Char := ['x', 'y']
    let t : Cursor := .list [.glob 'x']
    let m := "Expecting '''. Got 'x'."
    Separable (toString '\'') (toString (Element.glob '\'')) ∧
      p.outcome s = .failure m ∧ q.outcome t = .failure m ∧
      (∃ x x', Input.first s = some x ∧ Input.first t = some x' ∧
        toString '\'' = toString (Element.glob '\'') ∧ toString x = toString x') ∧
      (mismatch "'" "a").message ≠ (mismatch "a" "'").message ∧
      Kind.globs.Holds (.glob '\'') ∧ Kind.globs.Holds (.glob 'a') ∧
      Separable (toString (Element.glob '\'')) (toString (Element.glob 'a')) := by
  intro p q s t m
  have hseparable : Separable (toString '\'') (toString (Element.glob '\'')) := .inr rfl
  have hp : p.outcome s = .failure m := rfl
  have hq : q.outcome t = .failure m := rfl
  obtain ⟨-, hmismatch, hruns, hkinds⟩ :=
    wording_identifies (κ := Unit) (ι := List Char) (ξ := Cursor)
  obtain ⟨-, htexts⟩ := hruns '\'' (.glob '\'') s t m hseparable hp hq
  refine ⟨hseparable, hp, hq, htexts nofun, fun h => ?_, .globs _, .globs _, ?_⟩
  · exact absurd ((hmismatch "'" "a" "a" "'" (.inr rfl)).1 h).1 (by decide)
  · exact hkinds .globs _ _ nofun nofun (.globs _) (.globs _)

/-- At the end of the input two different characters are missed with one wording, although the texts
of both are separable. -/
theorem wording_shared_at_end :
    let p : Parser Unit Cursor Element := .element (.char 'a')
    let q : Parser Unit Cursor Element := .element (.char 'b')
    let s := Cursor.ofString ""
    Kind.text.Holds (.char 'a') ∧ Kind.text.Holds (.char 'b') ∧
      Separable (toString (Element.char 'a')) (toString (Element.char 'b')) ∧
      p.outcome s = .failure "No more input" ∧ q.outcome s = .failure "No more input" ∧
      toString (Element.char 'a') ≠ toString (Element.char 'b') := by
  intro p q s
  have hend : Input.first s = none := by simp [s, Cursor.first_eq, Cursor.ofString, Cursor.elements]
  exact ⟨.text 'a', .text 'b', .inr rfl, Parser.outcome_element_of_first_eq_none hend,
    Parser.outcome_element_of_first_eq_none hend, by decide⟩

end ParseFailure

end ApplicativeParsing

import Mathlib.Data.Fin.VecNotation
import Mathlib.Data.List.Forall2
import ApplicativeParsing.Grammar.Matcher
import ApplicativeParsing.Proofs.Language

/-!
# Writing out what was read

The value of a matcher is made of the elements that it expected, in the nesting of its sequences.
Read from left to right these elements stand one for one for the elements that were consumed: each
one was compared with the element of the input in its place, which stood on the left of `==`. As
nothing is assumed of `==`, this is all that can be said in general. When it is identity the value
and the rest together are the input again.

The argument is about words of the language, and not about runs: what the run of a matcher consumes
is a word of its language.

## Main statements

* `Matcher.forall₂_flatten_of_derives`, `Matcher.mem_elements_of_derives`: the value of a word.
* `Matcher.unparse_of_success`: the value of a success, the consumed elements and the rest.
-/

namespace ApplicativeParsing.Matcher

variable {κ ι σ : Type} {n : Nest}

/-- The elements in the value of a word accept the elements of the word, in the same order. -/
theorem forall₂_flatten_of_derives [BEq σ] (p : Matcher σ n) {w : List σ} {v : n.Value σ}
    (h : p.grammar.Derives w v) : List.Forall₂ (fun x y => (x == y) = true) w (n.flatten v) := by
  induction p generalizing w with
  | element e =>
    -- `x` was read and `e` is the value: they need not be the same, but `e` accepts `x`
    obtain ⟨x, rfl, hx, rfl⟩ := h
    exact .cons hx .nil
  | andThen p q ihp ihq =>
    obtain ⟨w₁, w₂, rfl, hw₁, hw₂⟩ := h
    exact List.rel_append (ihp hw₁) (ihq hw₂)
  | orElse p q ihp ihq =>
    rcases h with hw | hw
    · exact ihp hw
    · exact ihq hw
  | choice ps ih =>
    obtain ⟨i, hw⟩ := h
    exact ih i hw
  | boxed p ih => exact ih h

/-- The elements in the value of a word are expected elements of the matcher. -/
theorem mem_elements_of_derives [BEq σ] (p : Matcher σ n) {w : List σ} {v : n.Value σ}
    (h : p.grammar.Derives w v) : ∀ y ∈ n.flatten v, y ∈ p.elements := by
  induction p generalizing w with
  | element e =>
    obtain ⟨x, -, -, rfl⟩ := h
    exact fun y hy => hy
  | andThen p q ihp ihq =>
    obtain ⟨w₁, w₂, -, hw₁, hw₂⟩ := h
    intro y hy
    rcases List.mem_append.1 hy with hy | hy
    · exact List.mem_append_left _ (ihp hw₁ y hy)
    · exact List.mem_append_right _ (ihq hw₂ y hy)
  | orElse p q ihp ihq =>
    intro y hy
    rcases h with hw | hw
    · exact List.mem_append_left _ (ihp hw y hy)
    · exact List.mem_append_right _ (ihq hw y hy)
  | choice ps ih =>
    -- the elements of one alternative are among those of all of them
    obtain ⟨i, hw⟩ := h
    intro y hy
    exact List.mem_flatten.2 ⟨_, List.mem_ofFn.2 ⟨i, rfl⟩, ih i hw y hy⟩
  | boxed p ih => exact ih h

/-- The elements in the value of a success are at least one, they are expected elements of the
matcher, and they accept the consumed elements one by one in the same order. If `==` is identity,
writing them out in front of the rest gives the input again. -/
theorem unparse_of_success [FiniteInput ι σ] [BEq σ] [ToString σ] (p : Matcher σ n) {s r : ι}
    {v : n.Value σ} (h : (p.grammar.parser : Parser κ ι _).outcome s = .success (v, r)) :
    n.flatten v ≠ [] ∧
      (∃ xs, FiniteInput.elements s = xs ++ FiniteInput.elements r ∧
        List.Forall₂ (fun x y => (x == y) = true) xs (n.flatten v)) ∧
      (∀ y ∈ n.flatten v, y ∈ p.elements) ∧
      ((∀ x y : σ, (x == y) = true → x = y) →
        FiniteInput.elements s = n.flatten v ++ FiniteInput.elements r) := by
  obtain ⟨w, hs, hw⟩ := Grammar.derives_of_outcome_eq_success p.grammar h
  have haccept := p.forall₂_flatten_of_derives hw
  refine ⟨n.flatten_ne_nil v, ⟨w, hs, haccept⟩, p.mem_elements_of_derives hw, fun hid => ?_⟩
  -- under identity the consumed elements are those of the value
  have hword : w = n.flatten v := List.forall₂_eq_eq_eq ▸ haccept.imp hid
  rw [hs, hword]

/-- Globs, where the question mark stands in the value for what it accepted, and characters, which
come out as they went in. -/
theorem unparse_of_success_glob :
    let p : Matcher Element (.pair .leaf .leaf) :=
      .andThen (anyOf ![.glob 'a', .glob '?']) (.boxed (.element (.glob 'b')))
    let q : Matcher Char (.pair .leaf .leaf) := .andThen (anyOf !['a', 'b']) (.element 'c')
    let s : List Element := [.glob 'x', .glob 'b', .glob 'z']
    (p.grammar.parser : Parser Unit (List Element) _).outcome s =
        .success ((.glob '?', .glob 'b'), [.glob 'z']) ∧
      (∃ xs, s = xs ++ [.glob 'z'] ∧
        List.Forall₂ (fun x y => (x == y) = true) xs [.glob '?', .glob 'b']) ∧
      (q.grammar.parser : Parser Unit (List Char) _).outcome ['b', 'c', 'd'] =
        .success (('b', 'c'), ['d']) ∧
      ['b', 'c', 'd'] = Nest.flatten (.pair .leaf .leaf) ('b', 'c') ++ ['d'] := by
  intro p q s
  have hp : (p.grammar.parser : Parser Unit (List Element) _).outcome s =
      .success ((.glob '?', .glob 'b'), [.glob 'z']) := by rfl
  have hq : (q.grammar.parser : Parser Unit (List Char) _).outcome ['b', 'c', 'd'] =
      .success (('b', 'c'), ['d']) := by rfl
  obtain ⟨-, hglob, -, -⟩ := unparse_of_success p hp
  obtain ⟨-, -, -, hchar⟩ := unparse_of_success q hq
  exact ⟨hp, hglob, hq, hchar fun x y h => eq_of_beq h⟩

end ApplicativeParsing.Matcher

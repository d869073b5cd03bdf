import TemplateCompiler.Proofs.Binding.Proper
/-!
# Numbers in bindings

The numbers of a binding expression are those that its code writes as numeric literals, in their order. The text of one
is a decimal, unless the value of the literal is too large for a magnitude: then it is a word (`numbers_readBinding`).
-/

namespace TemplateCompiler.Binding

open TemplateCompiler.Script TemplateCompiler.Number TemplateCompiler.Number.Binary64

/-! ## The numbers of an expression -/

/-- The text of a literal that is a number. -/
def Literal.numbers : Literal → List String
  | .number text => [text]
  | _ => []

/-- The text of a key that is a number. -/
def Property.numbers : Property → List String
  | .static _ => []
  | .computed key => key.numbers

namespace Expr

mutual

/-- The texts of the numbers in an expression, from the left. -/
def numbers : Expr → List String
  | .identifier _ => []
  | .member object property => object.numbers ++ property.numbers
  | .literal value => value.numbers
  | .paren inner => inner.numbers
  | .template _ tail => numbersInTail tail

/-- The texts of the numbers in the substitutions of a template. -/
def numbersInTail : List (Expr × String) → List String
  | [] => []
  | (inner, _) :: tail => inner.numbers ++ numbersInTail tail

end

mutual

theorem numbers_ofTerm : ∀ (t : Term) {e : Expr}, Expr.ofTerm t = .ok e → e.numbers = t.numbers
  | .name _, _, rfl => rfl
  | .string _, _, rfl => rfl
  | .number _, _, rfl => rfl
  | .boolean _, _, rfl => rfl
  | .null, _, rfl => rfl
  | .member object property, e, h => by
    rw [Expr.ofTerm] at h
    obtain ⟨object', hobject, h⟩ := bind_eq_ok h
    cases h
    exact (List.append_nil _).trans (numbers_ofTerm object hobject)
  | .index object key, e, h => by
    rw [Expr.ofTerm] at h
    obtain ⟨key', hkey, h⟩ := bind_eq_ok h
    have hkeyNumbers := numbers_ofTerm key hkey
    split at h
    · obtain ⟨object', hobject, h⟩ := bind_eq_ok h
      cases h
      exact congrArg₂ (· ++ ·) (numbers_ofTerm object hobject) hkeyNumbers
    · cases h
  | .paren inner, e, h => by
    rw [Expr.ofTerm] at h
    obtain ⟨inner', hinner, h⟩ := bind_eq_ok h
    cases h
    have hnumbers := numbers_ofTerm inner hinner
    exact hnumbers
  | .template head tail, e, h => by
    rw [Expr.ofTerm] at h
    obtain ⟨tail', htail, h⟩ := bind_eq_ok h
    cases h
    exact numbersInTail_ofTail tail htail

theorem numbersInTail_ofTail : ∀ (tail : List (Term × String)) {tail' : List (Expr × String)},
    Expr.ofTail tail = .ok tail' → numbersInTail tail' = Term.numbersInTail tail
  | [], _, rfl => rfl
  | (inner, after) :: tail, tail', h => by
    rw [Expr.ofTail] at h
    obtain ⟨inner', hinner, h⟩ := bind_eq_ok h
    obtain ⟨more, hmore, h⟩ := bind_eq_ok h
    cases h
    exact congrArg₂ (· ++ ·) (numbers_ofTerm inner hinner) (numbersInTail_ofTail tail hmore)

end

end Expr

/-- What an expression of a binding is read from: a term that is kept. -/
theorem exists_term_readBinding {code : List Char} {e : Expr} (h : readBinding code = .ok e) :
    ∃ t : Term, Expr.ofTerm t = .ok e ∧ t.IsReadFrom code := by
  unfold readBinding at h
  split at h
  · cases h
  · split at h
    · rename_i t ht
      exact ⟨t, h, isReadFrom_readExpression ht (Expr.isProper_ofTerm t h).1⟩
    · cases h

/-- The code of a binding holds the numbers of its expression. -/
theorem holdsNumbers_readBinding {code : List Char} {e : Expr} (h : readBinding code = .ok e) :
    HoldsNumbers code e.numbers := by
  obtain ⟨t, ht, hread⟩ := exists_term_readBinding h
  rw [Expr.numbers_ofTerm t ht]
  exact hread.numbers

/-! ## Literals and their texts -/

/-- Pieces stand in a text one behind another. -/
inductive StandIn : List (List Char) → List Char → Prop where
  | nil (cs : List Char) : StandIn [] cs
  | cons (gap : List Char) {piece rest : List Char} {pieces : List (List Char)} (h : StandIn pieces rest) :
      StandIn (piece :: pieces) (gap ++ (piece ++ rest))

/-- The text of a number of this value is a decimal if the value is not too large, and else the word `inf`. -/
def IsTextOf (value : ℚ) (text : String) : Prop :=
  if value < limit then Tree.IsDecimal text.toList else text = "inf"

theorem not_isDecimal_inf : ¬ Tree.IsDecimal "inf".toList := by
  intro h
  obtain ⟨c, cs, heq, hc⟩ := h.exists_head
  obtain rfl : 'i' = c := (List.cons.inj heq).1
  cases hc

theorem IsTextOf.isDecimal_iff {value : ℚ} {text : String} (h : IsTextOf value text) :
    Tree.IsDecimal text.toList ↔ value < limit := by
  unfold IsTextOf at h
  split at h
  · rename_i hlt
    exact ⟨fun _ => hlt, fun _ => h⟩
  · rename_i hnot
    rw [h]
    exact ⟨fun hdecimal => absurd hdecimal not_isDecimal_inf, fun hlt => absurd hlt hnot⟩

theorem exists_isTextOf {literal : List Char} {text : String} (h : IsKeptAs literal text) :
    ∃ value, NumericLiteral literal value ∧ IsTextOf value text := by
  obtain ⟨value, b, hliteral, hresult, rfl⟩ := h
  refine ⟨value, hliteral, ?_⟩
  unfold IsTextOf
  cases b with
  | finite m e =>
    rw [if_pos hresult.1]
    exact Tree.isDecimal_text hresult.2
  | infinite =>
    rw [if_neg (not_lt.2 hresult)]
    rfl

/-- The numbers of an expression are the literals in its code, one by one. A number is kept as a decimal exactly if the
value of its literal is not too large for a magnitude. -/
theorem numbers_readBinding {code : List Char} {e : Expr} (h : readBinding code = .ok e) :
    ∃ literals : List (List Char × ℚ), StandIn (literals.map Prod.fst) code ∧
      (∀ l ∈ literals, NumericLiteral l.1 l.2) ∧ List.Forall₂ (fun l text => IsTextOf l.2 text) literals e.numbers ∧
      ((∀ text ∈ e.numbers, Tree.IsDecimal text.toList) ↔ ∀ l ∈ literals, l.2 < limit) := by
  have hnumbers := holdsNumbers_readBinding h
  clear h
  generalize e.numbers = texts at hnumbers
  induction hnumbers with
  | nil cs => exact ⟨[], .nil cs, by simp, .nil, by simp⟩
  | cons gap hkept hrest ih =>
    obtain ⟨literals, hstand, hliterals, htexts, hiff⟩ := ih
    obtain ⟨value, hliteral, htext⟩ := exists_isTextOf hkept
    refine ⟨(_, value) :: literals, .cons gap hstand, List.forall_mem_cons.2 ⟨hliteral, hliterals⟩,
      .cons htext htexts, ?_⟩
    rw [List.forall_mem_cons, List.forall_mem_cons, hiff, htext.isDecimal_iff]

/-- What an expression that is read is like, from what can be evaluated of it. -/
theorem exists_of_toOption {α : Type} {code : List Char} {f : Expr → α} {a : α}
    (h : (readBinding code).toOption.map f = some a) : ∃ e, readBinding code = .ok e ∧ f e = a := by
  cases hread : readBinding code with
  | error error => rw [hread] at h; cases h
  | ok e =>
    rw [hread] at h
    exact ⟨e, rfl, Option.some.inj h⟩

/-- Literals of three kinds, of which one has a separator. -/
theorem numbers_readBinding_separated :
    ∃ e, readBinding "xs[1_0][0x1F][.5e1]".toList = .ok e ∧ e.numbers = ["10", "31", "5"] ∧
      ∃ literals : List (List Char × ℚ), StandIn (literals.map Prod.fst) "xs[1_0][0x1F][.5e1]".toList ∧
        (∀ l ∈ literals, NumericLiteral l.1 l.2) ∧ List.Forall₂ (fun l text => IsTextOf l.2 text) literals e.numbers ∧
        ((∀ text ∈ e.numbers, Tree.IsDecimal text.toList) ↔ ∀ l ∈ literals, l.2 < limit) := by
  obtain ⟨e, hread, hnumbers⟩ := exists_of_toOption (show
    (readBinding "xs[1_0][0x1F][.5e1]".toList).toOption.map Expr.numbers = some ["10", "31", "5"] by decide +kernel)
  exact ⟨e, hread, hnumbers, numbers_readBinding hread⟩

/-- Not every number is kept as a decimal: one that is too large is kept as the name `inf`. -/
theorem numbers_not_decimal :
    ¬ ∀ (code : List Char) (e : Expr), readBinding code = .ok e → ∀ text ∈ e.numbers, Tree.IsDecimal text.toList := by
  intro h
  obtain ⟨e, hread, hnumbers⟩ :=
    exists_of_toOption (show (readBinding "1e999".toList).toOption.map Expr.numbers = some ["inf"] by decide +kernel)
  exact not_isDecimal_inf (h _ e hread _ (by simp [hnumbers]))

end TemplateCompiler.Binding

import TemplateCompiler.Proofs.Script.KeptTerms
/-!
# Expressions as they are read

The names in the expression of a binding are identifier names, its numbers are written as numerals, and the pieces of
its templates have no delimiter in them (`isProper_readBinding`).
-/

namespace TemplateCompiler.Binding

open TemplateCompiler.Text TemplateCompiler.Script

/-- A number is written as a numeral. -/
def Literal.IsProper : Literal → Prop
  | .number text => IsNumeral text
  | _ => True

/-- The name of a member is an identifier name. -/
def Property.IsProper : Property → Prop
  | .static name => isIdentifierName name = true
  | .computed key => key.IsProper

theorem bind_eq_ok {α β ε : Type} {x : Except ε α} {f : α → Except ε β} {b : β} (h : (x >>= f) = .ok b) :
    ∃ a, x = .ok a ∧ f a = .ok b := by
  cases x with
  | error e => cases h
  | ok a => exact ⟨a, rfl, h⟩

namespace Expr

mutual

/-- The names, numbers and pieces of templates in an expression are as they should be. -/
def IsProper : Expr → Prop
  | .identifier name => isIdentifierName name = true
  | .member object property => object.IsProper ∧ property.IsProper
  | .literal value => value.IsProper
  | .paren inner => inner.IsProper
  | .template head tail => IsPiece head.toList ∧ IsProperTail tail

/-- The expressions in the substitutions of a template, and the pieces behind them, are as they should be. -/
def IsProperTail : List (Expr × String) → Prop
  | [] => True
  | (inner, after) :: tail => inner.IsProper ∧ IsPiece after.toList ∧ IsProperTail tail

end

mutual

/-- The expression that a term is comes from a term that is kept, and is as it should be if the term is. -/
theorem isProper_ofTerm : ∀ (t : Term) {e : Expr}, Expr.ofTerm t = .ok e →
    t.isKept = true ∧ (t.IsProper → e.IsProper)
  | .name name, _, rfl => ⟨rfl, id⟩
  | .string value, _, rfl => ⟨rfl, id⟩
  | .number text, _, rfl => ⟨rfl, id⟩
  | .boolean value, _, rfl => ⟨rfl, id⟩
  | .null, _, rfl => ⟨rfl, id⟩
  | .member object property, e, h => by
    rw [Expr.ofTerm] at h
    obtain ⟨object', hobject, h⟩ := bind_eq_ok h
    cases h
    obtain ⟨hkept, hproper⟩ := isProper_ofTerm object hobject
    exact ⟨hkept, fun ht => ⟨hproper ht.1, ht.2⟩⟩
  | .index object key, e, h => by
    rw [Expr.ofTerm] at h
    obtain ⟨key', hkey, h⟩ := bind_eq_ok h
    obtain ⟨hkeptKey, hproperKey⟩ := isProper_ofTerm key hkey
    split at h
    · obtain ⟨object', hobject, h⟩ := bind_eq_ok h
      cases h
      obtain ⟨hkept, hproper⟩ := isProper_ofTerm object hobject
      exact ⟨Bool.and_eq_true_iff.2 ⟨hkept, hkeptKey⟩, fun ht => ⟨hproper ht.1, hproperKey ht.2⟩⟩
    · cases h
  | .paren inner, e, h => by
    rw [Expr.ofTerm] at h
    obtain ⟨inner', hinner, h⟩ := bind_eq_ok h
    cases h
    obtain ⟨hkept, hproper⟩ := isProper_ofTerm inner hinner
    exact ⟨hkept, hproper⟩
  | .template head tail, e, h => by
    rw [Expr.ofTerm] at h
    obtain ⟨tail', htail, h⟩ := bind_eq_ok h
    cases h
    obtain ⟨hkept, hproper⟩ := isProperTail_ofTail tail htail
    exact ⟨hkept, fun ht => ⟨ht.1, hproper ht.2⟩⟩

theorem isProperTail_ofTail : ∀ (tail : List (Term × String)) {tail' : List (Expr × String)},
    Expr.ofTail tail = .ok tail' → Term.isKeptTail tail = true ∧ (Term.IsProperTail tail → IsProperTail tail')
  | [], _, rfl => ⟨rfl, id⟩
  | (inner, after) :: tail, tail', h => by
    rw [Expr.ofTail] at h
    obtain ⟨inner', hinner, h⟩ := bind_eq_ok h
    obtain ⟨more, hmore, h⟩ := bind_eq_ok h
    cases h
    obtain ⟨hkept, hproper⟩ := isProper_ofTerm inner hinner
    obtain ⟨hkeptTail, hproperTail⟩ := isProperTail_ofTail tail hmore
    exact ⟨Bool.and_eq_true_iff.2 ⟨hkept, hkeptTail⟩, fun ht => ⟨hproper ht.1, ht.2.1, hproperTail ht.2.2⟩⟩

end

end Expr

/-- The expression of a binding is as it should be. -/
theorem isProper_readBinding {code : List Char} {e : Expr} (h : readBinding code = .ok e) : e.IsProper := by
  unfold readBinding at h
  split at h
  · cases h
  · split at h
    · rename_i t ht
      obtain ⟨hkept, hproper⟩ := Expr.isProper_ofTerm t h
      exact hproper (isProper_readExpression ht hkept)
    · cases h

end TemplateCompiler.Binding

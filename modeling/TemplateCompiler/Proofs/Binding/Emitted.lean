import TemplateCompiler.Proofs.Binding.Numbers
import TemplateCompiler.Proofs.Script.WrittenTerms
/-!
# Expressions that are read again

The JavaScript that an expression is written as is itself a binding. It is read as the expression without its
parentheses, with every name that no iteration binds read off the component (`readBinding_toJs`).
-/

namespace TemplateCompiler.Binding

open TemplateCompiler.Text TemplateCompiler.Script TemplateCompiler.Number

/-! ## Expressions and terms -/

/-- The term that a literal is read from. -/
def Literal.toTerm : Literal → Term
  | .string value => .string value
  | .number text => .number text
  | .boolean value => .boolean value
  | .null => .null

/-- The term of a member of an object. -/
def Property.termOn (object : Term) : Property → Term
  | .static name => .member object name
  | .computed key => .index object key.toTerm

@[simp] theorem Literal.ofTerm_toTerm (value : Literal) : Expr.ofTerm value.toTerm = .ok (.literal value) := by
  cases value <;> rfl

namespace Expr

mutual

/-- The term that an expression is read from. -/
def toTerm : Expr → Term
  | .identifier name => .name name
  | .member object property => property.termOn object.toTerm
  | .literal value => value.toTerm
  | .paren inner => .paren inner.toTerm
  | .template head tail => .template head (tailToTerms tail)

/-- The terms that the substitutions of a template are read from. -/
def tailToTerms : List (Expr × String) → List (Term × String)
  | [] => []
  | (inner, after) :: tail => (inner.toTerm, after) :: tailToTerms tail

end

mutual

theorem ofTerm_toTerm : ∀ e : Expr, Expr.ofTerm e.toTerm = .ok e
  | .identifier _ => rfl
  | .member object (.static name) => by
    rw [toTerm, Property.termOn, Expr.ofTerm, ofTerm_toTerm object]
    rfl
  | .member object (.computed key) => by
    rw [toTerm, Property.termOn, Expr.ofTerm, Literal.ofTerm_toTerm, ofTerm_toTerm object]
    rfl
  | .literal value => value.ofTerm_toTerm
  | .paren inner => by
    rw [toTerm, Expr.ofTerm, ofTerm_toTerm inner]
    rfl
  | .template head tail => by
    rw [toTerm, Expr.ofTerm, ofTail_tailToTerms tail]
    rfl

theorem ofTail_tailToTerms : ∀ tail : List (Expr × String), Expr.ofTail (tailToTerms tail) = .ok tail
  | [] => rfl
  | (inner, after) :: tail => by
    rw [tailToTerms, Expr.ofTail, ofTerm_toTerm inner, ofTail_tailToTerms tail]
    rfl

end

mutual

/-- An expression is read from one term only. -/
theorem toTerm_of_ofTerm : ∀ (t : Term) {e : Expr}, Expr.ofTerm t = .ok e → e.toTerm = t
  | .name _, _, rfl => rfl
  | .string _, _, rfl => rfl
  | .number _, _, rfl => rfl
  | .boolean _, _, rfl => rfl
  | .null, _, rfl => rfl
  | .member object property, e, h => by
    rw [Expr.ofTerm] at h
    obtain ⟨object', hobject, h⟩ := bind_eq_ok h
    cases h
    rw [toTerm, Property.termOn, toTerm_of_ofTerm object hobject]
  | .index object key, e, h => by
    rw [Expr.ofTerm] at h
    obtain ⟨key', hkey, h⟩ := bind_eq_ok h
    have hkeyTerm := toTerm_of_ofTerm key hkey
    split at h
    · obtain ⟨object', hobject, h⟩ := bind_eq_ok h
      cases h
      rw [toTerm] at hkeyTerm
      rw [toTerm, Property.termOn, toTerm_of_ofTerm object hobject, hkeyTerm]
    · cases h
  | .paren inner, e, h => by
    rw [Expr.ofTerm] at h
    obtain ⟨inner', hinner, h⟩ := bind_eq_ok h
    cases h
    rw [toTerm, toTerm_of_ofTerm inner hinner]
  | .template head tail, e, h => by
    rw [Expr.ofTerm] at h
    obtain ⟨tail', htail, h⟩ := bind_eq_ok h
    cases h
    rw [toTerm, tailToTerms_of_ofTail tail htail]

theorem tailToTerms_of_ofTail : ∀ (tail : List (Term × String)) {tail' : List (Expr × String)},
    Expr.ofTail tail = .ok tail' → tailToTerms tail' = tail
  | [], _, rfl => rfl
  | (inner, after) :: tail, tail', h => by
    rw [Expr.ofTail] at h
    obtain ⟨inner', hinner, h⟩ := bind_eq_ok h
    obtain ⟨more, hmore, h⟩ := bind_eq_ok h
    cases h
    rw [tailToTerms, toTerm_of_ofTerm inner hinner, tailToTerms_of_ofTail tail hmore]

end

/-! ## What an expression is written as -/

mutual

/-- The expression that the text of an expression is read as, where `locals` are the names that iterations around it
bind: names are members of the component, and no parentheses are left but those that a number keeps in front of a
member. -/
def emitted (locals : List String) : Expr → Expr
  | .identifier name => if locals.contains name then .identifier name else .member (.identifier "$cmp") (.static name)
  | .member object property =>
    .member (if object.isNumber then .paren (object.emitted locals) else object.emitted locals) property
  | .literal value => .literal value
  | .paren inner => inner.emitted locals
  | .template head tail => .template head (emittedTail locals tail)

/-- The expressions that the substitutions of a template are read as. -/
def emittedTail (locals : List String) : List (Expr × String) → List (Expr × String)
  | [] => []
  | (inner, after) :: tail => (inner.emitted locals, after) :: emittedTail locals tail

end

/-- No number of an expression is too large for a magnitude. -/
def IsFinite (e : Expr) : Prop :=
  ∀ text ∈ e.numbers, text ≠ Binary64.infinite.text

/-- A number in parentheses is written without them. -/
theorem exists_of_isNumber (locals : List String) : ∀ {e : Expr}, e.isNumber = true →
    ∃ text, e.toJs locals = text ∧ e.emitted locals = .literal (.number text) ∧ e.numbers = [text]
  | .literal (.number text), _ => ⟨text, rfl, rfl, rfl⟩
  | .paren inner, h => exists_of_isNumber locals (e := inner) h
  | .literal (.string _), h | .literal (.boolean _), h | .literal .null, h | .identifier _, h | .member _ _, h
  | .template _ _, h => by cases h

end Expr

/-! ## Reading what is written -/

theorem isOperand_toTerm {value : Literal} (h : ∀ text ∈ value.numbers, Term.IsFinite text) :
    Term.IsOperand value.toJs.toList value.toTerm := by
  cases value with
  | string value => exact (Term.isPrimary_string value).isObject.isOperand
  | number text => exact (h text List.mem_cons_self).isOperand
  | boolean value =>
    have hboolean := (Term.isPrimary_boolean value).isObject.isOperand
    cases value <;> exact hboolean
  | null => exact Term.isPrimary_null.isObject.isOperand

/-- What is no number may be the object of a member. -/
theorem isObject_toTerm {value : Literal} (h : (Expr.literal value).isNumber = false) :
    Term.IsObject value.toJs.toList value.toTerm := by
  cases value with
  | string value => exact (Term.isPrimary_string value).isObject
  | number text => cases h
  | boolean value =>
    have hboolean := (Term.isPrimary_boolean value).isObject
    cases value <;> exact hboolean
  | null => exact Term.isPrimary_null.isObject

theorem isReadable_of_termOn {t : Term} {property : Property} (h : (property.termOn t).IsReadable) : t.IsReadable := by
  cases property with
  | static name => exact h.1
  | computed key => exact h.1

/-- A member that was read off one object is read off any other. -/
theorem isObject_termOn {text : List Char} {t u : Term} (h : Term.IsObject text t) {property : Property}
    (hreadable : (property.termOn u).IsReadable) (hfinite : ∀ text ∈ property.numbers, Term.IsFinite text) :
    Term.IsObject (text ++ property.toJs.toList) (property.termOn t) := by
  cases property with
  | static name =>
    rw [Property.toJs, String.toList_append]
    exact h.member hreadable.2
  | computed key =>
    have hkey := h.index (isOperand_toTerm hfinite).isValue
    simpa [Property.toJs, Property.termOn] using hkey

namespace Expr

mutual

/-- The text of an expression is read as what it is written as, as an operand, and as an object unless it is a number. -/
theorem reads_toJs (locals : List String) : ∀ e : Expr, e.toTerm.IsReadable → (∀ text ∈ e.numbers, Term.IsFinite text) →
    Term.IsOperand (e.toJs locals).toList (e.emitted locals).toTerm ∧
      (e.isNumber = false → Term.IsObject (e.toJs locals).toList (e.emitted locals).toTerm)
  | .identifier name, h, _ => by
    have hobject : Term.IsObject (toJs locals (.identifier name)).toList (emitted locals (.identifier name)).toTerm := by
      rw [toJs, emitted]
      split
      · exact (Term.isPrimary_name h.1 h.2.1 h.2.2).isObject
      · have hcmp : Term.IsPrimary "$cmp".toList (.name "$cmp") :=
          Term.isPrimary_name (by decide) (by decide) (by decide)
        simpa [toTerm, Property.termOn] using hcmp.isObject.member h.1
    exact ⟨hobject.isOperand, fun _ => hobject⟩
  | .member object property, h, hfinite => by
    obtain ⟨hobjectFinite, hpropertyFinite⟩ := List.forall_mem_append.1 hfinite
    obtain ⟨-, hobject⟩ := reads_toJs locals object (isReadable_of_termOn h) hobjectFinite
    have htext : Term.IsObject (if object.isNumber then "(" ++ object.toJs locals ++ ")" else object.toJs locals).toList
        (if object.isNumber then .paren (object.emitted locals) else object.emitted locals : Expr).toTerm := by
      split
      · rename_i hnumber
        obtain ⟨text, htext, hemitted, hnumbers⟩ := exists_of_isNumber locals hnumber
        have hparen := (hobjectFinite text (by simp [hnumbers])).paren.isObject
        rw [htext, hemitted]
        simpa [toTerm, Literal.toTerm] using hparen
      · rename_i hnumber
        exact hobject (by simpa using hnumber)
    have hmember : Term.IsObject (toJs locals (.member object property)).toList
        (emitted locals (.member object property)).toTerm := by
      rw [toJs, emitted, String.toList_append]
      exact isObject_termOn htext h hpropertyFinite
    exact ⟨hmember.isOperand, fun _ => hmember⟩
  | .literal value, _, hfinite => ⟨isOperand_toTerm hfinite, isObject_toTerm⟩
  | .paren inner, h, hfinite => reads_toJs locals inner h hfinite
  | .template head tail, h, hfinite => by
    have htemplate : Term.IsObject (toJs locals (.template head tail)).toList
        (emitted locals (.template head tail)).toTerm := by
      have hprimary := Term.isPrimary_template h.1 (isTail_emittedTail locals tail h.2 hfinite)
      simpa [toJs, emitted, toTerm] using hprimary.isObject
    exact ⟨htemplate.isOperand, fun _ => htemplate⟩

theorem isTail_emittedTail (locals : List String) : ∀ tail : List (Expr × String),
    Term.IsReadableTail (tailToTerms tail) → (∀ text ∈ numbersInTail tail, Term.IsFinite text) →
    Term.IsTail (tailToJs locals tail).toList (tailToTerms (emittedTail locals tail))
  | [], _, _ => Term.isTail_nil
  | (inner, after) :: tail, h, hfinite => by
    obtain ⟨hinnerFinite, htailFinite⟩ := List.forall_mem_append.1 hfinite
    have hinner := (reads_toJs locals inner h.1 hinnerFinite).1.isValue
    have hcons := (isTail_emittedTail locals tail h.2.2 htailFinite).cons hinner h.2.1
    simpa [tailToJs, emittedTail, tailToTerms] using hcons

end

end Expr

/-! ## Bindings -/

/-- The number that a literal is kept as is no infinite one, or it is written as that one. -/
theorem isFinite_of_isKeptAs {literal : List Char} {text : String} (h : IsKeptAs literal text)
    (hne : text ≠ Binary64.infinite.text) : Term.IsFinite text := by
  obtain ⟨value, b, -, hresult, rfl⟩ := h
  cases b with
  | finite m e => exact ⟨m, e, hresult.2, rfl⟩
  | infinite => exact absurd rfl hne

/-- What the expression of a binding is written as is a binding. It is read as the expression with its names resolved
and without its parentheses, unless a number in it is too large for a magnitude. -/
theorem readBinding_toJs {code : List Char} {e : Expr} (h : readBinding code = .ok e) (hfinite : e.IsFinite)
    (locals : List String) : readBinding (e.toJs locals).toList = .ok (e.emitted locals) := by
  obtain ⟨t, ht, hread⟩ := exists_term_readBinding h
  have hreadable : e.toTerm.IsReadable := Expr.toTerm_of_ofTerm t ht ▸ hread.readable
  have hnumbers : ∀ text ∈ e.numbers, Term.IsFinite text := fun text htext => by
    obtain ⟨literal, hkept⟩ := (holdsNumbers_readBinding h).exists_isKeptAs text htext
    exact isFinite_of_isKeptAs hkept (hfinite text htext)
  have hvalue := (Expr.reads_toJs locals e hreadable hnumbers).1.isValue
  have hstarts : StartsTerm (e.toJs locals).toList := by simpa using hvalue.starts Tree.endsValue_nil
  rw [readBinding, hstarts.not_blank, hvalue.readExpression]
  exact Expr.ofTerm_toTerm _

/-- Parentheses around names, around a number that a member is read off, and inside a template. -/
theorem readBinding_toJs_nested :
    ∃ e, readBinding "`a${((1)).b}$\x7b`$\x7b(item)[\"x y\"]\x7d${c}`\x7d`".toList = .ok e ∧ e.IsFinite ∧
      e.toJs ["item"] = "`a${(1).b}$\x7b`$\x7bitem[\"x y\"]\x7d${$cmp.c}`\x7d`" ∧
      readBinding (e.toJs ["item"]).toList = .ok (e.emitted ["item"]) := by
  obtain ⟨e, hread, hprinted⟩ := exists_of_toOption (show
    (readBinding "`a${((1)).b}$\x7b`$\x7b(item)[\"x y\"]\x7d${c}`\x7d`".toList).toOption.map
      (fun e => (e.numbers, e.toJs ["item"])) =
      some (["1"], "`a${(1).b}$\x7b`$\x7bitem[\"x y\"]\x7d${$cmp.c}`\x7d`") by decide +kernel)
  obtain ⟨hnumbers, htext⟩ := Prod.mk.inj hprinted
  have hfinite : e.IsFinite := by
    rw [Expr.IsFinite, hnumbers]
    decide
  exact ⟨e, hread, hfinite, htext, readBinding_toJs hread hfinite ["item"]⟩

end TemplateCompiler.Binding

import TemplateCompiler.Proofs.Binding.Proper
import TemplateCompiler.Proofs.Script.Readers
/-!
# Expressions read back

The JavaScript of a binding expression is read as the tree of the expression, and binds as much as an operand does, so
it may stand in front of any operator (`isOperand_toJs`).
-/

namespace TemplateCompiler.Binding

open TemplateCompiler.Text TemplateCompiler.Script

/-- The tree of a numeral. An infinite number is written as a name. -/
def numeralTree (text : String) : Tree :=
  match Tree.next text.toList with
  | some (.number value, _) => .number value
  | _ => .name text

/-- The tree of a literal. -/
def Literal.tree : Literal → Tree
  | .string value => .string value
  | .number text => numeralTree text
  | .boolean value => .boolean value
  | .null => .null

/-- The tree of a member of an object. -/
def Property.treeOn (object : Tree) : Property → Tree
  | .static name => .member object name
  | .computed key => .index object key.tree

namespace Expr

mutual

/-- The tree of an expression, where `locals` are the names that iterations around it bind. -/
def tree (locals : List String) : Expr → Tree
  | .identifier name => if locals.contains name then .name name else .member (.name "$cmp") name
  | .member object property => property.treeOn (object.tree locals)
  | .literal value => value.tree
  | .paren inner => inner.tree locals
  | .template head tail => .template head (tailTree locals tail)

/-- The trees of the substitutions of a template, each with the piece behind it. -/
def tailTree (locals : List String) : List (Expr × String) → List (Tree × String)
  | [] => []
  | (inner, after) :: tail => (inner.tree locals, after) :: tailTree locals tail

end

end Expr

/-! ## Literals -/

theorem isOperand_numeral {text : String} (h : IsNumeral text) : Tree.IsOperand text.toList (numeralTree text) := by
  rcases h with rfl | h
  · have hname : Tree.IsPrimary "inf".toList (.name "inf") := Tree.isPrimary_name (by decide) (by decide)
    have hnext : Tree.next ("inf".toList ++ []) = some (.word "inf" false, []) :=
      Tree.next_name (by decide) Tree.endsValue_nil.word
    rw [List.append_nil] at hnext
    rw [numeralTree, hnext]
    exact hname.isObject.isOperand
  · obtain ⟨value, hnext, hoperand⟩ := Tree.exists_isOperand_number h
    rw [numeralTree, hnext]
    exact hoperand

theorem isOperand_literal {value : Literal} (h : value.IsProper) : Tree.IsOperand value.toJs.toList value.tree := by
  cases value with
  | string value => exact (Tree.isPrimary_string value).isObject.isOperand
  | number text => exact isOperand_numeral h
  | boolean value =>
    have hboolean := (Tree.isPrimary_boolean value).isObject.isOperand
    cases value <;> exact hboolean
  | null => exact Tree.isPrimary_null.isObject.isOperand

/-- What is no number may be the object of a member. -/
theorem isObject_literal {value : Literal} (h : (Expr.literal value).isNumber = false) :
    Tree.IsObject value.toJs.toList value.tree := by
  cases value with
  | string value => exact (Tree.isPrimary_string value).isObject
  | number text => cases h
  | boolean value =>
    have hboolean := (Tree.isPrimary_boolean value).isObject
    cases value <;> exact hboolean
  | null => exact Tree.isPrimary_null.isObject

/-! ## Expressions -/

theorem isObject_property {text : List Char} {t : Tree} (h : Tree.IsObject text t) {property : Property}
    (hproper : property.IsProper) : Tree.IsObject (text ++ property.toJs.toList) (property.treeOn t) := by
  cases property with
  | static name =>
    rw [Property.toJs, String.toList_append]
    exact h.member hproper
  | computed key =>
    have hkey := h.index (isOperand_literal hproper).isValue
    simpa [Property.toJs, Property.treeOn] using hkey

namespace Expr

mutual

/-- The text of an expression is read as its tree, as an operand, and as an object unless it is a number. -/
theorem isOperand_toJs {locals : List String} (hlocals : ∀ name ∈ locals, name ∉ moduleReservedWords) :
    ∀ e : Expr, e.IsProper → Tree.IsOperand (e.toJs locals).toList (e.tree locals) ∧
    (e.isNumber = false → Tree.IsObject (e.toJs locals).toList (e.tree locals))
  | .identifier name, h => by
    have hobject : Tree.IsObject (toJs locals (.identifier name)).toList (tree locals (.identifier name)) := by
      rw [toJs, tree]
      split
      · rename_i hm
        exact (Tree.isPrimary_name h (hlocals name (by simpa using hm))).isObject
      · have hcmp : Tree.IsPrimary "$cmp".toList (.name "$cmp") := Tree.isPrimary_name (by decide) (by decide)
        simpa using hcmp.isObject.member h
    exact ⟨hobject.isOperand, fun _ => hobject⟩
  | .member object property, h => by
    obtain ⟨hoperand, hobject⟩ := isOperand_toJs hlocals object h.1
    have htext : Tree.IsObject (if object.isNumber then "(" ++ object.toJs locals ++ ")" else object.toJs locals).toList
        (object.tree locals) := by
      split
      · simpa using hoperand.isValue.paren.isObject
      · rename_i hnumber
        exact hobject (by simpa using hnumber)
    have hmember : Tree.IsObject (toJs locals (.member object property)).toList (tree locals (.member object property)) := by
      rw [toJs, tree, String.toList_append]
      exact isObject_property htext h.2
    exact ⟨hmember.isOperand, fun _ => hmember⟩
  | .literal value, h => by
    rw [toJs, tree]
    exact ⟨isOperand_literal h, isObject_literal⟩
  | .paren inner, h => by
    rw [toJs, tree, isNumber]
    exact isOperand_toJs hlocals inner h
  | .template head tail, h => by
    have htemplate : Tree.IsObject (toJs locals (.template head tail)).toList (tree locals (.template head tail)) := by
      have hprimary := Tree.isPrimary_template h.1 (isTail_tailToJs hlocals tail h.2)
      simpa [toJs, tree] using hprimary.isObject
    exact ⟨htemplate.isOperand, fun _ => htemplate⟩

theorem isTail_tailToJs {locals : List String} (hlocals : ∀ name ∈ locals, name ∉ moduleReservedWords) :
    ∀ tail : List (Expr × String), IsProperTail tail →
    Tree.IsTail (tailToJs locals tail).toList (tailTree locals tail)
  | [], _ => Tree.isTail_nil
  | (inner, after) :: tail, h => by
    have hcons := (isTail_tailToJs hlocals tail h.2.2).cons (isOperand_toJs hlocals inner h.1).1.isValue h.2.1
    simpa [tailToJs, tailTree] using hcons

end

/-! ## Negations -/

theorem exists_head_append {text : String} (h : ∃ c cs, text.toList = c :: cs ∧ c ≠ '=') (more : String) :
    ∃ c cs, (text ++ more).toList = c :: cs ∧ c ≠ '=' := by
  obtain ⟨c, cs, htext, hc⟩ := h
  exact ⟨c, cs ++ more.toList, by rw [String.toList_append, htext, List.cons_append], hc⟩

theorem exists_head_name {name : String} (h : isIdentifierName name = true) :
    ∃ c cs, name.toList = c :: cs ∧ c ≠ '=' := by
  unfold isIdentifierName at h
  cases hname : name.toList with
  | nil => simp [hname, isIdentifierChars] at h
  | cons c cs =>
    refine ⟨c, cs, rfl, ?_⟩
    rintro rfl
    rw [hname, isIdentifierChars, Bool.and_eq_true] at h
    exact absurd h.1 (by decide)

/-- The JavaScript of an expression is not empty, and does not start with an equals sign. -/
theorem exists_head_toJs (locals : List String) : ∀ {e : Expr}, e.IsProper →
    ∃ c cs, (e.toJs locals).toList = c :: cs ∧ c ≠ '='
  | .identifier name, h => by
    rw [toJs]
    split
    · exact exists_head_name h
    · exact exists_head_append ⟨'$', "cmp.".toList, by decide, by decide⟩ name
  | .member object property, h => by
    rw [toJs]
    refine exists_head_append ?_ _
    split
    · rw [String.append_assoc]
      exact exists_head_append ⟨'(', [], rfl, by decide⟩ _
    · exact exists_head_toJs locals h.1
  | .literal (.string value), _ =>
    ⟨'"', value.toList.flatMap escapeChar ++ ['"'], by simp [toJs, Literal.toJs, quote, quoteChars], by decide⟩
  | .literal (.number text), h => by
    rw [toJs, Literal.toJs]
    rcases h with rfl | h
    · exact ⟨'i', ['n', 'f'], rfl, by decide⟩
    · obtain ⟨c, cs, htext, hc⟩ := h.exists_head
      refine ⟨c, cs, htext, ?_⟩
      rintro rfl
      cases hc
  | .literal (.boolean value), _ => by
    rw [toJs]
    cases value <;> exact exists_head_name (by decide)
  | .literal .null, _ => by
    rw [toJs]
    exact exists_head_name (by decide)
  | .paren inner, h => by
    rw [toJs]
    exact exists_head_toJs locals (e := inner) h
  | .template head tail, _ =>
    ⟨'`', head.toList ++ ((tailToJs locals tail).toList ++ ['`']), by simp [toJs], by decide⟩

/-- The negation of an expression is read as such. -/
theorem isOperand_not_toJs {locals : List String} (hlocals : ∀ name ∈ locals, name ∉ moduleReservedWords) {e : Expr}
    (h : e.IsProper) : Tree.IsOperand ("!" ++ e.toJs locals).toList (.not (e.tree locals)) := by
  obtain ⟨c, cs, htext, hc⟩ := exists_head_toJs locals h
  have hoperand := (isOperand_toJs hlocals e h).1
  rw [htext] at hoperand
  rw [String.toList_append, htext]
  exact hoperand.not hc

end Expr

end TemplateCompiler.Binding

import TemplateCompiler.Markup.Document
/-!
# Documents that differ in a directive

Two documents that differ in where things stand, and in that an attribute `if:true` of the one is `lwc:if` in the other
(`Node.Renamed`). The relation counts the attributes that are renamed.
-/

namespace TemplateCompiler.Markup

open TemplateCompiler.Text

/-! ## Lists with counted differences -/

/-- The members of two lists are related one by one, and the numbers of their differences add up. -/
inductive Counted {α β : Type} (R : Nat → α → β → Prop) : Nat → List α → List β → Prop where
  | nil : Counted R 0 [] []
  | cons {j k : Nat} {a : α} {b : β} {as : List α} {bs : List β} (head : R j a b) (tail : Counted R k as bs) :
    Counted R (j + k) (a :: as) (b :: bs)

namespace Counted

variable {α β : Type} {R S : Nat → α → β → Prop} {j k : Nat} {as xs : List α} {bs ys : List β}

theorem single {a : α} {b : β} (h : R k a b) : Counted R k [a] [b] :=
  .cons h .nil

theorem append (h : Counted R j as bs) (h' : Counted R k xs ys) : Counted R (j + k) (as ++ xs) (bs ++ ys) := by
  induction h with
  | nil => simpa using h'
  | cons head _ ih =>
    rw [Nat.add_assoc]
    exact .cons head ih

theorem reverse (h : Counted R k as bs) : Counted R k as.reverse bs.reverse := by
  induction h with
  | nil => exact .nil
  | cons head _ ih =>
    rw [List.reverse_cons, List.reverse_cons, Nat.add_comm]
    exact ih.append (.single head)

theorem length_eq (h : Counted R k as bs) : bs.length = as.length := by
  induction h with
  | nil => rfl
  | cons _ _ ih => rw [List.length_cons, List.length_cons, ih]

theorem imp (h : Counted R k as bs) (hRS : ∀ k, ∀ a ∈ as, ∀ b, R k a b → S k a b) : Counted S k as bs := by
  induction h with
  | nil => exact .nil
  | cons head _ ih =>
    exact .cons (hRS _ _ List.mem_cons_self _ head) (ih fun k a ha => hRS k a (List.mem_cons_of_mem _ ha))

end Counted

/-! ## Documents -/

/-- The attribute `a'` is `a`, its place aside, or it is `lwc:if` where `a` is `if:true`. As neither is anything without a
value, it does not matter then whether one is written. -/
inductive Attribute.Renamed : Nat → Attribute → Attribute → Prop where
  | kept (a : Attribute) (position : Position) : Renamed 0 a { a with position }
  | renamed {a : Attribute} (name : a.name = "if:true") (hasValue : Bool) (position : Position) :
    Renamed 1 a { a with name := "lwc:if", hasValue, position }

/-- The element `e'` is `e`, places aside, with some attributes renamed, which `allowed` has to permit. -/
structure Element.Renamed (allowed : Element → Prop) (k : Nat) (e e' : Element) : Prop where
  tag : e'.tag = e.tag
  selfClosing : e'.selfClosing = e.selfClosing
  attributes : Counted Attribute.Renamed k e.attributes e'.attributes
  allowed : k ≠ 0 → allowed e

/-- The node `n'` is `n`, places aside, with some attributes renamed. -/
inductive Node.Renamed (allowed : Element → Prop) : Nat → Node → Node → Prop where
  | element {j k : Nat} {e e' : Element} {children children' : List Node} (tag : e.Renamed allowed j e')
    (content : Counted (Node.Renamed allowed) k children children') :
    Renamed allowed (j + k) (.element e children) (.element e' children')
  | text (text : String) (position position' : Position) :
    Renamed allowed 0 (.text text position) (.text text position')
  | comment (text : String) (position position' : Position) :
    Renamed allowed 0 (.comment text position) (.comment text position')

/-- The nodes of a document, with some attributes renamed. -/
abbrev NodesRenamed (allowed : Element → Prop) : Nat → List Node → List Node → Prop :=
  Counted (Node.Renamed allowed)

/-- The element is not iterated itself. -/
def Element.IsOnce (e : Element) : Prop :=
  ∀ a ∈ e.attributes, a.name ≠ "for:each"

end TemplateCompiler.Markup

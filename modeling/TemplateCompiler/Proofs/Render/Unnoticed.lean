import TemplateCompiler.Compile
/-!
# What markup leaves out

A bound attribute, a bound text and a node that is no native element, text or comment make the markup of a tree fail,
unless an element without an end tag is around them (`error?_markup`). All else of an element that the runtime has to see
to, from bound classes to scoped attributes, is left out without an error: the markup is that of the tree without it
(`markup_muted`).
-/

namespace TemplateCompiler.Template

open Render
open Binding (TextPart)
open Markup (isVoidElement)

/-! ## Errors -/

section Errors

variable {ε α β : Type}

/-- The error that a computation ends in. -/
def error? : Except ε α → Option ε
  | .ok _ => none
  | .error e => some e

theorem error?_eq_none_iff {x : Except ε α} : error? x = none ↔ ∃ a, x = .ok a := by
  cases x <;> simp [error?]

/-- What follows a computation fails only if the computation does not. -/
theorem error?_bind {x : Except ε α} {f : α → Except ε β} {o : Option ε} (h : ∀ a, error? (f a) = o) :
    error? (x >>= f) = (error? x).or o := by
  cases x with
  | error e => rfl
  | ok a => exact h a

theorem error?_bind_pure (x : Except ε α) (f : α → β) : error? (x >>= fun a => pure (f a)) = error? x := by
  cases x <;> rfl

/-- A list fails with the first of its members that fails. -/
theorem error?_mapM (f : α → Except ε β) (xs : List α) : error? (xs.mapM f) = xs.findSome? fun x => error? (f x) := by
  induction xs with
  | nil => rfl
  | cons x xs ih =>
    rw [List.mapM_cons, error?_bind fun y => error?_bind_pure _ _, ih, List.findSome?_cons]
    cases error? (f x) <;> rfl

end Errors

/-! ## Nodes that fail -/

/-- The error of an attribute that is bound. -/
def Attribute.fault? (a : Attribute) : Option InternalError :=
  if a.value.isExpression then some (.boundAttribute a.name) else none

namespace Node

/-- The error of a node that cannot be written as markup, the nodes below it aside. -/
def fault? : Node → Option InternalError
  | .element _ _ .native data _ => data.attributes.findSome? Attribute.fault?
  | .text _ _ parts => if parts.any TextPart.isExpression then some .boundText else none
  | .comment .. => none
  | n => some (.notStatic n.kind n.id)

/-- Whether nothing of a node is left to the runtime, the nodes below it aside. -/
def isInert : Node → Bool
  | .element _ _ .native data _ =>
    !data.isBound && data.properties.isEmpty && data.attributes.all (·.scoping.isNone)
  | .text _ _ parts => !parts.any TextPart.isExpression
  | .comment .. => true
  | _ => false

/-- Nothing in a tree is left to the runtime. -/
def IsInert (n : Node) : Prop :=
  ∀ m ∈ n.all, m.isInert = true

instance (n : Node) : Decidable n.IsInert :=
  inferInstanceAs (Decidable (∀ m ∈ n.all, m.isInert = true))

end Node

mutual

/-- The nodes that are written as the markup of a node: nothing below an element without an end tag is. -/
def Node.reached : Node → List Node
  | .element id p .native data children =>
    .element id p .native data children :: if isVoidElement data.tag then [] else reachedNodes children
  | n => [n]

/-- The nodes that are written as the markup of a list. -/
def reachedNodes : List Node → List Node
  | [] => []
  | n :: ns => n.reached ++ reachedNodes ns

end

/-- An element without what markup does not show of it. -/
def ElementData.muted (data : ElementData) : ElementData :=
  { data with
    attributes := data.attributes.map fun a => { a with scoping := none }
    properties := []
    classes := data.classes.filter (!·.isDynamic)
    style := data.style.filter (!·.isDynamic)
    listeners := []
    key := none }

mutual

/-- A tree without what markup does not show of its elements. -/
def Node.muted : Node → Node
  | .element id p .native data children =>
    .element id p .native data.muted (if isVoidElement data.tag then [] else mutedNodes children)
  | n => n

/-- Trees without what markup does not show of their elements. -/
def mutedNodes : List Node → List Node
  | [] => []
  | n :: ns => n.muted :: mutedNodes ns

end

/-! ## The first fault -/

theorem error?_attributeMarkup (a : Attribute) : error? (attributeMarkup a) = a.fault? := by
  obtain ⟨name, value, position, scoping⟩ := a
  cases value with
  | literal text => rfl
  | boolean value => cases value <;> rfl
  | expression expr => rfl

theorem error?_startTag (data : ElementData) :
    error? (startTag data) = data.attributes.findSome? Attribute.fault? := by
  rw [startTag, error?_bind_pure, error?_mapM]
  simp only [error?_attributeMarkup]

theorem error?_parts (parts : List TextPart) :
    error? (parts.mapM partMarkup) = if parts.any TextPart.isExpression then some .boundText else none := by
  rw [error?_mapM]
  induction parts with
  | nil => rfl
  | cons part parts ih =>
    rw [List.findSome?_cons, ih]
    cases part <;> simp [partMarkup, error?, TextPart.isExpression]

mutual

/-- The markup of a node fails with the first fault in it, in document order. -/
theorem error?_markup : ∀ n : Node, error? (markup n) = n.reached.findSome? Node.fault?
  | .element id p role data children => by
    cases role with
    | native =>
      rw [markup, Node.reached, List.findSome?_cons, Node.fault?, ← error?_startTag]
      by_cases hvoid : isVoidElement data.tag = true
      · simp only [hvoid, if_true]
        rw [error?_bind_pure]
        cases error? (startTag data) <;> rfl
      · simp only [hvoid, Bool.false_eq_true, if_false]
        rw [error?_bind fun start => error?_bind_pure _ _, error?_markupOfList children]
        cases error? (startTag data) <;> rfl
    | component => rfl
    | dynamic constructor => rfl
  | .slot .. => rfl
  | .text id p parts => by
    rw [markup, error?_bind_pure, error?_parts]
    simp [Node.reached, Node.fault?]
  | .comment .. => rfl
  | .conditional .. => rfl
  | .iteration .. => rfl

theorem error?_markupOfList :
    ∀ nodes : List Node, error? (markupOfList nodes) = (reachedNodes nodes).findSome? Node.fault?
  | [] => rfl
  | n :: ns => by
    rw [markupOfList, error?_bind fun first => error?_bind_pure _ _, error?_markup n, error?_markupOfList ns,
      reachedNodes, List.findSome?_append]

end

/-! ## What is left out -/

theorem classMarkup_muted (classes : Option ClassBinding) :
    classMarkup (classes.filter (!·.isDynamic)) = classMarkup classes := by
  rcases classes with _ | names | expr <;> rfl

theorem styleMarkup_muted (style : Option StyleBinding) :
    styleMarkup (style.filter (!·.isDynamic)) = styleMarkup style := by
  rcases style with _ | declarations | expr <;> rfl

theorem startTag_muted (data : ElementData) : startTag data.muted = startTag data := by
  have hattribute : attributeMarkup ∘ (fun a => { a with scoping := none }) = attributeMarkup := rfl
  simp only [startTag, ElementData.muted, List.mapM_map, hattribute, classMarkup_muted, styleMarkup_muted]

mutual

/-- What markup does not show of a tree is left out of it. -/
theorem markup_muted : ∀ n : Node, markup n.muted = markup n
  | .element id p role data children => by
    cases role with
    | native =>
      have htag : data.muted.tag = data.tag := rfl
      simp only [Node.muted, markup, startTag_muted, htag]
      by_cases hvoid : isVoidElement data.tag = true
      · simp only [hvoid, if_true]
      · simp only [hvoid, Bool.false_eq_true, if_false, markupOfList_muted children]
    | component => rfl
    | dynamic constructor => rfl
  | .slot .. => rfl
  | .text .. => rfl
  | .comment .. => rfl
  | .conditional .. => rfl
  | .iteration .. => rfl

theorem markupOfList_muted : ∀ nodes : List Node, markupOfList (mutedNodes nodes) = markupOfList nodes
  | [] => rfl
  | n :: ns => by rw [mutedNodes, markupOfList, markupOfList, markup_muted n, markupOfList_muted ns]

end

theorem fault?_attributes (attributes : List Attribute) :
    attributes.findSome? Attribute.fault? = none ↔ attributes.any (·.value.isExpression) = false := by
  simp [Attribute.fault?]

theorem isInert_muted (id : Nat) (p : Text.Position) (data : ElementData) (children : List Node) :
    (Node.element id p .native data.muted children).isInert = true ↔
      data.attributes.findSome? Attribute.fault? = none := by
  have hclasses : (data.classes.filter (!·.isDynamic)).any ClassBinding.isDynamic = false := by
    rcases data.classes with _ | names | expr <;> rfl
  have hstyle : (data.style.filter (!·.isDynamic)).any StyleBinding.isDynamic = false := by
    rcases data.style with _ | declarations | expr <;> rfl
  rw [fault?_attributes]
  simp [Node.isInert, ElementData.isBound, ElementData.muted, hclasses, hstyle]

/-- A tree is not inert if its root is not. -/
theorem not_isInert {n : Node} (h : n.isInert = false) : ¬ n.IsInert := by
  intro hall
  have hself : n ∈ n.all := by cases n <;> simp [Node.all]
  exact Bool.false_ne_true (h.symm.trans (hall n hself))

mutual

/-- A tree without what its markup does not show is inert exactly if no fault of it is reached. -/
theorem isInert_muted_iff : ∀ n : Node, n.muted.IsInert ↔ n.reached.findSome? Node.fault? = none
  | .element id p role data children => by
    cases role with
    | native =>
      rw [Node.IsInert, Node.muted, Node.all, List.forall_mem_cons, isInert_muted, Node.reached, List.findSome?_cons,
        Node.fault?]
      cases hfault : data.attributes.findSome? Attribute.fault? with
      | some error => simp
      | none =>
        by_cases hvoid : isVoidElement data.tag = true
        · simp [hvoid, allNodes]
        · simp [hvoid, isInert_mutedNodes_iff children]
    | component => exact iff_of_false (not_isInert rfl) (by simp [Node.reached, Node.fault?])
    | dynamic constructor => exact iff_of_false (not_isInert rfl) (by simp [Node.reached, Node.fault?])
  | .slot .. => iff_of_false (not_isInert rfl) (by simp [Node.reached, Node.fault?])
  | .text id p parts => by simp [Node.IsInert, Node.muted, Node.all, Node.isInert, Node.reached, Node.fault?]
  | .comment .. => by simp [Node.IsInert, Node.muted, Node.all, Node.isInert, Node.reached, Node.fault?]
  | .conditional .. => iff_of_false (not_isInert rfl) (by simp [Node.reached, Node.fault?])
  | .iteration .. => iff_of_false (not_isInert rfl) (by simp [Node.reached, Node.fault?])

theorem isInert_mutedNodes_iff : ∀ nodes : List Node,
    (∀ m ∈ allNodes (mutedNodes nodes), m.isInert = true) ↔ (reachedNodes nodes).findSome? Node.fault? = none
  | [] => by simp [mutedNodes, allNodes, reachedNodes]
  | n :: ns => by
    rw [mutedNodes, allNodes, List.forall_mem_append, isInert_mutedNodes_iff ns, reachedNodes, List.findSome?_append,
      Option.or_eq_none_iff, ← isInert_muted_iff n]
    rfl

end

/-- The markup of a tree fails with the first fault in it that is reached, and otherwise it is that of the tree without
what it leaves out, of which nothing is left to the runtime. So a tree with markup is inert itself exactly if it is
anyway, or has a fault that is reached. -/
theorem markup_isInert_iff (n : Node) :
    error? (markup n) = n.reached.findSome? Node.fault? ∧
      markup n.muted = markup n ∧ ((∃ html, markup n = .ok html) ↔ n.muted.IsInert) ∧
      ((∀ html, markup n = .ok html → n.IsInert) ↔ n.IsInert ∨ ∃ m ∈ n.reached, m.fault? ≠ none) := by
  have hok : (∃ html, markup n = .ok html) ↔ n.reached.findSome? Node.fault? = none := by
    rw [← error?_markup, error?_eq_none_iff]
  refine ⟨error?_markup n, markup_muted n, hok.trans (isInert_muted_iff n).symm, ?_⟩
  rw [← exists_imp, hok, List.findSome?_eq_none_iff]
  constructor
  · intro h
    by_cases hfault : ∀ m ∈ n.reached, m.fault? = none
    · exact .inl (h hfault)
    · exact .inr (by simpa using hfault)
  · rintro (h | ⟨m, hm, hfault⟩) hnone
    · exact h
    · exact absurd (hnone m hm) hfault

/-- Where a tree is rendered by the analysis of another one, a listener is left out. -/
theorem markup_of_listener :
    (do
      let t ← (Template.parse {} "<template><p onclick={f}></p></template>").toOption
      let other ← (Template.parse {} "<template><p></p></template>").toOption
      let m ← (t.mark.toModule other.analysis t.imports none).toOption
      return (m.hoists.entries.map Hoist.content,
        t.mark.nodes.map fun n => ((markup n).toOption, decide n.IsInert))) =
      some (["<p></p>"], [(some "<p></p>", false)]) := by
  decide +kernel

end TemplateCompiler.Template

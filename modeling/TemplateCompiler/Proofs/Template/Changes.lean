import Mathlib.Data.Nat.Bitwise
import TemplateCompiler.Proofs.Template.Facts
import TemplateCompiler.Proofs.Render.Occurrences
/-!
# What changes

An analysis finds what may change from the inside of a template to the outside, with one rule for each kind of node.
`analyze_changes` says what comes out in terms of the nodes of the tree: something below a node may change if a node
below it has an expression or is a directive, a slot or a component that is bound, and a node never changes if it and
all nodes below it are fixed.
-/

namespace TemplateCompiler.Template

open Binding (TextPart Expr)

/-! ## Hints as bits -/

namespace Hints

/-- The hints in the order of their bits. -/
def bits (h : Hints) : List Bool :=
  [h.attributes, h.classes, h.style, h.listeners, h.slots, h.svg, h.static, h.dynamicBelow, h.properties]

/-- The number with the given bits, the lowest one first. -/
def numberOf : List Bool → Nat
  | [] => 0
  | b :: bs => b.toNat + 2 * numberOf bs

theorem testBit_numberOf (bs : List Bool) (i : Nat) : (numberOf bs).testBit i = (bs[i]?).getD false := by
  induction bs generalizing i with
  | nil => simp [numberOf]
  | cons b bs ih =>
    cases i with
    | zero => cases b <;> simp [numberOf]
    | succ i =>
      have hhalf : (b.toNat + 2 * numberOf bs) / 2 = numberOf bs := by
        have := b.toNat_lt
        omega
      rw [numberOf, Nat.testBit_add_one, hhalf, ih, List.getElem?_cons_succ]

theorem mask_eq_numberOf (h : Hints) : h.mask = numberOf h.bits := by
  simp only [mask, bits, numberOf]
  omega

/-- Each hint has a bit of its own. -/
theorem testBit_mask (h : Hints) (i : Nat) : h.mask.testBit i = (h.bits[i]?).getD false := by
  rw [mask_eq_numberOf, testBit_numberOf]

end Hints

/-- The flag of a node that never changes. -/
def staticFlag : Nat := 2 ^ 6

/-- The flag of a node below which something may change. -/
def dynamicBelowFlag : Nat := 2 ^ 7

/-- Whether the number that says the hints has the flag set. -/
def Facts.has (facts : Facts) (flag : Nat) : Bool :=
  facts.hints.mask &&& flag != 0

theorem Facts.has_two_pow (facts : Facts) (i : Nat) : facts.has (2 ^ i) = (facts.hints.bits[i]?).getD false := by
  rw [has, Nat.and_two_pow, ← facts.hints.testBit_mask i]
  cases facts.hints.mask.testBit i <;> simp

@[simp] theorem Facts.has_staticFlag (facts : Facts) : facts.has staticFlag = facts.hints.static :=
  facts.has_two_pow 6

@[simp] theorem Facts.has_dynamicBelowFlag (facts : Facts) : facts.has dynamicBelowFlag = facts.hints.dynamicBelow :=
  facts.has_two_pow 7

/-! ## Nodes that may change -/

namespace Node

/-- The nodes strictly below a node. -/
def descendants (n : Node) : List Node :=
  n.all.tail

theorem all_eq_cons (n : Node) : n.all = n :: n.descendants := by
  cases n <;> rfl

/-- The attributes of a node. -/
def attributes : Node → List Attribute
  | .element _ _ _ data _ => data.attributes
  | .slot _ _ _ attributes _ => attributes
  | _ => []

/-- The properties of a node. -/
def properties : Node → List Attribute
  | .element _ _ _ data _ => data.properties
  | _ => []

/-- The expressions that a node is bound to: its attributes, properties, classes, style, listeners and key, or the
pieces of a text. -/
def bindings : Node → List Expr
  | .element _ _ _ data _ => data.exprs ++ data.listeners.map Listener.handler
  | .slot _ _ _ attributes _ => attributeExprs attributes
  | .text _ _ parts => parts.filterMap TextPart.expr?
  | .comment .. | .conditional .. | .iteration .. => []

/-- The kinds of nodes that may change without any expression. -/
def changingKinds : List NodeKind := [.conditional, .iteration, .dynamic, .slot]

/-- The kinds of nodes that change only with their expressions or their properties. -/
def steadyKinds : List NodeKind := [.element, .text, .comment]

/-- The node itself may change. -/
def MayChange (n : Node) : Prop :=
  n.bindings ≠ [] ∨ n.kind ∈ changingKinds

/-- The node itself never changes where templates are rendered in the mode. -/
structure IsFixed (mode : RenderMode) (n : Node) : Prop where
  kind : n.kind ∈ steadyKinds
  unbound : n.bindings = []
  noProperties : n.properties = []
  unscoped : ∀ a ∈ n.attributes, a.needsScoping mode = false

theorem bindings_element {id : Nat} {p : Text.Position} {role : Role} {data : ElementData} {children : List Node} :
    (Node.element id p role data children).bindings = [] ↔ data.isBound = false := by
  rw [bindings, ElementData.isBound_eq_false_iff, List.append_eq_nil_iff, List.map_eq_nil_iff]

theorem isDynamic_iff (n : Node) : n.isDynamic = true ↔ n.MayChange := by
  have hbound (data : ElementData) (p : Prop) (hp : ¬ p) (bindings : List Expr)
      (h : bindings = [] ↔ data.isBound = false) : data.isBound = true ↔ bindings ≠ [] ∨ p := by
    rw [or_iff_left hp, ne_eq, h, Bool.not_eq_false]
  cases n with
  | element id p role data children =>
    cases role with
    | native => exact hbound data _ (by simp [kind, Role.kind, changingKinds]) _ bindings_element
    | component => exact hbound data _ (by simp [kind, Role.kind, changingKinds]) _ bindings_element
    | dynamic constructor => simp [isDynamic, MayChange, kind, Role.kind, changingKinds]
  | text id p parts =>
    have hparts : parts.any TextPart.isExpression = true ↔ parts.filterMap TextPart.expr? ≠ [] := by
      rw [ne_eq, filterMap_expr?_eq_nil_iff, Bool.not_eq_false]
    simpa only [MayChange, kind, changingKinds, bindings, isDynamic, List.mem_cons, reduceCtorEq, List.not_mem_nil,
      or_self, or_false] using hparts
  | comment id p text => simp [isDynamic, MayChange, kind, changingKinds, bindings]
  | slot => simp [isDynamic, MayChange, kind, changingKinds]
  | conditional => simp [isDynamic, MayChange, kind, changingKinds]
  | iteration => simp [isDynamic, MayChange, kind, changingKinds]

end Node

mutual

theorem isDynamicBelow_iff : ∀ n : Node, n.isDynamicBelow = true ↔ ∃ m ∈ n.descendants, m.MayChange
  | .element _ _ _ _ children => areDynamic_iff children
  | .slot _ _ _ _ children => areDynamic_iff children
  | .text .. => by simp [Node.isDynamicBelow, Node.descendants, Node.all]
  | .comment .. => by simp [Node.isDynamicBelow, Node.descendants, Node.all]
  | .conditional _ _ chain => isDynamic_chain_iff chain
  | .iteration _ _ _ children => areDynamic_iff children

theorem isDynamic_chain_iff : ∀ c : Chain, c.isDynamic = true ↔ ∃ m ∈ c.all, m.MayChange
  | .done => by simp [Chain.isDynamic, Chain.all]
  | .otherwise children => areDynamic_iff children
  | .branch _ _ children next => by
    simp only [Chain.isDynamic, Chain.all, Bool.or_eq_true, List.mem_append, or_and_right, exists_or,
      areDynamic_iff children, isDynamic_chain_iff next]

theorem areDynamic_iff : ∀ nodes : List Node, areDynamic nodes = true ↔ ∃ m ∈ allNodes nodes, m.MayChange
  | [] => by simp [areDynamic, allNodes]
  | n :: ns => by
    simp only [areDynamic, allNodes, n.all_eq_cons, Bool.or_eq_true, List.mem_append, List.mem_cons, or_and_right,
      exists_or, exists_eq_left, n.isDynamic_iff, isDynamicBelow_iff n, areDynamic_iff ns]

end

/-! ## Nodes that never change -/

theorem Node.isFixed_element {mode : RenderMode} {id : Nat} {p : Text.Position} {data : ElementData}
    {children : List Node} : (Node.element id p .native data children).IsFixed mode ↔
      data.isBound = false ∧ data.isPlain mode = true := by
  have hplain : data.isPlain mode = true ↔
      data.properties = [] ∧ ∀ a ∈ data.attributes, a.needsScoping mode = false := by
    simp [ElementData.isPlain]
  rw [hplain]
  constructor
  · intro h
    exact ⟨bindings_element.1 h.unbound, h.noProperties, h.unscoped⟩
  · rintro ⟨hbound, hproperties, hscoped⟩
    exact ⟨by simp [kind, Role.kind, steadyKinds], bindings_element.2 hbound, hproperties, hscoped⟩

theorem Node.not_isFixed {mode : RenderMode} {n : Node} (h : n.kind ∉ steadyKinds) : ¬ n.IsFixed mode :=
  fun hfixed => h hfixed.kind

mutual

theorem isStatic_iff (mode : RenderMode) : ∀ n : Node, n.isStatic mode = true ↔ ∀ m ∈ n.all, m.IsFixed mode
  | .element id p .native data children => by
    rw [Node.isStatic, Node.all, List.forall_mem_cons, Node.isFixed_element, Bool.and_eq_true, Bool.and_eq_true,
      Bool.not_eq_true', areStatic_iff mode children]
  | .element id p .component data children => by
    simp [Node.isStatic, Node.all, Node.not_isFixed, Node.kind, Role.kind, Node.steadyKinds]
  | .element id p (.dynamic constructor) data children => by
    simp [Node.isStatic, Node.all, Node.not_isFixed, Node.kind, Role.kind, Node.steadyKinds]
  | .slot .. => by simp [Node.isStatic, Node.all, Node.not_isFixed, Node.kind, Node.steadyKinds]
  | .text id p parts => by
    have hparts : (Node.text id p parts).IsFixed mode ↔ parts.any TextPart.isExpression = false := by
      rw [← filterMap_expr?_eq_nil_iff]
      exact ⟨fun h => h.unbound, fun h => ⟨by simp [Node.kind, Node.steadyKinds], h, rfl, nofun⟩⟩
    rw [Node.isStatic, Node.all, List.forall_mem_singleton, hparts, Bool.not_eq_true']
  | .comment id p text => by
    have hfixed : (Node.comment id p text).IsFixed mode :=
      ⟨by simp [Node.kind, Node.steadyKinds], rfl, rfl, nofun⟩
    simp [Node.isStatic, Node.all, hfixed]
  | .conditional .. => by simp [Node.isStatic, Node.all, Node.not_isFixed, Node.kind, Node.steadyKinds]
  | .iteration .. => by simp [Node.isStatic, Node.all, Node.not_isFixed, Node.kind, Node.steadyKinds]

theorem areStatic_iff (mode : RenderMode) : ∀ nodes : List Node,
    areStatic mode nodes = true ↔ ∀ m ∈ allNodes nodes, m.IsFixed mode
  | [] => by simp [areStatic, allNodes]
  | n :: ns => by
    rw [areStatic, allNodes, Bool.and_eq_true, List.forall_mem_append, isStatic_iff mode n, areStatic_iff mode ns]

end

/-! ## Analyses -/

/-- An analysis says of each node what may change: something below it does if one of the nodes below it may change, and
neither it nor anything below it does if all of them are fixed. -/
theorem analyze_changes (config : Config) {nodes : List Node} (hd : (numbersOf nodes).Nodup) {n : Node}
    (hn : n ∈ allNodes nodes) :
    ∃ facts, (analyze config nodes).get? n.id = some facts ∧
      (facts.has dynamicBelowFlag = true ↔ ∃ m ∈ n.descendants, m.MayChange) ∧
      (facts.isStatic = true ↔ ∀ m ∈ n.all, m.IsFixed config.renderMode) ∧
      (facts.has staticFlag = true ↔ facts.isStatic = true) := by
  obtain ⟨lift, key, hget⟩ := analyze_get? config hd hn
  refine ⟨_, hget, ?_, isStatic_iff config.renderMode n, ?_⟩
  · rw [Facts.has_dynamicBelowFlag]
    exact isDynamicBelow_iff n
  · rw [Facts.has_staticFlag]
    rfl

/-- A paragraph with an id. -/
def namedParagraph : Node :=
  .element 1 .first .native { tag := "p", «namespace» := .html, attributes := [⟨"id", .literal "a", .first, none⟩] }
    [.text 2 .first [.literal "x"]]

/-- A paragraph with an id beside a bound text. -/
def paragraphBesideText : Node :=
  .element 0 .first .native { tag := "div", «namespace» := .html }
    [namedParagraph, .text 3 .first [.expression (.identifier "b")]]

/-- The text changes below the element around it. The paragraph changes only where its id is scoped. -/
theorem analyze_changes_paragraph :
    (numbersOf [paragraphBesideText]).Nodup ∧ (∃ m ∈ paragraphBesideText.descendants, m.MayChange) ∧
      ¬ (∃ m ∈ namedParagraph.descendants, m.MayChange) ∧ ¬ (∀ m ∈ namedParagraph.all, m.IsFixed .shadow) ∧
      ∀ m ∈ namedParagraph.all, m.IsFixed .light := by
  have hd : (numbersOf [paragraphBesideText]).Nodup := by decide
  have hparagraph : namedParagraph ∈ allNodes [paragraphBesideText] := List.mem_cons_of_mem _ List.mem_cons_self
  obtain ⟨around, haround, hbelow, -, -⟩ := analyze_changes {} hd (n := paragraphBesideText) List.mem_cons_self
  obtain ⟨shadow, hshadow, hnone, hchanges, -⟩ := analyze_changes {} hd hparagraph
  obtain ⟨light, hlight, -, hfixed, -⟩ := analyze_changes { renderMode := .light } hd hparagraph
  obtain rfl := Option.some.inj haround
  obtain rfl := Option.some.inj hshadow
  obtain rfl := Option.some.inj hlight
  refine ⟨hd, hbelow.1 (by decide), ?_, ?_, hfixed.1 (by decide)⟩
  · exact fun h => absurd (hnone.2 h) (by decide)
  · exact fun h => absurd (hchanges.2 h) (by decide)

end TemplateCompiler.Template

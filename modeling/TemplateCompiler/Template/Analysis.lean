import TemplateCompiler.Scoping.Reference
/-!
# Analysis of a template

Numbers the keyed nodes in document order, and finds what the runtime need not look at again: a static node never
changes, and the topmost static elements are rendered as fragments.
-/

namespace TemplateCompiler.Template

open Binding (TextPart)

/-- What the runtime is told about a node, as the bits of a number. -/
structure Hints where
  attributes : Bool := false
  classes : Bool := false
  style : Bool := false
  listeners : Bool := false
  slots : Bool := false
  svg : Bool := false
  static : Bool := false
  /-- Something below the node may change. -/
  dynamicBelow : Bool := false
  properties : Bool := false
deriving DecidableEq, Repr

/-- The number that says the hints. -/
def Hints.mask (h : Hints) : Nat :=
  h.attributes.toNat + 2 * h.classes.toNat + 4 * h.style.toNat + 8 * h.listeners.toNat + 16 * h.slots.toNat +
    32 * h.svg.toNat + 64 * h.static.toNat + 128 * h.dynamicBelow.toNat + 256 * h.properties.toNat

/-- What is known of a node. -/
structure Facts where
  /-- Its number among the keyed nodes. -/
  key : Option Nat
  hints : Hints
  /-- Neither it nor anything below it ever changes. -/
  isStatic : Bool
  /-- It has a binding itself, or is a directive or a slot. -/
  isDynamic : Bool
  /-- It is rendered as a fragment. -/
  isFragment : Bool
deriving DecidableEq, Repr

/-! ## Static and dynamic nodes -/

/-- Whether a node may change, the nodes below it aside. -/
def Node.isDynamic : Node → Bool
  | .element _ _ (.dynamic _) _ _ => true
  | .element _ _ _ data _ => data.isBound
  | .slot .. => true
  | .text _ _ parts => parts.any TextPart.isExpression
  | .comment .. => false
  | .conditional .. => true
  | .iteration .. => true

/-- Whether a native element, bindings aside, never changes: it has no properties and no scoped attributes. -/
def ElementData.isPlain (mode : RenderMode) (data : ElementData) : Bool :=
  data.properties.isEmpty && !data.attributes.any (·.needsScoping mode)

mutual
/-- Whether neither a node nor anything below it ever changes. -/
def Node.isStatic (mode : RenderMode) : Node → Bool
  | .element _ _ .native data children => !data.isBound && data.isPlain mode && areStatic mode children
  | .element .. => false
  | .slot .. => false
  | .text _ _ parts => !parts.any TextPart.isExpression
  | .comment .. => true
  | .conditional .. => false
  | .iteration .. => false

/-- Whether nothing in a list of nodes ever changes. -/
def areStatic (mode : RenderMode) : List Node → Bool
  | [] => true
  | n :: ns => n.isStatic mode && areStatic mode ns
end

mutual
/-- Whether something below a node may change. -/
def Node.isDynamicBelow : Node → Bool
  | .element _ _ _ _ children => areDynamic children
  | .slot _ _ _ _ children => areDynamic children
  | .text .. => false
  | .comment .. => false
  | .conditional _ _ chain => chain.isDynamic
  | .iteration _ _ _ children => areDynamic children

/-- Whether something in a chain may change. -/
def Chain.isDynamic : Chain → Bool
  | .done => false
  | .otherwise children => areDynamic children
  | .branch _ _ children next => areDynamic children || next.isDynamic

/-- Whether something in a list of nodes may change. -/
def areDynamic : List Node → Bool
  | [] => false
  | n :: ns => n.isDynamic || n.isDynamicBelow || areDynamic ns
end

/-! ## Hints -/

/-- The hints for an element, what it contains aside. -/
def ElementData.hints (data : ElementData) : Hints :=
  { attributes := !data.attributes.isEmpty
    classes := data.classes.isSome
    style := data.style.isSome
    listeners := !data.listeners.isEmpty
    svg := data.namespace = .svg
    properties := !data.properties.isEmpty }

/-- The hints for a node, what is known of the nodes below it aside. -/
def Node.ownHints : Node → Hints
  | .element _ _ .native data _ => data.hints
  | .element _ _ _ data children => { data.hints with slots := !children.isEmpty }
  | .slot _ _ _ attributes _ => { slots := true, attributes := !attributes.isEmpty }
  | _ => {}

/-- The hints for a node. -/
def Node.hints (mode : RenderMode) (n : Node) : Hints :=
  { n.ownHints with static := n.isStatic mode, dynamicBelow := n.isDynamicBelow }

/-! ## Facts -/

/-- What is known of a node before any fragment is marked; `key` is the number of the next key. -/
def Node.plainFacts (mode : RenderMode) (key : Nat) (n : Node) : Facts :=
  { key := if n.isKeyed then some key else none
    hints := n.hints mode
    isStatic := n.isStatic mode
    isDynamic := n.isDynamic
    isFragment := false }

/-- The number of the next key behind a node, the nodes below it aside. -/
def Node.nextKey (key : Nat) (n : Node) : Nat :=
  if n.isKeyed then key + 1 else key

mutual
/-- What is known of a node and of the nodes below it, in document order, and the number of the next key. -/
def Node.visit (mode : RenderMode) (key : Nat) : Node → List (Nat × Facts) × Nat
  | .element id p role data children =>
    let n := Node.element id p role data children
    let (facts, next) := visitNodes mode (n.nextKey key) children
    ((id, n.plainFacts mode key) :: facts, next)
  | .slot id p name attributes children =>
    let n := Node.slot id p name attributes children
    let (facts, next) := visitNodes mode (n.nextKey key) children
    ((id, n.plainFacts mode key) :: facts, next)
  | .text id p parts => ([(id, (Node.text id p parts).plainFacts mode key)], key)
  | .comment id p text => ([(id, (Node.comment id p text).plainFacts mode key)], key)
  | .conditional id p chain =>
    let (facts, next) := chain.visit mode key
    ((id, (Node.conditional id p chain).plainFacts mode key) :: facts, next)
  | .iteration id p loop children =>
    let (facts, next) := visitNodes mode key children
    ((id, (Node.iteration id p loop children).plainFacts mode key) :: facts, next)

/-- What is known of the nodes in a chain. -/
def Chain.visit (mode : RenderMode) (key : Nat) : Chain → List (Nat × Facts) × Nat
  | .done => ([], key)
  | .otherwise children => visitNodes mode key children
  | .branch _ _ children next =>
    let (first, key) := visitNodes mode key children
    let (rest, key) := next.visit mode key
    (first ++ rest, key)

/-- What is known of the nodes in a list. -/
def visitNodes (mode : RenderMode) (key : Nat) : List Node → List (Nat × Facts) × Nat
  | [] => ([], key)
  | n :: ns =>
    let (first, key) := n.visit mode key
    let (rest, key) := visitNodes mode key ns
    (first ++ rest, key)
end

/-! ## Analyses -/

/-- What is known of the nodes of a template. -/
structure Analysis where
  facts : List (Nat × Facts) := []
  keyCount : Nat := 0
deriving Repr

namespace Analysis

/-- What is known of the node with the given number. -/
def get? (analysis : Analysis) (id : Nat) : Option Facts :=
  analysis.facts.lookup id

/-- The analysis with the node of the given number rendered as a fragment. -/
def lift (analysis : Analysis) (id : Nat) : Analysis :=
  { analysis with
    facts := analysis.facts.map fun (i, facts) => (i, if i = id then { facts with isFragment := true } else facts) }

end Analysis

mutual
/-- Marks a node as a fragment, or the topmost nodes below it that can be one. A fragment is read as HTML, so it cannot
start inside SVG. -/
def Node.markFragments (analysis : Analysis) : Node → Analysis
  | .element id _ .native data children =>
    if data.namespace = .html && (analysis.get? id).any Facts.isStatic then analysis.lift id
    else markFragmentsIn analysis children
  | .element _ _ _ _ children => markFragmentsIn analysis children
  | .slot _ _ _ _ children => markFragmentsIn analysis children
  | .text .. => analysis
  | .comment .. => analysis
  | .conditional _ _ chain => chain.markFragments analysis
  | .iteration _ _ _ children => markFragmentsIn analysis children

/-- Marks the fragments of a chain. -/
def Chain.markFragments (analysis : Analysis) : Chain → Analysis
  | .done => analysis
  | .otherwise children => markFragmentsIn analysis children
  | .branch _ _ children next => next.markFragments (markFragmentsIn analysis children)

/-- Marks the fragments of a list of nodes. -/
def markFragmentsIn (analysis : Analysis) : List Node → Analysis
  | [] => analysis
  | n :: ns => markFragmentsIn (n.markFragments analysis) ns
end

/-- The analysis of the nodes of a template. Fragments are marked in a pass of their own, from the top down, once it is
known which nodes never change. -/
def analyze (config : Config) (nodes : List Node) : Analysis :=
  let (facts, keyCount) := visitNodes config.renderMode 0 nodes
  if config.optimizeStatic then markFragmentsIn ⟨facts, keyCount⟩ nodes else ⟨facts, keyCount⟩

end TemplateCompiler.Template

import TemplateCompiler.Template.Element
/-!
# Nodes of a template

A template is a tree of elements, slots, text, comments, conditionals and iterations. Every node has a number of its
own. The branches of a conditional form a chain: the first branch whose test holds is rendered.
-/

namespace TemplateCompiler.Template

open TemplateCompiler.Text TemplateCompiler.Binding

/-- What creates an element. -/
inductive Role where
  /-- The platform. -/
  | native
  /-- The component that the tag names. -/
  | component
  /-- The component that a binding yields. -/
  | dynamic (constructor : Expr)
deriving Repr

/-- What an iteration runs over, and the names that it binds. -/
structure Iteration where
  iterable : Expr
  item : String
  index : Option String
deriving Repr

/-- The names that an iteration binds. -/
def Iteration.names (loop : Iteration) : List String :=
  loop.item :: loop.index.toList

mutual
/-- A node of a template. -/
inductive Node where
  | element (id : Nat) (position : Position) (role : Role) (data : ElementData) (children : List Node)
  /-- A place for content from outside. The default slot has the empty name, and the children are shown where no
  content is given. -/
  | slot (id : Nat) (position : Position) (name : String) (attributes : List Attribute) (children : List Node)
  | text (id : Nat) (position : Position) (parts : List TextPart)
  | comment (id : Nat) (position : Position) (text : String)
  | conditional (id : Nat) (position : Position) (chain : Chain)
  | iteration (id : Nat) (position : Position) (loop : Iteration) (children : List Node)

/-- The branches of a conditional, in order. -/
inductive Chain where
  | done
  | otherwise (children : List Node)
  /-- The children are shown if the test holds, or if it fails where the branch is negated. -/
  | branch (test : Expr) (negate : Bool) (children : List Node) (next : Chain)
end

/-- The kind of a node. -/
inductive NodeKind where
  | element
  | component
  | slot
  | text
  | comment
  | conditional
  | iteration
  | dynamic
deriving DecidableEq, Repr

/-- The name of a kind. -/
def NodeKind.name : NodeKind → String
  | .element => "Element"
  | .component => "Component"
  | .slot => "Slot"
  | .text => "Text"
  | .comment => "Comment"
  | .conditional => "If"
  | .iteration => "For"
  | .dynamic => "Dynamic"

/-- The kind of node that an element in the given role is. -/
def Role.kind : Role → NodeKind
  | .native => .element
  | .component => .component
  | .dynamic _ => .dynamic

namespace Node

/-- The number of a node. -/
def id : Node → Nat
  | .element id .. | .slot id .. | .text id .. | .comment id .. | .conditional id .. | .iteration id .. => id

/-- Where a node starts in the markup. -/
def position : Node → Position
  | .element _ p .. | .slot _ p .. | .text _ p .. | .comment _ p .. | .conditional _ p .. | .iteration _ p .. => p

/-- The kind of a node. -/
def kind : Node → NodeKind
  | .element _ _ role .. => role.kind
  | .slot .. => .slot
  | .text .. => .text
  | .comment .. => .comment
  | .conditional .. => .conditional
  | .iteration .. => .iteration

/-- Whether the runtime tells nodes of this kind apart by a key. -/
def isKeyed : Node → Bool
  | .element .. | .slot .. => true
  | _ => false

/-- Whether a node may render as any number of nodes. -/
def isDirective : Node → Bool
  | .conditional .. | .iteration .. => true
  | _ => false

end Node

/-! ## All nodes of a tree -/

mutual
/-- A node and all nodes below it, each before its children. -/
def Node.all : Node → List Node
  | .element id p role data children => .element id p role data children :: allNodes children
  | .slot id p name attributes children => .slot id p name attributes children :: allNodes children
  | .text id p parts => [.text id p parts]
  | .comment id p text => [.comment id p text]
  | .conditional id p chain => .conditional id p chain :: chain.all
  | .iteration id p loop children => .iteration id p loop children :: allNodes children

/-- All nodes in the branches of a chain. -/
def Chain.all : Chain → List Node
  | .done => []
  | .otherwise children => allNodes children
  | .branch _ _ children next => allNodes children ++ next.all

/-- All nodes of a list of trees, in document order. -/
def allNodes : List Node → List Node
  | [] => []
  | n :: ns => n.all ++ allNodes ns
end

/-! ## Slotted content -/

mutual
/-- The slot of a component that a child of it is put into. A conditional or an iteration goes where the first node
in it goes. -/
def Node.slotTarget : Node → String
  | .element _ _ _ data _ => data.slotTarget?.getD ""
  | .slot _ _ _ attributes _ => (firstLiteralSlot? attributes).getD ""
  | .conditional _ _ chain => chain.slotTarget?.getD ""
  | .iteration _ _ _ children => (firstSlotTarget? children).getD ""
  | .text .. => ""
  | .comment .. => ""

/-- The slot of the first node in a chain. -/
def Chain.slotTarget? : Chain → Option String
  | .done => none
  | .otherwise children => firstSlotTarget? children
  | .branch _ _ children next =>
    match firstSlotTarget? children with
    | some name => some name
    | none => next.slotTarget?

/-- The slot of the first node of a list. -/
def firstSlotTarget? : List Node → Option String
  | [] => none
  | n :: _ => some n.slotTarget
end

end TemplateCompiler.Template

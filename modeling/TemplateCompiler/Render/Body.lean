import TemplateCompiler.Render.Emission
import TemplateCompiler.Render.Fragment
import TemplateCompiler.Scoping.ImportTable
import TemplateCompiler.Template.Analysis
import TemplateCompiler.Template.NodeTable
/-!
# Body of a render function

Each node of a template becomes a call of a helper, a list of nodes an array. A list with conditionals or iterations in
it is flattened, since each of them yields any number of nodes.
-/

namespace TemplateCompiler.Render

open TemplateCompiler.Template TemplateCompiler.Binding
open Scoping (ImportTable)
open Emitting

/-- What the generation of a body looks up. -/
structure Sources where
  analysis : Analysis
  table : NodeTable
  imports : ImportTable

/-- What is known of a node. -/
def factsFor (sources : Sources) (n : Node) : Except InternalError Facts :=
  match sources.analysis.get? n.id with
  | some facts => .ok facts
  | none => .error (.notAnalyzed n.kind n.id)

/-- The key of a node. -/
def keyFor (n : Node) (facts : Facts) : Except InternalError Value :=
  match facts.key with
  | some key => .ok (.number key)
  | none => .error (.noKey n.kind n.id)

/-- The component that a tag stands for. -/
def componentFor (sources : Sources) (tag : String) : Except InternalError Value :=
  match sources.imports.local? tag with
  | some name => .ok (.constant name)
  | none => .error (.notImported tag)

/-- A binding expression; `locals` are the names that iterations around it bind. -/
def exprValue (locals : List String) (expr : Expr) : Value :=
  .raw (expr.toJs locals)

/-! ## Options -/

/-- The value of an attribute, its scoping aside. An attribute that is only named is empty text, and a property true. -/
def plainValue (locals : List String) (asProperty : Bool) : AttributeValue → Value
  | .literal text => .string text
  | .boolean value => if value && !asProperty then .string "" else .bool value
  | .expression expr => exprValue locals expr

/-- The value of an attribute. -/
def attributeValue (locals : List String) (asProperty : Bool) (a : Attribute) : Emitting Value :=
  let value := plainValue locals asProperty a.value
  match a.scoping with
  | some .id => call .scopedId [value]
  | some .fragment => call .scopedFragmentId [value]
  | none => return value

/-- The entry of an object that an attribute is. -/
def attributeEntry (locals : List String) (asProperty : Bool) (a : Attribute) : Emitting (String × Value) := do
  return (a.name, ← attributeValue locals asProperty a)

/-- The entry of the given name for a list of attributes, if there are any. -/
def attributesEntry (locals : List String) (name : String) (asProperty : Bool) (attributes : List Attribute) :
    Emitting (List (String × Value)) :=
  if attributes.isEmpty then return []
  else do return [(name, .object (← attributes.mapM (attributeEntry locals asProperty)))]

/-- The entry for the classes of an element. -/
def classEntry (locals : List String) : Option ClassBinding → Emitting (List (String × Value))
  | some (.static names) => return [("classMap", .object (names.map fun name => (name, .bool true)))]
  | some (.dynamic expr) => do return [("className", ← call .normalizeClassName [exprValue locals expr])]
  | none => return []

/-- A style declaration. -/
def declarationValue (d : StyleDeclaration) : Value :=
  .array [.string d.property, .string d.value, .bool d.important]

/-- The entry for the style of an element. -/
def styleEntry (locals : List String) : Option StyleBinding → List (String × Value)
  | some (.static declarations) => [("styleDecls", .array (declarations.map declarationValue))]
  | some (.dynamic expr) => [("style", exprValue locals expr)]
  | none => []

/-- The key of an element: its number, together with the key that its template gives it. -/
def keyValue (locals : List String) (number : Value) : Option Expr → Emitting Value
  | some expr => call .key [number, exprValue locals expr]
  | none => return number

/-- The entry of an object that a listener is. -/
def listenerEntry (locals : List String) (memoized : Bool) (l : Listener) : Emitting (String × Value) := do
  let bound ← call .bind [exprValue locals l.handler]
  if memoized then return (l.event, ← memoize bound) else return (l.event, bound)

/-- The entry for the listeners of an element. -/
def listenersEntry (locals : List String) (memoized : Bool) (listeners : List Listener) :
    Emitting (List (String × Value)) :=
  if listeners.isEmpty then return []
  else do return [("on", .object (← listeners.mapM (listenerEntry locals memoized)))]

/-- The options that may be declared beside the render function by themselves. -/
def isBag (name : String) : Bool :=
  name == "attrs" || name == "props" || name == "classMap" || name == "styleDecls"

/-- An entry of the options, its value declared by itself if it can be. -/
def hoistEntry (entry : String × Value) : Emitting (String × Value) := do
  if isBag entry.1 && entry.2.isLiteral && !entry.2.isEmptyContainer then
    return (entry.1, ← hoistLiteral entry.2)
  else return entry

/-- The options as an object, declared as a whole if they are literals. -/
def hoistOptions (entries : List (String × Value)) : Emitting Value := do
  let object := Value.object entries
  if object.isLiteral then hoistLiteral object
  else return .object (← entries.mapM hoistEntry)

/-- The options of an element. -/
def options (sources : Sources) (locals : List String) (n : Node) (data : ElementData) (facts : Facts) :
    Emitting Value := do
  let attributes ← attributesEntry locals "attrs" false data.attributes
  let properties ← attributesEntry locals "props" true data.properties
  let classes ← classEntry locals data.classes
  let svg := if data.namespace = .svg then [("svg", Value.bool true)] else []
  let key ← keyValue locals (← keyFor n facts) data.key
  let listeners ← listenersEntry locals (sources.table.iteration? n.id).isNone data.listeners
  hoistOptions
    (attributes ++ properties ++ classes ++ styleEntry locals data.style ++ svg ++ [("key", key)] ++ listeners)

/-- The options of a slot. -/
def slotOptions (locals : List String) (n : Node) (attributes : List Attribute) (facts : Facts) :
    Emitting Value := do
  let entries ← attributesEntry locals "attrs" false attributes
  hoistOptions (entries ++ [("key", ← keyFor n facts)])

/-! ## Text and fragments -/

/-- A piece of text. -/
def partValue (locals : List String) : TextPart → Emitting Value
  | .literal text => return .string text
  | .expression expr => call .dynamicText [exprValue locals expr]

/-- A text node. -/
def textValue (locals : List String) (parts : List TextPart) : Emitting Value := do
  use .text
  match ← parts.mapM (partValue locals) with
  | [piece] => call .text [piece]
  | pieces => call .text [.concat pieces]

/-- A node as a fragment. -/
def fragmentValue (n : Node) (facts : Facts) : Emitting Value := do
  use .staticFragment
  let name ← hoist .fragment (← markup n)
  let key ← keyFor n facts
  call .staticFragment [.call name [], key, .number facts.hints.mask]

/-! ## Nodes -/

/-- The value that a node is: a fragment, or else what `render` makes of it. -/
def renderedValue (sources : Sources) (n : Node) (render : Facts → Emitting Value) : Emitting Value := do
  let facts ← factsFor sources n
  if facts.isFragment then fragmentValue n facts else render facts

/-- The array of the values of `nodes`. -/
def arrayValue (nodes : List Node) (values : Emitting (List Value)) : Emitting Value := do
  if nodes.any Node.isDirective then
    use .flatten
    call .flatten [.array (← values)]
  else return .array (← values)

/-- The slots that the children of a component are put into, in the order of their first children. -/
def slotNames (children : List Node) : List String :=
  (children.map Node.slotTarget).eraseDups

/-- The children of a component by the slots that they are put into, where `content` is what goes into a slot. -/
def slottedValue (children : List Node) (content : String → Emitting Value) : Emitting Value := do
  if children.isEmpty then return .undefined
  else return .object (← (slotNames children).mapM fun name => do return (name, .arrow (← content name)))

mutual
/-- The value that a node is. -/
def nodeValue (sources : Sources) (locals : List String) : Node → Emitting Value
  | .element id p role data children =>
    renderedValue sources (.element id p role data children) fun facts => do
      let tag := Value.string data.tag
      let flags := Value.number facts.hints.mask
      let content (name : String) :=
        arrayValue (children.filter (·.slotTarget == name))
          (nodeValues sources locals (·.slotTarget == name) children)
      match role with
      | .native =>
        use .element
        let options ← options sources locals (.element id p role data children) data facts
        let content ← arrayValue children (nodeValues sources locals (fun _ => true) children)
        call .element [tag, options, content, flags]
      | .component =>
        use .customElement
        let component ← componentFor sources data.tag
        let options ← options sources locals (.element id p role data children) data facts
        let slotted ← slottedValue children content
        call .customElement [tag, component, options, slotted, flags]
      | .dynamic constructor =>
        use .dynamicComponent
        let options ← options sources locals (.element id p role data children) data facts
        let slotted ← slottedValue children content
        call .dynamicComponent [tag, exprValue locals constructor, options, slotted, flags]
  | .slot id p name attributes children =>
    renderedValue sources (.slot id p name attributes children) fun facts => do
      use .slot
      let options ← slotOptions locals (.slot id p name attributes children) attributes facts
      let fallback ← arrayValue children (nodeValues sources locals (fun _ => true) children)
      call .slot [.string name, options, fallback, .raw "$slotset", .number facts.hints.mask]
  | .text id p parts =>
    renderedValue sources (.text id p parts) fun _ => textValue locals parts
  | .comment id p text =>
    renderedValue sources (.comment id p text) fun _ => call .comment [.string text]
  | .conditional id p chain =>
    renderedValue sources (.conditional id p chain) fun _ => chainValue sources locals chain
  | .iteration id p loop children =>
    renderedValue sources (.iteration id p loop children) fun _ => do
      use .iterator
      let body ← arrayValue children (nodeValues sources (locals ++ loop.names) (fun _ => true) children)
      call .iterator [exprValue locals loop.iterable, .function loop.names body]

/-- The value that the branches of a conditional are. -/
def chainValue (sources : Sources) (locals : List String) : Chain → Emitting Value
  | .done => return .array []
  | .otherwise children => arrayValue children (nodeValues sources locals (fun _ => true) children)
  | .branch test negate children next => do
    let consequent ← arrayValue children (nodeValues sources locals (fun _ => true) children)
    let alternate ← chainValue sources locals next
    return .conditional (.raw ((if negate then "!" else "") ++ test.toJs locals)) consequent alternate

/-- The values of the nodes in a list that `keep` picks. -/
def nodeValues (sources : Sources) (locals : List String) (keep : Node → Bool) :
    List Node → Emitting (List Value)
  | [] => return []
  | n :: ns =>
    if keep n then do
      let value ← nodeValue sources locals n
      return value :: (← nodeValues sources locals keep ns)
    else nodeValues sources locals keep ns
end

/-- The body of a render function: the value of the nodes of a template. -/
def bodyValue (sources : Sources) (nodes : List Node) : Emitting Value :=
  arrayValue nodes (nodeValues sources [] (fun _ => true) nodes)

end TemplateCompiler.Render

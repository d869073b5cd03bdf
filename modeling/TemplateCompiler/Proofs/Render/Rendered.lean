import TemplateCompiler.Proofs.Render.Steps
import TemplateCompiler.Render.Body
/-!
# What nodes are rendered as

`Node.Renders` says which values a node may become, with no reference to the order in which a body is generated: what
depends on that order are the names of declarations, which are those of a given table, and the names that listeners
are kept under, which are left open. `ends_bodyValue` shows that a generation which succeeds makes such values, and
notes what they mention, in the order in which it is written.
-/

namespace TemplateCompiler.Render

open TemplateCompiler.Template TemplateCompiler.Binding
open Scoping (ImportTable)
open Emitting

/-! ## Options -/

/-- The value of an attribute, scoped if it has to be. -/
def scopedValue (locals : List String) (asProperty : Bool) (a : Attribute) : Value :=
  match a.scoping with
  | some .id => .call Helper.scopedId.localName [plainValue locals asProperty a.value]
  | some .fragment => .call Helper.scopedFragmentId.localName [plainValue locals asProperty a.value]
  | none => plainValue locals asProperty a.value

/-- The option of the given name for a list of attributes, if there are any. -/
def attributesOption (locals : List String) (name : String) (asProperty : Bool) (attributes : List Attribute) :
    List (String × Value) :=
  if attributes.isEmpty then []
  else [(name, .object (attributes.map fun a => (a.name, scopedValue locals asProperty a)))]

/-- The option for the classes of an element. -/
def classOption (locals : List String) : Option ClassBinding → List (String × Value)
  | some (.static names) => [("classMap", .object (names.map fun name => (name, .bool true)))]
  | some (.dynamic expr) => [("className", .call Helper.normalizeClassName.localName [exprValue locals expr])]
  | none => []

/-- The key of an element with the given number. -/
def keyOption (locals : List String) (number : Nat) : Option Expr → Value
  | some expr => .call Helper.key.localName [.number number, exprValue locals expr]
  | none => .number number

/-- A listener becomes an entry with its handler bound, and kept under some name if it is memoized. -/
def ListenerRenders (locals : List String) (memoized : Bool) (l : Listener) (entry : String × Value) : Prop :=
  let bound := Value.call Helper.bind.localName [exprValue locals l.handler]
  entry.1 = l.event ∧ if memoized then ∃ n, entry.2 = .memo (memoName n) bound else entry.2 = bound

/-- The option for listeners, if there are any. -/
def ListenersRender (locals : List String) (memoized : Bool) (listeners : List Listener)
    (entries : List (String × Value)) : Prop :=
  if listeners.isEmpty then entries = []
  else ∃ handlers, List.Forall₂ (ListenerRenders locals memoized) listeners handlers ∧
    entries = [("on", .object handlers)]

/-- The options of an element but its listeners. -/
def elementOptions (locals : List String) (data : ElementData) (number : Nat) : List (String × Value) :=
  attributesOption locals "attrs" false data.attributes ++ attributesOption locals "props" true data.properties ++
    classOption locals data.classes ++ styleEntry locals data.style ++
    (if data.namespace = .svg then [("svg", Value.bool true)] else []) ++ [("key", keyOption locals number data.key)]

/-- The options of a slot. -/
def slotEntries (locals : List String) (attributes : List Attribute) (number : Nat) : List (String × Value) :=
  attributesOption locals "attrs" false attributes ++ [("key", .number number)]

/-- Whether the value of an option is declared by itself. -/
def isSeparate (entry : String × Value) : Bool :=
  isBag entry.1 && entry.2.isLiteral && !entry.2.isEmptyContainer

theorem isLiteral_of_isSeparate {entry : String × Value} (h : isSeparate entry = true) : entry.2.isLiteral = true := by
  simp only [isSeparate, Bool.and_eq_true] at h
  exact h.1.2

/-- A value is the name that a literal is declared under. -/
def NamesLiteral (table : HoistTable) (literal v : Value) : Prop :=
  ∃ name, table.Declares .object literal.text name ∧ v = .constant name

/-- An option stays as it is, or its value is declared by itself. -/
def OptionRenders (table : HoistTable) (entry entry' : String × Value) : Prop :=
  entry'.1 = entry.1 ∧ if isSeparate entry then NamesLiteral table entry.2 entry'.2 else entry'.2 = entry.2

/-- Options become an object, which is declared as a whole if it is a literal. -/
def OptionsRender (table : HoistTable) (entries : List (String × Value)) (v : Value) : Prop :=
  if (Value.object entries).isLiteral then NamesLiteral table (.object entries) v
  else ∃ entries', List.Forall₂ (OptionRenders table) entries entries' ∧ v = .object entries'

/-! ## Text, fragments and lists -/

/-- A piece of text. -/
def pieceValue (locals : List String) : TextPart → Value
  | .literal text => .string text
  | .expression expr => .call Helper.dynamicText.localName [exprValue locals expr]

/-- The pieces of a text as one value. -/
def joined : List Value → Value
  | [piece] => piece
  | pieces => .concat pieces

/-- A node is rendered as a fragment: a reference to its markup, its key and its hints. -/
def FragmentRenders (table : HoistTable) (n : Node) (facts : Facts) (v : Value) : Prop :=
  ∃ html name key, markup n = .ok html ∧ table.Declares .fragment html name ∧ facts.key = some key ∧
    v = .call Helper.staticFragment.localName [.call name [], .number key, .number facts.hints.mask]

/-- The array of the values of nodes, flattened if some nodes may be rendered as any number of nodes. -/
def arrayOf (nodes : List Node) (values : List Value) : Value :=
  if nodes.any Node.isDirective then .call Helper.flatten.localName [.array values] else .array values

/-- The children of a component by their slots. -/
def slottedOf (children : List Node) (slots : List (String × List Value)) : Value :=
  if children.isEmpty then .undefined
  else .object (slots.map fun slot => (slot.1, .arrow (arrayOf (children.filter (·.slotTarget == slot.1)) slot.2)))

/-- The children of a component are rendered slot by slot; `render` says of which values the picked ones become. -/
def SlotsRender (children : List Node) (render : (Node → Bool) → List Value → Prop)
    (slots : List (String × List Value)) : Prop :=
  slots.map Prod.fst = slotNames children ∧ ∀ slot ∈ slots, render (·.slotTarget == slot.1) slot.2

/-! ## Nodes -/

section Renders

variable (sources : Sources) (table : HoistTable)

/-- A node is rendered as a fragment, or else as `inner` says. -/
def RendersAs (n : Node) (v : Value) (inner : Facts → Prop) : Prop :=
  ∃ facts, sources.analysis.get? n.id = some facts ∧
    if facts.isFragment then FragmentRenders table n facts v else inner facts

/-- An element with the given facts has the value as its options. -/
def ElementOptionsRender (locals : List String) (id : Nat) (data : ElementData) (facts : Facts) (options : Value) :
    Prop :=
  ∃ number listeners, facts.key = some number ∧
    ListenersRender locals (sources.table.iteration? id).isNone data.listeners listeners ∧
    OptionsRender table (elementOptions locals data number ++ listeners) options

mutual

/-- A node may be rendered as a value; `locals` are the names that iterations around it bind. -/
def NodeRenders (locals : List String) : Node → Value → Prop
  | .element id p role data children, v =>
    RendersAs sources table (.element id p role data children) v fun facts =>
      ∃ options, ElementOptionsRender sources table locals id data facts options ∧
        match role with
        | .native => ∃ values, NodesRender locals (fun _ => true) children values ∧
            v = .call Helper.element.localName
              [.string data.tag, options, arrayOf children values, .number facts.hints.mask]
        | .component => ∃ name slots, sources.imports.local? data.tag = some name ∧
            SlotsRender children (fun keep values => NodesRender locals keep children values) slots ∧
            v = .call Helper.customElement.localName
              [.string data.tag, .constant name, options, slottedOf children slots, .number facts.hints.mask]
        | .dynamic constructor => ∃ slots,
            SlotsRender children (fun keep values => NodesRender locals keep children values) slots ∧
            v = .call Helper.dynamicComponent.localName
              [.string data.tag, exprValue locals constructor, options, slottedOf children slots,
                .number facts.hints.mask]
  | .slot id p name attributes children, v =>
    RendersAs sources table (.slot id p name attributes children) v fun facts =>
      ∃ number options values, facts.key = some number ∧
        OptionsRender table (slotEntries locals attributes number) options ∧
        NodesRender locals (fun _ => true) children values ∧
        v = .call Helper.slot.localName
          [.string name, options, arrayOf children values, .raw "$slotset", .number facts.hints.mask]
  | .text id p parts, v =>
    RendersAs sources table (.text id p parts) v fun _ =>
      v = .call Helper.text.localName [joined (parts.map (pieceValue locals))]
  | .comment id p text, v =>
    RendersAs sources table (.comment id p text) v fun _ => v = .call Helper.comment.localName [.string text]
  | .conditional id p chain, v =>
    RendersAs sources table (.conditional id p chain) v fun _ => ChainRenders locals chain v
  | .iteration id p loop children, v =>
    RendersAs sources table (.iteration id p loop children) v fun _ =>
      ∃ values, NodesRender (locals ++ loop.names) (fun _ => true) children values ∧
        v = .call Helper.iterator.localName
          [exprValue locals loop.iterable, .function loop.names (arrayOf children values)]

/-- The branches of a conditional may be rendered as a value. -/
def ChainRenders (locals : List String) : Chain → Value → Prop
  | .done, v => v = .array []
  | .otherwise children, v => ∃ values, NodesRender locals (fun _ => true) children values ∧ v = arrayOf children values
  | .branch test negate children next, v => ∃ values alternate,
      NodesRender locals (fun _ => true) children values ∧ ChainRenders locals next alternate ∧
      v = .conditional (.raw ((if negate then "!" else "") ++ test.toJs locals)) (arrayOf children values) alternate

/-- The nodes of a list that `keep` picks may be rendered as values. -/
def NodesRender (locals : List String) (keep : Node → Bool) : List Node → List Value → Prop
  | [], values => values = []
  | n :: ns, values =>
    if keep n then ∃ v rest, NodeRenders locals n v ∧ NodesRender locals keep ns rest ∧ values = v :: rest
    else NodesRender locals keep ns values

end

end Renders

end TemplateCompiler.Render

import TemplateCompiler.Markup.Names
import TemplateCompiler.Template.Attribute
import TemplateCompiler.Template.Style
import TemplateCompiler.Text.Camel
/-!
# Elements of a template

What the attributes of an element become: attributes, properties, classes, a style and event listeners. Custom
elements take properties where native ones take attributes.
-/

namespace TemplateCompiler.Template

open TemplateCompiler.Text TemplateCompiler.Binding
open Markup (startsWith lowerName)

/-- The namespace that an element is created in. -/
inductive ElementNamespace where
  | html
  | svg
deriving DecidableEq, Repr

/-- The name of a namespace. -/
def ElementNamespace.name : ElementNamespace → String
  | .html => "html"
  | .svg => "svg"

/-- The classes of an element. -/
inductive ClassBinding where
  | static (names : List String)
  | dynamic (expr : Expr)
deriving Repr

/-- Whether the classes are bound. -/
def ClassBinding.isDynamic : ClassBinding → Bool
  | .static _ => false
  | .dynamic _ => true

/-- The style of an element. -/
inductive StyleBinding where
  | static (declarations : List StyleDeclaration)
  | dynamic (expr : Expr)
deriving Repr

/-- Whether the style is bound. -/
def StyleBinding.isDynamic : StyleBinding → Bool
  | .static _ => false
  | .dynamic _ => true

/-- An event listener. -/
structure Listener where
  event : String
  handler : Expr
  position : Position
deriving Repr

/-- An element without its children. -/
structure ElementData where
  tag : String
  «namespace» : ElementNamespace
  attributes : List Attribute := []
  properties : List Attribute := []
  classes : Option ClassBinding := none
  style : Option StyleBinding := none
  listeners : List Listener := []
  /-- What tells the element apart from those of the other items of an iteration. -/
  key : Option Expr := none
deriving Repr

namespace ElementData

/-- The slot that the element is put into. -/
def slotTarget? (data : ElementData) : Option String :=
  Template.slotTarget? data.attributes

/-- Whether anything of the element is bound. -/
def isBound (data : ElementData) : Bool :=
  data.attributes.any (·.value.isExpression) || data.properties.any (·.value.isExpression) ||
    data.classes.any ClassBinding.isDynamic || data.style.any StyleBinding.isDynamic ||
    !data.listeners.isEmpty || data.key.isSome

/-- Whether an attribute of a native element is set as a property: what a form control holds. -/
def isNativeProperty (tag name : String) : Bool :=
  match tag, name with
  | "input", "value" => true
  | "input", "checked" => true
  | "textarea", "value" => true
  | "select", "value" => true
  | _, _ => false

/-- The event that an attribute of this name listens to. -/
def eventName? (name : String) : Option String :=
  match name.toList with
  | 'o' :: 'n' :: c :: cs => some (String.ofList (c :: cs))
  | _ => none

/-- The element with the given classes. A class that is named twice counts once. -/
def setClasses (data : ElementData) : AttributeValue → ElementData
  | .literal text =>
    match (words text).eraseDups with
    | [] => data
    | names => { data with classes := some (.static names) }
  | .expression expr => { data with classes := some (.dynamic expr) }
  | .boolean _ => data

/-- The element with the given style. -/
def setStyle (data : ElementData) : AttributeValue → ElementData
  | .literal text =>
    match styleDeclarations text with
    | [] => data
    | declarations => { data with style := some (.static declarations) }
  | .expression expr => { data with style := some (.dynamic expr) }
  | .boolean _ => data

/-- The value of a property of a custom element. Spell checking is off only where it says `false`. -/
def propertyValue (name : String) : AttributeValue → AttributeValue
  | .literal text => if name = "spellcheck" then .boolean (lowerName text != "false") else .literal text
  | value => value

/-- The element with an attribute or property of the given name and value. -/
def set (data : ElementData) (custom : Bool) (name : String) (value : AttributeValue) (position : Position) :
    ElementData :=
  if name = "class" then data.setClasses value
  else if name = "style" then data.setStyle value
  else if custom && !(startsWith name "data-" || name == "slot") then
    { data with properties := data.properties ++ [⟨camelCase name, propertyValue name value, position, none⟩] }
  else if !custom && isNativeProperty data.tag name then
    { data with properties := data.properties ++ [⟨name, value, position, none⟩] }
  else { data with attributes := data.attributes ++ [⟨name, value, position, none⟩] }

/-- The element with what the attribute `a` says of it. -/
def add (data : ElementData) (custom : Bool) (a : Markup.Attribute) : Except Problem ElementData := do
  let value ← attributeValue a
  if a.name = "is" then throw .reservedIs
  match eventName? a.name with
  | some event =>
    match value with
    | .expression handler => return { data with listeners := data.listeners ++ [⟨event, handler, a.position⟩] }
    | _ => throw (.handlerWithoutBinding a.name)
  | none => return data.set custom a.name value a.position

/-- The element with what the attributes say of it, and what is wrong with them. An attribute with a problem is
left out. -/
def addAll (data : ElementData) (custom : Bool) : List Markup.Attribute → ElementData × List Diagnostic
  | [] => (data, [])
  | a :: attributes =>
    match data.add custom a with
    | .ok data => data.addAll custom attributes
    | .error problem =>
      let (data, diagnostics) := data.addAll custom attributes
      (data, problem.diagnostic a.position :: diagnostics)

end ElementData

end TemplateCompiler.Template

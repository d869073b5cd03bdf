import TemplateCompiler.Template.Problem
import TemplateCompiler.Markup.Document
/-!
# Attributes of a template

What an attribute of the markup means: a value that is one unquoted group of braces is a binding, any other
value is a literal, and an attribute without a value is true.
-/

namespace TemplateCompiler.Template

open TemplateCompiler.Text TemplateCompiler.Binding

/-- The value of an attribute. -/
inductive AttributeValue where
  | literal (text : String)
  | boolean (value : Bool)
  | expression (expr : Expr)
deriving Repr

/-- Whether the value is a binding. -/
def AttributeValue.isExpression : AttributeValue → Bool
  | .expression _ => true
  | _ => false

/-- How a value that names elements of the template is kept apart from equal names elsewhere. -/
inductive Scoping where
  /-- Ids. -/
  | id
  /-- A URL that leads to a place in the same document. -/
  | fragment
deriving DecidableEq, Repr

/-- An attribute or a property. -/
structure Attribute where
  name : String
  value : AttributeValue
  position : Position
  scoping : Option Scoping := none
deriving Repr

/-- The expression that a binding of the attribute `a` denotes. -/
def readAttribute (a : Markup.Attribute) (code : List Char) : Except Problem Expr :=
  match readBinding code with
  | .ok expr => .ok expr
  | .error error => .error (.invalidBinding a.name error)

/-- The expression that the attribute is bound to, where nothing but a binding will do. -/
def requiredBinding (a : Markup.Attribute) : Except Problem Expr :=
  match bindingCode? a.value with
  | some code => if a.quoted then .error (.expectsBinding a.name) else readAttribute a code
  | none => .error (.expectsBinding a.name)

/-- The value of an attribute. -/
def attributeValue (a : Markup.Attribute) : Except Problem AttributeValue :=
  match bindingCode? a.value with
  | some code => if a.quoted then .error (.quotedBinding a.name) else (readAttribute a code).map .expression
  | none => .ok (if a.hasValue then .literal a.value else .boolean true)

/-- The attribute of the given name. -/
def attribute? (attributes : List Attribute) (name : String) : Option Attribute :=
  attributes.find? (·.name == name)

/-- The slot that the attributes literally ask for. -/
def slotTarget? (attributes : List Attribute) : Option String :=
  match (attribute? attributes "slot").map Attribute.value with
  | some (.literal name) => some name
  | _ => none

/-- The first slot that one of the attributes literally asks for, whatever the attributes before it are bound to. -/
def firstLiteralSlot? (attributes : List Attribute) : Option String :=
  attributes.findSome? fun a =>
    match a.name, a.value with
    | "slot", .literal name => some name
    | _, _ => none

end TemplateCompiler.Template

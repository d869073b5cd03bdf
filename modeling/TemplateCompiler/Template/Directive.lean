import TemplateCompiler.Markup.Names
import TemplateCompiler.Text.Identifier
import TemplateCompiler.Template.Node
/-!
# Directives

Attributes that say when and how often an element is rendered, and by what. `Directives.read` takes them off the
other attributes of an element.
-/

namespace TemplateCompiler.Template

open TemplateCompiler.Text TemplateCompiler.Binding
open Markup (startsWith)

/-- When an element is rendered. -/
inductive Condition where
  /-- `if:true` and, negated, `if:false`. -/
  | alone (test : Expr) (negate : Bool)
  /-- `lwc:if`. -/
  | first (test : Expr)
  /-- `lwc:elseif`. -/
  | next (test : Expr)
  /-- `lwc:else`. -/
  | last
deriving Repr

/-- The directives of an element. -/
structure Directives where
  condition : Option Condition := none
  iteration : Option Iteration := none
  key : Option Expr := none
  /-- What yields the component that renders the element. -/
  dynamic : Option Expr := none
deriving Repr

/-- What is known of the directives of an element part of the way through its attributes. -/
structure Reading where
  condition : Option Condition := none
  each : Option (Expr × Position) := none
  item : Option (String × Position) := none
  index : Option (String × Position) := none
  key : Option Markup.Attribute := none
  dynamic : Option Expr := none
  /-- The attributes that are no directives, in order. -/
  rest : List Markup.Attribute := []
  diagnostics : List Diagnostic := []
deriving Repr

namespace Reading

/-- The reading with a further problem, at a position. -/
def report (r : Reading) (problem : Problem) (position : Position) : Reading :=
  { r with diagnostics := r.diagnostics ++ [problem.diagnostic position] }

/-- The reading that `f` makes of the value of the attribute `a`, or the one with the problem of that value. -/
def withValue {α : Type} (r : Reading) (a : Markup.Attribute) (value : Except Problem α)
    (f : Reading → α → Reading) : Reading :=
  match value with
  | .ok value => f r value
  | .error problem => r.report problem a.position

/-- The reading with a condition, unless it has one. -/
def setCondition (r : Reading) (a : Markup.Attribute) (condition : Condition) : Reading :=
  if r.condition.isSome then r.report (.conditionalConflict a.name) a.position
  else { r with condition := some condition }

/-- The variable that the attribute `a` names. -/
def variableName (a : Markup.Attribute) : Except Problem String :=
  let name := trimmed a.value
  if a.hasValue && isIdentifierName name then .ok name else .error (.noVariableName a.name a.value)

/-- The reading behind the attribute `a`. -/
def step (r : Reading) (a : Markup.Attribute) : Reading :=
  match a.name with
  | "if:true" =>
    (r.report (.deprecated a.name) a.position).withValue a (requiredBinding a) fun r test =>
      r.setCondition a (.alone test false)
  | "if:false" =>
    (r.report (.deprecated a.name) a.position).withValue a (requiredBinding a) fun r test =>
      r.setCondition a (.alone test true)
  | "lwc:if" => r.withValue a (requiredBinding a) fun r test => r.setCondition a (.first test)
  | "lwc:elseif" => r.withValue a (requiredBinding a) fun r test => r.setCondition a (.next test)
  | "lwc:else" => (if a.hasValue then r.report .elseWithValue a.position else r).setCondition a .last
  | "for:each" => r.withValue a (requiredBinding a) fun r expr => { r with each := some (expr, a.position) }
  | "for:item" => r.withValue a (variableName a) fun r name => { r with item := some (name, a.position) }
  | "for:index" => r.withValue a (variableName a) fun r name => { r with index := some (name, a.position) }
  | "key" => { r with key := some a }
  | "lwc:dynamic" => r.withValue a (requiredBinding a) fun r expr => { r with dynamic := some expr }
  | "lwc:render-mode" => r.report (.rootOnly a.name) a.position
  | "lwc:preserve-comments" => r.report (.rootOnly a.name) a.position
  | name =>
    if startsWith name "lwc:" || startsWith name "if:" || startsWith name "for:" then
      r.report (.unknownDirective name) a.position
    else { r with rest := r.rest ++ [a] }

/-- The reading behind a list of attributes. -/
def ofAttributes (attributes : List Markup.Attribute) : Reading :=
  attributes.foldl step {}

/-- The iteration that the directives make up together. -/
def iteration? (r : Reading) : Option Iteration :=
  match r.each, r.item with
  | some (iterable, _), some (item, _) => some ⟨iterable, item, r.index.map (·.1)⟩
  | _, _ => none

/-- What is wrong with the directives of an iteration. -/
def iterationDiagnostics (r : Reading) : List Diagnostic :=
  (match r.each, r.item with
    | some (_, p), none => [Problem.eachWithoutItem.diagnostic p]
    | none, some (_, p) => [Problem.itemWithoutEach.diagnostic p]
    | _, _ => []) ++
  match r.iteration?, r.index with
  | none, some (_, p) => [Problem.indexWithoutEach.diagnostic p]
  | _, _ => []

/-- The key that the attribute `a` gives an element. -/
def readKey (repeated : Bool) (a : Markup.Attribute) : Except Problem Expr :=
  if !repeated then .error .keyOutsideIteration
  else
    match bindingCode? a.value with
    | some code => if a.quoted then .error .keyWithoutBinding else readAttribute a code
    | none => .error .keyWithoutBinding

end Reading

/-- The directives among the attributes of an element, the attributes that are none, and what is wrong with the
directives. A key is allowed on an element that is iterated or stands in an iteration. -/
def Directives.read (inIteration : Bool) (attributes : List Markup.Attribute) :
    Directives × List Markup.Attribute × List Diagnostic :=
  let r := Reading.ofAttributes attributes
  let iteration := r.iteration?
  let diagnostics := r.diagnostics ++ r.iterationDiagnostics
  let directives := { condition := r.condition, iteration, dynamic := r.dynamic : Directives }
  match r.key with
  | none => (directives, r.rest, diagnostics)
  | some a =>
    match Reading.readKey (inIteration || iteration.isSome) a with
    | .ok key => ({ directives with key := some key }, r.rest, diagnostics)
    | .error problem => (directives, r.rest, diagnostics ++ [problem.diagnostic a.position])

end TemplateCompiler.Template

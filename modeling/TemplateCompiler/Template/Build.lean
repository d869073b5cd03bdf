import TemplateCompiler.Config
import TemplateCompiler.Template.Directive
import TemplateCompiler.Template.Draft
/-!
# Building a template

The tree of a template is made from a document in one pass in document order. Nested `template` elements only carry
directives, and their content takes their place. Problems never stop the pass: they are gathered, and what has one
is left out.
-/

namespace TemplateCompiler

open TemplateCompiler.Text TemplateCompiler.Binding

/-- A template, as it is built from a document. -/
structure Template where
  /-- The configuration, with what the root element says. -/
  config : Config
  nodes : List Template.Node
  table : Template.NodeTable
  /-- The names of the slots, in the order of their first declarations. -/
  slots : List String
  diagnostics : List Diagnostic

namespace Template

open Building

/-- Where a node is built. -/
structure Place where
  /-- The node that it stands in. -/
  parent : Option Nat := none
  inIteration : Bool := false
  /-- It is rendered once for each item of an iteration. -/
  perItem : Bool := false
  svg : Bool := false
  keepBlanks : Bool := false
deriving Repr

namespace Place

/-- The place of the children of a node. -/
def below (place : Place) (id : Nat) : Place :=
  { place with parent := some id, perItem := false }

/-- The place of what a conditional renders. -/
def within (place : Place) (id : Nat) : Place :=
  { place with parent := some id }

/-- The place of what an iteration renders. -/
def iterated (place : Place) (id : Nat) : Place :=
  { place with parent := some id, inIteration := true, perItem := true }

/-- The namespace of an element of that place. -/
def namespaceOf (place : Place) (tag : String) : ElementNamespace :=
  if tag == "svg" || place.svg then .svg else .html

/-- The place of the children of the element `tag`, which is the node `id`. -/
def belowElement (place : Place) (id : Nat) (tag : String) : Place :=
  { place.below id with
    svg := place.namespaceOf tag = .svg && tag != "foreignObject"
    keepBlanks := place.keepBlanks || tag == "pre" || tag == "textarea" }

end Place

/-! ## Text and comments -/

/-- The node for a text, if anything of it is shown. -/
def buildText (place : Place) (text : String) (position : Position) : Building (Option Node) := do
  match shown place.keepBlanks text with
  | none => return none
  | some text =>
    match splitText text.toList with
    | .error (_, error) =>
      report [.text error] position
      return none
    | .ok parts =>
      let id ← allocate place.parent "#text" position
      return some (.text id position parts)

/-- The node for a comment, if comments are preserved. -/
def buildComment (config : Config) (place : Place) (text : String) (position : Position) :
    Building (Option Node) := do
  if config.preserveComments then
    let id ← allocate place.parent "#comment" position
    return some (.comment id position text)
  else return none

/-! ## Elements -/

/-- What is wrong with an element, its attributes aside. -/
def tagProblems (place : Place) (tag : String) (directives : Directives) : List Problem :=
  let custom := Markup.isCustomName tag
  (if custom && Markup.reservedNames.contains tag then [.reservedTag tag] else []) ++
  (if !custom && place.namespaceOf tag = .html && !Markup.htmlElements.contains tag then [.unknownElement tag]
    else []) ++
  (if !custom && directives.dynamic.isSome then [.dynamicNative tag] else []) ++
  (if place.perItem && directives.key.isNone then [.noKey tag] else [])

/-- What creates the element `tag`. -/
def roleOf (tag : String) (directives : Directives) : Role :=
  if Markup.isCustomName tag then
    match directives.dynamic with
    | some constructor => .dynamic constructor
    | none => .component
  else .native

/-- The node for an element that is no slot; `body` builds its children. -/
def buildElement (place : Place) (id : Nat) (e : Markup.Element) (directives : Directives)
    (body : Place → Building (List Node)) : Building Node := do
  report (tagProblems place e.tag directives) e.position
  let data : ElementData := ⟨e.tag, place.namespaceOf e.tag, [], [], none, none, [], directives.key⟩
  let (data, diagnostics) := data.addAll (Markup.isCustomName e.tag) e.attributes
  note diagnostics
  let children ← body (place.belowElement id e.tag)
  return .element id e.position (roleOf e.tag directives) data children

/-- The name of a slot and its other attributes, and what is wrong with them. -/
def slotAttributes (name : String) (attributes : List Attribute) :
    List Markup.Attribute → String × List Attribute × List Diagnostic
  | [] => (name, attributes, [])
  | a :: rest =>
    let failed (problem : Problem) :=
      let (name, attributes, diagnostics) := slotAttributes name attributes rest
      (name, attributes, problem.diagnostic a.position :: diagnostics)
    if a.name = "name" then
      if isBinding a.value then failed .slotNameBound else slotAttributes (trimmed a.value) attributes rest
    else
      match attributeValue a with
      | .ok value => slotAttributes name (attributes ++ [⟨a.name, value, a.position, none⟩]) rest
      | .error problem => failed problem

/-- The node for a slot; `body` builds its children. -/
def buildSlot (place : Place) (id : Nat) (e : Markup.Element) (directives : Directives)
    (body : Place → Building (List Node)) : Building Node := do
  if let some iteration ← iterationAround id then
    report [.slotInIteration iteration] e.position
  if directives.key.isSome || directives.dynamic.isSome then
    report [.slotDirective] e.position
  let (name, attributes, diagnostics) := slotAttributes "" [] e.attributes
  note diagnostics
  declareSlot name e.position
  let children ← body (place.below id)
  return .slot id e.position name attributes children

/-- The node for an element or a slot. -/
def buildTag (place : Place) (e : Markup.Element) (directives : Directives)
    (body : Place → Building (List Node)) : Building Node := do
  let id ← allocate place.parent ("<" ++ e.tag ++ ">") e.position
  if e.tag = "slot" then buildSlot place id e directives body
  else buildElement place id e directives body

/-- What is wrong with a nested `template` element, its attributes aside. -/
def nestedProblems (directed : Bool) (directives : Directives) : List Problem :=
  (if directed then [] else [.templateWithoutDirective]) ++
  (if directives.key.isSome then [.templateKey] else []) ++
  (if directives.dynamic.isSome then [.templateDynamic] else [])

/-- The content of a nested `template` element. -/
def buildNested (place : Place) (e : Markup.Element) (directives : Directives) (directed : Bool)
    (body : Place → Building (List Node)) : Building (List Node) := do
  report (nestedProblems directed directives) e.position
  note (e.attributes.map fun a => (Problem.templateAttribute a.name).diagnostic a.position)
  body place

/-! ## Directives -/

/-- The iteration around what `inner` builds, if there is one. -/
def buildIteration (place : Place) (position : Position) (loop : Option Iteration)
    (inner : Place → Building (List Node)) : Building (List Node) := do
  match loop with
  | none => inner place
  | some loop =>
    let id ← allocate place.parent iterationLabel position
    let children ← inner (place.iterated id)
    return [.iteration id position loop children]

/-- The conditional of one branch around what `inner` builds, if the condition makes one by itself. -/
def buildAlone (place : Place) (position : Position) (condition : Option Condition)
    (inner : Place → Building (List Node)) : Building (List Node) := do
  match condition with
  | some (.alone test negate) =>
    let id ← allocate place.parent (if negate then "if:false" else "if:true") position
    let children ← inner (place.within id)
    return [.conditional id position (.branch test negate children .done)]
  | _ => inner place

/-- The nodes for an element: its iteration, in it a condition that stands alone, and in that the element. -/
def buildContent (place : Place) (e : Markup.Element) (directives : Directives)
    (body : Place → Building (List Node)) : Building (List Node) :=
  buildIteration place e.position directives.iteration fun place =>
    buildAlone place e.position directives.condition fun place => do
      if e.tag = "template" then
        let directed := directives.condition.isSome || directives.iteration.isSome
        buildNested place e directives directed body
      else return [← buildTag place e directives body]

mutual
/-- The nodes for the children of a node of the document. -/
def buildChildren (config : Config) (place : Place) : Markup.Node → Building (List Node)
  | .element _ children => do return (← buildSiblings config place none children).2
  | .text _ _ => return []
  | .comment _ _ => return []

/-- The branches that the first siblings add to the conditional `chain?`, which stands right before them, and the
nodes for the siblings after those. -/
def buildSiblings (config : Config) (place : Place) (chain? : Option Nat) :
    List Markup.Node → Building (Chain × List Node)
  | [] => return (.done, [])
  | .text text position :: rest => do
    match ← buildText place text position with
    | none => buildSiblings config place chain? rest
    | some n => return (.done, n :: (← buildSiblings config place none rest).2)
  | .comment text position :: rest => do
    match ← buildComment config place text position with
    | none => buildSiblings config place chain? rest
    | some n => return (.done, n :: (← buildSiblings config place none rest).2)
  | .element e children :: rest => do
    let (directives, attributes, diagnostics) := Directives.read place.inIteration e.attributes
    note diagnostics
    let content (place : Place) := buildContent place { e with attributes } directives fun place =>
      buildChildren config place (.element e children)
    match directives.condition, chain? with
    | some (.first test), _ =>
      let id ← allocate place.parent "lwc:if" e.position
      let body ← content (place.within id)
      let (chain, nodes) ← buildSiblings config place (some id) rest
      return (.done, .conditional id e.position (.branch test false body chain) :: nodes)
    | some (.next test), some id =>
      let body ← content (place.within id)
      let (chain, nodes) ← buildSiblings config place (some id) rest
      return (.branch test false body chain, nodes)
    | some .last, some id =>
      let body ← content (place.within id)
      let (_, nodes) ← buildSiblings config place none rest
      return (.otherwise body, nodes)
    | some (.next _), none =>
      report [.branchWithoutIf false] e.position
      let _ ← content place
      buildSiblings config place none rest
    | some .last, none =>
      report [.branchWithoutIf true] e.position
      let _ ← content place
      buildSiblings config place none rest
    | _, _ =>
      let nodes ← content place
      let (_, more) ← buildSiblings config place none rest
      return (.done, nodes ++ more)
end

/-! ## The root element -/

/-- The configuration with what an attribute of the root element says. -/
def rootAttribute (config : Config) (a : Markup.Attribute) : Except Problem Config :=
  match a.name with
  | "lwc:render-mode" =>
    match RenderMode.ofName? a.value with
    | some renderMode => .ok { config with renderMode }
    | none => .error (.renderMode a.value)
  | "lwc:preserve-comments" =>
    if a.hasValue then .error (.rootAttribute a.name) else .ok { config with preserveComments := true }
  | name => .error (.rootAttribute name)

/-- The configuration with what the attributes of the root element say, and what is wrong with them. -/
def rootAttributes (config : Config) : List Markup.Attribute → Config × List Diagnostic
  | [] => (config, [])
  | a :: rest =>
    match rootAttribute config a with
    | .ok config => rootAttributes config rest
    | .error problem =>
      let (config, diagnostics) := rootAttributes config rest
      (config, problem.diagnostic a.position :: diagnostics)

/-- Whether a node of the document counts beside the root element. -/
def isSignificant : Markup.Node → Bool
  | .element _ _ => true
  | .text text _ => !text.toList.all isBlank
  | .comment _ _ => false

/-- The root element of a document and its children, or where the document fails to have one. -/
def root (document : List Markup.Node) : Except Position (Markup.Element × List Markup.Node) :=
  match document.filter isSignificant with
  | [] => .error .first
  | [n] =>
    match n with
    | .element e children => if e.tag = "template" then .ok (e, children) else .error e.position
    | _ => .error n.position
  | _ :: n :: _ => .error n.position

/-- The template that a document holds. -/
def ofDocument (config : Config) (document : List Markup.Node) : Template :=
  match root document with
  | .error position => ⟨config, [], {}, [], [Problem.noRoot.diagnostic position]⟩
  | .ok (e, children) =>
    let (config, diagnostics) := rootAttributes config e.attributes
    let place : Place := { svg := config.namespace = .svgHint }
    let ((_, nodes), draft) := (buildSiblings config place none children).run { diagnostics }
    ⟨config, nodes, draft.table, draft.slots.map (·.1), draft.diagnostics⟩

end Template

end TemplateCompiler

import TemplateCompiler.Scoping.Reference
import TemplateCompiler.Scoping.IdTable
import TemplateCompiler.Scoping.ImportTable
/-!
# Scoping of a template

Marks the attributes that are scoped, and gathers the ids that they name and the components that are imported.
-/

namespace TemplateCompiler.Template

open TemplateCompiler.Text TemplateCompiler.Scoping

namespace Attribute

/-- The attribute, marked if it is scoped. -/
def mark (mode : RenderMode) (a : Attribute) : Attribute :=
  if a.needsScoping mode then { a with scoping := a.reference? } else a

/-- The property, marked if it is scoped. The only such property is the id. -/
def markProperty (mode : RenderMode) (a : Attribute) : Attribute :=
  if a.name = "id" && a.needsScoping mode then { a with scoping := some .id } else a

/-- The ids that an attribute names. -/
def ids (mode : RenderMode) (a : Attribute) : List String :=
  if a.needsScoping mode then
    match a.value, a.reference? with
    | .literal text, some .id => words text
    | .literal text, some .fragment => [String.ofList (text.toList.dropWhile (· == '#'))]
    | _, _ => []
  else []

/-- The ids that a property names. -/
def propertyIds (mode : RenderMode) (a : Attribute) : List String :=
  if a.name = "id" && a.needsScoping mode then
    match a.value with
    | .literal text => [text]
    | _ => []
  else []

end Attribute

/-- The element with its attributes and properties marked. -/
def ElementData.mark (mode : RenderMode) (data : ElementData) : ElementData :=
  { data with
    attributes := data.attributes.map (·.mark mode)
    properties := data.properties.map (·.markProperty mode) }

mutual
/-- The node with all its attributes marked. -/
def Node.mark (mode : RenderMode) : Node → Node
  | .element id p role data children => .element id p role (data.mark mode) (markNodes mode children)
  | .slot id p name attributes children =>
    .slot id p name (attributes.map (·.mark mode)) (markNodes mode children)
  | .text id p parts => .text id p parts
  | .comment id p text => .comment id p text
  | .conditional id p chain => .conditional id p (chain.mark mode)
  | .iteration id p loop children => .iteration id p loop (markNodes mode children)

/-- The chain with all attributes in it marked. -/
def Chain.mark (mode : RenderMode) : Chain → Chain
  | .done => .done
  | .otherwise children => .otherwise (markNodes mode children)
  | .branch test negate children next => .branch test negate (markNodes mode children) (next.mark mode)

/-- The nodes with all attributes in them marked. -/
def markNodes (mode : RenderMode) : List Node → List Node
  | [] => []
  | n :: ns => n.mark mode :: markNodes mode ns
end

/-- The ids that a node names, the nodes below it aside. -/
def Node.ids (mode : RenderMode) : Node → List String
  | .element _ _ _ data _ => data.attributes.flatMap (·.ids mode) ++ data.properties.flatMap (·.propertyIds mode)
  | .slot _ _ _ attributes _ => attributes.flatMap (·.ids mode)
  | _ => []

/-- The tag of the component that a node imports. -/
def Node.importedTag? : Node → Option String
  | .element _ _ .component data _ => some data.tag
  | _ => none

/-- The ids that the nodes of a template name. -/
def idTable (mode : RenderMode) (nodes : List Node) : IdTable :=
  .ofList ((allNodes nodes).flatMap (·.ids mode))

/-- The components that the nodes of a template import. -/
def importTable (nodes : List Node) : ImportTable :=
  .ofList ((allNodes nodes).filterMap Node.importedTag?)

end TemplateCompiler.Template

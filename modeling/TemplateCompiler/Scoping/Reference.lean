import TemplateCompiler.Config
import TemplateCompiler.Template.Node
/-!
# References to elements

Attributes that hold ids, refer to ids, or lead to places in the same document. In a shadow tree their values must not
meet equal ones of the page, so they are scoped.
-/

namespace TemplateCompiler.Template

/-- The attributes that refer to elements by their ids. -/
def idReferences : List String :=
  ["for", "aria-activedescendant", "aria-controls", "aria-describedby", "aria-details", "aria-errormessage",
   "aria-flowto", "aria-labelledby", "aria-owns"]

/-- The attributes that hold URLs. -/
def urlAttributes : List String := ["href", "xlink:href", "src"]

/-- Whether a URL leads to a place in the same document. -/
def isFragmentUrl (url : String) : Bool :=
  match url.toList with
  | '#' :: _ :: _ => true
  | _ => false

namespace Attribute

/-- How the attribute is scoped in a shadow tree. -/
def reference? (a : Attribute) : Option Scoping :=
  match a.value with
  | .boolean _ => none
  | .literal text =>
    if text.isEmpty then none
    else if a.name == "id" || idReferences.contains a.name then some .id
    else if urlAttributes.contains a.name && isFragmentUrl text then some .fragment
    else none
  | .expression _ =>
    if a.name == "id" || idReferences.contains a.name then some .id
    else if urlAttributes.contains a.name then some .fragment
    else none

/-- Whether the attribute is scoped. -/
def needsScoping (mode : RenderMode) (a : Attribute) : Bool :=
  mode = .shadow && a.reference?.isSome

end Attribute

end TemplateCompiler.Template

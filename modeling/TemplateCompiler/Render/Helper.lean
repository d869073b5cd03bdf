import TemplateCompiler.Render.Value
/-!
# Helpers of the runtime

The functions that a render function calls. Each is a property of the first argument of the render function, and has
a local name there.
-/

namespace TemplateCompiler.Render

/-- A helper of the runtime. -/
inductive Helper where
  | element
  | text
  | dynamicText
  | customElement
  | dynamicComponent
  | slot
  | staticFragment
  | scopedId
  | scopedFragmentId
  | normalizeClassName
  | bind
  | key
  | iterator
  | flatten
  | comment
deriving DecidableEq, Repr

namespace Helper

/-- Every helper. -/
def all : List Helper :=
  [.element, .text, .dynamicText, .customElement, .dynamicComponent, .slot, .staticFragment, .scopedId,
   .scopedFragmentId, .normalizeClassName, .bind, .key, .iterator, .flatten, .comment]

/-- The property that holds the helper. -/
def property : Helper → String
  | .element => "h"
  | .text => "t"
  | .dynamicText => "d"
  | .customElement => "c"
  | .dynamicComponent => "dc"
  | .slot => "s"
  | .staticFragment => "st"
  | .scopedId => "gid"
  | .scopedFragmentId => "fid"
  | .normalizeClassName => "ncls"
  | .bind => "b"
  | .key => "k"
  | .iterator => "i"
  | .flatten => "f"
  | .comment => "co"

/-- The local name of the helper. -/
def localName : Helper → String
  | .element => "api_element"
  | .text => "api_text"
  | .dynamicText => "api_dynamic_text"
  | .customElement => "api_custom_element"
  | .dynamicComponent => "api_dynamic_component"
  | .slot => "api_slot"
  | .staticFragment => "api_static_fragment"
  | .scopedId => "api_scoped_id"
  | .scopedFragmentId => "api_scoped_frag_id"
  | .normalizeClassName => "api_normalize_class_name"
  | .bind => "api_bind"
  | .key => "api_key"
  | .iterator => "api_iterator"
  | .flatten => "api_flatten"
  | .comment => "api_comment"

/-- The number of arguments that the helper takes. -/
def arity : Helper → Nat
  | .element => 4
  | .text => 1
  | .dynamicText => 1
  | .customElement => 5
  | .dynamicComponent => 5
  | .slot => 5
  | .staticFragment => 3
  | .scopedId => 1
  | .scopedFragmentId => 1
  | .normalizeClassName => 1
  | .bind => 1
  | .key => 2
  | .iterator => 2
  | .flatten => 1
  | .comment => 1

end Helper

end TemplateCompiler.Render

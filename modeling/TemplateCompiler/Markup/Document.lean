import TemplateCompiler.Text.Position
/-!
# Documents

The tree of elements, texts and comments that markup denotes, with the position of each of them.
-/

namespace TemplateCompiler.Markup

open TemplateCompiler.Text

/-- An attribute. -/
structure Attribute where
  name : String
  value : String
  /-- It is written with a value, as opposed to `disabled` alone. -/
  hasValue : Bool
  /-- Its value is written in quotes. -/
  quoted : Bool
  position : Position
deriving DecidableEq, Repr

/-- An element without its content. -/
structure Element where
  tag : String
  attributes : List Attribute
  /-- It is written as one tag, without an end tag of its own. -/
  selfClosing : Bool
  position : Position
deriving DecidableEq, Repr

/-- A node of a document. -/
inductive Node where
  | element (element : Element) (children : List Node)
  | text (text : String) (position : Position)
  | comment (text : String) (position : Position)
deriving Repr

/-- Where a node starts. -/
def Node.position : Node → Position
  | .element e _ => e.position
  | .text _ position => position
  | .comment _ position => position

end TemplateCompiler.Markup

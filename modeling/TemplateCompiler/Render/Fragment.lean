import TemplateCompiler.Render.InternalError
/-!
# Fragments

A static element as markup, which the runtime parses once.
-/

namespace TemplateCompiler.Render

open Template

/-- A character of text as markup. -/
def escapeTextChar (c : Char) : List Char :=
  if c = '&' then "&amp;".toList
  else if c = '<' then "&lt;".toList
  else if c = '>' then "&gt;".toList
  else [c]

/-- A character of an attribute value in double quotes as markup. -/
def escapeValueChar (c : Char) : List Char :=
  if c = '&' then "&amp;".toList
  else if c = '"' then "&quot;".toList
  else [c]

/-- A text as markup. -/
def escapeText (s : String) : String :=
  String.ofList (s.toList.flatMap escapeTextChar)

/-- An attribute with a value as markup, with a space before it. -/
def valueMarkup (name value : String) : String :=
  " " ++ name ++ "=\"" ++ String.ofList (value.toList.flatMap escapeValueChar) ++ "\""

/-- An attribute as markup. -/
def attributeMarkup (a : Attribute) : Except InternalError String :=
  match a.value with
  | .literal text => .ok (valueMarkup a.name text)
  | .boolean true => .ok (" " ++ a.name)
  | .boolean false => .ok ""
  | .expression _ => .error (.boundAttribute a.name)

/-- Classes as markup. -/
def classMarkup : Option ClassBinding → String
  | some (.static names) => valueMarkup "class" (" ".intercalate names)
  | _ => ""

/-- A style as markup. -/
def styleMarkup : Option StyleBinding → String
  | some (.static declarations) => valueMarkup "style" (styleText declarations)
  | _ => ""

/-- The start tag of an element. -/
def startTag (data : ElementData) : Except InternalError String := do
  let attributes ← data.attributes.mapM attributeMarkup
  return "<" ++ data.tag ++ "".intercalate attributes ++ classMarkup data.classes ++ styleMarkup data.style ++ ">"

/-- A piece of text as markup. -/
def partMarkup : Binding.TextPart → Except InternalError String
  | .literal text => .ok (escapeText text)
  | .expression _ => .error .boundText

mutual
/-- A node as markup. An element without an end tag has no content either. -/
def markup : Node → Except InternalError String
  | .element id _ role data children =>
    match role with
    | .native => do
      let start ← startTag data
      if Markup.isVoidElement data.tag then return start
      let content ← markupOfList children
      return start ++ content ++ "</" ++ data.tag ++ ">"
    | role => .error (.notStatic role.kind id)
  | .slot id _ _ _ _ => .error (.notStatic .slot id)
  | .text _ _ parts => do return "".intercalate (← parts.mapM partMarkup)
  | .comment _ _ text => .ok ("<!--" ++ text ++ "-->")
  | .conditional id _ _ => .error (.notStatic .conditional id)
  | .iteration id _ _ _ => .error (.notStatic .iteration id)

/-- A list of nodes as markup. -/
def markupOfList : List Node → Except InternalError String
  | [] => .ok ""
  | n :: ns => do return (← markup n) ++ (← markupOfList ns)
end

end TemplateCompiler.Render

import TemplateCompiler.Markup.Names
import TemplateCompiler.Text.Blank
import TemplateCompiler.Text.Bytes
/-!
# Style declarations

The value of a `style` attribute is a list of declarations with semicolons between them. `styleDeclarations`
reads one, and `styleText` writes one.
-/

namespace TemplateCompiler.Template

open TemplateCompiler.Text

/-- A declaration of a style. -/
structure StyleDeclaration where
  property : String
  value : String
  important : Bool
deriving DecidableEq, Repr

/-- The pieces of `cs` between the separators `c`. There is one more of them than there are separators. -/
def pieces (c : Char) : List Char → List (List Char)
  | [] => [[]]
  | d :: cs =>
    if d = c then [] :: pieces c cs
    else
      match pieces c cs with
      | piece :: rest => (d :: piece) :: rest
      | [] => [[d]]

/-- The mark of an important declaration. -/
def importantMark : List Char := "!important".toList

/-- Whether `cs` is the mark of an important declaration, in any case. -/
def isImportantMark (cs : List Char) : Bool :=
  cs.map Char.toLower == importantMark

/-- The value `cs` without the mark that ends it, and whether it had one. The mark is ASCII, so it can only be the
last ten bytes. -/
def cutImportant (cs : List Char) : List Char × Bool :=
  let front := cs.take (cs.length - importantMark.length)
  if isImportantMark (cs.drop front.length) then (trimEnd front, true) else (cs, false)

/-- The declaration that `cs` is: a property and a value with a colon between them, neither of them empty. -/
def styleDeclaration? (cs : List Char) : Option StyleDeclaration :=
  match cs.dropWhile (· != ':') with
  | [] => none
  | _ :: after =>
    let property := (trim (cs.takeWhile (· != ':'))).map Char.toLower
    let (value, important) := cutImportant (trim after)
    if property.isEmpty || value.isEmpty then none
    else some ⟨String.ofList property, String.ofList value, important⟩

/-- The declarations of a style, in order. What is no declaration is left out. -/
def styleDeclarations (style : String) : List StyleDeclaration :=
  (pieces ';' style.toList).filterMap styleDeclaration?

/-- The written form of a declaration. -/
def StyleDeclaration.text (d : StyleDeclaration) : String :=
  d.property ++ ": " ++ d.value ++ (if d.important then " !important" else "") ++ ";"

/-- The written form of a list of declarations. -/
def styleText (ds : List StyleDeclaration) : String :=
  " ".intercalate (ds.map StyleDeclaration.text)

end TemplateCompiler.Template

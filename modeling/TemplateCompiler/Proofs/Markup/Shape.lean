import TemplateCompiler.Proofs.Markup.Piece
import TemplateCompiler.Template.Style
/-!
# Shapes

What trees are compared by, whether they are read from markup or put together by a program: tags and names in small
letters, classes, style declarations, and texts that are merged where they meet.
-/

namespace TemplateCompiler

open TemplateCompiler.Text TemplateCompiler.Template
open Markup (lowerName Piece isVoidElement)

/-- A tree as it is compared. -/
inductive Shape where
  | element (tag : String) (attributes : List (String × String)) (classes : List String)
    (style : List StyleDeclaration) (children : List Shape)
  | text (text : String)
  | comment (text : String)

namespace Shape

/-- A node put before its later siblings. Text goes together with a text behind it, and empty text is nothing. -/
def before : Shape → List Shape → List Shape
  | .text s, later =>
    if s.isEmpty then later
    else
      match later with
      | .text t :: later => .text (s ++ t) :: later
      | later => .text s :: later
  | n, later => n :: later

/-- The element with the given attributes, of which an attribute without a value has the empty one. -/
def ofElement (tag : String) (attributes : List (String × String)) (children : List Shape) : Shape :=
  let named := attributes.map fun a => (lowerName a.1, a.2)
  .element (lowerName tag) (named.filter fun a => a.1 != "class" && a.1 != "style")
    (words ((named.lookup "class").getD "")) (styleDeclarations ((named.lookup "style").getD "")) children

theorem text_before_text (s t : String) (later : List Shape) :
    (text s).before ((text t).before later) = (text (s ++ t)).before later := by
  have happend : (s ++ t).isEmpty = (s.isEmpty && t.isEmpty) := by
    rw [Bool.eq_iff_iff]
    simp [String.isEmpty_iff]
  by_cases hs : s.isEmpty
  · have : s = "" := by simpa using hs
    subst this
    simp [before]
  · by_cases ht : t.isEmpty
    · have : t = "" := by simpa using ht
      subst this
      simp [before]
    · cases later with
      | nil => simp [before, hs, ht, happend]
      | cons n later => cases n <;> simp [before, hs, ht, happend, String.append_assoc]

theorem ofElement_congr {tag tag' : String} {attributes attributes' : List (String × String)}
    (htag : lowerName tag = lowerName tag')
    (h : attributes.map (fun a => (lowerName a.1, a.2)) = attributes'.map fun a => (lowerName a.1, a.2))
    (children : List Shape) : ofElement tag attributes children = ofElement tag' attributes' children := by
  simp only [ofElement, htag, h]

/-! ## Elements -/

mutual

/-- The elements of an shape without their content, each before those inside it. -/
def elements : Shape → List Shape
  | .element tag attributes classes style children =>
    .element tag attributes classes style [] :: elementsIn children
  | .text _ => []
  | .comment _ => []

/-- The elements of some shapes. -/
def elementsIn : List Shape → List Shape
  | [] => []
  | n :: ns => n.elements ++ elementsIn ns

end

theorem elementsIn_before (n : Shape) (later : List Shape) :
    elementsIn (n.before later) = n.elements ++ elementsIn later := by
  cases n with
  | element tag attributes classes style children => rw [before, elementsIn]; nofun
  | comment text => rw [before, elementsIn]; nofun
  | text s =>
    by_cases hs : s.isEmpty
    · simp [before, hs, elements]
    · cases later with
      | nil => simp [before, hs, elements, elementsIn]
      | cons m later => cases m <;> simp [before, hs, elements, elementsIn]

end Shape

/-! ## Documents -/

namespace Markup

/-- The names and the values of the attributes of an element. -/
def Element.pairs (e : Element) : List (String × String) :=
  e.attributes.map fun a => (a.name, a.value)

mutual

/-- The shape of a node. -/
def Node.shape : Node → Shape
  | .element e children => .ofElement e.tag e.pairs (shapesOf children)
  | .text text _ => .text text
  | .comment text _ => .comment text

/-- The shapes of sibling nodes. -/
def shapesOf : List Node → List Shape
  | [] => []
  | n :: ns => n.shape.before (shapesOf ns)

end

theorem shapesOf_eq_foldr (nodes : List Node) :
    shapesOf nodes = nodes.foldr (fun n later => n.shape.before later) [] := by
  induction nodes with
  | nil => rw [shapesOf, List.foldr_nil]
  | cons n ns ih => rw [shapesOf, List.foldr_cons, ih]

/-! ## Written trees -/

/-- A tree as it is written. The attributes are bare or have a value. -/
inductive WrittenNode where
  | element (tag : String) (attributes : List (String × Option String)) (children : List WrittenNode)
  | text (text : String)
  | comment (text : String)

/-- The names and the values of attributes as they are written. -/
def writtenPairs (attributes : List (String × Option String)) : List (String × String) :=
  attributes.map fun a => (a.1, a.2.getD "")

mutual

/-- The shape of a written tree. -/
def WrittenNode.shape : WrittenNode → Shape
  | .element tag attributes children => .ofElement tag (writtenPairs attributes) (writtenShapes children)
  | .text text => .text text
  | .comment text => .comment text

/-- The shapes of written siblings. -/
def writtenShapes : List WrittenNode → List Shape
  | [] => []
  | n :: ns => n.shape.before (writtenShapes ns)

end

mutual

/-- The pieces that a tree is written in. An element without an end tag has no content either. -/
def WrittenNode.pieces : WrittenNode → List Piece
  | .element tag attributes children =>
    .opening tag attributes :: if isVoidElement tag then [] else piecesOf children ++ [.closing tag]
  | .text text => text.toList.map .character
  | .comment text => [.comment text]

/-- The pieces that siblings are written in. -/
def piecesOf : List WrittenNode → List Piece
  | [] => []
  | n :: ns => n.pieces ++ piecesOf ns

end

/-- A tree as markup. -/
def WrittenNode.markup (n : WrittenNode) : List Char :=
  n.pieces.flatMap Piece.text

/-- A tree whose pieces are read back. -/
inductive WrittenNode.Sound : WrittenNode → Prop where
  | element {tag : String} {attributes : List (String × Option String)} {children : List WrittenNode}
    (opening : (Piece.opening tag attributes).Sound) (void : isVoidElement (lowerName tag) = isVoidElement tag)
    (empty : isVoidElement tag = true → children = []) (inside : ∀ n ∈ children, n.Sound) :
    Sound (.element tag attributes children)
  | text {text : String} (plain : isPlainText text = true) : Sound (.text text)
  | comment {text : String} (closes : isCommentText text = true) : Sound (.comment text)

end Markup

end TemplateCompiler

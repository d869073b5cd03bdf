import TemplateCompiler.Proofs.Markup.Seats
/-!
# Elements of a document

The elements of a document, in the order of their start tags, are those that its start tags have made.
-/

namespace TemplateCompiler.Markup

/-! ## Elements -/

mutual

/-- The elements of a node, each before those inside it. -/
def Node.elements : Node → List Element
  | .element e children => e :: elementsOf children
  | .text _ _ => []
  | .comment _ _ => []

/-- The elements of some nodes. -/
def elementsOf : List Node → List Element
  | [] => []
  | n :: ns => n.elements ++ elementsOf ns

end

mutual

theorem Node.map_element_seats : ∀ (n : Node) (around : List String), (n.seats around).map Seat.element = n.elements
  | .element e children, around => by
    rw [Node.seats, Node.elements, List.map_cons, map_element_seatsOf children (e.tag :: around)]
  | .text .., _ => rfl
  | .comment .., _ => rfl

/-- The elements of some nodes are those in their seats. -/
theorem map_element_seatsOf : ∀ (nodes : List Node) (around : List String),
    (seatsOf around nodes).map Seat.element = elementsOf nodes
  | [], _ => rfl
  | n :: ns, around => by
    rw [seatsOf, elementsOf, List.map_append, n.map_element_seats around, map_element_seatsOf ns around]

end

/-! ## Start tags -/

/-- The start tags of a source. -/
def startTags (source : List Char) : List Tag :=
  (tokenize source).tokens.filterMap Token.startTag?

/-- The elements of a document are those that its start tags make, in their order. -/
theorem parse_elements {source : List Char} {document : List Node} (h : parse source = .ok document) :
    List.Forall₂ (Makes source) (startCalls source) (elementsOf document) ∧
      (startCalls source).map Prod.snd = startTags source := by
  obtain ⟨hseats, htags⟩ := parse_seats h
  rw [← map_element_seatsOf document [], List.forall₂_map_right_iff]
  exact ⟨hseats.imp fun call seat h => h.element, htags⟩

end TemplateCompiler.Markup

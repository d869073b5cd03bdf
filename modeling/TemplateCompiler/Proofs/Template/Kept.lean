import TemplateCompiler.Proofs.Render.Outlines
import TemplateCompiler.Proofs.Template.Ancestors
import TemplateCompiler.Proofs.Template.Regular
/-!
# What a template keeps of its document

A template without errors keeps the elements of its document, nested `template` elements aside, with their texts and,
if it is to preserve them, their comments: nothing is lost or moved, however conditions, iterations and nested
`template` elements spread the content of an element over the tree. `ofDocument_keeps` says so of the outlines of both, in which
what stands in an element is below it, and of the sequences of tags, texts and comments.
-/

namespace TemplateCompiler

open Text Binding

namespace Template

/-- What is kept of a node of a document. -/
inductive Kept where
  /-- An element; it is `iterated` if an iteration, of its own or around it, renders it for each item. -/
  | element (tag : String) (position : Position) (iterated : Bool) (key : Option Expr)
  | text (position : Position) (parts : Option (List TextPart))
  | comment (position : Position) (text : String)

@[simp] theorem Outline.itemsOf_append {α : Type} (xs ys : List (Outline α)) :
    itemsOf (xs ++ ys) = itemsOf xs ++ itemsOf ys := by
  simp only [itemsOf_eq_flatMap, List.flatMap_append]

/-! ## What there is in a template -/

mutual

/-- What a node keeps. Conditionals and iterations are no part of the document: what they hold is in their place. -/
def Node.kept (iterated : Bool) : Node → List (Outline Kept)
  | .element _ p _ data children => [.node (.element data.tag p iterated data.key) [keptOf iterated children]]
  | .slot _ p _ _ children => [.node (.element "slot" p iterated none) [keptOf iterated children]]
  | .text _ p parts => [.node (.text p (some parts)) []]
  | .comment _ p text => [.node (.comment p text) []]
  | .conditional _ _ chain => chain.kept iterated
  | .iteration _ _ _ children => keptOf true children

/-- What the branches of a chain keep. -/
def Chain.kept (iterated : Bool) : Chain → List (Outline Kept)
  | .done => []
  | .otherwise children => keptOf iterated children
  | .branch _ _ children next => keptOf iterated children ++ next.kept iterated

/-- What some nodes keep. -/
def keptOf (iterated : Bool) : List Node → List (Outline Kept)
  | [] => []
  | n :: ns => n.kept iterated ++ keptOf iterated ns

end

@[simp] theorem keptOf_nil (iterated : Bool) : keptOf iterated [] = [] := by
  rw [keptOf]

theorem keptOf_append (iterated : Bool) (xs ys : List Node) :
    keptOf iterated (xs ++ ys) = keptOf iterated xs ++ keptOf iterated ys := by
  induction xs with
  | nil => simp
  | cons n ns ih => rw [List.cons_append, keptOf, keptOf, ih, List.append_assoc]

@[simp] theorem keptOf_singleton (iterated : Bool) (n : Node) : keptOf iterated [n] = n.kept iterated := by
  rw [keptOf, keptOf_nil, List.append_nil]

/-- The tag of an element or a slot. -/
def Node.tag? : Node → Option String
  | .element _ _ _ data _ => some data.tag
  | .slot .. => some "slot"
  | _ => none

/-- The place of a text and its parts. -/
def Node.text? : Node → Option (Position × Option (List TextPart))
  | .text _ p parts => some (p, some parts)
  | _ => none

/-- The place of a comment and its text. -/
def Node.comment? : Node → Option (Position × String)
  | .comment _ p content => some (p, content)
  | _ => none

end Template

/-! ## What there is in a document -/

namespace Markup

open Template (Kept Outline Directives)

/-- Whether anything of a text is shown. -/
def isShown (keepBlanks : Bool) (text : String) : Bool :=
  if keepBlanks then !text.isEmpty else !text.toList.all isBlank

/-- The parts of what is shown of a text. -/
def textParts? (keepBlanks : Bool) (text : String) : Option (List TextPart) :=
  (shown keepBlanks text).bind fun visible => (splitText visible.toList).toOption

/-- Whether blanks in the texts of an element are kept. -/
def Element.keepsBlanks (e : Element) : Bool :=
  e.tag == "pre" || e.tag == "textarea"

mutual

/-- What is to be kept of a node. What a nested `template` element holds is in its place. -/
def Node.kept (config : Config) (keepBlanks iterated : Bool) : Node → List (Outline Kept)
  | .element e children =>
    let directives := (Directives.read iterated e.attributes).1
    let iterated := iterated || directives.iteration.isSome
    let content := keptOf config (keepBlanks || e.keepsBlanks) iterated children
    if e.tag = "template" then content else [.node (.element e.tag e.position iterated directives.key) [content]]
  | .text text p => if isShown keepBlanks text then [.node (.text p (textParts? keepBlanks text)) []] else []
  | .comment text p => if config.preserveComments then [.node (.comment p text) []] else []

/-- What is to be kept of some nodes. -/
def keptOf (config : Config) (keepBlanks iterated : Bool) : List Node → List (Outline Kept)
  | [] => []
  | n :: ns => n.kept config keepBlanks iterated ++ keptOf config keepBlanks iterated ns

end

mutual

/-- A node and all nodes inside it, each before those inside it, and with whether blanks are kept where it stands. -/
def Node.visited (keepBlanks : Bool) : Node → List (Bool × Node)
  | .element e children => (keepBlanks, .element e children) :: visitedOf (keepBlanks || e.keepsBlanks) children
  | .text text p => [(keepBlanks, .text text p)]
  | .comment text p => [(keepBlanks, .comment text p)]

/-- Some nodes and all nodes inside them. -/
def visitedOf (keepBlanks : Bool) : List Node → List (Bool × Node)
  | [] => []
  | n :: ns => n.visited keepBlanks ++ visitedOf keepBlanks ns

end

/-- The tag of an element. -/
def Node.tag? : Node → Option String
  | .element e _ => some e.tag
  | _ => none

/-- The place of a text of which anything is shown, and the parts of that. -/
def Node.shownText? (keepBlanks : Bool) : Node → Option (Position × Option (List TextPart))
  | .text content p => if isShown keepBlanks content then some (p, textParts? keepBlanks content) else none
  | _ => none

/-- The place of a comment and its text. -/
def Node.comment? : Node → Option (Position × String)
  | .comment content p => some (p, content)
  | _ => none

theorem isShown_eq_isSome (keepBlanks : Bool) (text : String) :
    isShown keepBlanks text = (shown keepBlanks text).isSome := by
  unfold isShown shown
  cases keepBlanks with
  | true => cases text.isEmpty <;> rfl
  | false => cases text.toList.all isBlank <;> rfl

end Markup

namespace Template

/-! ## What is kept -/

section Becomes

variable {config : Config} {final : Draft} (hclean : final.IsClean) {place : Place} {low high : Nat}
include hclean

theorem TextBecomes.kept {text : String} {position : Position} {n? : Option Node} (iterated : Bool)
    (h : TextBecomes final place text position low high n?) :
    keptOf iterated n?.toList = (Markup.Node.text text position).kept config place.keepBlanks iterated := by
  unfold TextBecomes at h
  rw [Markup.Node.kept, Markup.isShown_eq_isSome, Markup.textParts?]
  cases hshown : shown place.keepBlanks text with
  | none =>
    rw [hshown] at h
    simp [h.2]
  | some visible =>
    simp only [hshown] at h
    cases hparts : splitText visible.toList with
    | error e =>
      simp only [hparts] at h
      exact absurd h.2.2 (hclean.not_reports (by rfl))
    | ok parts =>
      simp only [hparts] at h
      simp [h.2.2, Node.kept, hparts, Except.toOption]

omit hclean in
theorem CommentBecomes.kept {text : String} {position : Position} {n? : Option Node} (iterated : Bool)
    (h : CommentBecomes final place config text position low high n?) :
    keptOf iterated n?.toList = (Markup.Node.comment text position).kept config place.keepBlanks iterated := by
  unfold CommentBecomes at h
  rw [Markup.Node.kept]
  split at h
  · rename_i hpreserve
    simp [h.2.2, Node.kept, hpreserve]
  · rename_i hpreserve
    simp [h.2, hpreserve]

section Element

variable {e : Markup.Element} {directives : Directives} {body : Content} {children : List Markup.Node}
  (hbody : ∀ {place low high nodes}, body place low high nodes →
    keptOf place.inIteration nodes = Markup.keptOf config place.keepBlanks place.inIteration children)
include hbody

theorem TagBecomes.kept {n : Node} (h : TagBecomes final place e directives body low high n) :
    n.kept place.inIteration = [.node (.element e.tag e.position place.inIteration directives.key)
      [Markup.keptOf config (place.keepBlanks || e.keepsBlanks) place.inIteration children]] := by
  obtain ⟨-, h⟩ := h
  by_cases htag : e.tag = "slot"
  · rw [if_pos htag] at h
    obtain ⟨hreport, -, content, hcontent, rfl⟩ := h
    -- A key on a slot is an error.
    have hkey : directives.key = none := by
      cases hkey : directives.key with
      | none => rfl
      | some key => exact absurd (hreport (by simp [hkey])) (hclean.not_reports rfl)
    have := hbody hcontent
    simp only [Place.below] at this
    simp [Node.kept, this, hkey, htag, Markup.Element.keepsBlanks]
  · rw [if_neg htag] at h
    obtain ⟨-, -, content, hcontent, rfl⟩ := h
    have := hbody hcontent
    simp only [Place.belowElement, Place.below] at this
    simp [Node.kept, this, ElementData.tag_addAll, ElementData.key_addAll, Markup.Element.keepsBlanks, Bool.or_assoc]

/-- What the element keeps where it is `iterated` or not. -/
def keptElement (config : Config) (keepBlanks iterated : Bool) (e : Markup.Element) (key : Option Expr)
    (children : List Markup.Node) : List (Outline Kept) :=
  let content := Markup.keptOf config (keepBlanks || e.keepsBlanks) iterated children
  if e.tag = "template" then content else [.node (.element e.tag e.position iterated key) [content]]

theorem BareBecomes.kept {nodes : List Node} (h : BareBecomes final place e directives body low high nodes) :
    keptOf place.inIteration nodes =
      keptElement config place.keepBlanks place.inIteration e directives.key children := by
  unfold BareBecomes at h
  unfold keptElement
  by_cases htag : e.tag = "template"
  · rw [if_pos htag] at h ⊢
    simpa [Markup.Element.keepsBlanks, htag] using hbody h.2.2
  · rw [if_neg htag] at h ⊢
    obtain ⟨n, hn, rfl⟩ := h
    rw [keptOf_singleton, hn.kept hclean hbody]

theorem OnceBecomes.kept {nodes : List Node} (h : OnceBecomes final place e directives body low high nodes) :
    keptOf place.inIteration nodes =
      keptElement config place.keepBlanks place.inIteration e directives.key children := by
  unfold OnceBecomes AloneBecomes at h
  split at h
  · obtain ⟨inner, -, hinner, rfl⟩ := h
    simpa [Place.within, Node.kept, Chain.kept] using hinner.kept hclean hbody
  · exact h.kept hclean hbody

theorem ContentBecomes.kept {nodes : List Node} (h : ContentBecomes final place e directives body low high nodes) :
    keptOf place.inIteration nodes =
      keptElement config place.keepBlanks (place.inIteration || directives.iteration.isSome) e directives.key
        children := by
  unfold ContentBecomes IterationBecomes at h
  cases hloop : directives.iteration with
  | none =>
    rw [hloop] at h
    simpa using h.kept hclean hbody
  | some loop =>
    rw [hloop] at h
    obtain ⟨inner, -, hinner, rfl⟩ := h
    simpa [Place.iterated, Node.kept] using hinner.kept hclean hbody

end Element

end Becomes

/-- Siblings without errors keep what is to be kept of them. -/
theorem SiblingsBecome.kept {config : Config} {final : Draft} (hclean : final.IsClean) {docs : List Markup.Node}
    {place : Place} {chain? : Option Nat} {low high : Nat} {siblings : Chain × List Node}
    (h : SiblingsBecome config final place chain? docs low high siblings) :
    siblings.1.kept place.inIteration ++ keptOf place.inIteration siblings.2 =
      Markup.keptOf config place.keepBlanks place.inIteration docs := by
  induction docs using siblings_induction generalizing place chain? low high siblings with
  | nil =>
    obtain ⟨-, rfl⟩ := h
    simp [Chain.kept, Markup.keptOf]
  | text text position rest ih =>
    obtain ⟨n?, middle, hn, ⟨rfl, hmore⟩ | ⟨n, nodes, rfl, hmore, rfl⟩⟩ := h.text
    · rw [Markup.keptOf, ← ih hmore, ← hn.kept hclean]
      simp
    · rw [Markup.keptOf, ← ih hmore, ← hn.kept hclean]
      simp [Chain.kept, keptOf]
  | comment text position rest ih =>
    obtain ⟨n?, middle, hn, ⟨rfl, hmore⟩ | ⟨n, nodes, rfl, hmore, rfl⟩⟩ := h.comment
    · rw [Markup.keptOf, ← ih hmore, ← hn.kept]
      simp
    · rw [Markup.keptOf, ← ih hmore, ← hn.kept]
      simp [Chain.kept, keptOf]
  | element e children rest ihchildren ih =>
    -- The element keeps the same whatever node its condition puts it into.
    have hcontent {place' : Place} {low high : Nat} {body : List Node}
        (hbody : ElementContent config final place.inIteration e children place' low high body)
        (hiteration : place'.inIteration = place.inIteration) (hblanks : place'.keepBlanks = place.keepBlanks) :
        keptOf place.inIteration body =
          (Markup.Node.element e children).kept config place.keepBlanks place.inIteration := by
      have := ContentBecomes.kept hclean (fun h => by simpa [Chain.kept] using ihchildren h.siblings) hbody
      rw [hiteration, hblanks] at this
      rw [this, Markup.Node.kept]
      rfl
    rw [Markup.keptOf]
    cases h.joins.2 with
    | first _ _ hbody hmore => simp [Chain.kept, Node.kept, keptOf, hcontent hbody rfl rfl, ← ih hmore]
    | next _ hbody hmore => simp [Chain.kept, hcontent hbody rfl rfl, ← ih hmore]
    | last _ hbody hmore => simp [Chain.kept, hcontent hbody rfl rfl, ← ih hmore]
    | stray _ hreport _ _ => exact absurd hreport (hclean.not_reports rfl)
    | apart _ hbody hmore => simp [Chain.kept, keptOf_append, hcontent hbody rfl rfl, ← ih hmore]

/-! ## Sequences -/

/-- What is kept of a node apart from those in it. -/
def Node.keptItem? (iterated : Bool) : Node → Option Kept
  | .element _ p _ data _ => some (.element data.tag p iterated data.key)
  | .slot _ p _ _ _ => some (.element "slot" p iterated none)
  | .text _ p parts => some (.text p (some parts))
  | .comment _ p content => some (.comment p content)
  | .conditional .. | .iteration .. => none

section Read

variable {α : Type}

/-- What `g` reads off a node, `f` reads off what is kept of it. -/
def ReadsAlike (f : Kept → Option α) (g : Node → Option α) : Prop :=
  ∀ iterated n, (n.keptItem? iterated).bind f = g n

section Sites

variable {f : Kept → Option α} {g : Site → Option α}

mutual

theorem filterMap_kept (h : ∀ s : Site, (s.node.keptItem? (s.around.any Node.isIteration)).bind f = g s)
    (around : List Node) : ∀ n : Node,
    (Outline.itemsOf (n.kept (around.any Node.isIteration))).filterMap f = (n.sites around).filterMap g
  | .element id p role data children => by
    have hitem := h ⟨around, .element id p role data children⟩
    have hbelow := filterMap_keptOf h (.element id p role data children :: around) children
    rw [Node.keptItem?, Option.bind_some] at hitem
    rw [any_isIteration_cons rfl] at hbelow
    simp [Node.kept, Node.sites, Outline.itemsOf, Outline.items, Outline.itemsOfGroups, List.filterMap_cons, hitem,
      hbelow]
  | .slot id p name attributes children => by
    have hitem := h ⟨around, .slot id p name attributes children⟩
    have hbelow := filterMap_keptOf h (.slot id p name attributes children :: around) children
    rw [Node.keptItem?, Option.bind_some] at hitem
    rw [any_isIteration_cons rfl] at hbelow
    simp [Node.kept, Node.sites, Outline.itemsOf, Outline.items, Outline.itemsOfGroups, List.filterMap_cons, hitem,
      hbelow]
  | .text id p parts => by
    have hitem := h ⟨around, .text id p parts⟩
    rw [Node.keptItem?, Option.bind_some] at hitem
    simp [Node.kept, Node.sites, Outline.itemsOf, Outline.items, Outline.itemsOfGroups, List.filterMap_cons, hitem]
  | .comment id p content => by
    have hitem := h ⟨around, .comment id p content⟩
    rw [Node.keptItem?, Option.bind_some] at hitem
    simp [Node.kept, Node.sites, Outline.itemsOf, Outline.items, Outline.itemsOfGroups, List.filterMap_cons, hitem]
  | .conditional id p chain => by
    have hitem : g ⟨around, .conditional id p chain⟩ = none := (h _).symm
    have hbelow := filterMap_keptChain h (.conditional id p chain :: around) chain
    rw [any_isIteration_cons rfl] at hbelow
    rw [Node.kept, Node.sites, List.filterMap_cons, hitem, hbelow]
  | .iteration id p loop children => by
    have hitem : g ⟨around, .iteration id p loop children⟩ = none := (h _).symm
    rw [Node.kept, Node.sites, List.filterMap_cons, hitem]
    exact filterMap_keptOf h (.iteration id p loop children :: around) children

theorem filterMap_keptChain (h : ∀ s : Site, (s.node.keptItem? (s.around.any Node.isIteration)).bind f = g s)
    (around : List Node) : ∀ c : Chain,
    (Outline.itemsOf (c.kept (around.any Node.isIteration))).filterMap f = (c.sites around).filterMap g
  | .done => rfl
  | .otherwise children => filterMap_keptOf h around children
  | .branch _ _ children next => by
    rw [Chain.kept, Chain.sites, Outline.itemsOf_append, List.filterMap_append, List.filterMap_append,
      filterMap_keptOf h around children, filterMap_keptChain h around next]

/-- What `g` reads off the sites, `f` reads off what is kept of them. -/
theorem filterMap_keptOf (h : ∀ s : Site, (s.node.keptItem? (s.around.any Node.isIteration)).bind f = g s)
    (around : List Node) : ∀ nodes : List Node,
    (Outline.itemsOf (keptOf (around.any Node.isIteration) nodes)).filterMap f = (sitesOf around nodes).filterMap g
  | [] => rfl
  | n :: ns => by
    rw [keptOf, sitesOf, Outline.itemsOf_append, List.filterMap_append, List.filterMap_append,
      filterMap_kept h around n, filterMap_keptOf h around ns]

end

end Sites

/-- What `g` reads off the nodes, `f` reads off what is kept of them. -/
theorem ReadsAlike.filterMap_kept {f : Kept → Option α} {g : Node → Option α} (h : ReadsAlike f g) (nodes : List Node) :
    (Outline.itemsOf (keptOf false nodes)).filterMap f = (allNodes nodes).filterMap g := by
  rw [← map_node_sitesOf [] nodes, List.filterMap_map]
  exact filterMap_keptOf (fun s => h _ s.node) [] nodes

end Read

end Template

namespace Markup

open Template (Kept Outline Directives)

/-- What is to be kept of a node apart from those in it. -/
def Node.keptItem? (config : Config) (keepBlanks iterated : Bool) : Node → Option Kept
  | .element e _ =>
    let directives := (Directives.read iterated e.attributes).1
    if e.tag = "template" then none
    else some (.element e.tag e.position (iterated || directives.iteration.isSome) directives.key)
  | .text content p => if isShown keepBlanks content then some (.text p (textParts? keepBlanks content)) else none
  | .comment content p => if config.preserveComments then some (.comment p content) else none

section Read

variable {α : Type}

/-- What `g` reads off a node, `f` reads off what is to be kept of it. -/
def ReadsAlike (config : Config) (f : Kept → Option α) (g : Bool × Node → Option α) : Prop :=
  ∀ keepBlanks iterated n, (n.keptItem? config keepBlanks iterated).bind f = g (keepBlanks, n)

variable {config : Config} {f : Kept → Option α} {g : Bool × Node → Option α}

mutual

theorem filterMap_kept (h : ReadsAlike config f g) (keepBlanks iterated : Bool) : ∀ n : Node,
    (Outline.itemsOf (n.kept config keepBlanks iterated)).filterMap f = (n.visited keepBlanks).filterMap g
  | .element e children => by
    have hitem := h keepBlanks iterated (.element e children)
    have hcontent := fun iterated => filterMap_keptOf h (keepBlanks || e.keepsBlanks) iterated children
    rw [Node.kept, Node.visited, List.filterMap_cons, ← hitem, Node.keptItem?]
    by_cases htag : e.tag = "template"
    · simp [htag, hcontent]
    · simp [htag, Outline.itemsOf, Outline.items, Outline.itemsOfGroups, List.filterMap_cons, hcontent]
  | .text content p => by
    have hitem := h keepBlanks iterated (.text content p)
    rw [Node.kept, Node.visited, List.filterMap_cons, ← hitem, Node.keptItem?]
    split <;> simp [Outline.itemsOf, Outline.items, Outline.itemsOfGroups, List.filterMap_cons]
  | .comment content p => by
    have hitem := h keepBlanks iterated (.comment content p)
    rw [Node.kept, Node.visited, List.filterMap_cons, ← hitem, Node.keptItem?]
    split <;> simp [Outline.itemsOf, Outline.items, Outline.itemsOfGroups, List.filterMap_cons]

theorem filterMap_keptOf (h : ReadsAlike config f g) (keepBlanks iterated : Bool) : ∀ nodes : List Node,
    (Outline.itemsOf (keptOf config keepBlanks iterated nodes)).filterMap f =
      (visitedOf keepBlanks nodes).filterMap g
  | [] => rfl
  | n :: ns => by
    rw [keptOf, visitedOf, Outline.itemsOf_append, List.filterMap_append, List.filterMap_append,
      filterMap_kept h keepBlanks iterated n, filterMap_keptOf h keepBlanks iterated ns]

end

end Read

end Markup

/-! ## Templates and their documents -/

namespace Template

/-- The tag of an element that is kept. -/
def Kept.tag? : Kept → Option String
  | .element tag .. => some tag
  | _ => none

/-- The place of a text that is kept and its parts. -/
def Kept.text? : Kept → Option (Position × Option (List TextPart))
  | .text p parts => some (p, parts)
  | _ => none

/-- The place of a comment that is kept and its text. -/
def Kept.comment? : Kept → Option (Position × String)
  | .comment p content => some (p, content)
  | _ => none

end Template

open Template

theorem Markup.readsAlike_tag? (config : Config) :
    ReadsAlike config Kept.tag? fun visited => visited.2.tag?.filter (· != "template") := by
  intro keepBlanks iterated n
  cases n with
  | element e children =>
    by_cases htag : e.tag = "template" <;> simp [Node.keptItem?, Node.tag?, Kept.tag?, Option.filter, htag]
  | text content p => simp [Node.keptItem?, Node.tag?, Kept.tag?]
  | comment content p => simp [Node.keptItem?, Node.tag?, Kept.tag?]

theorem Markup.readsAlike_text? (config : Config) :
    ReadsAlike config Kept.text? fun visited => visited.2.shownText? visited.1 := by
  intro keepBlanks iterated n
  cases n with
  | element e children => simp [Node.keptItem?, Node.shownText?, Kept.text?]
  | text content p =>
    cases hshown : isShown keepBlanks content <;> simp [Node.keptItem?, Node.shownText?, Kept.text?, hshown]
  | comment content p => simp [Node.keptItem?, Node.shownText?, Kept.text?]

theorem Markup.readsAlike_comment? (config : Config) :
    ReadsAlike config Kept.comment? fun visited => if config.preserveComments then visited.2.comment? else none := by
  intro keepBlanks iterated n
  cases n with
  | element e children => simp [Node.keptItem?, Node.comment?, Kept.comment?]
  | text content p => simp [Node.keptItem?, Node.comment?, Kept.comment?]
  | comment content p =>
    cases hpreserve : config.preserveComments <;> simp [Node.keptItem?, Node.comment?, Kept.comment?, hpreserve]

/-- A template keeps what there is among the children of the root element. -/
structure Template.Keeps (t : Template) (children : List Markup.Node) : Prop where
  /-- The elements, texts and comments are those of the document, each inside the same elements. -/
  outline : Template.keptOf false t.nodes = Markup.keptOf t.config false false children
  tags : (allNodes t.nodes).filterMap Node.tag? =
    ((Markup.visitedOf false children).filterMap fun visited => visited.2.tag?).filter (· != "template")
  texts : (allNodes t.nodes).filterMap Node.text? =
    (Markup.visitedOf false children).filterMap fun visited => visited.2.shownText? visited.1
  comments : (allNodes t.nodes).filterMap Node.comment? =
    if t.config.preserveComments then (Markup.visitedOf false children).filterMap fun visited => visited.2.comment?
    else []

/-- The root element is the only node that counts. -/
theorem Template.filter_of_root {document : List Markup.Node} {e : Markup.Element} {children : List Markup.Node}
    (h : root document = .ok (e, children)) :
    document.filter isSignificant = [.element e children] ∧ e.tag = "template" := by
  unfold root at h
  split at h
  · cases h
  · rename_i n hfilter
    split at h
    · split at h
      · rename_i htag
        cases h
        exact ⟨hfilter, htag⟩
      · cases h
    · cases h
  · cases h

/-- What is read alike off what is kept on both sides is the same. -/
theorem Template.filterMap_of_outline {α : Type} {config : Config} {nodes : List Node} {children : List Markup.Node}
    (h : Template.keptOf false nodes = Markup.keptOf config false false children) {f : Kept → Option α}
    {g : Node → Option α} {g' : Bool × Markup.Node → Option α} (hg : ReadsAlike f g)
    (hg' : Markup.ReadsAlike config f g') :
    (allNodes nodes).filterMap g = (Markup.visitedOf false children).filterMap g' := by
  rw [← hg.filterMap_kept, h, Markup.filterMap_keptOf hg']

/-- A template without errors keeps what there is in its document. -/
theorem ofDocument_keeps (config : Config) (document : List Markup.Node)
    (h : (ofDocument config document).hasErrors = false) :
    ∃ e children, document.filter isSignificant = [.element e children] ∧ e.tag = "template" ∧
      (ofDocument config document).Keeps children := by
  have hclean : (ofDocument config document).draft.IsClean := h
  obtain ⟨e, children, hroot⟩ := exists_root_of_isClean hclean
  have houtline := (ofDocument_becomes config hroot).kept hclean
  obtain ⟨hfilter, htag⟩ := filter_of_root hroot
  refine ⟨e, children, hfilter, htag, houtline, ?tags, ?texts, ?comments⟩
  case tags =>
    rw [List.filter_filterMap]
    exact filterMap_of_outline houtline (fun _ n => by cases n <;> rfl) (Markup.readsAlike_tag? _)
  case texts =>
    exact filterMap_of_outline houtline (fun _ n => by cases n <;> rfl) (Markup.readsAlike_text? _)
  case comments =>
    rw [filterMap_of_outline houtline (fun _ n => by cases n <;> rfl) (Markup.readsAlike_comment? _)]
    split <;> simp

/-- Two branches, one of them a nested `template` element, with blanks in `pre` and between the branches. -/
theorem ofDocument_keeps_branches :
    ∃ document : List Markup.Node,
      (Markup.parse ("<template><pre> </pre><p lwc:if={a}>x</p> " ++
        "<template lwc:else><b>{y}</b> </template></template>").toList).toOption = some document ∧
      (ofDocument {} document).hasErrors = false ∧
      (∃ e children, document.filter isSignificant = [.element e children] ∧ e.tag = "template" ∧
        (ofDocument {} document).Keeps children) ∧
      (allNodes (ofDocument {} document).nodes).filterMap Node.tag? = ["pre", "p", "b"] ∧
      ((allNodes (ofDocument {} document).nodes).filterMap Node.text?).map Prod.fst = [⟨1, 16⟩, ⟨1, 37⟩, ⟨1, 65⟩] := by
  have hread : (Markup.parse ("<template><pre> </pre><p lwc:if={a}>x</p> " ++
      "<template lwc:else><b>{y}</b> </template></template>").toList).toOption.map
      (fun document => ((ofDocument {} document).hasErrors,
        (allNodes (ofDocument {} document).nodes).filterMap Node.tag?,
        ((allNodes (ofDocument {} document).nodes).filterMap Node.text?).map Prod.fst)) =
      some (false, ["pre", "p", "b"], [⟨1, 16⟩, ⟨1, 37⟩, ⟨1, 65⟩]) := by
    decide +kernel
  obtain ⟨document, hdocument, hread⟩ := Option.map_eq_some_iff.1 hread
  simp only [Prod.mk.injEq] at hread
  obtain ⟨hclean, htags, htexts⟩ := hread
  exact ⟨document, hdocument, hclean, ofDocument_keeps {} document hclean, htags, htexts⟩

/-- A comment beside the root element is no part of the template, even if comments are preserved. -/
theorem comment_beside_root_dropped :
    ¬ ∀ (config : Config) (document : List Markup.Node), (ofDocument config document).hasErrors = false →
      (allNodes (ofDocument config document).nodes).filterMap Node.comment? =
        if (ofDocument config document).config.preserveComments then
          (Markup.visitedOf false document).filterMap fun visited => visited.2.comment?
        else [] := by
  intro h
  have := h { preserveComments := true }
    [.comment "x" ⟨1, 1⟩, .element ⟨"template", [], false, ⟨1, 9⟩⟩ []] (by decide +kernel)
  revert this
  decide +kernel

end TemplateCompiler

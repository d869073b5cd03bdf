import TemplateCompiler.Proofs.Template.Ancestors
import TemplateCompiler.Proofs.Template.Branches
/-!
# Standing in an iteration

A site stands in an iteration if one of the nodes around it is one. What is known of that elsewhere says the same: the
flag that an element is built with (`SiblingsBecome.built`), which decides whether it may have a key
(`ofDocument_keyUses`), the labels in the table (`ofDocument_iteration?`), and the names that the iterations around a
site bind (`localsOf_eq_nil`).
-/

namespace TemplateCompiler

open Text Binding

namespace Template

/-! ## Iterations around sites -/

/-- A node with the names that are bound at its site. -/
def Site.placed (s : Site) : Placed :=
  ⟨s.locals, s.node⟩

/-- Whether a site stands in an iteration. -/
def Site.isIterated (s : Site) : Bool :=
  s.around.any Node.isIteration

/-! ## Labels -/

/-- The innermost iteration that a site stands in. -/
def Site.iteration? (s : Site) : Option Node :=
  s.around.find? Node.isIteration

theorem Site.iteration?_isSome (s : Site) : s.iteration?.isSome = s.isIterated := by
  rw [iteration?, List.isSome_find?, isIterated]

theorem NodeTable.Knows.label_eq {table : NodeTable} {s : Site} (h : table.Knows s) :
    (table.label s.node.id == iterationLabel) = s.node.isIteration := by
  obtain ⟨label, hget, hlabel⟩ := h
  rw [NodeTable.label, hget, Option.map_some, Option.getD_some, Bool.eq_iff_iff, beq_iff_eq, hlabel]

/-- The nodes that a site stands in have sites as well. -/
theorem AreClosed.exists_site {sites : List Site} (h : AreClosed [] sites) {s : Site} (hs : s ∈ sites) {n : Node}
    (hn : n ∈ s.around) : ∃ outer, ⟨outer, n⟩ ∈ sites := by
  obtain ⟨around, m⟩ := s
  induction around generalizing m with
  | nil => cases hn
  | cons parent outer ih =>
    have hparent := h.site_above hs
    rcases List.mem_cons.1 hn with rfl | hn
    · exact ⟨outer, hparent⟩
    · exact ih _ hparent hn

/-- The search through the labels finds the innermost iteration around a node. -/
theorem ofDocument_iteration? (config : Config) (document : List Markup.Node) {s : Site}
    (hs : s ∈ sitesOf [] (ofDocument config document).nodes) :
    (ofDocument config document).table.iteration? s.node.id = s.iteration?.map Node.id := by
  -- The nodes around have sites as well, so their labels tell which of them are iterations.
  have hlabels : ∀ n ∈ s.around,
      ((ofDocument config document).table.label n.id == iterationLabel) = n.isIteration := by
    intro n hn
    obtain ⟨outer, hsite⟩ := (areClosed_sitesOf [] _).exists_site hs hn
    exact (ofDocument_knows config document _ hsite).label_eq
  rw [NodeTable.iteration?, (ofDocument_isIndexed config document).ancestors s hs, List.find?_map, Site.iteration?]
  rw [← List.head?_filter, ← List.head?_filter]
  exact congrArg (fun nodes => (nodes.head?).map Node.id) (List.filter_congr hlabels)

end Template

/-! ## Keys in a document -/

namespace Markup

open Template (Directives Problem Kept Outline)

/-- Whether a key is allowed on an element, where `inIteration` says whether it stands in an iteration. -/
def Element.allowsKey (inIteration : Bool) (e : Element) : Bool :=
  inIteration || (Directives.read inIteration e.attributes).1.iteration.isSome

/-- Whether an element is given a key. -/
def Element.hasKey (e : Element) : Bool :=
  e.attributes.any (·.name == "key")

mutual

/-- The elements that a node is or has in it, each with whether it stands in an iteration. -/
def Node.standings (inIteration : Bool) : Node → List (Bool × Element)
  | .element e children => (inIteration, e) :: standingsOf (e.allowsKey inIteration) children
  | .text _ _ => []
  | .comment _ _ => []

/-- The elements among some nodes and in them. -/
def standingsOf (inIteration : Bool) : List Node → List (Bool × Element)
  | [] => []
  | n :: ns => n.standings inIteration ++ standingsOf inIteration ns

end

theorem key_setCondition (r : Template.Reading) (a : Attribute) (condition : Template.Condition) :
    (r.setCondition a condition).key = r.key := by
  unfold Template.Reading.setCondition
  split <;> rfl

theorem key_step (r : Template.Reading) (a : Attribute) :
    (r.step a).key = if a.name = "key" then some a else r.key := by
  unfold Template.Reading.step
  split
  -- No other directive sets the key, and neither does what is no directive.
  case h_13 =>
    rename_i hkey _ _ _
    rw [if_neg hkey]
    split <;> rfl
  all_goals
    rename_i hname
    rw [hname]
  case h_1 | h_2 | h_3 | h_4 =>
    exact keeps_withValue (p := Template.Reading.key) (fun _ _ _ => rfl) _ _ _ fun _ _ => key_setCondition _ _ _
  case h_5 =>
    rw [key_setCondition]
    split <;> rfl
  case h_6 | h_7 | h_8 | h_10 =>
    exact keeps_withValue (p := Template.Reading.key) (fun _ _ _ => rfl) _ _ _ fun _ _ => rfl
  all_goals rfl

theorem key_foldl (attributes : List Attribute) (r : Template.Reading) :
    (attributes.foldl Template.Reading.step r).key.isSome = (r.key.isSome || attributes.any (·.name == "key")) := by
  induction attributes generalizing r with
  | nil => simp
  | cons a attributes ih =>
    rw [List.foldl_cons, ih, key_step, List.any_cons]
    by_cases hname : a.name = "key"
    · simp [hname]
    · simp [hname, beq_eq_false_iff_ne.2 hname]

/-- What an element of a document has to do with keys. -/
structure KeyUse where
  tag : String
  position : Position
  allowed : Bool
  given : Bool

/-- What an element has to do with keys, if it is no nested `template` element. -/
def Element.keyUse? (inIteration : Bool) (e : Element) : Option KeyUse :=
  if e.tag = "template" then none else some ⟨e.tag, e.position, e.allowsKey inIteration, e.hasKey⟩

/-- A key that cannot be read is an error, and one that can be read is allowed. -/
theorem readKey_cases (repeated : Bool) (a : Attribute) :
    (∃ problem, Template.Reading.readKey repeated a = .error problem ∧ problem.code.severity = .error) ∨
      repeated = true ∧ ∃ key, Template.Reading.readKey repeated a = .ok key := by
  unfold Template.Reading.readKey Template.readAttribute
  cases repeated with
  | false => exact .inl ⟨_, rfl, rfl⟩
  | true =>
    rw [if_neg (by simp)]
    split
    · split
      · exact .inl ⟨_, rfl, rfl⟩
      · split
        · exact .inr ⟨rfl, _, rfl⟩
        · exact .inl ⟨_, rfl, rfl⟩
    · exact .inl ⟨_, rfl, rfl⟩

/-- An element that is read without errors has the key that it is given, and is given one only where that is allowed. -/
theorem Element.key_read {inIteration : Bool} {e : Element}
    (h : ∀ d ∈ (Directives.read inIteration e.attributes).2.2, d.isError = false) :
    (Directives.read inIteration e.attributes).1.key.isSome = e.hasKey ∧
      (e.hasKey = true → e.allowsKey inIteration = true) := by
  have hgiven : (Template.Reading.ofAttributes e.attributes).key.isSome = e.hasKey := key_foldl e.attributes {}
  -- Whatever comes of the key, the iteration is the one that the attributes say.
  have hiteration : (Directives.read inIteration e.attributes).1.iteration =
      (Template.Reading.ofAttributes e.attributes).iteration? := by
    unfold Directives.read
    dsimp only
    split
    · rfl
    · split <;> rfl
  rw [allowsKey, hiteration]
  unfold Directives.read at h ⊢
  cases hkey : (Template.Reading.ofAttributes e.attributes).key with
  | none =>
    rw [hkey] at hgiven
    simp [hkey, ← hgiven]
  | some a =>
    rw [hkey] at hgiven
    rcases readKey_cases (inIteration || (Template.Reading.ofAttributes e.attributes).iteration?.isSome) a with
      ⟨problem, hread, herror⟩ | ⟨hallowed, key, hread⟩
    · have hreported := h (problem.diagnostic a.position) (by simp [hkey, hread])
      simp [Diagnostic.isError, Problem.diagnostic, herror] at hreported
    · exact ⟨by simp [hkey, hread, ← hgiven], fun _ => hallowed⟩

end Markup

namespace Template

open Markup (standingsOf KeyUse)

section Reads

variable {config : Config} {final : Draft} {place : Place} {chain? : Option Nat} {low high : Nat}
  {siblings : Chain × List Node}

theorem SiblingsBecome.tail {doc : Markup.Node} {rest : List Markup.Node}
    (h : SiblingsBecome config final place chain? (doc :: rest) low high siblings) :
    ∃ chain?' middle siblings', SiblingsBecome config final place chain?' rest middle high siblings' ∧
      allSiblings siblings' ⊆ allSiblings siblings := by
  rw [← List.singleton_append] at h
  obtain ⟨chain?', middle, siblings', hrest, -, hsub, -⟩ := h.behind
  exact ⟨chain?', middle, siblings', hrest, hsub⟩

/-- An element is built at a place with the flag, and what it becomes is among the nodes unless there is an error. -/
def BuiltWith (config : Config) (final : Draft) (nodes : List Node) (inIteration : Bool) (e : Markup.Element) : Prop :=
  ∃ children place low high body, place.inIteration = inIteration ∧
    ElementContent config final inIteration e children place low high body ∧ (final.IsClean → allNodes body ⊆ nodes)

theorem BuiltWith.mono {nodes nodes' : List Node} {inIteration : Bool} {e : Markup.Element}
    (h : BuiltWith config final nodes inIteration e) (hsub : final.IsClean → nodes ⊆ nodes') :
    BuiltWith config final nodes' inIteration e := by
  obtain ⟨children, place, low, high, body, hplace, hbody, hbelow⟩ := h
  exact ⟨children, place, low, high, body, hplace, hbody, fun hclean n hn => hsub hclean (hbelow hclean hn)⟩

/-- All elements are read and built with the flag of where they stand. -/
theorem SiblingsBecome.built {docs : List Markup.Node}
    (h : SiblingsBecome config final place chain? docs low high siblings) :
    ∀ standing ∈ standingsOf place.inIteration docs,
      (Directives.read standing.1 standing.2.attributes).2.2 ⊆ final.diagnostics ∧
        BuiltWith config final (allSiblings siblings) standing.1 standing.2 := by
  induction docs using Template.siblings_induction generalizing place chain? low high siblings with
  | nil => simp [standingsOf]
  | text text position rest ih | comment text position rest ih =>
    obtain ⟨chain?', middle, siblings', hrest, hsub⟩ := h.tail
    intro standing hstanding
    obtain ⟨hread, hbuilt⟩ := ih hrest standing (by simpa [standingsOf, Markup.Node.standings] using hstanding)
    exact ⟨hread, hbuilt.mono fun _ => hsub⟩
  | element e children rest ihchildren ih =>
    obtain ⟨chain?', middle, siblings', hrest, hsub⟩ := h.tail
    obtain ⟨place', low', high', body, hplace, -, hbody, hbelow⟩ := h.joins.2.content
    obtain ⟨inner, _, _, nodes, -, hinner, hnodes, hinside⟩ := ContentBecomes.inner hbody
    -- What is in the element stands in an iteration if the element does, or has one of its own.
    have hallowed : inner.inIteration = e.allowsKey place.inIteration := by
      rw [hinner, hplace, Markup.Element.allowsKey]
    intro standing hstanding
    rw [standingsOf, Markup.Node.standings] at hstanding
    rcases List.mem_append.1 hstanding with hstanding | hstanding
    · rcases List.mem_cons.1 hstanding with rfl | hstanding
      · exact ⟨h.joins.1, children, place', low', high', body, hplace, hplace ▸ hbody, hbelow⟩
      · obtain ⟨hread, hbuilt⟩ := ihchildren hnodes.siblings standing (by rwa [hallowed])
        refine ⟨hread, hbuilt.mono fun hclean n hn => hbelow hclean (hinside ?_)⟩
        simpa [allSiblings, Chain.all] using hn
    · obtain ⟨hread, hbuilt⟩ := ih hrest standing hstanding
      exact ⟨hread, hbuilt.mono fun _ => hsub⟩

end Reads

/-! ## Keys in a template -/

/-- The key that a node is given. -/
def Node.key? : Node → Option Expr
  | .element _ _ _ data _ => data.key
  | _ => none

/-- What a site has to do with keys, if it is that of an element or a slot. -/
def Site.keyUse? (s : Site) : Option KeyUse :=
  s.node.tag?.map fun tag => ⟨tag, s.node.position, s.isIterated, s.node.key?.isSome⟩

/-- What an element that is kept has to do with keys. -/
def Kept.keyUse? : Kept → Option KeyUse
  | .element tag p iterated key => some ⟨tag, p, iterated, key.isSome⟩
  | _ => none

/-- What is kept of an element tells the same about its key as its site. -/
theorem keyUse?_keptItem? (s : Site) :
    (s.node.keptItem? (s.around.any Node.isIteration)).bind Kept.keyUse? = s.keyUse? := by
  obtain ⟨around, n⟩ := s
  cases n <;> rfl

end Template

namespace Markup

open Template (Directives Kept Outline)

mutual

theorem keyUses_kept (config : Config) (keepBlanks inIteration : Bool) : ∀ n : Node,
    (∀ standing ∈ n.standings inIteration,
      (Directives.read standing.1 standing.2.attributes).1.key.isSome = standing.2.hasKey) →
    (Outline.itemsOf (n.kept config keepBlanks inIteration)).filterMap Kept.keyUse? =
      (n.standings inIteration).filterMap fun standing => standing.2.keyUse? standing.1
  | .element e children => by
    intro h
    have hkey := h _ List.mem_cons_self
    have hcontent := keyUses_keptOf config (keepBlanks || e.keepsBlanks) (e.allowsKey inIteration) children
      fun standing hstanding => h standing (List.mem_cons_of_mem _ hstanding)
    rw [Node.kept, Node.standings, List.filterMap_cons, ← hcontent, Element.keyUse?]
    by_cases htag : e.tag = "template"
    · simp [htag, Element.allowsKey]
    · simp [htag, Element.allowsKey, Outline.itemsOf, Outline.items, Outline.itemsOfGroups, Kept.keyUse?,
        hkey]
  | .text content p => by
    intro _
    rw [Node.kept]
    split <;> rfl
  | .comment content p => by
    intro _
    rw [Node.kept]
    split <;> rfl

/-- What is to be kept of the elements tells the same about their keys as the document. -/
theorem keyUses_keptOf (config : Config) (keepBlanks inIteration : Bool) : ∀ nodes : List Node,
    (∀ standing ∈ standingsOf inIteration nodes,
      (Directives.read standing.1 standing.2.attributes).1.key.isSome = standing.2.hasKey) →
    (Outline.itemsOf (keptOf config keepBlanks inIteration nodes)).filterMap Kept.keyUse? =
      (standingsOf inIteration nodes).filterMap fun standing => standing.2.keyUse? standing.1
  | [] => fun _ => rfl
  | n :: ns => by
    intro h
    rw [keptOf, standingsOf, Outline.itemsOf_append, List.filterMap_append, List.filterMap_append,
      keyUses_kept config keepBlanks inIteration n fun standing hn => h standing (List.mem_append_left _ hn),
      keyUses_keptOf config keepBlanks inIteration ns fun standing hns => h standing (List.mem_append_right _ hns)]

end

end Markup

namespace Template

open Markup (standingsOf)

/-- Without errors, a key is given to an element only where that is allowed. -/
theorem ofDocument_keys {config : Config} {document children : List Markup.Node} {e : Markup.Element}
    (hroot : root document = .ok (e, children)) (hclean : (ofDocument config document).hasErrors = false) :
    ∀ standing ∈ standingsOf false children,
      (Directives.read standing.1 standing.2.attributes).1.key.isSome = standing.2.hasKey ∧
        (standing.2.hasKey = true → standing.2.allowsKey standing.1 = true) := by
  intro standing hstanding
  have hclean : (ofDocument config document).draft.IsClean := hclean
  exact Markup.Element.key_read fun d hd =>
    hclean.not_error (((ofDocument_becomes config hroot).built standing hstanding).1 hd)

/-- Without errors, a key is allowed on the elements of the document that stand in an iteration of the template. -/
theorem ofDocument_keyUses {config : Config} {document children : List Markup.Node} {e : Markup.Element}
    (hroot : root document = .ok (e, children)) (hclean : (ofDocument config document).hasErrors = false) :
    (sitesOf [] (ofDocument config document).nodes).filterMap Site.keyUse? =
      (standingsOf false children).filterMap fun standing => standing.2.keyUse? standing.1 := by
  have hclean' : (ofDocument config document).draft.IsClean := hclean
  have houtline := (ofDocument_becomes config hroot).kept hclean'
  have hread : ∀ standing ∈ standingsOf false children,
      (Directives.read standing.1 standing.2.attributes).1.key.isSome = standing.2.hasKey :=
    fun standing hstanding => (ofDocument_keys hroot hclean standing hstanding).1
  calc (sitesOf [] (ofDocument config document).nodes).filterMap Site.keyUse?
    _ = (Outline.itemsOf (keptOf false (ofDocument config document).nodes)).filterMap Kept.keyUse? :=
        (filterMap_keptOf keyUse?_keptItem? [] _).symm
    _ = (Outline.itemsOf (Markup.keptOf (ofDocument config document).config false false children)).filterMap
          Kept.keyUse? := congrArg (fun kept => (Outline.itemsOf kept).filterMap Kept.keyUse?) houtline
    _ = (standingsOf false children).filterMap fun standing => standing.2.keyUse? standing.1 :=
        Markup.keyUses_keptOf _ false false children hread

end Template

end TemplateCompiler

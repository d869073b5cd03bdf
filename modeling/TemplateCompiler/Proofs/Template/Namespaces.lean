import TemplateCompiler.Proofs.Template.Fragments
/-!
# Fragments and SVG

A fragment starts with an element of HTML, so the namespaces in it do not depend on what is around it: an element below
is one of SVG only if the fragment holds an `svg` element. So fragments keep SVG out exactly if no element that never
changes holds an `svg` element (`ofDocument_keepsSvgOut_iff`). When fragments are chosen, nobody looks whether one does,
and `svg_in_fragment` is a template where one does.
-/

namespace TemplateCompiler

open Text Render

namespace Template

/-! ## Namespaces of nodes -/

/-- The namespace of an element with the tag, where `svg` says whether it stands in SVG. -/
def namespaceIn (svg : Bool) (tag : String) : ElementNamespace :=
  if tag == "svg" || svg then .svg else .html

/-- Whether the children of an element with the tag stand in SVG. -/
def opensSvg (svg : Bool) (tag : String) : Bool :=
  namespaceIn svg tag = .svg && tag != "foreignObject"

mutual

/-- The node and the nodes below it have the namespaces that they are read in, where `svg` says whether the node stands
in SVG. -/
def Node.ReadsIn (svg : Bool) : Node → Prop
  | .element _ _ _ data children => data.namespace = namespaceIn svg data.tag ∧ ReadIn (opensSvg svg data.tag) children
  | .slot _ _ _ _ children => ReadIn svg children
  | .text .. => True
  | .comment .. => True
  | .conditional _ _ chain => chain.ReadsIn svg
  | .iteration _ _ _ children => ReadIn svg children

/-- The nodes in the branches of a chain have the namespaces that they are read in. -/
def Chain.ReadsIn (svg : Bool) : Chain → Prop
  | .done => True
  | .otherwise children => ReadIn svg children
  | .branch _ _ children next => ReadIn svg children ∧ next.ReadsIn svg

/-- The nodes of a list have the namespaces that they are read in. -/
def ReadIn (svg : Bool) : List Node → Prop
  | [] => True
  | n :: ns => n.ReadsIn svg ∧ ReadIn svg ns

end

theorem readIn_append {svg : Bool} {xs ys : List Node} : ReadIn svg (xs ++ ys) ↔ ReadIn svg xs ∧ ReadIn svg ys := by
  induction xs with
  | nil => simp [ReadIn]
  | cons n ns ih => rw [List.cons_append, ReadIn, ReadIn, ih, and_assoc]

mutual

theorem exists_readsIn {svg : Bool} : ∀ n : Node, n.ReadsIn svg → ∀ m ∈ n.all, ∃ svg', m.ReadsIn svg'
  | .element _ _ _ _ children => fun h => List.forall_mem_cons.2 ⟨⟨svg, h⟩, exists_readIn children h.2⟩
  | .slot _ _ _ _ children => fun h => List.forall_mem_cons.2 ⟨⟨svg, h⟩, exists_readIn children h⟩
  | .text .. => fun h => List.forall_mem_singleton.2 ⟨svg, h⟩
  | .comment .. => fun h => List.forall_mem_singleton.2 ⟨svg, h⟩
  | .conditional _ _ chain => fun h => List.forall_mem_cons.2 ⟨⟨svg, h⟩, exists_chainReadsIn chain h⟩
  | .iteration _ _ _ children => fun h => List.forall_mem_cons.2 ⟨⟨svg, h⟩, exists_readIn children h⟩

theorem exists_chainReadsIn {svg : Bool} : ∀ c : Chain, c.ReadsIn svg → ∀ m ∈ c.all, ∃ svg', m.ReadsIn svg'
  | .done => fun _ => List.forall_mem_nil _
  | .otherwise children => exists_readIn children
  | .branch _ _ children next => fun h =>
    List.forall_mem_append.2 ⟨exists_readIn children h.1, exists_chainReadsIn next h.2⟩

/-- Where nodes have the namespaces that they are read in, so has each node below them. -/
theorem exists_readIn {svg : Bool} : ∀ nodes : List Node, ReadIn svg nodes →
    ∀ m ∈ allNodes nodes, ∃ svg', m.ReadsIn svg'
  | [] => fun _ => List.forall_mem_nil _
  | n :: ns => fun h => List.forall_mem_append.2 ⟨exists_readsIn n h.1, exists_readIn ns h.2⟩

end

/-! ## Namespaces of a template -/

section Becomes

variable {config : Config} {final : Draft} {place : Place} {low high : Nat}

theorem TextBecomes.readIn {text : String} {position : Position} {n? : Option Node}
    (h : TextBecomes final place text position low high n?) : ReadIn place.svg n?.toList := by
  unfold TextBecomes at h
  split at h
  · obtain ⟨-, rfl⟩ := h
    trivial
  · split at h
    · obtain ⟨-, rfl, -⟩ := h
      trivial
    · obtain ⟨-, -, rfl⟩ := h
      exact ⟨trivial, trivial⟩

theorem CommentBecomes.readIn {text : String} {position : Position} {n? : Option Node}
    (h : CommentBecomes final place config text position low high n?) : ReadIn place.svg n?.toList := by
  unfold CommentBecomes at h
  split at h
  · obtain ⟨-, -, rfl⟩ := h
    exact ⟨trivial, trivial⟩
  · obtain ⟨-, rfl⟩ := h
    trivial

section Element

variable {e : Markup.Element} {directives : Directives} {body : Content}
  (hbody : ∀ {place low high nodes}, body place low high nodes → ReadIn place.svg nodes)
include hbody

theorem TagBecomes.readIn {n : Node} (h : TagBecomes final place e directives body low high n) :
    n.ReadsIn place.svg := by
  obtain ⟨-, h⟩ := h
  by_cases htag : e.tag = "slot"
  · rw [if_pos htag] at h
    obtain ⟨-, -, children, hchildren, rfl⟩ := h
    have hread : ReadIn (place.below low).svg children := hbody hchildren
    exact hread
  · rw [if_neg htag] at h
    obtain ⟨-, -, children, hchildren, rfl⟩ := h
    rw [Node.ReadsIn, ElementData.namespace_addAll, ElementData.tag_addAll]
    exact ⟨rfl, hbody hchildren⟩

theorem BareBecomes.readIn {nodes : List Node} (h : BareBecomes final place e directives body low high nodes) :
    ReadIn place.svg nodes := by
  unfold BareBecomes at h
  split at h
  · exact hbody h.2.2
  · obtain ⟨n, hn, rfl⟩ := h
    exact ⟨hn.readIn hbody, trivial⟩

theorem OnceBecomes.readIn {nodes : List Node} (h : OnceBecomes final place e directives body low high nodes) :
    ReadIn place.svg nodes := by
  unfold OnceBecomes AloneBecomes at h
  split at h
  · obtain ⟨children, -, hchildren, rfl⟩ := h
    exact ⟨⟨hchildren.readIn hbody, trivial⟩, trivial⟩
  · exact h.readIn hbody

theorem ContentBecomes.readIn {nodes : List Node} (h : ContentBecomes final place e directives body low high nodes) :
    ReadIn place.svg nodes := by
  unfold ContentBecomes IterationBecomes at h
  split at h
  · exact h.readIn hbody
  · obtain ⟨children, -, hchildren, rfl⟩ := h
    exact ⟨hchildren.readIn hbody, trivial⟩

end Element

/-- What siblings become has the namespaces that it is read in. -/
theorem SiblingsBecome.readIn {docs : List Markup.Node} {chain? : Option Nat} {siblings : Chain × List Node}
    (h : SiblingsBecome config final place chain? docs low high siblings) :
    siblings.1.ReadsIn place.svg ∧ ReadIn place.svg siblings.2 := by
  induction docs using siblings_induction generalizing place chain? low high siblings with
  | nil =>
    obtain ⟨-, rfl⟩ := h
    exact ⟨trivial, trivial⟩
  | text text position rest ih =>
    obtain ⟨n?, middle, hn, ⟨rfl, hmore⟩ | ⟨n, nodes, rfl, hmore, rfl⟩⟩ := h.text
    · exact ih hmore
    · exact ⟨trivial, hn.readIn.1, (ih hmore).2⟩
  | comment text position rest ih =>
    obtain ⟨n?, middle, hn, ⟨rfl, hmore⟩ | ⟨n, nodes, rfl, hmore, rfl⟩⟩ := h.comment
    · exact ih hmore
    · exact ⟨trivial, hn.readIn.1, (ih hmore).2⟩
  | element e children rest ihchildren ih =>
    have hcontent (place' : Place) {low high : Nat} {body : List Node}
        (hbody : ElementContent config final place.inIteration e children place' low high body) :
        ReadIn place'.svg body :=
      ContentBecomes.readIn (fun h => (ihchildren h.siblings).2) hbody
    cases h.joins.2 with
    | first _ _ hbody hmore => exact ⟨trivial, ⟨hcontent (place.within low) hbody, (ih hmore).1⟩, (ih hmore).2⟩
    | @next id _ _ _ _ _ hbody hmore => exact ⟨⟨hcontent (place.within id) hbody, (ih hmore).1⟩, (ih hmore).2⟩
    | @last id _ _ _ _ hbody hmore => exact ⟨hcontent (place.within id) hbody, (ih hmore).2⟩
    | stray _ _ _ hmore => exact ih hmore
    | apart _ hbody hmore => exact ⟨trivial, readIn_append.2 ⟨hcontent place hbody, (ih hmore).2⟩⟩

end Becomes

/-- A template has the namespaces that it is read in. -/
theorem ofDocument_readIn (config : Config) (document : List Markup.Node) :
    let t := ofDocument config document
    ReadIn (rootPlace t.config).svg t.nodes := by
  cases hroot : root document with
  | error position =>
    rw [ofDocument, hroot]
    trivial
  | ok found => exact (ofDocument_becomes config hroot).readIn.2

/-! ## Fragments by themselves -/

/-- Whether the node is an `svg` element. -/
def Node.isSvgTag : Node → Bool
  | .element _ _ _ data _ => data.tag == "svg"
  | _ => false

/-- None of the nodes is an element of SVG. -/
def HaveNoSvg (nodes : List Node) : Prop :=
  ∀ n ∈ nodes, n.namespace? ≠ some .svg

/-- None of the nodes is an `svg` element. -/
def HaveNoSvgTag (nodes : List Node) : Prop :=
  ∀ n ∈ nodes, n.isSvgTag = false

/-- An element of HTML does not stand in SVG. -/
theorem Node.ReadsIn.of_html {svg : Bool} {n : Node} (h : n.ReadsIn svg) (hhtml : n.namespace? = some .html) :
    n.ReadsIn false := by
  cases n with
  | element id p role data children =>
    have hdata : namespaceIn svg data.tag = .html := h.1.symm.trans (Option.some.inj hhtml)
    cases svg with
    | false => exact h
    | true => simp [namespaceIn] at hdata
  | _ => cases hhtml

theorem Node.ReadsIn.isSvgTag_eq_false {svg : Bool} {n : Node} (h : n.ReadsIn svg) (hsvg : n.namespace? ≠ some .svg) :
    n.isSvgTag = false := by
  cases n with
  | element id p role data children =>
    refine Bool.eq_false_iff.2 fun htag => hsvg ?_
    rw [namespace?, h.1, namespaceIn, show (data.tag == "svg") = true from htag]
    rfl
  | _ => rfl

mutual

theorem haveNoSvg_all : ∀ n : Node, n.ReadsIn false → HaveNoSvgTag n.all → HaveNoSvg n.all
  | .element _ _ _ data children => fun h htags => by
    obtain ⟨htag, hbelow⟩ := List.forall_mem_cons.1 htags
    have hhtml : namespaceIn false data.tag = .html := by
      simpa [namespaceIn, Node.isSvgTag] using htag
    have hopens : opensSvg false data.tag = false := by simp [opensSvg, hhtml]
    refine List.forall_mem_cons.2 ⟨?_, haveNoSvg_allNodes children (hopens ▸ h.2) hbelow⟩
    rw [Node.namespace?, h.1, hhtml]
    nofun
  | .slot _ _ _ _ children => fun h htags =>
    List.forall_mem_cons.2 ⟨nofun, haveNoSvg_allNodes children h (List.forall_mem_cons.1 htags).2⟩
  | .text .. => fun _ _ => List.forall_mem_singleton.2 nofun
  | .comment .. => fun _ _ => List.forall_mem_singleton.2 nofun
  | .conditional _ _ chain => fun h htags =>
    List.forall_mem_cons.2 ⟨nofun, haveNoSvg_chainAll chain h (List.forall_mem_cons.1 htags).2⟩
  | .iteration _ _ _ children => fun h htags =>
    List.forall_mem_cons.2 ⟨nofun, haveNoSvg_allNodes children h (List.forall_mem_cons.1 htags).2⟩

theorem haveNoSvg_chainAll : ∀ c : Chain, c.ReadsIn false → HaveNoSvgTag c.all → HaveNoSvg c.all
  | .done => fun _ _ => List.forall_mem_nil _
  | .otherwise children => haveNoSvg_allNodes children
  | .branch _ _ children next => fun h htags => by
    obtain ⟨hchildren, hnext⟩ := List.forall_mem_append.1 htags
    exact List.forall_mem_append.2 ⟨haveNoSvg_allNodes children h.1 hchildren, haveNoSvg_chainAll next h.2 hnext⟩

/-- Outside SVG, only `svg` elements lead into it. -/
theorem haveNoSvg_allNodes : ∀ nodes : List Node, ReadIn false nodes → HaveNoSvgTag (allNodes nodes) →
    HaveNoSvg (allNodes nodes)
  | [] => fun _ _ => List.forall_mem_nil _
  | n :: ns => fun h htags => by
    obtain ⟨hn, hns⟩ := List.forall_mem_append.1 htags
    exact List.forall_mem_append.2 ⟨haveNoSvg_all n h.1 hn, haveNoSvg_allNodes ns h.2 hns⟩

end

theorem haveNoSvg_iff {n : Node} (h : n.ReadsIn false) : HaveNoSvg n.all ↔ HaveNoSvgTag n.all := by
  refine ⟨fun hsvg m hm => ?_, haveNoSvg_all n h⟩
  obtain ⟨svg, hm'⟩ := exists_readsIn n h m hm
  exact hm'.isSvgTag_eq_false (hsvg m hm)

/-! ## Fragments of a template -/

variable {t : Template}

theorem canBeFragment_of_isFragment (hd : (numbersOf t.nodes).Nodup) {n : Node} (hn : n ∈ allNodes t.nodes)
    (h : t.sources.isFragment n = true) :
    t.config.optimizeStatic = true ∧ n.canBeFragment t.config.renderMode = true := by
  rw [← map_node_sitesOf [] t.nodes] at hn
  obtain ⟨s, hs, rfl⟩ := List.mem_map.1 hn
  have hfragment : t.analysis.isFragment s.node = true := h
  rw [analysis, isFragment_site _ hd hs, liftsIn, Bool.and_eq_true, Bool.and_eq_true] at hfragment
  exact ⟨hfragment.1.1, hfragment.2⟩

theorem exists_isFragment (hd : (numbersOf t.nodes).Nodup) (hon : t.config.optimizeStatic = true) {m : Node}
    (hm : m ∈ allNodes t.nodes) (hcan : m.canBeFragment t.config.renderMode = true) :
    ∃ n ∈ allNodes t.nodes, t.sources.isFragment n = true ∧ m ∈ n.all := by
  rw [← map_node_sitesOf [] t.nodes] at hm
  obtain ⟨s, hs, rfl⟩ := List.mem_map.1 hm
  have hcount := (liftsTopmost_analyze _ hd hon).covered s hs ((isStaticHtml_site _ hd hs).2 hcan)
  obtain ⟨n, hn, hfragment⟩ := List.countP_pos_iff.1 (hcount ▸ Nat.one_pos)
  refine (List.mem_cons.1 hn).elim (fun heq => ?_) fun hn => ?_
  · subst heq
    exact ⟨_, map_node_sitesOf [] t.nodes ▸ List.mem_map_of_mem hs, hfragment, s.node.self_mem_all⟩
  · obtain ⟨hmem, hbelow⟩ := ((standIn_sitesOf [] t.nodes).inner s hs n hn).resolve_left List.not_mem_nil
    exact ⟨n, hmem, hfragment, hbelow⟩

/-- No element of SVG is in a fragment. -/
def KeepsSvgOut (t : Template) : Prop :=
  ∀ n ∈ allNodes t.nodes, t.sources.isFragment n = true → HaveNoSvg n.all

instance (t : Template) : Decidable t.KeepsSvgOut :=
  inferInstanceAs (Decidable (∀ n ∈ allNodes t.nodes, t.sources.isFragment n = true →
    ∀ m ∈ n.all, m.namespace? ≠ some .svg))

theorem Node.namespace?_of_canBeFragment {mode : RenderMode} {n : Node} (h : n.canBeFragment mode = true) :
    n.namespace? = some .html := by
  unfold Node.canBeFragment at h
  split at h
  · simp only [Bool.and_eq_true, decide_eq_true_eq] at h
    rw [Node.namespace?, h.1]
  · cases h

end Template

/-- A fragment starts with an element of HTML and has the namespaces that it has by itself. Fragments keep SVG out
exactly if no element of HTML that never changes holds an `svg` element. -/
theorem ofDocument_keepsSvgOut_iff (config : Config) (document : List Markup.Node) :
    let t := Template.ofDocument config document
    (∀ n ∈ Template.allNodes t.nodes, t.sources.isFragment n = true → n.namespace? = some .html ∧ n.ReadsIn false) ∧
      (t.KeepsSvgOut ↔ (t.config.optimizeStatic = true → ∀ n ∈ Template.allNodes t.nodes,
        n.canBeFragment t.config.renderMode = true → Template.HaveNoSvgTag n.all)) := by
  intro t
  have hd := Template.numbersOf_nodup config document
  have hreads {n : Template.Node} (hn : n ∈ Template.allNodes t.nodes)
      (hcan : n.canBeFragment t.config.renderMode = true) : n.ReadsIn false := by
    obtain ⟨svg, hread⟩ := Template.exists_readIn t.nodes (Template.ofDocument_readIn config document) n hn
    exact hread.of_html (Template.Node.namespace?_of_canBeFragment hcan)
  refine ⟨fun n hn hfragment => ?_, fun hout hon n hn hcan => ?_, fun hout n hn hfragment => ?_⟩
  · obtain ⟨-, hcan⟩ := Template.canBeFragment_of_isFragment hd hn hfragment
    exact ⟨Template.Node.namespace?_of_canBeFragment hcan, hreads hn hcan⟩
  · -- The element is in a fragment, which holds what the element holds.
    obtain ⟨x, hx, hfragment, hnx⟩ := Template.exists_isFragment hd hon hn hcan
    refine (Template.haveNoSvg_iff (hreads hn hcan)).1 fun m hm => ?_
    exact hout x hx hfragment m (Template.all_subset_all x n hnx hm)
  · obtain ⟨hon, hcan⟩ := Template.canBeFragment_of_isFragment hd hn hfragment
    exact (Template.haveNoSvg_iff (hreads hn hcan)).2 (hout hon n hn hcan)

/-- The `svg` element of a static `div` is in the fragment of the `div`. -/
theorem svg_in_fragment :
    ∃ t, Template.parse {} "<template><div><svg></svg></div></template>" = .ok t ∧ t.hasErrors = false ∧
      ¬ t.KeepsSvgOut := by
  have hlifted : (Template.parse {} "<template><div><svg></svg></div></template>").toOption.map (fun t =>
      (t.hasErrors, decide t.KeepsSvgOut)) = some (false, false) := by decide +kernel
  cases ht : Template.parse {} "<template><div><svg></svg></div></template>" with
  | error e =>
    rw [ht] at hlifted
    cases hlifted
  | ok t =>
    rw [ht] at hlifted
    obtain ⟨hclean, hsvg⟩ := Prod.mk.inj (Option.some.inj hlifted)
    exact ⟨t, rfl, hclean, of_decide_eq_false hsvg⟩

end TemplateCompiler

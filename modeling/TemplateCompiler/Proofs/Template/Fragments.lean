import TemplateCompiler.Proofs.Template.Changes
import TemplateCompiler.Proofs.Template.WithFragments
/-!
# Fragments of a template

An analysis picks the fragments from the outside of a template to the inside, and looks no further below one that it has
picked. So it picks the topmost elements of HTML that never change (`analyze_fragments`): `analyze_get?_site` says what is
known of a node in terms of the nodes that it stands in, and `countP_isFragment` counts the fragments among these.
-/

namespace TemplateCompiler.Template

/-! ## Elements that can be fragments -/

/-- The namespace of an element. -/
def Node.namespace? : Node → Option ElementNamespace
  | .element _ _ _ data _ => some data.namespace
  | _ => none

theorem Node.canBeFragment_iff {mode : RenderMode} {n : Node} : n.canBeFragment mode = true ↔
    n.kind = .element ∧ n.namespace? = some .html ∧ n.isStatic mode = true := by
  cases n with
  | element id p role data children => cases role <;> simp [canBeFragment, kind, Role.kind, namespace?]
  | _ => simp [canBeFragment, kind]

/-! ## What is known of a site -/

/-- Whether a fragment may start where `around` are the nodes around: none of them can be one. -/
def liftsIn (mode : RenderMode) (lift : Bool) (around : List Node) : Bool :=
  lift && !around.any (Node.canBeFragment mode)

theorem liftsIn_cons (mode : RenderMode) (lift : Bool) (n : Node) (around : List Node) :
    liftsIn mode lift (n :: around) = (liftsIn mode lift around && !n.canBeFragment mode) := by
  rw [liftsIn, liftsIn, List.any_cons, Bool.not_or, Bool.and_assoc, Bool.and_comm (!n.canBeFragment mode)]

theorem liftsIn_cons_of {mode : RenderMode} {n : Node} (h : n.canBeFragment mode = false) (lift : Bool)
    (around : List Node) : liftsIn mode lift (n :: around) = liftsIn mode lift around := by
  rw [liftsIn_cons, h, Bool.not_false, Bool.and_true]

/-- The node of a site has an entry, which goes by the nodes around it. -/
def Site.HasFacts (mode : RenderMode) (lift : Bool) (facts : List (Nat × Facts)) (s : Site) : Prop :=
  ∃ key, (s.node.id, s.node.facts mode (liftsIn mode lift s.around) key) ∈ facts

theorem Site.HasFacts.mono {mode : RenderMode} {lift : Bool} {facts facts' : List (Nat × Facts)} {s : Site}
    (h : s.HasFacts mode lift facts) (hsub : facts ⊆ facts') : s.HasFacts mode lift facts' :=
  h.imp fun _ hentry => hsub hentry

section Sites

variable (mode : RenderMode) (lift : Bool)

mutual

theorem hasFacts_sites : ∀ (n : Node) (around : List Node) (key : Nat),
    ∀ s ∈ n.sites around, s.HasFacts mode lift (n.allFacts mode (liftsIn mode lift around) key).1
  | .element id p role data children, around, key => by
    refine List.forall_mem_cons.2 ⟨⟨key, List.mem_cons_self⟩, fun s hs => ?_⟩
    rw [Node.allFacts, ← liftsIn_cons]
    exact (hasFacts_sitesOf children _ _ s hs).mono (List.subset_cons_self _ _)
  | .slot id p name attributes children, around, key => by
    refine List.forall_mem_cons.2 ⟨⟨key, List.mem_cons_self⟩, fun s hs => ?_⟩
    rw [Node.allFacts, ← liftsIn_cons_of (n := .slot id p name attributes children) rfl]
    exact (hasFacts_sitesOf children _ _ s hs).mono (List.subset_cons_self _ _)
  | .text .., around, key => List.forall_mem_singleton.2 ⟨key, List.mem_cons_self⟩
  | .comment .., around, key => List.forall_mem_singleton.2 ⟨key, List.mem_cons_self⟩
  | .conditional id p chain, around, key => by
    refine List.forall_mem_cons.2 ⟨⟨key, List.mem_cons_self⟩, fun s hs => ?_⟩
    rw [Node.allFacts, ← liftsIn_cons_of (n := .conditional id p chain) rfl]
    exact (hasFacts_chainSites chain _ _ s hs).mono (List.subset_cons_self _ _)
  | .iteration id p loop children, around, key => by
    refine List.forall_mem_cons.2 ⟨⟨key, List.mem_cons_self⟩, fun s hs => ?_⟩
    rw [Node.allFacts, ← liftsIn_cons_of (n := .iteration id p loop children) rfl]
    exact (hasFacts_sitesOf children _ _ s hs).mono (List.subset_cons_self _ _)

theorem hasFacts_chainSites : ∀ (c : Chain) (around : List Node) (key : Nat),
    ∀ s ∈ c.sites around, s.HasFacts mode lift (c.allFacts mode (liftsIn mode lift around) key).1
  | .done, _, _ => List.forall_mem_nil _
  | .otherwise children, around, key => hasFacts_sitesOf children around key
  | .branch _ _ children next, around, key => List.forall_mem_append.2
    ⟨fun s hs => (hasFacts_sitesOf children around key s hs).mono (List.subset_append_left _ _),
      fun s hs => (hasFacts_chainSites next around _ s hs).mono (List.subset_append_right _ _)⟩

/-- A node that stands in no element that can be a fragment may be one itself. -/
theorem hasFacts_sitesOf : ∀ (nodes : List Node) (around : List Node) (key : Nat),
    ∀ s ∈ sitesOf around nodes, s.HasFacts mode lift (factsOf mode (liftsIn mode lift around) key nodes).1
  | [], _, _ => List.forall_mem_nil _
  | n :: ns, around, key => List.forall_mem_append.2
    ⟨fun s hs => (hasFacts_sites n around key s hs).mono (List.subset_append_left _ _),
      fun s hs => (hasFacts_sitesOf ns around _ s hs).mono (List.subset_append_right _ _)⟩

end

end Sites

/-! ## Fragments of an analysis -/

/-- Whether a node is rendered as a fragment. -/
def Analysis.isFragment (analysis : Analysis) (n : Node) : Bool :=
  (analysis.get? n.id).any Facts.isFragment

/-- Whether a node never changes. -/
def Analysis.isStatic (analysis : Analysis) (n : Node) : Bool :=
  (analysis.get? n.id).any Facts.isStatic

/-- A node is an element of HTML that never changes. -/
structure Analysis.IsStaticHtml (analysis : Analysis) (n : Node) : Prop where
  kind : n.kind = .element
  «namespace» : n.namespace? = some .html
  isStatic : analysis.isStatic n = true

/-- Which nodes of an analysis are rendered as fragments: the topmost elements of HTML that never change. -/
structure Analysis.LiftsTopmost (analysis : Analysis) (nodes : List Node) : Prop where
  roots : ∀ s ∈ sitesOf [] nodes, analysis.isFragment s.node = true → analysis.IsStaticHtml s.node
  /-- No fragment stands in another one. -/
  apart : ∀ s ∈ sitesOf [] nodes, analysis.isFragment s.node = true → ∀ n ∈ s.around, analysis.isFragment n = false
  /-- Of an element of HTML that never changes and the nodes that it stands in, one is a fragment. -/
  covered : ∀ s ∈ sitesOf [] nodes, analysis.IsStaticHtml s.node → (s.node :: s.around).countP analysis.isFragment = 1

section Analyses

variable (config : Config) {nodes : List Node}

/-- What an analysis knows of a node, in terms of the nodes that it stands in. -/
theorem analyze_get?_site (hd : (numbersOf nodes).Nodup) {s : Site} (hs : s ∈ sitesOf [] nodes) :
    ∃ key, (analyze config nodes).get? s.node.id =
      some (s.node.facts config.renderMode (liftsIn config.renderMode config.optimizeStatic s.around) key) := by
  obtain ⟨key, hentry⟩ := hasFacts_sitesOf config.renderMode config.optimizeStatic nodes [] 0 s hs
  rw [show liftsIn config.renderMode config.optimizeStatic [] = config.optimizeStatic by simp [liftsIn]] at hentry
  exact ⟨key, get?_analyze config hd hentry⟩

theorem isFragment_site (hd : (numbersOf nodes).Nodup) {s : Site} (hs : s ∈ sitesOf [] nodes) :
    (analyze config nodes).isFragment s.node =
      (liftsIn config.renderMode config.optimizeStatic s.around && s.node.canBeFragment config.renderMode) := by
  obtain ⟨key, hget⟩ := analyze_get?_site config hd hs
  rw [Analysis.isFragment, hget]
  rfl

theorem isStatic_site (hd : (numbersOf nodes).Nodup) {s : Site} (hs : s ∈ sitesOf [] nodes) :
    (analyze config nodes).isStatic s.node = s.node.isStatic config.renderMode := by
  obtain ⟨key, hget⟩ := analyze_get?_site config hd hs
  rw [Analysis.isStatic, hget]
  rfl

theorem isStaticHtml_site (hd : (numbersOf nodes).Nodup) {s : Site} (hs : s ∈ sitesOf [] nodes) :
    (analyze config nodes).IsStaticHtml s.node ↔ s.node.canBeFragment config.renderMode = true := by
  rw [Node.canBeFragment_iff, ← isStatic_site config hd hs]
  constructor
  · intro h
    exact ⟨h.kind, h.namespace, h.isStatic⟩
  · rintro ⟨hkind, hhtml, hstatic⟩
    exact ⟨hkind, hhtml, hstatic⟩

/-- Of a node and the nodes that it stands in, one is a fragment if one can be, and otherwise none is. -/
theorem countP_isFragment (hd : (numbersOf nodes).Nodup) (hon : config.optimizeStatic = true) {n : Node}
    {around : List Node} (hs : ⟨around, n⟩ ∈ sitesOf [] nodes) :
    (n :: around).countP (analyze config nodes).isFragment =
      if (n :: around).any (Node.canBeFragment config.renderMode) then 1 else 0 := by
  have hfragment := isFragment_site config hd hs
  simp only [liftsIn, hon, Bool.true_and] at hfragment
  -- The outermost node that can be a fragment is the one that is.
  induction around generalizing n with
  | nil => simp [List.countP_cons, hfragment]
  | cons m outer ih =>
    have hm := (areClosed_sitesOf [] nodes).site_above hs
    have houter := isFragment_site config hd hm
    simp only [liftsIn, hon, Bool.true_and] at houter
    rw [List.countP_cons, ih hm houter, hfragment, List.any_cons (a := n)]
    cases (m :: outer).any (Node.canBeFragment config.renderMode) <;> simp

theorem liftsTopmost_analyze (hd : (numbersOf nodes).Nodup) (hon : config.optimizeStatic = true) :
    (analyze config nodes).LiftsTopmost nodes := by
  constructor
  case roots =>
    intro s hs hfragment
    rw [isFragment_site config hd hs, Bool.and_eq_true] at hfragment
    exact (isStaticHtml_site config hd hs).2 hfragment.2
  case apart =>
    intro s hs hfragment
    have hcount := countP_isFragment config hd hon hs
    have hnone : s.around.countP (analyze config nodes).isFragment = 0 := by
      rw [List.countP_cons_of_pos hfragment] at hcount
      split at hcount <;> omega
    simpa using List.countP_eq_zero.1 hnone
  case covered =>
    intro s hs hstatic
    have hcan := (isStaticHtml_site config hd hs).1 hstatic
    rw [countP_isFragment config hd hon hs, List.any_cons, hcan, Bool.true_or, if_pos rfl]

end Analyses

/-- Where static elements are rendered as fragments, the fragments are the topmost elements of HTML that never change.
Where they are not there is no fragment, and all else that is known of the nodes is the same. -/
theorem analyze_fragments (config : Config) {nodes : List Node} (hd : (numbersOf nodes).Nodup) :
    let on := analyze (config.withFragments true) nodes
    let off := analyze (config.withFragments false) nodes
    on.LiftsTopmost nodes ∧
      (∀ n ∈ allNodes nodes, on.isStatic n = true ↔ ∀ m ∈ n.all, m.IsFixed config.renderMode) ∧
      (∀ n, off.isFragment n = false) ∧ (∀ id, off.get? id = (on.get? id).map Facts.unlifted) ∧
      off.keyCount = on.keyCount := by
  intro on off
  have hoff : off = ⟨unlifted on.facts, on.keyCount⟩ := analyze_withoutFragments config nodes
  have hget (id : Nat) : off.get? id = (on.get? id).map Facts.unlifted := by
    rw [hoff]
    exact lookup_unlifted id on.facts
  refine ⟨liftsTopmost_analyze _ hd rfl, ?static, ?none, hget, by rw [hoff]⟩
  case static =>
    intro n hn
    rw [← map_node_sitesOf [] nodes] at hn
    obtain ⟨s, hs, rfl⟩ := List.mem_map.1 hn
    rw [isStatic_site _ hd hs]
    exact isStatic_iff _ _
  case none =>
    intro n
    rw [Analysis.isFragment, hget]
    cases on.get? n.id <;> rfl

/-- A conditional with a paragraph and an image. There is a word in bold in the paragraph, and a paragraph in the image. -/
def illustrated : Node :=
  .conditional 0 .first <| .branch (.identifier "a") false
    [.element 1 .first .native { tag := "p", «namespace» := .html }
      [.element 2 .first .native { tag := "b", «namespace» := .html } []],
     .element 3 .first .native { tag := "svg", «namespace» := .svg }
      [.element 4 .first .native { tag := "p", «namespace» := .html } [.text 5 .first [.literal "x"]]]] .done

/-- All but the conditional is static. The fragments are the two paragraphs, the one in the image as well. -/
theorem analyze_fragments_illustrated :
    let on := analyze (Config.withFragments {} true) [illustrated]
    let off := analyze (Config.withFragments {} false) [illustrated]
    (numbersOf [illustrated]).Nodup ∧ on.LiftsTopmost [illustrated] ∧ off.keyCount = on.keyCount ∧
      (allNodes [illustrated]).map on.isStatic = [false, true, true, true, true, true] ∧
      (allNodes [illustrated]).map on.isFragment = [false, true, false, false, true, false] ∧
      (allNodes [illustrated]).map off.isFragment = [false, false, false, false, false, false] := by
  have hd : (numbersOf [illustrated]).Nodup := by decide
  obtain ⟨htopmost, -, hnone, -, hcount⟩ := analyze_fragments {} hd
  refine ⟨hd, htopmost, hcount, by decide, by decide, ?_⟩
  exact List.map_congr_left fun n _ => hnone n

end TemplateCompiler.Template

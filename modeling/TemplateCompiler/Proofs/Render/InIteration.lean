import TemplateCompiler.Proofs.Render.Occurrences
/-!
# One notion of standing in an iteration

Three things stand for the iterations around a node: the flag that keys are read with, the labels in the table, and the
stack of names that the body is generated with. `ofDocument_agreesOnIterations` shows that all of them agree with the
tree in every template without errors, so that every expression is written with just the names that are bound at its
node, and just the listeners outside all iterations are memoized.
-/

namespace TemplateCompiler

open Text Binding Template Render

/-! ## Marked templates -/

namespace Template

variable {mode : RenderMode}

theorem isIteration_mark (n : Node) : (n.mark mode).isIteration = n.isIteration := by
  cases n <;> rfl

theorem boundNames_mark (n : Node) : (n.mark mode).boundNames = n.boundNames := by
  cases n <;> rfl

theorem listeners_mark (n : Node) : (n.mark mode).listeners = n.listeners := by
  cases n <;> rfl

theorem tests_mark (locals : List String) (c : Chain) : (c.mark mode).tests locals = c.tests locals := by
  cases c with
  | done => rfl
  | otherwise children => rfl
  | branch test negate children next => rw [Chain.mark, Chain.tests, Chain.tests, tests_mark locals next]

theorem attributeExprs_map {f : Attribute → Attribute} (hf : ∀ a, (f a).value = a.value)
    (attributes : List Attribute) : attributeExprs (attributes.map f) = attributeExprs attributes := by
  rw [attributeExprs, attributeExprs, List.filterMap_map]
  exact List.filterMap_congr fun a _ => congrArg AttributeValue.expr? (hf a)

theorem expressions_mark (locals : List String) (n : Node) :
    (n.mark mode).expressions locals = n.expressions locals := by
  have hattribute : ∀ a : Attribute, (a.mark mode).value = a.value := by
    intro a
    unfold Attribute.mark
    split <;> rfl
  have hproperty : ∀ a : Attribute, (a.markProperty mode).value = a.value := by
    intro a
    unfold Attribute.markProperty
    split <;> rfl
  cases n with
  | element id p role data children =>
    rw [Node.mark, Node.expressions, Node.expressions, ElementData.exprs, ElementData.exprs, ElementData.mark,
      attributeExprs_map hattribute, attributeExprs_map hproperty]
  | slot id p name attributes children =>
    rw [Node.mark, Node.expressions, Node.expressions, attributeExprs_map hattribute]
  | conditional id p chain => exact tests_mark locals chain
  | text => rfl
  | comment => rfl
  | iteration => rfl

theorem nodeOccurrences_mark (locals : List String) (memoized : Bool) (n : Node) :
    nodeOccurrences locals memoized (n.mark mode) = nodeOccurrences locals memoized n := by
  rw [nodeOccurrences, nodeOccurrences, expressions_mark, listeners_mark]

/-- The site with all attributes marked. -/
def Site.mark (mode : RenderMode) (s : Site) : Site :=
  ⟨s.around.map (Node.mark mode), s.node.mark mode⟩

theorem locals_mark (s : Site) : (s.mark mode).locals = s.locals := by
  simp [Site.locals, localsOf, Site.mark, List.flatMap_map, boundNames_mark, ← List.map_reverse]

theorem siteOccurrences_mark (sources : Sources) (s : Site) :
    siteOccurrences sources (s.mark mode) = siteOccurrences sources s := by
  rw [siteOccurrences, siteOccurrences, locals_mark, Site.mark, mark_id, nodeOccurrences_mark]

mutual

theorem sites_mark (around : List Node) : ∀ n : Node,
    (n.mark mode).sites (around.map (Node.mark mode)) = (n.sites around).map (Site.mark mode)
  | .element id p role data children => by
    have := sitesOf_mark (.element id p role data children :: around) children
    rw [Node.sites, List.map_cons, ← this]
    rfl
  | .slot id p name attributes children => by
    have := sitesOf_mark (.slot id p name attributes children :: around) children
    rw [Node.sites, List.map_cons, ← this]
    rfl
  | .text .. => rfl
  | .comment .. => rfl
  | .conditional id p chain => by
    have := chainSites_mark (.conditional id p chain :: around) chain
    rw [Node.sites, List.map_cons, ← this]
    rfl
  | .iteration id p loop children => by
    have := sitesOf_mark (.iteration id p loop children :: around) children
    rw [Node.sites, List.map_cons, ← this]
    rfl

theorem chainSites_mark (around : List Node) : ∀ c : Chain,
    (c.mark mode).sites (around.map (Node.mark mode)) = (c.sites around).map (Site.mark mode)
  | .done => rfl
  | .otherwise children => sitesOf_mark around children
  | .branch _ _ children next => by
    rw [Chain.mark, Chain.sites, Chain.sites, List.map_append, sitesOf_mark around children,
      chainSites_mark around next]

/-- Marking changes nothing about where nodes stand. -/
theorem sitesOf_mark (around : List Node) : ∀ nodes : List Node,
    sitesOf (around.map (Node.mark mode)) (markNodes mode nodes) = (sitesOf around nodes).map (Site.mark mode)
  | [] => rfl
  | n :: ns => by
    rw [markNodes, sitesOf, sitesOf, List.map_append, sites_mark around n, sitesOf_mark around ns]

end

/-! ## Templates without expressions -/

/-- What never changes has no expressions. -/
theorem isUnbound_of_isStatic {n : Node} (h : n.isStatic mode = true) : IsUnbound n := by
  cases n with
  | element id p role data children =>
    cases role with
    | native =>
      simp only [Node.isStatic, Bool.and_eq_true, Bool.not_eq_true'] at h
      obtain ⟨hexprs, hlisteners⟩ := ElementData.isBound_eq_false_iff.1 h.1.1
      exact ⟨fun locals => by rw [Node.expressions, hexprs]; rfl, hlisteners⟩
    | component => simp [Node.isStatic] at h
    | dynamic constructor => simp [Node.isStatic] at h
  | text id p parts =>
    have hparts : parts.filterMap TextPart.expr? = [] :=
      filterMap_expr?_eq_nil_iff.2 (by simpa [Node.isStatic] using h)
    exact ⟨fun locals => by rw [Node.expressions, hparts]; rfl, rfl⟩
  | comment id p text => exact ⟨fun _ => rfl, rfl⟩
  | _ => simp [Node.isStatic] at h

end Template

/-! ## Templates and their modules -/

namespace Template

/-- Where the expressions of a site occur: a listener is memoized if the site stands in no iteration. -/
def Site.occurrences (s : Site) : List Occurrence :=
  nodeOccurrences s.locals (!s.isIterated) s.node

section Module

variable {t : Template} {source : String} {m : RenderModule}

theorem sitesOf_markedNodes (t : Template) :
    sitesOf [] t.mark.nodes = (sitesOf [] t.nodes).map (Site.mark t.config.renderMode) :=
  sitesOf_mark [] t.nodes

/-- The expressions of a module are those of the sites, with listeners memoized as the table says. -/
theorem occurrences_body (h : t.renderModule source = .ok m)
    (hunbound : ∀ n, InFragment t.sources.isFragment (allNodes t.mark.nodes) n → IsUnbound n) :
    (m.body.occurrences [] false).Perm ((sitesOf [] t.nodes).flatMap (siteOccurrences t.sources)) := by
  obtain ⟨values, hvalues, hbody⟩ := (t.fits_of_renderModule h).body
  have hperm := occurrences_nodes [] _ _ values hvalues hunbound
  have hmark : ∀ s ∈ sitesOf [] t.nodes,
      siteOccurrences t.sources (s.mark t.config.renderMode) = siteOccurrences t.sources s :=
    fun s _ => siteOccurrences_mark t.sources s
  rw [List.filter_true, sitesOf_markedNodes, List.flatMap_map, List.flatMap_congr hmark] at hperm
  rwa [hbody, occurrences_arrayOf]

theorem run_bodyValue (h : t.renderModule source = .ok m) :
    (bodyValue t.sources t.mark.nodes).run {} = .ok (m.body, ⟨m.helpers, m.hoists, m.memos⟩) := by
  unfold Template.renderModule toModule at h
  cases hrun : (bodyValue ⟨t.analysis, t.mark.table, t.imports⟩ t.mark.nodes).run {} with
  | error error =>
    rw [hrun] at h
    cases h
  | ok result =>
    rw [hrun] at h
    cases h
    exact hrun

/-- On a stack the body of a module is generated with just the names on it that are bound at each node. -/
theorem stack_body (h : t.renderModule source = .ok m)
    (hflat : ∀ n, InFragment t.sources.isFragment (allNodes t.mark.nodes) n → n.isIteration = false) :
    ∃ visited, (generateBody t.sources t.mark.nodes).start {} =
        (.ok m.body, ⟨[], ⟨m.helpers, m.hoists, m.memos⟩, visited⟩) ∧
      (visited.map fun p => (p.node.id, p.locals)).Perm ((sitesOf [] t.nodes).map fun s => (s.node.id, s.locals)) := by
  refine ⟨_, (mimics_body _).succeeds [] (run_bodyValue h), ?_⟩
  have hplaced : ∀ s : Site, ((s.mark t.config.renderMode).placed.node.id, (s.mark t.config.renderMode).placed.locals) =
      (s.node.id, s.locals) :=
    fun s => Prod.ext (mark_id _ s.node) (locals_mark s)
  have hperm := (spread_outlines [] (fun _ => true) _ hflat).map fun p => (p.node.id, p.locals)
  rw [List.filter_true, sitesOf_markedNodes, List.map_map, List.map_map] at hperm
  simp only [Function.comp_def, hplaced] at hperm
  exact hperm

end Module

/-- There are no iterations in fragments, and no expressions. -/
theorem inFragment_ofDocument {config : Config} {document : List Markup.Node} {n : Node}
    (h : InFragment (ofDocument config document).sources.isFragment
      (allNodes (ofDocument config document).mark.nodes) n) : n.isIteration = false ∧ IsUnbound n := by
  obtain ⟨n₀, -, rfl, hstatic⟩ := ofDocument_isStatic_of_inFragment config document h
  obtain ⟨hexpressions, hlisteners⟩ := isUnbound_of_isStatic hstatic
  have hunbound : IsUnbound (n₀.mark (ofDocument config document).config.renderMode) :=
    ⟨fun locals => (expressions_mark locals n₀).trans (hexpressions locals), (listeners_mark n₀).trans hlisteners⟩
  refine ⟨?_, hunbound⟩
  rw [isIteration_mark]
  cases n₀ with
  | iteration id p loop children => simp [Node.isStatic] at hstatic
  | _ => rfl

/-- The table of a template memoizes just the listeners outside all iterations. -/
theorem siteOccurrences_ofDocument {config : Config} {document : List Markup.Node} {s : Site}
    (hs : s ∈ sitesOf [] (ofDocument config document).nodes) :
    siteOccurrences (ofDocument config document).sources s = s.occurrences := by
  have hlabels : ((ofDocument config document).table.iteration? s.node.id).isNone = !s.isIterated := by
    rw [ofDocument_iteration? config document hs, ← s.iteration?_isSome]
    cases s.iteration? <;> rfl
  rw [siteOccurrences, Site.occurrences, ← hlabels]
  rfl

end Template

/-- All that says which nodes stand in iterations says the same, where `children` are those of the root element of the
document that the template is built from. -/
structure Template.AgreesOnIterations (t : Template) (m : RenderModule) (children : List Markup.Node) : Prop where
  /-- The directives of every element are read with the flag of where it stands, and it is built with that flag. -/
  built : ∀ standing ∈ Markup.standingsOf false children,
    (Directives.read standing.1 standing.2.attributes).2.2 ⊆ t.diagnostics ∧
      BuiltWith t.config t.draft (allNodes t.nodes) standing.1 standing.2
  /-- A key is allowed on just the elements that stand in an iteration. -/
  keyUses : (sitesOf [] t.nodes).filterMap Site.keyUse? =
    (Markup.standingsOf false children).filterMap fun standing => standing.2.keyUse? standing.1
  keys : ∀ standing ∈ Markup.standingsOf false children,
    standing.2.hasKey = true → standing.2.allowsKey standing.1 = true
  /-- The search through the labels finds the innermost iteration. -/
  labels : ∀ s ∈ sitesOf [] t.nodes, t.table.iteration? s.node.id = s.iteration?.map Node.id
  /-- Names are bound at just the sites that stand in an iteration. -/
  locals : ∀ s ∈ sitesOf [] t.nodes, s.locals ≠ [] ↔ s.isIterated = true
  /-- On a stack that is empty at first the body is generated, with the names that are bound at each node on the stack
  when it is visited. -/
  stack : ∃ visited, (generateBody t.sources t.mark.nodes).start {} =
      (.ok m.body, ⟨[], ⟨m.helpers, m.hoists, m.memos⟩, visited⟩) ∧
    (visited.map fun p => (p.node.id, p.locals)).Perm ((sitesOf [] t.nodes).map fun s => (s.node.id, s.locals))
  /-- Behind every node the stack is as before it, whatever comes of the node. -/
  restores : ∀ (sources : Sources) (n : Node) (g : Generator),
    ((generateNode sources n).start g).1 = ((nodeValue sources g.locals n).run g.emission).map Prod.fst ∧
      ((generateNode sources n).start g).2.locals = g.locals
  /-- The expressions of the body are those of the sites, written with the names that are bound there, in functions with
  these names as parameters. Just the listeners outside all iterations are memoized. -/
  expressions : (m.body.occurrences [] false).Perm ((sitesOf [] t.nodes).flatMap Site.occurrences)
  /-- What is memoized is a listener in no function, and is written without names of iterations. -/
  memoized : ∀ o ∈ m.body.occurrences [] false, o.isMemoized = true → o.parameters = [] ∧
    ∃ s ∈ sitesOf [] t.nodes, s.isIterated = false ∧ ∃ l ∈ s.node.listeners, o.source = l.handler.toJs []

/-- A template without errors has a module, and all that says which nodes stand in iterations agrees. -/
theorem ofDocument_agreesOnIterations (config : Config) (document : List Markup.Node) (source : String)
    (hclean : (ofDocument config document).hasErrors = false) :
    ∃ e children m, root document = .ok (e, children) ∧ (ofDocument config document).renderModule source = .ok m ∧
      (ofDocument config document).AgreesOnIterations m children := by
  obtain ⟨e, children, hroot⟩ := exists_root_of_isClean hclean
  obtain ⟨m, hm, -⟩ := renderModule_ok config document source
  -- There are no expressions in fragments, so none is missing from the body.
  have hexpressions := occurrences_body hm fun n hn => (inFragment_ofDocument hn).2
  rw [List.flatMap_congr fun s hs => siteOccurrences_ofDocument hs] at hexpressions
  refine ⟨e, children, m, hroot, hm, ?_⟩
  constructor
  case built =>
    intro standing hstanding
    obtain ⟨hread, hbuilt⟩ := (ofDocument_becomes config hroot).built standing hstanding
    exact ⟨hread, hbuilt.mono fun _ n hn => by simpa [allSiblings, Chain.all] using hn⟩
  case keyUses => exact ofDocument_keyUses hroot hclean
  case keys => exact fun standing hstanding => (ofDocument_keys hroot hclean standing hstanding).2
  case labels => exact fun s hs => ofDocument_iteration? config document hs
  case locals =>
    intro s _
    rw [Site.locals, ne_eq, localsOf_eq_nil, Site.isIterated, Bool.not_eq_false]
  case stack => exact stack_body hm fun n hn => (inFragment_ofDocument hn).1
  case restores => exact fun sources n g => ⟨generateNode_eq sources n g, generateNode_restores sources n g⟩
  case expressions => exact hexpressions
  case memoized =>
    intro o ho hmemoized
    obtain ⟨s, hs, ho⟩ := List.mem_flatMap.1 (hexpressions.subset ho)
    -- Of what occurs at a site only the listeners can be memoized, and only outside all iterations.
    rcases List.mem_append.1 ho with ho | ho
    · obtain ⟨expression, -, rfl⟩ := List.mem_map.1 ho
      cases hmemoized
    · obtain ⟨l, hl, rfl⟩ := List.mem_map.1 ho
      have houtside : s.isIterated = false := by simpa using hmemoized
      have hlocals : s.locals = [] := localsOf_eq_nil.2 houtside
      exact ⟨hlocals, s, hs, houtside, l, hl, by rw [hlocals]⟩

/-- An iteration in another one, with a component, a conditional and listeners outside and inside. -/
theorem ofDocument_agreesOnIterations_nested :
    ∃ document, (Markup.parse ("<template><b onclick={save}></b>" ++
        "<template for:each={xs} for:item=\"x\" for:index=\"i\">" ++
        "<c-a key={x.id} onpick={x.pick}><p lwc:if={i}>{x.name}{title}</p></c-a>" ++
        "<i for:each={x.ys} for:item=\"y\" key={y} title={x.t}></i></template></template>").toList).toOption =
          some document ∧
      (ofDocument {} document).hasErrors = false ∧
      ∃ e children m, root document = .ok (e, children) ∧ (ofDocument {} document).renderModule "" = .ok m ∧
        (ofDocument {} document).AgreesOnIterations m children ∧
        m.body.occurrences [] false =
          [⟨[], true, "$cmp.save"⟩, ⟨[], false, "$cmp.xs"⟩] ++
          ["x.id", "x.pick", "i", "x.name", "$cmp.title", "x.ys"].map (Occurrence.mk ["x", "i"] false) ++
          ["x.t", "y"].map (Occurrence.mk ["x", "i", "y"] false) := by
  have hread : (Markup.parse ("<template><b onclick={save}></b>" ++
      "<template for:each={xs} for:item=\"x\" for:index=\"i\">" ++
      "<c-a key={x.id} onpick={x.pick}><p lwc:if={i}>{x.name}{title}</p></c-a>" ++
      "<i for:each={x.ys} for:item=\"y\" key={y} title={x.t}></i></template></template>").toList).toOption.map
        (fun document => ((ofDocument {} document).hasErrors,
          ((ofDocument {} document).renderModule "").toOption.map fun m => m.body.occurrences [] false)) =
      some (false, some ([⟨[], true, "$cmp.save"⟩, ⟨[], false, "$cmp.xs"⟩] ++
        ["x.id", "x.pick", "i", "x.name", "$cmp.title", "x.ys"].map (Occurrence.mk ["x", "i"] false) ++
        ["x.t", "y"].map (Occurrence.mk ["x", "i", "y"] false))) := by
    decide +kernel
  obtain ⟨document, hdocument, hresult⟩ := Option.map_eq_some_iff.1 hread
  obtain ⟨hclean, hbody⟩ := Prod.mk.inj hresult
  obtain ⟨e, children, m, hroot, hm, hagrees⟩ := ofDocument_agreesOnIterations {} document "" hclean
  rw [hm] at hbody
  exact ⟨document, hdocument, hclean, e, children, m, hroot, hm, hagrees, Option.some.inj hbody⟩

end TemplateCompiler

import TemplateCompiler.Proofs.Render.Hygiene
import TemplateCompiler.Proofs.Render.Shown
import TemplateCompiler.Proofs.Render.Words
import TemplateCompiler.Proofs.Template.Origin
/-!
# What stands before a body

A module declares what its body mentions and nothing else, in the order of the first mentions: helpers, declarations
and memoized listeners. Each component that it imports is constructed in the body, and nothing else is.
-/

namespace TemplateCompiler

open Template Render

/-! ## Components and fragments -/

namespace Template

variable {mode : RenderMode}

mutual

/-- What is below a node that never changes never changes either. -/
theorem isStatic_of_mem_all : ∀ n : Node, n.isStatic mode = true → ∀ m ∈ n.all, m.isStatic mode = true
  | .element id p role data children => by
    intro h m hm
    rcases List.mem_cons.1 hm with rfl | hbelow
    · exact h
    · cases role with
      | native =>
        simp only [Node.isStatic, Bool.and_eq_true] at h
        exact isStatic_of_mem_allNodes children h.2 m hbelow
      | component => simp [Node.isStatic] at h
      | dynamic constructor => simp [Node.isStatic] at h
  | .slot id p name attributes children => by
    intro h
    simp [Node.isStatic] at h
  | .text id p parts => by
    intro h m hm
    rwa [List.mem_singleton.1 hm]
  | .comment id p text => by
    intro h m hm
    rwa [List.mem_singleton.1 hm]
  | .conditional id p chain => by
    intro h
    simp [Node.isStatic] at h
  | .iteration id p loop children => by
    intro h
    simp [Node.isStatic] at h

theorem isStatic_of_mem_allNodes : ∀ nodes : List Node, areStatic mode nodes = true →
    ∀ m ∈ allNodes nodes, m.isStatic mode = true
  | [] => by
    intro _ m hm
    cases hm
  | n :: ns => by
    intro h m hm
    obtain ⟨hn, hns⟩ := Bool.and_eq_true_iff.1 h
    rcases List.mem_append.1 hm with hm | hm
    · exact isStatic_of_mem_all n hn m hm
    · exact isStatic_of_mem_allNodes ns hns m hm

end

theorem importedTag?_of_isStatic {n : Node} (h : n.isStatic mode = true) : n.importedTag? = none := by
  cases n with
  | element id p role data children =>
    cases role with
    | native => rfl
    | component => simp [Node.isStatic] at h
    | dynamic constructor => rfl
  | _ => rfl

end Template

/-- What is known of the nodes that a module is made of is known of those of the template. -/
theorem ofDocument_facts (config : Config) (document : List Markup.Node) {n : Node}
    (hn : n ∈ allNodes (ofDocument config document).mark.nodes) :
    let t := ofDocument config document
    ∃ n₀ ∈ allNodes t.nodes, n = n₀.mark t.config.renderMode ∧ ∃ lift key,
      t.sources.analysis.get? n.id = some (n₀.facts t.config.renderMode lift key) := by
  rw [show allNodes (ofDocument config document).mark.nodes = _ from allNodes_markNodes _ _] at hn
  obtain ⟨n₀, hn₀, rfl⟩ := List.mem_map.1 hn
  obtain ⟨lift, key, hget⟩ := analyze_get? (ofDocument config document).config (numbersOf_nodup config document) hn₀
  exact ⟨n₀, hn₀, rfl, lift, key, by rw [mark_id]; exact hget⟩

/-- What is in a fragment never changes. -/
theorem ofDocument_isStatic_of_inFragment (config : Config) (document : List Markup.Node) {n : Node}
    (hn : InFragment (ofDocument config document).sources.isFragment
      (allNodes (ofDocument config document).mark.nodes) n) :
    let t := ofDocument config document
    ∃ n₀ ∈ allNodes t.nodes, n = n₀.mark t.config.renderMode ∧ n₀.isStatic t.config.renderMode = true := by
  obtain ⟨x, hx, hfragment, hn⟩ := hn
  obtain ⟨x₀, hx₀, rfl, lift, key, hget⟩ := ofDocument_facts config document hx
  have hcan : x₀.canBeFragment (ofDocument config document).config.renderMode = true := by
    simp only [Sources.isFragment, hget, Option.any_some, Node.facts, Bool.and_eq_true] at hfragment
    exact hfragment.2
  rw [mark_all] at hn
  obtain ⟨n₀, hn₀, rfl⟩ := List.mem_map.1 hn
  refine ⟨n₀, all_subset_allNodes _ x₀ hx₀ hn₀, rfl, ?_⟩
  exact isStatic_of_mem_all x₀ (isStatic_of_canBeFragment hcan).1 n₀ hn₀

namespace CompilesTo

variable {config : Config} {source : String} {t : Template} {m : RenderModule}

theorem facts (h : CompilesTo config source t m) {n : Node} (hn : n ∈ allNodes t.mark.nodes) :
    ∃ n₀ ∈ allNodes t.nodes, n = n₀.mark t.config.renderMode ∧ ∃ lift key,
      t.sources.analysis.get? n.id = some (n₀.facts t.config.renderMode lift key) := by
  obtain ⟨document, -, rfl⟩ := exists_ofDocument h.parsed
  exact ofDocument_facts config document hn

theorem isStatic_of_inFragment (h : CompilesTo config source t m) {n : Node}
    (hn : InFragment t.sources.isFragment (allNodes t.mark.nodes) n) :
    ∃ n₀ ∈ allNodes t.nodes, n = n₀.mark t.config.renderMode ∧ n₀.isStatic t.config.renderMode = true := by
  obtain ⟨document, -, rfl⟩ := exists_ofDocument h.parsed
  exact ofDocument_isStatic_of_inFragment config document hn

/-- A node that is never static is in no fragment. -/
theorem not_inFragment (h : CompilesTo config source t m) {n : Node}
    (hn : ∀ n₀ : Node, n = n₀.mark t.config.renderMode → n₀.isStatic t.config.renderMode = false) :
    ¬ InFragment t.sources.isFragment (allNodes t.mark.nodes) n := by
  intro hin
  obtain ⟨n₀, -, heq, hstatic⟩ := h.isStatic_of_inFragment hin
  rw [hn n₀ heq] at hstatic
  cases hstatic

/-- A site of a module whose node is in no fragment is rendered by a value in the body. -/
theorem renderedIn_site (h : CompilesTo config source t m) {s : Site} (hs : s ∈ sitesOf [] t.mark.nodes)
    (hfree : ¬ InFragment t.sources.isFragment (allNodes t.mark.nodes) s.node) :
    t.sources.isFragment s.node = false ∧ RenderedIn t.sources m.hoists m.body s := by
  have hnode : s.node ∈ allNodes t.mark.nodes := by
    rw [← map_node_sitesOf [] t.mark.nodes]
    exact List.mem_map_of_mem hs
  constructor
  · by_contra hf
    exact hfree ⟨s.node, hnode, by simpa using hf, s.node.self_mem_all⟩
  · obtain ⟨values, hvalues, hbody⟩ := h.fits.body
    rw [hbody]
    refine renderedIn_arrayOf _ (renderedIn_all [] t.mark.nodes values hvalues s hs fun n hn => ?_)
    by_contra hf
    obtain ⟨hmem, hin⟩ := ((standIn_sitesOf [] t.mark.nodes).inner s hs n hn).resolve_left List.not_mem_nil
    exact hfree ⟨n, hmem, by simpa using hf, hin⟩

/-- A node of a module that is in no fragment is rendered by a value in the body. -/
theorem renderedIn_body (h : CompilesTo config source t m) {n : Node} (hn : n ∈ allNodes t.mark.nodes)
    (hfree : ¬ InFragment t.sources.isFragment (allNodes t.mark.nodes) n) :
    t.sources.isFragment n = false ∧ ∃ locals, ∃ w ∈ m.body.all, NodeRenders t.sources m.hoists locals n w := by
  rw [← map_node_sitesOf [] t.mark.nodes] at hn
  obtain ⟨s, hs, rfl⟩ := List.mem_map.1 hn
  obtain ⟨hfragment, w, hw, hrender⟩ := h.renderedIn_site hs hfree
  exact ⟨hfragment, s.locals, w, hw, hrender⟩

/-- What is in a body holds calls together, or renders a node. -/
theorem rendersOneOf_body (h : CompilesTo config source t m) {w : Value} (hw : w ∈ m.body.all)
    (hglue : w.isGlue = false) :
    ∃ n ∈ shownNodes t.sources.isFragment t.mark.nodes, ∃ locals v, NodeRenders t.sources m.hoists locals n v ∧
      (w = v ∨ ∃ iterable, v = .call Helper.iterator.localName [iterable, w]) := by
  obtain ⟨values, hvalues, hbody⟩ := h.fits.body
  rw [hbody] at hw
  rcases mem_all_arrayOf hw with hg | ⟨v, hv, hw⟩
  · simp [hglue] at hg
  rcases rendersOneOf_nodes h.fits.noted.sound [] _ _ values hvalues v hv _ hw with hg | hrenders
  · simp [hglue] at hg
  · exact hrenders

end CompilesTo

/-! ## Constructors -/

namespace Render

variable {sources : Sources} {table : HoistTable} {locals : List String}

/-- The helper that renders a node which is no fragment, unless the node is a conditional. -/
def helperFor? : Node → Option Helper
  | .element _ _ .native _ _ => some .element
  | .element _ _ .component _ _ => some .customElement
  | .element _ _ (.dynamic _) _ _ => some .dynamicComponent
  | .slot .. => some .slot
  | .text .. => some .text
  | .comment .. => some .comment
  | .conditional .. => none
  | .iteration .. => some .iterator

theorem chain_isGlue {c : Chain} {v : Value} (h : ChainRenders sources table locals c v) : v.isGlue = true := by
  cases c with
  | done =>
    simp only [ChainRenders] at h
    rw [h]
    rfl
  | otherwise children =>
    simp only [ChainRenders] at h
    obtain ⟨values, -, rfl⟩ := h
    unfold arrayOf
    split
    · exact Value.isGlue_call .flatten _
    · rfl
  | branch test negate children next =>
    simp only [ChainRenders] at h
    obtain ⟨values, alternate, -, -, rfl⟩ := h
    rfl

/-- A node is rendered by a call of the helper for fragments or of its own, unless it is a conditional. -/
theorem call_of_render {n : Node} {v : Value} (h : NodeRenders sources table locals n v) (hglue : v.isGlue = false) :
    ∃ helper arguments, v = .call helper.localName arguments ∧
      (sources.isFragment n = true ∧ helper = .staticFragment ∨
        sources.isFragment n = false ∧ helperFor? n = some helper) := by
  have hfragment {facts : Facts} (hf : sources.isFragment n = true) (hrender : FragmentRenders table n facts v) :
      ∃ helper arguments, v = .call helper.localName arguments ∧
        (sources.isFragment n = true ∧ helper = .staticFragment ∨
          sources.isFragment n = false ∧ helperFor? n = some helper) := by
    obtain ⟨html, name, number, -, -, -, rfl⟩ := hrender
    exact ⟨_, _, rfl, .inl ⟨hf, rfl⟩⟩
  cases n with
  | element id p role data children =>
    simp only [NodeRenders] at h
    rcases h.cases with ⟨facts, hf, hrender⟩ | ⟨facts, -, hf, options, -, hrole⟩
    · exact hfragment hf hrender
    · cases role with
      | native =>
        obtain ⟨values, -, rfl⟩ := hrole
        exact ⟨_, _, rfl, .inr ⟨hf, rfl⟩⟩
      | component =>
        obtain ⟨name, slots, -, -, rfl⟩ := hrole
        exact ⟨_, _, rfl, .inr ⟨hf, rfl⟩⟩
      | dynamic constructor =>
        obtain ⟨slots, -, rfl⟩ := hrole
        exact ⟨_, _, rfl, .inr ⟨hf, rfl⟩⟩
  | slot id p name attributes children =>
    simp only [NodeRenders] at h
    rcases h.cases with ⟨facts, hf, hrender⟩ | ⟨facts, -, hf, number, options, values, -, -, -, rfl⟩
    · exact hfragment hf hrender
    · exact ⟨_, _, rfl, .inr ⟨hf, rfl⟩⟩
  | text id p parts =>
    simp only [NodeRenders] at h
    rcases h.cases with ⟨facts, hf, hrender⟩ | ⟨facts, -, hf, rfl⟩
    · exact hfragment hf hrender
    · exact ⟨_, _, rfl, .inr ⟨hf, rfl⟩⟩
  | comment id p text =>
    simp only [NodeRenders] at h
    rcases h.cases with ⟨facts, hf, hrender⟩ | ⟨facts, -, hf, rfl⟩
    · exact hfragment hf hrender
    · exact ⟨_, _, rfl, .inr ⟨hf, rfl⟩⟩
  | conditional id p chain =>
    simp only [NodeRenders] at h
    rcases h.cases with ⟨facts, hf, hrender⟩ | ⟨facts, -, hf, hchain⟩
    · exact hfragment hf hrender
    · rw [chain_isGlue hchain] at hglue
      cases hglue
  | iteration id p loop children =>
    simp only [NodeRenders] at h
    rcases h.cases with ⟨facts, hf, hrender⟩ | ⟨facts, -, hf, values, -, rfl⟩
    · exact hfragment hf hrender
    · exact ⟨_, _, rfl, .inr ⟨hf, rfl⟩⟩

/-- A call that renders a node is one of the helper for the node, or of the helper for fragments. -/
theorem helper_of_render {n : Node} {helper : Helper} {arguments : List Value}
    (h : NodeRenders sources table locals n (.call helper.localName arguments)) (hmakes : helper.makesNode = true) :
    sources.isFragment n = true ∧ helper = .staticFragment ∨
      sources.isFragment n = false ∧ helperFor? n = some helper := by
  obtain ⟨helper', arguments', heq, hcases⟩ := call_of_render h (by rw [Value.isGlue_call, hmakes]; rfl)
  obtain rfl := Helper.localName_injective (Value.call.inj heq).1
  exact hcases

/-- A component that is shown is rendered by a call with its import. -/
theorem render_component {id : Nat} {p : Text.Position} {data : ElementData} {children : List Node} {v : Value}
    (h : NodeRenders sources table locals (.element id p .component data children) v)
    (hfragment : sources.isFragment (.element id p .component data children) = false) :
    ∃ name rest, sources.imports.local? data.tag = some name ∧
      v = .call Helper.customElement.localName (.string data.tag :: .constant name :: rest) := by
  simp only [NodeRenders] at h
  rcases h.cases with ⟨facts, hf, -⟩ | ⟨facts, -, -, options, -, name, slots, hname, -, rfl⟩
  · rw [hfragment] at hf
    cases hf
  · exact ⟨name, _, hname, rfl⟩

/-- Only a component is rendered by a call that constructs one. -/
theorem component_of_render {n : Node} {arguments : List Value}
    (h : NodeRenders sources table locals n (.call Helper.customElement.localName arguments)) :
    ∃ tag name rest, sources.imports.local? tag = some name ∧ arguments = .string tag :: .constant name :: rest := by
  rcases helper_of_render h rfl with ⟨-, hhelper⟩ | ⟨hfragment, hhelper⟩
  · cases hhelper
  · cases n with
    | element id p role data children =>
      cases role with
      | component =>
        obtain ⟨name, rest, hname, heq⟩ := render_component h hfragment
        exact ⟨data.tag, name, rest, hname, (Value.call.inj heq).2⟩
      | native => cases hhelper
      | dynamic constructor => cases hhelper
    | _ => cases hhelper

/-- A function is that of an iteration, and takes the names that the iteration binds. -/
theorem function_of_render {n : Node} {iterable w : Value}
    (h : NodeRenders sources table locals n (.call Helper.iterator.localName [iterable, w])) :
    ∃ id p loop children body, n = .iteration id p loop children ∧ w = .function loop.names body := by
  rcases helper_of_render h rfl with ⟨-, hhelper⟩ | ⟨hfragment, hhelper⟩
  · cases hhelper
  · cases n with
    | iteration id p loop children =>
      simp only [NodeRenders] at h
      rcases h.cases with ⟨facts, hf, -⟩ | ⟨facts, -, -, values, -, heq⟩
      · rw [hfragment] at hf
        cases hf
      · have harguments := (Value.call.inj heq).2
        exact ⟨id, p, loop, children, arrayOf children values, rfl, by simpa using (List.cons.inj harguments).2⟩
    | element id p role data children => cases role <;> cases hhelper
    | _ => cases hhelper

end Render

/-! ## Modules -/

/-- A module has what its body mentions, in the order of the first mentions, and nothing else. -/
structure Render.RenderModule.IsExact (m : RenderModule) : Prop where
  helpers : m.helpers = m.body.mentions.helpers.eraseDups
  /-- What is declared is what the body refers to, imports aside. -/
  declarations : m.hoists.names = (m.body.mentions.names.filter fun name => !m.importNames.contains name).eraseDups
  memos : m.memoNames = m.body.mentions.memos
  /-- No two listeners are kept under one name. -/
  memos_nodup : m.body.mentions.memos.Nodup
  imports : ∀ name ∈ m.importNames, name ∈ m.body.mentions.names
  constructors : ∀ arguments, .call Helper.customElement.localName arguments ∈ m.body.all →
    ∃ entry ∈ m.imports, ∃ rest, arguments = .string entry.tag :: .constant entry.local :: rest
  parser : "parseFragment" ∈ m.runtimeNames ↔ ∃ h ∈ m.hoists.entries, h.kind = .fragment

namespace CompilesTo

variable {config : Config} {source : String} {t : Template} {m : RenderModule}

theorem exists_import (h : CompilesTo config source t m) {tag name : String}
    (hname : t.sources.imports.local? tag = some name) : ∃ entry ∈ m.imports, entry.tag = tag ∧ entry.local = name := by
  obtain ⟨entry, hentry, rfl⟩ := Option.map_eq_some_iff.1 hname
  have htag := List.find?_some hentry
  refine ⟨entry, ?_, by simpa using htag, rfl⟩
  rw [h.fits.imports]
  exact List.mem_of_find?_eq_some hentry

theorem constructors (h : CompilesTo config source t m) (arguments : List Value)
    (hm : .call Helper.customElement.localName arguments ∈ m.body.all) :
    ∃ entry ∈ m.imports, ∃ rest, arguments = .string entry.tag :: .constant entry.local :: rest := by
  obtain ⟨n, -, locals, v, hn, rfl | ⟨iterable, rfl⟩⟩ := h.rendersOneOf_body hm (Value.isGlue_call _ _)
  · obtain ⟨tag, name, rest, hname, rfl⟩ := component_of_render hn
    obtain ⟨entry, hentry, rfl, rfl⟩ := h.exists_import hname
    exact ⟨entry, hentry, rest, rfl⟩
  · obtain ⟨id, p, loop, children, body, -, heq⟩ := function_of_render hn
    cases heq

theorem imports_mentioned (h : CompilesTo config source t m) (name : String) (hname : name ∈ m.importNames) :
    name ∈ m.body.mentions.names := by
  obtain ⟨entry, hentry, rfl⟩ := List.mem_map.1 hname
  rw [h.fits.imports] at hentry
  -- The import is that of a component, and a component is in no fragment.
  obtain ⟨n₀, hn₀, htag⟩ := List.mem_filterMap.1 (Scoping.ImportTable.tag_mem_of_mem_ofList hentry)
  have hn : n₀.mark t.config.renderMode ∈ allNodes t.mark.nodes := by
    rw [show allNodes t.mark.nodes = _ from allNodes_markNodes _ _]
    exact List.mem_map_of_mem hn₀
  rw [← mark_importedTag? t.config.renderMode] at htag
  generalize n₀.mark t.config.renderMode = n at hn htag
  have hfree : ¬ InFragment t.sources.isFragment (allNodes t.mark.nodes) n := by
    intro hin
    obtain ⟨n₁, -, rfl, hstatic⟩ := h.isStatic_of_inFragment hin
    rw [mark_importedTag?, importedTag?_of_isStatic hstatic] at htag
    cases htag
  obtain ⟨hfragment, locals, w, hw, hrender⟩ := h.renderedIn_body hn hfree
  have hmention : .constant entry.local ∈ m.body.all := by
    refine Value.all_subset m.body w hw ?_
    cases n with
    | element id p role data children =>
      cases role with
      | component =>
        obtain ⟨name, rest, hname, rfl⟩ := render_component hrender hfragment
        have hfind : t.imports.find? entry.tag = some entry :=
          (Scoping.ImportTable.sound_ofList _).find? hentry
        obtain rfl : entry.local = name := by
          have hname : t.imports.local? data.tag = some name := hname
          rw [Option.some.inj htag, Scoping.ImportTable.local?, hfind] at hname
          exact Option.some.inj hname
        simp [Value.all, Value.allOf]
      | native => cases htag
      | dynamic constructor => cases htag
    | _ => cases htag
  rw [Value.mentions_eq]
  exact List.mem_filterMap.2 ⟨_, hmention, rfl⟩

theorem isExact (h : CompilesTo config source t m) : m.IsExact := by
  have hnoted := h.fits.noted
  constructor
  case helpers => rw [Value.mentions_eq]; exact hnoted.helpers
  case declarations =>
    rw [Value.mentions_eq, h.fits.importNames_eq]
    exact hnoted.names
  case memos => rw [Value.mentions_eq]; exact hnoted.memos
  case memos_nodup =>
    rw [Value.mentions_eq, ← hnoted.memos]
    exact List.nodup_range.map fun _ _ => memoName_injective
  case imports => exact h.imports_mentioned
  case constructors => exact h.constructors
  case parser =>
    have hparser : "parseFragment" ∈ m.runtimeNames ↔ m.hoists.hasFragments = true := by
      unfold RenderModule.runtimeNames
      split <;> simp_all
    exact hparser.trans hnoted.sound.hasFragments

end CompilesTo

end TemplateCompiler

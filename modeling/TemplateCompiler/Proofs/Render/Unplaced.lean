import TemplateCompiler.Compile
import TemplateCompiler.Proofs.Template.Unplaced
/-!
# Modules without positions

What a template is rendered as does not depend on where its nodes stand in the markup. So templates that differ in
nothing else have the same module (`renderModule_eq`).
-/

namespace TemplateCompiler

open Template Binding

namespace Render

open Emitting

/-- The sources say the same of each node: whether an iteration stands around it, and what the analysis and the imports
say. -/
structure Sources.Agree (sources sources' : Sources) : Prop where
  analysis : sources'.analysis = sources.analysis
  imports : sources'.imports = sources.imports
  iterations : ∀ id, (sources'.table.iteration? id).isNone = (sources.table.iteration? id).isNone

variable {sources sources' : Sources}

/-! ## Options -/

section Options

variable (locals : List String) (asProperty : Bool) (attributes : List Attribute) (data : ElementData) (n : Node)

theorem attributesEntry_unplaced (name : String) :
    attributesEntry locals name asProperty (attributes.map Attribute.unplaced) =
      attributesEntry locals name asProperty attributes := by
  have hentry (a : Attribute) : attributeEntry locals asProperty a.unplaced = attributeEntry locals asProperty a := rfl
  simp [attributesEntry, List.mapM_map, Function.comp_def, hentry]

theorem listenersEntry_unplaced (memoized : Bool) (listeners : List Listener) :
    listenersEntry locals memoized (listeners.map Listener.unplaced) = listenersEntry locals memoized listeners := by
  have hentry (l : Listener) : listenerEntry locals memoized l.unplaced = listenerEntry locals memoized l := rfl
  simp [listenersEntry, List.mapM_map, Function.comp_def, hentry]

theorem keyFor_unplaced (facts : Facts) : keyFor n.unplaced facts = keyFor n facts := by
  simp [keyFor]

theorem options_unplaced (h : sources.Agree sources') (facts : Facts) :
    options sources' locals n.unplaced data.unplaced facts = options sources locals n data facts := by
  unfold options
  rw [keyFor_unplaced, id_unplaced, h.iterations]
  simp only [ElementData.unplaced, attributesEntry_unplaced, listenersEntry_unplaced]
  rfl

theorem slotOptions_unplaced (facts : Facts) :
    slotOptions locals n.unplaced (attributes.map Attribute.unplaced) facts = slotOptions locals n attributes facts := by
  simp only [slotOptions, attributesEntry_unplaced, keyFor_unplaced]

end Options

/-! ## Fragments -/

theorem startTag_unplaced (data : ElementData) : startTag data.unplaced = startTag data := by
  have hmarkup (a : Attribute) : attributeMarkup a.unplaced = attributeMarkup a := rfl
  simp [startTag, ElementData.unplaced, List.mapM_map, Function.comp_def, hmarkup]

mutual

theorem markup_unplaced : ∀ n : Node, markup n.unplaced = markup n
  | .element id p role data children => by
    cases role with
    | native =>
      rw [Node.unplaced, markup, markup, startTag_unplaced, markupOfList_unplaced children]
      rfl
    | _ => rfl
  | .slot .. => rfl
  | .text .. => rfl
  | .comment .. => rfl
  | .conditional .. => rfl
  | .iteration .. => rfl

theorem markupOfList_unplaced : ∀ nodes : List Node, markupOfList (unplacedNodes nodes) = markupOfList nodes
  | [] => rfl
  | n :: ns => by rw [unplacedNodes, markupOfList, markupOfList, markup_unplaced n, markupOfList_unplaced ns]

end

theorem fragmentValue_unplaced (n : Node) (facts : Facts) : fragmentValue n.unplaced facts = fragmentValue n facts := by
  simp only [fragmentValue, markup_unplaced, keyFor_unplaced]

/-! ## Nodes -/

theorem factsFor_unplaced (h : sources.Agree sources') (n : Node) :
    factsFor sources' n.unplaced = factsFor sources n := by
  simp [factsFor, h.analysis]

theorem componentFor_eq (h : sources.Agree sources') (tag : String) :
    componentFor sources' tag = componentFor sources tag := by
  rw [componentFor, h.imports, componentFor]

theorem renderedValue_unplaced (h : sources.Agree sources') (n : Node) {render render' : Facts → Emitting Value}
    (hrender : ∀ facts, render' facts = render facts) :
    renderedValue sources' n.unplaced render' = renderedValue sources n render := by
  simp only [renderedValue, factsFor_unplaced h, fragmentValue_unplaced, hrender]

theorem arrayValue_unplaced (nodes : List Node) (values : Emitting (List Value)) :
    arrayValue (unplacedNodes nodes) values = arrayValue nodes values := by
  simp [arrayValue, unplacedNodes_eq_map, List.any_map, Function.comp_def]

theorem slotNames_unplaced (children : List Node) : slotNames (unplacedNodes children) = slotNames children := by
  simp [slotNames, unplacedNodes_eq_map, Function.comp_def]

theorem slottedValue_unplaced (children : List Node) (content : String → Emitting Value) :
    slottedValue (unplacedNodes children) content = slottedValue children content := by
  simp only [slottedValue, isEmpty_unplacedNodes, slotNames_unplaced]

theorem filter_unplaced {keep : Node → Bool} (hkeep : ∀ n : Node, keep n.unplaced = keep n) (nodes : List Node) :
    (unplacedNodes nodes).filter keep = unplacedNodes (nodes.filter keep) := by
  simp [unplacedNodes_eq_map, List.filter_map, Function.comp_def, hkeep]

mutual

theorem nodeValue_unplaced (h : sources.Agree sources') : ∀ (n : Node) (locals : List String),
    nodeValue sources' locals n.unplaced = nodeValue sources locals n
  | .element id p role data children, locals => by
    have hslot (name : String) (n : Node) : (n.unplaced.slotTarget == name) = (n.slotTarget == name) := by simp
    have hoptions := options_unplaced locals data (.element id p role data children) h
    have hcontent (name : String) :
        arrayValue ((unplacedNodes children).filter (·.slotTarget == name))
            (nodeValues sources' locals (·.slotTarget == name) (unplacedNodes children)) =
          arrayValue (children.filter (·.slotTarget == name))
            (nodeValues sources locals (·.slotTarget == name) children) := by
      rw [filter_unplaced (hslot name), arrayValue_unplaced, nodeValues_unplaced h children locals (hslot name)]
    rw [Node.unplaced, nodeValue, nodeValue]
    refine renderedValue_unplaced h (.element id p role data children) fun facts => ?_
    have hall := @nodeValues_unplaced h children locals (fun _ => true) fun _ => rfl
    cases role with
    | native =>
      simp only [← hoptions, Node.unplaced, arrayValue_unplaced, hall]
      rfl
    | component =>
      simp only [← hoptions, Node.unplaced, slottedValue_unplaced, hcontent, componentFor_eq h]
      rfl
    | dynamic constructor =>
      simp only [← hoptions, Node.unplaced, slottedValue_unplaced, hcontent]
      rfl
  | .slot id p name attributes children, locals => by
    have hoptions := slotOptions_unplaced locals attributes (.slot id p name attributes children)
    rw [Node.unplaced, nodeValue, nodeValue]
    refine renderedValue_unplaced h (.slot id p name attributes children) fun facts => ?_
    have hall := @nodeValues_unplaced h children locals (fun _ => true) fun _ => rfl
    simp only [← hoptions, Node.unplaced, arrayValue_unplaced, hall]
  | .text id p parts, locals => by
    rw [Node.unplaced, nodeValue, nodeValue]
    exact renderedValue_unplaced h (.text id p parts) fun _ => rfl
  | .comment id p text, locals => by
    rw [Node.unplaced, nodeValue, nodeValue]
    exact renderedValue_unplaced h (.comment id p text) fun _ => rfl
  | .conditional id p chain, locals => by
    rw [Node.unplaced, nodeValue, nodeValue]
    exact renderedValue_unplaced h (.conditional id p chain) fun _ => chainValue_unplaced h chain locals
  | .iteration id p loop children, locals => by
    rw [Node.unplaced, nodeValue, nodeValue]
    refine renderedValue_unplaced h (.iteration id p loop children) fun facts => ?_
    have hall := @nodeValues_unplaced h children (locals ++ loop.names) (fun _ => true) fun _ => rfl
    simp only [arrayValue_unplaced, hall]

theorem chainValue_unplaced (h : sources.Agree sources') : ∀ (c : Chain) (locals : List String),
    chainValue sources' locals c.unplaced = chainValue sources locals c
  | .done, locals => rfl
  | .otherwise children, locals => by
    rw [Chain.unplaced, chainValue, chainValue, arrayValue_unplaced, nodeValues_unplaced h children locals fun _ => rfl]
  | .branch test negate children next, locals => by
    rw [Chain.unplaced, chainValue, chainValue, arrayValue_unplaced, nodeValues_unplaced h children locals fun _ => rfl,
      chainValue_unplaced h next locals]

theorem nodeValues_unplaced (h : sources.Agree sources') :
    ∀ (nodes : List Node) (locals : List String) {keep : Node → Bool},
    (∀ n : Node, keep n.unplaced = keep n) →
    nodeValues sources' locals keep (unplacedNodes nodes) = nodeValues sources locals keep nodes
  | [], locals, keep, hkeep => rfl
  | n :: ns, locals, keep, hkeep => by
    rw [unplacedNodes, nodeValues, nodeValues, hkeep n, nodeValue_unplaced h n locals,
      nodeValues_unplaced h ns locals hkeep]

end

theorem bodyValue_unplaced (h : sources.Agree sources') (nodes : List Node) :
    bodyValue sources' (unplacedNodes nodes) = bodyValue sources nodes := by
  rw [bodyValue, bodyValue, arrayValue_unplaced, nodeValues_unplaced h nodes [] fun _ => rfl]

end Render

/-! ## Modules -/

open Render

/-- Templates differ in nothing but where their nodes stand, what is wrong with them, and the labels of their nodes. -/
structure Template.SameNodes (t t' : Template) : Prop where
  config : t'.config = t.config
  slots : t'.slots = t.slots
  nodes : unplacedNodes t'.nodes = unplacedNodes t.nodes
  iterations : ∀ id, (t'.table.iteration? id).isNone = (t.table.iteration? id).isNone

namespace Template.SameNodes

variable {t t' : Template} (h : t.SameNodes t')

include h

theorem analysis : t'.analysis = t.analysis := by
  rw [Template.analysis, h.config, ← analyze_unplaced, h.nodes, analyze_unplaced, Template.analysis]

theorem imports : t'.imports = t.imports := by
  rw [Template.imports, ← importTable_unplaced, h.nodes, importTable_unplaced, Template.imports]

theorem ids : t'.ids = t.ids := by
  rw [Template.ids, h.config, ← idTable_unplaced, h.nodes, idTable_unplaced, Template.ids]

/-- They have the same module under the same token. -/
theorem toModule_eq (token : Option String) :
    t'.mark.toModule t'.analysis t'.imports token = t.mark.toModule t.analysis t.imports token := by
  have hagree : (⟨t.analysis, t.table, t.imports⟩ : Sources).Agree ⟨t'.analysis, t'.table, t'.imports⟩ :=
    ⟨h.analysis, h.imports, h.iterations⟩
  have hself : (⟨t'.analysis, t'.table, t'.imports⟩ : Sources).Agree ⟨t'.analysis, t'.table, t'.imports⟩ :=
    ⟨rfl, rfl, fun _ => rfl⟩
  have hnodes : unplacedNodes t'.mark.nodes = unplacedNodes t.mark.nodes := by
    simp only [Template.mark, ← markNodes_unplaced, h.nodes, h.config]
  have hbody : bodyValue ⟨t'.analysis, t'.table, t'.imports⟩ t'.mark.nodes =
      bodyValue ⟨t.analysis, t.table, t.imports⟩ t.mark.nodes := by
    rw [← bodyValue_unplaced hself, hnodes, bodyValue_unplaced hagree]
  unfold toModule
  simp only [Template.mark] at hbody ⊢
  rw [hbody, h.config, h.slots, h.imports]

end Template.SameNodes

end TemplateCompiler

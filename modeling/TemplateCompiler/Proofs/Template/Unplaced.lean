import TemplateCompiler.Scoping.Resolve
import TemplateCompiler.Template.Analysis
/-!
# Templates without positions

The nodes of a template know where they stand in the markup. Nothing that is found out about them depends on it: which
keys they have, what is static, which ids they name and which components they import (`analyze_unplaced`,
`markNodes_unplaced`).
-/

namespace TemplateCompiler.Template

open Text (Position)

/-! ## Forgetting positions -/

/-- The attribute at the first position. -/
def Attribute.unplaced (a : Attribute) : Attribute :=
  { a with position := .first }

/-- The listener at the first position. -/
def Listener.unplaced (l : Listener) : Listener :=
  { l with position := .first }

/-- The element with all that it has at the first position. -/
def ElementData.unplaced (data : ElementData) : ElementData :=
  { data with
    attributes := data.attributes.map Attribute.unplaced
    properties := data.properties.map Attribute.unplaced
    listeners := data.listeners.map Listener.unplaced }

mutual

/-- The node with all that is in it at the first position. -/
def Node.unplaced : Node → Node
  | .element id _ role data children => .element id .first role data.unplaced (unplacedNodes children)
  | .slot id _ name attributes children =>
    .slot id .first name (attributes.map Attribute.unplaced) (unplacedNodes children)
  | .text id _ parts => .text id .first parts
  | .comment id _ text => .comment id .first text
  | .conditional id _ chain => .conditional id .first chain.unplaced
  | .iteration id _ loop children => .iteration id .first loop (unplacedNodes children)

/-- The chain with all that is in it at the first position. -/
def Chain.unplaced : Chain → Chain
  | .done => .done
  | .otherwise children => .otherwise (unplacedNodes children)
  | .branch test negate children next => .branch test negate (unplacedNodes children) next.unplaced

/-- The nodes with all that is in them at the first position. -/
def unplacedNodes : List Node → List Node
  | [] => []
  | n :: ns => n.unplaced :: unplacedNodes ns

end

theorem unplacedNodes_eq_map (nodes : List Node) : unplacedNodes nodes = nodes.map Node.unplaced := by
  induction nodes with
  | nil => rfl
  | cons n ns ih => rw [unplacedNodes, ih, List.map_cons]

theorem unplacedNodes_append (xs ys : List Node) : unplacedNodes (xs ++ ys) = unplacedNodes xs ++ unplacedNodes ys := by
  simp [unplacedNodes_eq_map]

@[simp] theorem isEmpty_unplacedNodes (nodes : List Node) : (unplacedNodes nodes).isEmpty = nodes.isEmpty := by
  simp [unplacedNodes_eq_map]

/-! ## Nodes by themselves -/

section Nodes

variable (mode : RenderMode) (a : Attribute) (data : ElementData) (n : Node)

@[simp] theorem reference?_unplaced : a.unplaced.reference? = a.reference? := rfl

@[simp] theorem needsScoping_unplaced : a.unplaced.needsScoping mode = a.needsScoping mode := rfl

theorem mark_attribute_unplaced : a.unplaced.mark mode = (a.mark mode).unplaced := by
  unfold Attribute.mark
  rw [needsScoping_unplaced]
  split <;> rfl

theorem markProperty_unplaced : a.unplaced.markProperty mode = (a.markProperty mode).unplaced := by
  have hname : a.unplaced.name = a.name := rfl
  unfold Attribute.markProperty
  rw [needsScoping_unplaced, hname]
  split <;> rfl

theorem isBound_unplaced : data.unplaced.isBound = data.isBound := by
  simp [ElementData.isBound, ElementData.unplaced, List.any_map, Function.comp_def, Attribute.unplaced]

theorem isPlain_unplaced : data.unplaced.isPlain mode = data.isPlain mode := by
  simp [ElementData.isPlain, ElementData.unplaced, List.any_map, Function.comp_def]

theorem hints_data_unplaced : data.unplaced.hints = data.hints := by
  simp only [ElementData.hints, ElementData.unplaced, List.isEmpty_map]
  rfl

theorem mark_data_unplaced : data.unplaced.mark mode = (data.mark mode).unplaced := by
  simp [ElementData.mark, ElementData.unplaced, Function.comp_def, mark_attribute_unplaced, markProperty_unplaced]

@[simp] theorem id_unplaced : n.unplaced.id = n.id := by
  cases n <;> rfl

@[simp] theorem isKeyed_unplaced : n.unplaced.isKeyed = n.isKeyed := by
  cases n <;> rfl

@[simp] theorem isDirective_unplaced : n.unplaced.isDirective = n.isDirective := by
  cases n <;> rfl

@[simp] theorem kind_unplaced : n.unplaced.kind = n.kind := by
  cases n <;> rfl

theorem isDynamic_unplaced : n.unplaced.isDynamic = n.isDynamic := by
  cases n with
  | element id p role data children => cases role <;> first | rfl | exact isBound_unplaced data
  | _ => rfl

theorem ownHints_unplaced : n.unplaced.ownHints = n.ownHints := by
  cases n with
  | element id p role data children =>
    cases role <;> simp [Node.unplaced, Node.ownHints, hints_data_unplaced]
  | slot => simp [Node.unplaced, Node.ownHints]
  | _ => rfl

theorem ids_unplaced : n.unplaced.ids mode = n.ids mode := by
  have hids (a : Attribute) : a.unplaced.ids mode = a.ids mode := rfl
  have hproperty (a : Attribute) : a.unplaced.propertyIds mode = a.propertyIds mode := rfl
  cases n <;> simp [Node.unplaced, Node.ids, ElementData.unplaced, List.flatMap_map, hids, hproperty]

theorem importedTag?_unplaced : n.unplaced.importedTag? = n.importedTag? := by
  cases n with
  | element id p role data children => cases role <;> rfl
  | _ => rfl

theorem slotTarget?_unplaced (attributes : List Attribute) :
    slotTarget? (attributes.map Attribute.unplaced) = slotTarget? attributes := by
  have hfind : attribute? (attributes.map Attribute.unplaced) "slot" = (attribute? attributes "slot").map Attribute.unplaced :=
    List.find?_map
  rw [slotTarget?, hfind, slotTarget?, Option.map_map]
  rfl

theorem firstLiteralSlot?_unplaced (attributes : List Attribute) :
    firstLiteralSlot? (attributes.map Attribute.unplaced) = firstLiteralSlot? attributes := by
  rw [firstLiteralSlot?, List.findSome?_map]
  rfl

end Nodes

/-! ## What is found out about nodes -/

section Trees

variable (mode : RenderMode)

mutual

theorem isStatic_unplaced : ∀ n : Node, n.unplaced.isStatic mode = n.isStatic mode
  | .element id p role data children => by
    cases role with
    | native =>
      rw [Node.unplaced, Node.isStatic, Node.isStatic, isBound_unplaced, isPlain_unplaced, areStatic_unplaced children]
    | _ => rfl
  | .slot .. => rfl
  | .text .. => rfl
  | .comment .. => rfl
  | .conditional .. => rfl
  | .iteration .. => rfl

theorem areStatic_unplaced : ∀ nodes : List Node, areStatic mode (unplacedNodes nodes) = areStatic mode nodes
  | [] => rfl
  | n :: ns => by rw [unplacedNodes, areStatic, areStatic, isStatic_unplaced n, areStatic_unplaced ns]

end

mutual

theorem isDynamicBelow_unplaced : ∀ n : Node, n.unplaced.isDynamicBelow = n.isDynamicBelow
  | .element _ _ _ _ children => areDynamic_unplaced children
  | .slot _ _ _ _ children => areDynamic_unplaced children
  | .text .. => rfl
  | .comment .. => rfl
  | .conditional _ _ chain => isDynamic_chain_unplaced chain
  | .iteration _ _ _ children => areDynamic_unplaced children

theorem isDynamic_chain_unplaced : ∀ c : Chain, c.unplaced.isDynamic = c.isDynamic
  | .done => rfl
  | .otherwise children => areDynamic_unplaced children
  | .branch test negate children next => by
    rw [Chain.unplaced, Chain.isDynamic, Chain.isDynamic, areDynamic_unplaced children, isDynamic_chain_unplaced next]

theorem areDynamic_unplaced : ∀ nodes : List Node, areDynamic (unplacedNodes nodes) = areDynamic nodes
  | [] => rfl
  | n :: ns => by
    rw [unplacedNodes, areDynamic, areDynamic, isDynamic_unplaced, isDynamicBelow_unplaced n, areDynamic_unplaced ns]

end

theorem plainFacts_unplaced (key : Nat) (n : Node) : n.unplaced.plainFacts mode key = n.plainFacts mode key := by
  rw [Node.plainFacts, Node.plainFacts, Node.hints, Node.hints, isKeyed_unplaced, ownHints_unplaced, isStatic_unplaced,
    isDynamicBelow_unplaced, isDynamic_unplaced]

mutual

theorem visit_unplaced : ∀ (n : Node) (key : Nat), n.unplaced.visit mode key = n.visit mode key
  | .element id p role data children, key => by
    have hfacts := plainFacts_unplaced mode key (.element id p role data children)
    rw [Node.unplaced] at hfacts ⊢
    rw [Node.visit, Node.visit, hfacts, visitNodes_unplaced children]
    rfl
  | .slot id p name attributes children, key => by
    have hfacts := plainFacts_unplaced mode key (.slot id p name attributes children)
    rw [Node.unplaced] at hfacts ⊢
    rw [Node.visit, Node.visit, hfacts, visitNodes_unplaced children]
    rfl
  | .text .., key => rfl
  | .comment .., key => rfl
  | .conditional id p chain, key => by
    have hfacts := plainFacts_unplaced mode key (.conditional id p chain)
    rw [Node.unplaced] at hfacts ⊢
    rw [Node.visit, Node.visit, hfacts, visit_chain_unplaced chain]
  | .iteration id p loop children, key => by
    have hfacts := plainFacts_unplaced mode key (.iteration id p loop children)
    rw [Node.unplaced] at hfacts ⊢
    rw [Node.visit, Node.visit, hfacts, visitNodes_unplaced children]

theorem visit_chain_unplaced : ∀ (c : Chain) (key : Nat), c.unplaced.visit mode key = c.visit mode key
  | .done, key => rfl
  | .otherwise children, key => visitNodes_unplaced children key
  | .branch test negate children next, key => by
    rw [Chain.unplaced, Chain.visit, Chain.visit, visitNodes_unplaced children]
    dsimp only
    rw [visit_chain_unplaced next]

theorem visitNodes_unplaced : ∀ (nodes : List Node) (key : Nat),
    visitNodes mode key (unplacedNodes nodes) = visitNodes mode key nodes
  | [], key => rfl
  | n :: ns, key => by
    rw [unplacedNodes, visitNodes, visitNodes, visit_unplaced n]
    dsimp only
    rw [visitNodes_unplaced ns]

end

mutual

theorem markFragments_unplaced : ∀ (n : Node) (analysis : Analysis),
    n.unplaced.markFragments analysis = n.markFragments analysis
  | .element id p role data children, analysis => by
    cases role with
    | native =>
      rw [Node.unplaced, Node.markFragments, Node.markFragments, markFragmentsIn_unplaced children]
      rfl
    | component => exact markFragmentsIn_unplaced children analysis
    | dynamic constructor => exact markFragmentsIn_unplaced children analysis
  | .slot _ _ _ _ children, analysis => markFragmentsIn_unplaced children analysis
  | .text .., _ => rfl
  | .comment .., _ => rfl
  | .conditional _ _ chain, analysis => markFragments_chain_unplaced chain analysis
  | .iteration _ _ _ children, analysis => markFragmentsIn_unplaced children analysis

theorem markFragments_chain_unplaced : ∀ (c : Chain) (analysis : Analysis),
    c.unplaced.markFragments analysis = c.markFragments analysis
  | .done, _ => rfl
  | .otherwise children, analysis => markFragmentsIn_unplaced children analysis
  | .branch test negate children next, analysis => by
    rw [Chain.unplaced, Chain.markFragments, Chain.markFragments, markFragmentsIn_unplaced children,
      markFragments_chain_unplaced next]

theorem markFragmentsIn_unplaced : ∀ (nodes : List Node) (analysis : Analysis),
    markFragmentsIn analysis (unplacedNodes nodes) = markFragmentsIn analysis nodes
  | [], _ => rfl
  | n :: ns, analysis => by
    rw [unplacedNodes, markFragmentsIn, markFragmentsIn, markFragments_unplaced n, markFragmentsIn_unplaced ns]

end

/-- What an analysis knows does not depend on where the nodes stand. -/
theorem analyze_unplaced (config : Config) (nodes : List Node) :
    analyze config (unplacedNodes nodes) = analyze config nodes := by
  simp only [analyze, visitNodes_unplaced, markFragmentsIn_unplaced]

mutual

theorem all_unplaced : ∀ n : Node, n.unplaced.all = n.all.map Node.unplaced
  | .element id p role data children => by
    rw [Node.unplaced, Node.all, Node.all, allNodes_unplaced children, List.map_cons, Node.unplaced]
  | .slot id p name attributes children => by
    rw [Node.unplaced, Node.all, Node.all, allNodes_unplaced children, List.map_cons, Node.unplaced]
  | .text .. => rfl
  | .comment .. => rfl
  | .conditional id p chain => by
    rw [Node.unplaced, Node.all, Node.all, chainAll_unplaced chain, List.map_cons, Node.unplaced]
  | .iteration id p loop children => by
    rw [Node.unplaced, Node.all, Node.all, allNodes_unplaced children, List.map_cons, Node.unplaced]

theorem chainAll_unplaced : ∀ c : Chain, c.unplaced.all = c.all.map Node.unplaced
  | .done => rfl
  | .otherwise children => allNodes_unplaced children
  | .branch test negate children next => by
    rw [Chain.unplaced, Chain.all, Chain.all, allNodes_unplaced children, chainAll_unplaced next, List.map_append]

theorem allNodes_unplaced : ∀ nodes : List Node, allNodes (unplacedNodes nodes) = (allNodes nodes).map Node.unplaced
  | [] => rfl
  | n :: ns => by rw [unplacedNodes, allNodes, allNodes, all_unplaced n, allNodes_unplaced ns, List.map_append]

end

theorem idTable_unplaced (nodes : List Node) : idTable mode (unplacedNodes nodes) = idTable mode nodes := by
  simp [idTable, allNodes_unplaced, List.flatMap_map, ids_unplaced]

theorem importTable_unplaced (nodes : List Node) : importTable (unplacedNodes nodes) = importTable nodes := by
  rw [importTable, allNodes_unplaced, List.filterMap_map,
    show Node.importedTag? ∘ Node.unplaced = Node.importedTag? from funext importedTag?_unplaced, importTable]

mutual

theorem mark_unplaced : ∀ n : Node, n.unplaced.mark mode = (n.mark mode).unplaced
  | .element id p role data children => by
    rw [Node.unplaced, Node.mark, Node.mark, Node.unplaced, mark_data_unplaced, markNodes_unplaced children]
  | .slot id p name attributes children => by
    rw [Node.unplaced, Node.mark, Node.mark, Node.unplaced, markNodes_unplaced children]
    simp [Function.comp_def, mark_attribute_unplaced]
  | .text .. => rfl
  | .comment .. => rfl
  | .conditional id p chain => by
    rw [Node.unplaced, Node.mark, Node.mark, Node.unplaced, mark_chain_unplaced chain]
  | .iteration id p loop children => by
    rw [Node.unplaced, Node.mark, Node.mark, Node.unplaced, markNodes_unplaced children]

theorem mark_chain_unplaced : ∀ c : Chain, c.unplaced.mark mode = (c.mark mode).unplaced
  | .done => rfl
  | .otherwise children => by
    rw [Chain.unplaced, Chain.mark, Chain.mark, Chain.unplaced, markNodes_unplaced children]
  | .branch test negate children next => by
    rw [Chain.unplaced, Chain.mark, Chain.mark, Chain.unplaced, markNodes_unplaced children, mark_chain_unplaced next]

theorem markNodes_unplaced : ∀ nodes : List Node,
    markNodes mode (unplacedNodes nodes) = unplacedNodes (markNodes mode nodes)
  | [] => rfl
  | n :: ns => by rw [unplacedNodes, markNodes, markNodes, unplacedNodes, mark_unplaced n, markNodes_unplaced ns]

end

mutual

@[simp] theorem slotTarget_unplaced : ∀ n : Node, n.unplaced.slotTarget = n.slotTarget
  | .element _ _ _ data _ => congrArg (·.getD "") (slotTarget?_unplaced data.attributes)
  | .slot _ _ _ attributes _ => congrArg (·.getD "") (firstLiteralSlot?_unplaced attributes)
  | .text .. => rfl
  | .comment .. => rfl
  | .conditional _ _ chain => congrArg (·.getD "") (slotTarget?_chain_unplaced chain)
  | .iteration _ _ _ children => congrArg (·.getD "") (firstSlotTarget?_unplaced children)

theorem slotTarget?_chain_unplaced : ∀ c : Chain, c.unplaced.slotTarget? = c.slotTarget?
  | .done => rfl
  | .otherwise children => firstSlotTarget?_unplaced children
  | .branch test negate children next => by
    rw [Chain.unplaced, Chain.slotTarget?, Chain.slotTarget?, firstSlotTarget?_unplaced children,
      slotTarget?_chain_unplaced next]

theorem firstSlotTarget?_unplaced : ∀ nodes : List Node, firstSlotTarget? (unplacedNodes nodes) = firstSlotTarget? nodes
  | [] => rfl
  | n :: _ => congrArg some (slotTarget_unplaced n)

end

end Trees

end TemplateCompiler.Template

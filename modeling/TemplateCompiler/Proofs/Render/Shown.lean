import TemplateCompiler.Proofs.Render.Modules
import TemplateCompiler.Proofs.Template.Ancestors
/-!
# Nodes and the values they are shown by

In a body, each node that is not below a fragment is rendered by itself, with the names that are bound at its site, and
besides the calls that render nodes, and the functions of iterations, there is nothing in a body but what holds those
together.
-/

namespace TemplateCompiler.Template

/-! ## Nodes that are shown -/

section Shown

variable (isFragment : Node → Bool)

mutual

/-- The nodes of a tree that are not below a fragment, each before those below it. -/
def Node.shown : Node → List Node
  | .element id p role data children => .element id p role data children ::
    if isFragment (.element id p role data children) then [] else shownNodes children
  | .slot id p name attributes children => .slot id p name attributes children ::
    if isFragment (.slot id p name attributes children) then [] else shownNodes children
  | .text id p parts => [.text id p parts]
  | .comment id p text => [.comment id p text]
  | .conditional id p chain => .conditional id p chain ::
    if isFragment (.conditional id p chain) then [] else chain.shown
  | .iteration id p loop children => .iteration id p loop children ::
    if isFragment (.iteration id p loop children) then [] else shownNodes children

/-- The nodes in the branches of a chain that are not below a fragment. -/
def Chain.shown : Chain → List Node
  | .done => []
  | .otherwise children => shownNodes children
  | .branch _ _ children next => shownNodes children ++ next.shown

/-- The nodes of some trees that are not below a fragment. -/
def shownNodes : List Node → List Node
  | [] => []
  | n :: ns => n.shown ++ shownNodes ns

end

theorem Node.self_mem_shown (n : Node) : n ∈ n.shown isFragment := by
  cases n <;> simp [Node.shown]

theorem Node.self_mem_all (n : Node) : n ∈ n.all := by
  cases n <;> simp [Node.all]

theorem mem_shownNodes {m : Node} {nodes : List Node} :
    m ∈ shownNodes isFragment nodes ↔ ∃ n ∈ nodes, m ∈ n.shown isFragment := by
  induction nodes with
  | nil => simp [shownNodes]
  | cons n ns ih => simp [shownNodes, ih]

mutual

theorem shown_subset_all : ∀ n : Node, n.shown isFragment ⊆ n.all
  | .element id p role data children => by
    refine List.cons_subset_cons _ ?_
    split
    · exact List.nil_subset _
    · exact shownNodes_subset_allNodes children
  | .slot id p name attributes children => by
    refine List.cons_subset_cons _ ?_
    split
    · exact List.nil_subset _
    · exact shownNodes_subset_allNodes children
  | .text id p parts => List.Subset.refl _
  | .comment id p text => List.Subset.refl _
  | .conditional id p chain => by
    refine List.cons_subset_cons _ ?_
    split
    · exact List.nil_subset _
    · exact shownChain_subset_all chain
  | .iteration id p loop children => by
    refine List.cons_subset_cons _ ?_
    split
    · exact List.nil_subset _
    · exact shownNodes_subset_allNodes children

theorem shownChain_subset_all : ∀ c : Chain, c.shown isFragment ⊆ c.all
  | .done => List.Subset.refl _
  | .otherwise children => shownNodes_subset_allNodes children
  | .branch test negate children next => by
    refine List.append_subset.2 ⟨?_, ?_⟩
    · exact List.subset_append_of_subset_left _ (shownNodes_subset_allNodes children)
    · exact List.subset_append_of_subset_right _ (shownChain_subset_all next)

theorem shownNodes_subset_allNodes : ∀ nodes : List Node, shownNodes isFragment nodes ⊆ allNodes nodes
  | [] => List.Subset.refl _
  | n :: ns => by
    refine List.append_subset.2 ⟨?_, ?_⟩
    · exact List.subset_append_of_subset_left _ (shown_subset_all n)
    · exact List.subset_append_of_subset_right _ (shownNodes_subset_allNodes ns)

end

/-- The node is in one that is a fragment, or is one. -/
def InFragment (nodes : List Node) (m : Node) : Prop :=
  ∃ n ∈ nodes, isFragment n = true ∧ m ∈ n.all

theorem InFragment.mono {nodes nodes' : List Node} {m : Node} (h : InFragment isFragment nodes m)
    (hsub : nodes ⊆ nodes') : InFragment isFragment nodes' m := by
  obtain ⟨n, hn, hrest⟩ := h
  exact ⟨n, hsub hn, hrest⟩

end Shown

end TemplateCompiler.Template

namespace TemplateCompiler.Render

open TemplateCompiler.Template TemplateCompiler.Binding

/-! ## What holds calls together -/

/-- Whether a call of the helper renders a node. -/
def Helper.makesNode : Helper → Bool
  | .element | .text | .customElement | .dynamicComponent | .slot | .staticFragment | .iterator | .comment => true
  | _ => false

namespace Value

/-- Whether a value, what is in it aside, neither renders a node nor is the function of an iteration. -/
def isGlue : Value → Bool
  | .call callee _ => !(Helper.named? callee).any Helper.makesNode
  | .function .. => false
  | _ => true

/-- Nothing in a value renders a node. -/
def IsPlain (v : Value) : Prop :=
  ∀ w ∈ v.all, w.isGlue = true

theorem isGlue_call (helper : Helper) (arguments : List Value) :
    (Value.call helper.localName arguments).isGlue = !helper.makesNode := by
  simp [isGlue, Helper.named?_localName]

theorem isPlain_object {entries : List (String × Value)} :
    (Value.object entries).IsPlain ↔ ∀ entry ∈ entries, entry.2.IsPlain := by
  simp only [IsPlain, all, List.mem_cons, mem_allUnder]
  constructor
  · exact fun h entry hm w hw => h w (.inr ⟨entry, hm, hw⟩)
  · rintro h w (rfl | ⟨entry, hm, hw⟩)
    · rfl
    · exact h entry hm w hw

theorem isPlain_array {items : List Value} : (Value.array items).IsPlain ↔ ∀ v ∈ items, v.IsPlain := by
  simp only [IsPlain, all, List.mem_cons, mem_allOf]
  constructor
  · exact fun h v hm w hw => h w (.inr ⟨v, hm, hw⟩)
  · rintro h w (rfl | ⟨v, hm, hw⟩)
    · rfl
    · exact h v hm w hw

theorem isPlain_call {helper : Helper} {arguments : List Value} (hh : helper.makesNode = false)
    (h : ∀ v ∈ arguments, v.IsPlain) : (Value.call helper.localName arguments).IsPlain := by
  intro w hw
  rcases List.mem_cons.1 hw with rfl | hw
  · rw [isGlue_call, hh]
    rfl
  · obtain ⟨v, hm, hw⟩ := mem_allOf.1 hw
    exact h v hm w hw

theorem isPlain_leaf {v : Value} (hall : v.all = [v]) (hglue : v.isGlue = true) : v.IsPlain := by
  intro w hw
  rw [hall, List.mem_singleton] at hw
  rw [hw, hglue]

end Value

/-! ## Options render no nodes -/

theorem isPlain_exprValue (locals : List String) (expr : Expr) : (exprValue locals expr).IsPlain :=
  Value.isPlain_leaf rfl rfl

theorem isPlain_scopedValue (locals : List String) (asProperty : Bool) (a : Attribute) :
    (scopedValue locals asProperty a).IsPlain := by
  have hplain : (plainValue locals asProperty a.value).IsPlain := by
    cases a.value with
    | literal text => exact Value.isPlain_leaf rfl rfl
    | boolean value =>
      simp only [plainValue]
      split <;> exact Value.isPlain_leaf rfl rfl
    | expression expr => exact isPlain_exprValue locals expr
  unfold scopedValue
  split
  · exact Value.isPlain_call rfl (by simpa using hplain)
  · exact Value.isPlain_call rfl (by simpa using hplain)
  · exact hplain

theorem isPlain_attributesOption (locals : List String) (name : String) (asProperty : Bool)
    (attributes : List Attribute) :
    ∀ entry ∈ attributesOption locals name asProperty attributes, entry.2.IsPlain := by
  unfold attributesOption
  split
  · simp
  · simpa [Value.isPlain_object] using fun a _ => isPlain_scopedValue locals asProperty a

theorem isPlain_classOption (locals : List String) (classes : Option ClassBinding) :
    ∀ entry ∈ classOption locals classes, entry.2.IsPlain := by
  rcases classes with _ | names | expr
  · simp [classOption]
  · simpa [classOption, Value.isPlain_object] using fun _ _ => Value.isPlain_leaf rfl rfl
  · simpa [classOption] using Value.isPlain_call rfl (by simpa using isPlain_exprValue locals expr)

theorem isPlain_styleEntry (locals : List String) (style : Option StyleBinding) :
    ∀ entry ∈ styleEntry locals style, entry.2.IsPlain := by
  rcases style with _ | declarations | expr
  · simp [styleEntry]
  · have hdeclaration (d : StyleDeclaration) : (declarationValue d).IsPlain := by
      simp only [declarationValue, Value.isPlain_array, List.forall_mem_cons]
      exact ⟨Value.isPlain_leaf rfl rfl, Value.isPlain_leaf rfl rfl, Value.isPlain_leaf rfl rfl, by simp⟩
    simpa [styleEntry, Value.isPlain_array] using fun d _ => hdeclaration d
  · simpa [styleEntry] using isPlain_exprValue locals expr

theorem isPlain_keyOption (locals : List String) (number : Nat) (key : Option Expr) :
    (keyOption locals number key).IsPlain := by
  cases key with
  | none => exact Value.isPlain_leaf rfl rfl
  | some expr =>
    refine Value.isPlain_call rfl ?_
    simpa using ⟨Value.isPlain_leaf rfl rfl, isPlain_exprValue locals expr⟩

theorem isPlain_elementOptions (locals : List String) (data : ElementData) (number : Nat) :
    ∀ entry ∈ elementOptions locals data number, entry.2.IsPlain := by
  intro entry hm
  simp only [elementOptions, List.mem_append] at hm
  rcases hm with ((((hm | hm) | hm) | hm) | hm) | hm
  · exact isPlain_attributesOption _ _ _ _ entry hm
  · exact isPlain_attributesOption _ _ _ _ entry hm
  · exact isPlain_classOption _ _ entry hm
  · exact isPlain_styleEntry _ _ entry hm
  · split at hm
    · rw [List.mem_singleton.1 hm]
      exact Value.isPlain_leaf rfl rfl
    · cases hm
  · rw [List.mem_singleton.1 hm]
    exact isPlain_keyOption _ _ _

theorem isPlain_listeners {locals : List String} {memoized : Bool} {listeners : List Listener}
    {entries : List (String × Value)} (h : ListenersRender locals memoized listeners entries) :
    ∀ entry ∈ entries, entry.2.IsPlain := by
  unfold ListenersRender at h
  split at h
  · simp [h]
  · obtain ⟨handlers, hhandlers, rfl⟩ := h
    simp only [List.mem_singleton, forall_eq, Value.isPlain_object]
    intro entry hm
    obtain ⟨l, -, -, hvalue⟩ := forall₂_mem_right hhandlers hm
    have hbound : (Value.call Helper.bind.localName [exprValue locals l.handler]).IsPlain :=
      Value.isPlain_call rfl (by simpa using isPlain_exprValue locals l.handler)
    split at hvalue
    · obtain ⟨n, hn⟩ := hvalue
      rw [hn]
      intro w hw
      rcases List.mem_cons.1 hw with rfl | hw
      · rfl
      · exact hbound w hw
    · rwa [hvalue]

theorem isPlain_options {table : HoistTable} {entries : List (String × Value)} {v : Value}
    (h : OptionsRender table entries v) (hentries : ∀ entry ∈ entries, entry.2.IsPlain) : v.IsPlain := by
  unfold OptionsRender at h
  split at h
  · obtain ⟨name, -, rfl⟩ := h
    exact Value.isPlain_leaf rfl rfl
  · obtain ⟨entries', hrender, rfl⟩ := h
    rw [Value.isPlain_object]
    intro entry' hm
    obtain ⟨entry, hentry, -, hvalue⟩ := forall₂_mem_right hrender hm
    split at hvalue
    · obtain ⟨name, -, hname⟩ := hvalue
      rw [hname]
      exact Value.isPlain_leaf rfl rfl
    · rw [hvalue]
      exact hentries entry hentry

theorem isPlain_elementOptionsRender {sources : Sources} {table : HoistTable} {locals : List String} {id : Nat}
    {data : ElementData} {facts : Facts} {v : Value}
    (h : ElementOptionsRender sources table locals id data facts v) : v.IsPlain := by
  obtain ⟨number, listeners, -, hlisteners, hoptions⟩ := h
  refine isPlain_options hoptions fun entry hm => ?_
  rcases List.mem_append.1 hm with hm | hm
  · exact isPlain_elementOptions _ _ _ entry hm
  · exact isPlain_listeners hlisteners entry hm

theorem isPlain_slotOptions {table : HoistTable} {locals : List String} {attributes : List Attribute} {number : Nat}
    {v : Value} (h : OptionsRender table (slotEntries locals attributes number) v) : v.IsPlain := by
  refine isPlain_options h fun entry hm => ?_
  rcases List.mem_append.1 hm with hm | hm
  · exact isPlain_attributesOption _ _ _ _ entry hm
  · rw [List.mem_singleton.1 hm]
    exact Value.isPlain_leaf rfl rfl

theorem isPlain_pieceValue (locals : List String) (part : TextPart) : (pieceValue locals part).IsPlain := by
  cases part with
  | literal text => exact Value.isPlain_leaf rfl rfl
  | expression expr => exact Value.isPlain_call rfl (by simpa using isPlain_exprValue locals expr)

theorem isPlain_joined {pieces : List Value} (h : ∀ v ∈ pieces, v.IsPlain) : (joined pieces).IsPlain := by
  unfold joined
  split
  · exact h _ (by simp)
  · intro w hw
    rcases List.mem_cons.1 hw with rfl | hw
    · rfl
    · obtain ⟨v, hm, hw⟩ := Value.mem_allOf.1 hw
      exact h v hm w hw

/-! ## Values in arrays -/

theorem mem_all_arrayOf {nodes : List Node} {values : List Value} {w : Value} (hw : w ∈ (arrayOf nodes values).all) :
    w.isGlue = true ∨ ∃ v ∈ values, w ∈ v.all := by
  have harray (hw : w ∈ (Value.array values).all) : w.isGlue = true ∨ ∃ v ∈ values, w ∈ v.all := by
    rcases List.mem_cons.1 hw with rfl | hw
    · exact .inl rfl
    · exact .inr (Value.mem_allOf.1 hw)
  unfold arrayOf at hw
  split at hw
  · rcases List.mem_cons.1 hw with rfl | hw
    · exact .inl (by rw [Value.isGlue_call]; rfl)
    · exact harray (by simpa [Value.allOf] using hw)
  · exact harray hw

theorem mem_all_arrayOf_of_mem {nodes : List Node} {values : List Value} {v w : Value} (hv : v ∈ values)
    (hw : w ∈ v.all) : w ∈ (arrayOf nodes values).all := by
  have harray : w ∈ (Value.array values).all := List.mem_cons_of_mem _ (Value.mem_allOf.2 ⟨v, hv, hw⟩)
  unfold arrayOf
  split
  · exact List.mem_cons_of_mem _ (by simpa [Value.allOf] using harray)
  · exact harray

theorem mem_all_slottedOf {children : List Node} {slots : List (String × List Value)} {w : Value}
    (hw : w ∈ (slottedOf children slots).all) : w.isGlue = true ∨ ∃ slot ∈ slots, ∃ v ∈ slot.2, w ∈ v.all := by
  unfold slottedOf at hw
  split at hw
  · exact .inl (by simp_all [Value.all, Value.isGlue])
  · rcases List.mem_cons.1 hw with rfl | hw
    · exact .inl rfl
    · obtain ⟨entry, hentry, hw⟩ := Value.mem_allUnder.1 hw
      obtain ⟨slot, hslot, rfl⟩ := List.mem_map.1 hentry
      rcases List.mem_cons.1 hw with rfl | hw
      · exact .inl rfl
      · rcases mem_all_arrayOf hw with hglue | hin
        · exact .inl hglue
        · exact .inr ⟨slot, hslot, hin⟩

theorem mem_all_slottedOf_of_mem {children : List Node} {slots : List (String × List Value)} {v w : Value}
    {slot : String × List Value} (hchildren : children ≠ []) (hslot : slot ∈ slots) (hv : v ∈ slot.2)
    (hw : w ∈ v.all) : w ∈ (slottedOf children slots).all := by
  unfold slottedOf
  rw [if_neg (by simpa using hchildren)]
  refine List.mem_cons_of_mem _ (Value.mem_allUnder.2 ⟨_, List.mem_map_of_mem hslot, ?_⟩)
  exact List.mem_cons_of_mem _ (mem_all_arrayOf_of_mem hv hw)

/-! ## Nothing but nodes is rendered -/

/-- Whether a node is rendered as a fragment. -/
def Sources.isFragment (sources : Sources) (n : Node) : Bool :=
  (sources.analysis.get? n.id).any Facts.isFragment

/-- The value is what one of the nodes is rendered as, or the function of one that is an iteration. -/
def RendersOneOf (sources : Sources) (table : HoistTable) (nodes : List Node) (w : Value) : Prop :=
  ∃ n ∈ nodes, ∃ locals v, NodeRenders sources table locals n v ∧
    (w = v ∨ ∃ iterable, v = .call Helper.iterator.localName [iterable, w])

theorem RendersOneOf.mono {sources : Sources} {table : HoistTable} {nodes nodes' : List Node} {w : Value}
    (h : RendersOneOf sources table nodes w) (hsub : nodes ⊆ nodes') : RendersOneOf sources table nodes' w := by
  obtain ⟨n, hn, rest⟩ := h
  exact ⟨n, hsub hn, rest⟩

section Soundness

variable {sources : Sources} {table : HoistTable}

/-- The nodes that a node is shown with: itself and, unless it is a fragment, those shown below it. -/
theorem RendersAs.cases {n : Node} {v : Value} {inner : Facts → Prop} (h : RendersAs sources table n v inner) :
    (∃ facts, sources.isFragment n = true ∧ FragmentRenders table n facts v) ∨
      ∃ facts, sources.analysis.get? n.id = some facts ∧ sources.isFragment n = false ∧ inner facts := by
  obtain ⟨facts, hget, hinner⟩ := h
  have hfragment : sources.isFragment n = facts.isFragment := by simp [Sources.isFragment, hget]
  split at hinner
  · rename_i hf
    exact .inl ⟨facts, hfragment.trans hf, hinner⟩
  · rename_i hf
    exact .inr ⟨facts, hget, hfragment.trans (by simpa using hf), hinner⟩

theorem FragmentRenders.isGlue (hsound : table.Sound) {n : Node} {facts : Facts} {v w : Value} (h : FragmentRenders table n facts v)
    (hw : w ∈ v.all) : w.isGlue = true ∨ w = v := by
  obtain ⟨html, name, number, -, hname, -, rfl⟩ := h
  have hother : Helper.named? name = none := hsound.named?_fragment hname
  simp only [Value.all, Value.allOf, List.append_nil, List.cons_append, List.nil_append, List.mem_cons,
    List.not_mem_nil, or_false] at hw
  rcases hw with rfl | rfl | rfl | rfl
  · exact .inr rfl
  · exact .inl (by simp [Value.isGlue, hother])
  · exact .inl rfl
  · exact .inl rfl

mutual

/-- What is in the value of a node holds calls together, or renders one of the nodes that are shown. -/
theorem rendersOneOf_node (hsound : table.Sound) (locals : List String) : ∀ n : Node, ∀ v, NodeRenders sources table locals n v →
    ∀ w ∈ v.all, w.isGlue = true ∨ RendersOneOf sources table (n.shown sources.isFragment) w
  | .element id p role data children => by
    intro v h w hw
    have hself (hw : w = v) : RendersOneOf sources table
        ((Node.element id p role data children).shown sources.isFragment) w :=
      ⟨_, Node.self_mem_shown _ _, locals, v, h, .inl hw⟩
    have hcases := h
    simp only [NodeRenders] at hcases
    rcases hcases.cases with ⟨facts, -, hfragment⟩ | ⟨facts, hget, hfragment, options, hoptions, hrole⟩
    · exact (hfragment.isGlue hsound hw).imp_right hself
    · have hbelow {w} (h : RendersOneOf sources table (shownNodes sources.isFragment children) w) :
          RendersOneOf sources table ((Node.element id p role data children).shown sources.isFragment) w := by
        refine h.mono ?_
        simp only [Node.shown, hfragment]
        exact List.subset_cons_self _ _
      have hslots {slots : List (String × List Value)}
          (hslots : SlotsRender children (fun keep => NodesRender sources table locals keep children) slots)
          (hw : w ∈ (slottedOf children slots).all) : w.isGlue = true ∨ RendersOneOf sources table
            ((Node.element id p role data children).shown sources.isFragment) w := by
        rcases mem_all_slottedOf hw with hglue | ⟨slot, hslot, v, hv, hw⟩
        · exact .inl hglue
        · exact (rendersOneOf_nodes hsound locals _ children slot.2 (hslots.2 slot hslot) v hv w hw).imp_right hbelow
      have hoptions := isPlain_elementOptionsRender hoptions
      cases role with
      | native =>
        obtain ⟨values, hvalues, rfl⟩ := hrole
        simp only [Value.all, Value.allOf, List.append_nil, List.mem_cons, List.mem_append, List.not_mem_nil,
          or_false] at hw
        rcases hw with rfl | rfl | hw | hw | rfl
        · exact .inr (hself rfl)
        · exact .inl rfl
        · exact .inl (hoptions w hw)
        · rcases mem_all_arrayOf hw with hglue | ⟨v, hv, hw⟩
          · exact .inl hglue
          · exact (rendersOneOf_nodes hsound locals _ children values hvalues v hv w hw).imp_right hbelow
        · exact .inl rfl
      | component =>
        obtain ⟨name, slots, -, hrender, rfl⟩ := hrole
        simp only [Value.all, Value.allOf, List.append_nil, List.mem_cons, List.mem_append, List.not_mem_nil,
          or_false] at hw
        rcases hw with rfl | rfl | rfl | hw | hw | rfl
        · exact .inr (hself rfl)
        · exact .inl rfl
        · exact .inl rfl
        · exact .inl (hoptions w hw)
        · exact hslots hrender hw
        · exact .inl rfl
      | dynamic constructor =>
        obtain ⟨slots, hrender, rfl⟩ := hrole
        simp only [exprValue, Value.all, Value.allOf, List.append_nil, List.mem_cons, List.mem_append,
          List.not_mem_nil, or_false] at hw
        rcases hw with rfl | rfl | rfl | hw | hw | rfl
        · exact .inr (hself rfl)
        · exact .inl rfl
        · exact .inl rfl
        · exact .inl (hoptions w hw)
        · exact hslots hrender hw
        · exact .inl rfl
  | .slot id p name attributes children => by
    intro v h w hw
    have hself (hw : w = v) : RendersOneOf sources table
        ((Node.slot id p name attributes children).shown sources.isFragment) w :=
      ⟨_, Node.self_mem_shown _ _, locals, v, h, .inl hw⟩
    have hcases := h
    simp only [NodeRenders] at hcases
    rcases hcases.cases with ⟨facts, -, hfragment⟩ |
      ⟨facts, hget, hfragment, number, options, values, -, hoptions, hvalues, rfl⟩
    · exact (hfragment.isGlue hsound hw).imp_right hself
    · simp only [Value.all, Value.allOf, List.append_nil, List.mem_cons, List.mem_append, List.not_mem_nil,
        or_false] at hw
      rcases hw with rfl | rfl | hw | hw | rfl | rfl
      · exact .inr (hself rfl)
      · exact .inl rfl
      · exact .inl (isPlain_slotOptions hoptions w hw)
      · rcases mem_all_arrayOf hw with hglue | ⟨v, hv, hw⟩
        · exact .inl hglue
        · refine (rendersOneOf_nodes hsound locals _ children values hvalues v hv w hw).imp_right fun h => h.mono ?_
          simp only [Node.shown, hfragment]
          exact List.subset_cons_self _ _
      · exact .inl rfl
      · exact .inl rfl
  | .text id p parts => by
    intro v h w hw
    have hself (hw : w = v) : RendersOneOf sources table ((Node.text id p parts).shown sources.isFragment) w :=
      ⟨_, Node.self_mem_shown _ _, locals, v, h, .inl hw⟩
    have hcases := h
    simp only [NodeRenders] at hcases
    rcases hcases.cases with ⟨facts, -, hfragment⟩ | ⟨facts, hget, hfragment, rfl⟩
    · exact (hfragment.isGlue hsound hw).imp_right hself
    · rcases List.mem_cons.1 hw with rfl | hw
      · exact .inr (hself rfl)
      · refine .inl (isPlain_joined ?_ w (by simpa [Value.allOf] using hw))
        simpa using fun part _ => isPlain_pieceValue locals part
  | .comment id p text => by
    intro v h w hw
    have hself (hw : w = v) : RendersOneOf sources table ((Node.comment id p text).shown sources.isFragment) w :=
      ⟨_, Node.self_mem_shown _ _, locals, v, h, .inl hw⟩
    have hcases := h
    simp only [NodeRenders] at hcases
    rcases hcases.cases with ⟨facts, -, hfragment⟩ | ⟨facts, hget, hfragment, rfl⟩
    · exact (hfragment.isGlue hsound hw).imp_right hself
    · rcases List.mem_cons.1 hw with rfl | hw
      · exact .inr (hself rfl)
      · obtain rfl : w = .string text := by simpa [Value.allOf, Value.all] using hw
        exact .inl rfl
  | .conditional id p chain => by
    intro v h w hw
    have hcases := h
    simp only [NodeRenders] at hcases
    rcases hcases.cases with ⟨facts, -, hfragment⟩ | ⟨facts, hget, hfragment, hchain⟩
    · refine (hfragment.isGlue hsound hw).imp_right fun hw => ?_
      exact ⟨_, Node.self_mem_shown _ _, locals, v, h, .inl hw⟩
    · refine (rendersOneOf_chain hsound locals chain v hchain w hw).imp_right fun h => h.mono ?_
      simp only [Node.shown, hfragment]
      exact List.subset_cons_self _ _
  | .iteration id p loop children => by
    intro v h w hw
    have hself (hw : w = v ∨ ∃ iterable, v = .call Helper.iterator.localName [iterable, w]) :
        RendersOneOf sources table ((Node.iteration id p loop children).shown sources.isFragment) w :=
      ⟨_, Node.self_mem_shown _ _, locals, v, h, hw⟩
    have hcases := h
    simp only [NodeRenders] at hcases
    rcases hcases.cases with ⟨facts, -, hfragment⟩ | ⟨facts, hget, hfragment, values, hvalues, rfl⟩
    · exact (hfragment.isGlue hsound hw).imp_right fun hw => hself (.inl hw)
    · simp only [exprValue, Value.all, Value.allOf, List.append_nil, List.mem_cons, List.mem_append,
        List.not_mem_nil, or_false] at hw
      rcases hw with rfl | rfl | rfl | hw
      · exact .inr (hself (.inl rfl))
      · exact .inl rfl
      · exact .inr (hself (.inr ⟨_, rfl⟩))
      · rcases mem_all_arrayOf hw with hglue | ⟨v, hv, hw⟩
        · exact .inl hglue
        · refine (rendersOneOf_nodes hsound _ _ children values hvalues v hv w hw).imp_right fun h => h.mono ?_
          simp only [Node.shown, hfragment]
          exact List.subset_cons_self _ _

theorem rendersOneOf_chain (hsound : table.Sound) (locals : List String) : ∀ c : Chain, ∀ v, ChainRenders sources table locals c v →
    ∀ w ∈ v.all, w.isGlue = true ∨ RendersOneOf sources table (c.shown sources.isFragment) w
  | .done => by
    intro v h w hw
    simp only [ChainRenders] at h
    subst h
    rw [List.mem_singleton.1 hw]
    exact .inl rfl
  | .otherwise children => by
    intro v h w hw
    simp only [ChainRenders] at h
    obtain ⟨values, hvalues, rfl⟩ := h
    rcases mem_all_arrayOf hw with hglue | ⟨v, hv, hw⟩
    · exact .inl hglue
    · exact rendersOneOf_nodes hsound locals _ children values hvalues v hv w hw
  | .branch test negate children next => by
    intro v h w hw
    simp only [ChainRenders] at h
    obtain ⟨values, alternate, hvalues, hnext, rfl⟩ := h
    simp only [Value.all, List.mem_cons, List.mem_append, List.not_mem_nil, or_false] at hw
    rcases hw with rfl | (rfl | hw) | hw
    · exact .inl rfl
    · exact .inl rfl
    · rcases mem_all_arrayOf hw with hglue | ⟨v, hv, hw⟩
      · exact .inl hglue
      · exact (rendersOneOf_nodes hsound locals _ children values hvalues v hv w hw).imp_right
          fun h => h.mono (List.subset_append_left _ _)
    · exact (rendersOneOf_chain hsound locals next alternate hnext w hw).imp_right
        fun h => h.mono (List.subset_append_right _ _)

theorem rendersOneOf_nodes (hsound : table.Sound) (locals : List String) (keep : Node → Bool) : ∀ nodes : List Node, ∀ values,
    NodesRender sources table locals keep nodes values → ∀ v ∈ values, ∀ w ∈ v.all,
      w.isGlue = true ∨ RendersOneOf sources table (shownNodes sources.isFragment nodes) w
  | [] => by
    intro values h v hv
    simp only [NodesRender] at h
    simp [h] at hv
  | n :: ns => by
    intro values h v hv w hw
    simp only [NodesRender] at h
    split at h
    · obtain ⟨v', rest, hn, hns, rfl⟩ := h
      rcases List.mem_cons.1 hv with rfl | hv
      · exact (rendersOneOf_node hsound locals n _ hn w hw).imp_right fun h => h.mono (List.subset_append_left _ _)
      · exact (rendersOneOf_nodes hsound locals keep ns rest hns v hv w hw).imp_right
          fun h => h.mono (List.subset_append_right _ _)
    · exact (rendersOneOf_nodes hsound locals keep ns values h v hv w hw).imp_right
        fun h => h.mono (List.subset_append_right _ _)

end

end Soundness

/-! ## Every node that is shown is rendered -/

section Completeness

variable {sources : Sources} {table : HoistTable}

theorem SlotsRender.exists_slot {children : List Node} {render : (Node → Bool) → List Value → Prop}
    {slots : List (String × List Value)} (h : SlotsRender children render slots) {n : Node} (hn : n ∈ children) :
    ∃ slot ∈ slots, slot.1 = n.slotTarget := by
  have hname : n.slotTarget ∈ slots.map Prod.fst := by
    rw [h.1, slotNames, List.mem_eraseDups]
    exact List.mem_map_of_mem hn
  obtain ⟨slot, hslot, heq⟩ := List.mem_map.1 hname
  exact ⟨slot, hslot, heq⟩

/-- The site is below no fragment. -/
def Sources.Shows (sources : Sources) (s : Site) : Prop :=
  ∀ n ∈ s.around, sources.isFragment n = false

/-- The node of the site is rendered by a value in `v`, with the names that are bound at the site. -/
def RenderedIn (sources : Sources) (table : HoistTable) (v : Value) (s : Site) : Prop :=
  ∃ w ∈ v.all, NodeRenders sources table s.locals s.node w

theorem RenderedIn.mono {v v' : Value} {s : Site} (h : RenderedIn sources table v s) (hsub : v.all ⊆ v'.all) :
    RenderedIn sources table v' s := by
  obtain ⟨w, hw, hrender⟩ := h
  exact ⟨w, hsub hw, hrender⟩

theorem RenderedIn.call {v : Value} {s : Site} (h : RenderedIn sources table v s) (callee : String)
    {arguments : List Value} (hv : v ∈ arguments) : RenderedIn sources table (.call callee arguments) s :=
  h.mono fun _ hw => List.mem_cons_of_mem _ (Value.mem_allOf.2 ⟨v, hv, hw⟩)

theorem renderedIn_arrayOf (nodes : List Node) {values : List Value} {s : Site}
    (h : ∃ v ∈ values, RenderedIn sources table v s) : RenderedIn sources table (arrayOf nodes values) s := by
  obtain ⟨v, hv, hin⟩ := h
  exact hin.mono fun w hw => mem_all_arrayOf_of_mem hv hw

theorem RendersAs.inner {n : Node} {v : Value} {inner : Facts → Prop} (h : RendersAs sources table n v inner)
    (hfree : sources.isFragment n = false) : ∃ facts, sources.analysis.get? n.id = some facts ∧ inner facts := by
  rcases h.cases with ⟨facts, hfragment, -⟩ | ⟨facts, hget, -, hinner⟩
  · rw [hfree] at hfragment
    cases hfragment
  · exact ⟨facts, hget, hinner⟩

mutual

/-- Each site of a node that is below no fragment is rendered by a value in that of the node. -/
theorem renderedIn_node (around : List Node) : ∀ n : Node, ∀ v, NodeRenders sources table (localsOf around) n v →
    ∀ s ∈ n.sites around, sources.Shows s → RenderedIn sources table v s
  | .element id p role data children => by
    intro v h s hs hshows
    rcases List.mem_cons.1 hs with rfl | hs
    · exact ⟨v, v.self_mem_all, h⟩
    have hfree := hshows _ ((standIn_sitesOf _ children).outer s hs List.mem_cons_self)
    rw [NodeRenders] at h
    obtain ⟨facts, -, options, -, hrole⟩ := h.inner hfree
    rw [sitesOf_eq_flatMap] at hs
    obtain ⟨n, hn, hs⟩ := List.mem_flatMap.1 hs
    have hcontent {keep : Node → Bool} {values : List Value}
        (hvalues : NodesRender sources table (localsOf around) keep children values) (hkeep : keep n = true) :
        ∃ v ∈ values, RenderedIn sources table v s := by
      rw [← localsOf_cons_of (n := .element id p role data children) rfl] at hvalues
      exact renderedIn_nodes _ keep children values hvalues n hn hkeep s hs hshows
    have hslots {slots : List (String × List Value)} (hslots : SlotsRender children
          (fun keep => NodesRender sources table (localsOf around) keep children) slots) :
        RenderedIn sources table (slottedOf children slots) s := by
      obtain ⟨slot, hslot, heq⟩ := hslots.exists_slot hn
      obtain ⟨v, hv, hin⟩ := hcontent (hslots.2 slot hslot) (by simp [heq])
      exact hin.mono fun w hw => mem_all_slottedOf_of_mem (List.ne_nil_of_mem hn) hslot hv hw
    cases role with
    | native =>
      obtain ⟨values, hvalues, rfl⟩ := hrole
      exact (renderedIn_arrayOf children (hcontent hvalues rfl)).call _ (by simp)
    | component =>
      obtain ⟨name, slots, -, hrender, rfl⟩ := hrole
      exact (hslots hrender).call _ (by simp)
    | dynamic constructor =>
      obtain ⟨slots, hrender, rfl⟩ := hrole
      exact (hslots hrender).call _ (by simp)
  | .slot id p name attributes children => by
    intro v h s hs hshows
    rcases List.mem_cons.1 hs with rfl | hs
    · exact ⟨v, v.self_mem_all, h⟩
    have hfree := hshows _ ((standIn_sitesOf _ children).outer s hs List.mem_cons_self)
    rw [NodeRenders] at h
    obtain ⟨facts, -, number, options, values, -, -, hvalues, rfl⟩ := h.inner hfree
    rw [← localsOf_cons_of (n := .slot id p name attributes children) rfl] at hvalues
    exact (renderedIn_arrayOf children (renderedIn_all _ children values hvalues s hs hshows)).call _ (by simp)
  | .text id p parts => by
    intro v h s hs _
    obtain rfl := List.mem_singleton.1 hs
    exact ⟨v, v.self_mem_all, h⟩
  | .comment id p text => by
    intro v h s hs _
    obtain rfl := List.mem_singleton.1 hs
    exact ⟨v, v.self_mem_all, h⟩
  | .conditional id p chain => by
    intro v h s hs hshows
    rcases List.mem_cons.1 hs with rfl | hs
    · exact ⟨v, v.self_mem_all, h⟩
    have hfree := hshows _ ((standIn_chainSites _ chain).outer s hs List.mem_cons_self)
    rw [NodeRenders] at h
    obtain ⟨facts, -, hchain⟩ := h.inner hfree
    rw [← localsOf_cons_of (n := .conditional id p chain) rfl] at hchain
    exact renderedIn_chain _ chain v hchain s hs hshows
  | .iteration id p loop children => by
    intro v h s hs hshows
    rcases List.mem_cons.1 hs with rfl | hs
    · exact ⟨v, v.self_mem_all, h⟩
    have hfree := hshows _ ((standIn_sitesOf _ children).outer s hs List.mem_cons_self)
    rw [NodeRenders] at h
    obtain ⟨facts, -, values, hvalues, rfl⟩ := h.inner hfree
    rw [← show localsOf (.iteration id p loop children :: around) = localsOf around ++ loop.names from
      localsOf_cons _ _] at hvalues
    have hbody := renderedIn_arrayOf children (renderedIn_all _ children values hvalues s hs hshows)
    have hfunction : RenderedIn sources table (.function loop.names (arrayOf children values)) s :=
      hbody.mono (List.subset_cons_self _ _)
    exact hfunction.call _ (by simp)

theorem renderedIn_chain (around : List Node) : ∀ c : Chain, ∀ v, ChainRenders sources table (localsOf around) c v →
    ∀ s ∈ c.sites around, sources.Shows s → RenderedIn sources table v s
  | .done => by
    intro v h s hs
    cases hs
  | .otherwise children => by
    intro v h s hs hshows
    obtain ⟨values, hvalues, rfl⟩ := h
    exact renderedIn_arrayOf children (renderedIn_all around children values hvalues s hs hshows)
  | .branch test negate children next => by
    intro v h s hs hshows
    obtain ⟨values, alternate, hvalues, hnext, rfl⟩ := h
    rcases List.mem_append.1 hs with hs | hs
    · have hbody := renderedIn_arrayOf children (renderedIn_all around children values hvalues s hs hshows)
      exact hbody.mono fun w hw => by simp [Value.all, hw]
    · exact (renderedIn_chain around next alternate hnext s hs hshows).mono fun w hw => by simp [Value.all, hw]

theorem renderedIn_nodes (around : List Node) (keep : Node → Bool) : ∀ nodes : List Node, ∀ values,
    NodesRender sources table (localsOf around) keep nodes values → ∀ n ∈ nodes, keep n = true →
      ∀ s ∈ n.sites around, sources.Shows s → ∃ v ∈ values, RenderedIn sources table v s
  | [] => by
    intro values h n hn
    cases hn
  | n :: ns => by
    intro values h n' hn' hkeep s hs hshows
    rw [NodesRender] at h
    rcases List.mem_cons.1 hn' with heq | hn'
    · obtain rfl := heq.symm
      rw [if_pos hkeep] at h
      obtain ⟨v, rest, hrender, -, rfl⟩ := h
      exact ⟨v, List.mem_cons_self, renderedIn_node around n v hrender s hs hshows⟩
    · split at h
      · obtain ⟨v, rest, -, hns, rfl⟩ := h
        obtain ⟨v', hv', hin⟩ := renderedIn_nodes around keep ns rest hns n' hn' hkeep s hs hshows
        exact ⟨v', List.mem_cons_of_mem _ hv', hin⟩
      · exact renderedIn_nodes around keep ns values h n' hn' hkeep s hs hshows

theorem renderedIn_all (around : List Node) (nodes : List Node) (values : List Value)
    (h : NodesRender sources table (localsOf around) (fun _ => true) nodes values) (s : Site)
    (hs : s ∈ sitesOf around nodes) (hshows : sources.Shows s) : ∃ v ∈ values, RenderedIn sources table v s := by
  rw [sitesOf_eq_flatMap] at hs
  obtain ⟨n, hn, hs⟩ := List.mem_flatMap.1 hs
  exact renderedIn_nodes around _ nodes values h n hn rfl s hs hshows

end

end Completeness

end TemplateCompiler.Render

import Mathlib.Data.List.Induction
import TemplateCompiler.Proofs.Render.EveryNode
import TemplateCompiler.Proofs.Template.Changes
/-!
# Groups of slotted content

The children of a component are put into its slots: each child goes to the group of its slot, the groups keep the order
of the children, and stand in the order of their first children (`IsGrouping`). `compile_slotted` says that a component
gets one entry for each group, that it gets nothing if it has no children, and that its hints tell the two apart.
-/

namespace TemplateCompiler

open Template Render

/-! ## Groups -/

namespace Template

section Groups

variable {α κ : Type} [BEq κ] (key : α → κ)

/-- The elements of a list by their keys, the keys in the order of their first elements. -/
def groupsOf (xs : List α) : List (κ × List α) :=
  (xs.map key).eraseDups.map fun k => (k, xs.filter (key · == k))

/-- Groups with one more element, which goes to the group of its key, or else starts a group behind the others. -/
def enter : List (κ × List α) → α → List (κ × List α)
  | [], x => [(key x, [x])]
  | group :: groups, x => if group.1 == key x then (group.1, group.2 ++ [x]) :: groups else group :: enter groups x

/-- The groups partition a list by a key, and keep its order. -/
structure IsGrouping (xs : List α) (groups : List (κ × List α)) : Prop where
  /-- The elements of all groups are those of the list, each as often as it is there. -/
  complete : (groups.flatMap Prod.snd).Perm xs
  /-- An element is in the group of its key. -/
  own : ∀ group ∈ groups, ∀ x ∈ group.2, key x = group.1
  /-- The elements of a group stand in the order of the list. -/
  ordered : ∀ group ∈ groups, group.2.Sublist xs
  /-- No group is empty. -/
  inhabited : ∀ group ∈ groups, group.2 ≠ []
  /-- No key has two groups. -/
  distinct : (groups.map Prod.fst).Nodup
  /-- The keys stand in the order of their first elements. -/
  byFirst : groups.Pairwise fun group later => (xs.map key).idxOf group.1 < (xs.map key).idxOf later.1

variable [LawfulBEq κ]

theorem pairwise_idxOf_eraseDups (keys : List κ) :
    keys.eraseDups.Pairwise fun k later => keys.idxOf k < keys.idxOf later := by
  induction keys using List.reverseRecOn with
  | nil => simp
  | append_singleton keys k ih =>
    have hold : keys.eraseDups.Pairwise fun a b => (keys ++ [k]).idxOf a < (keys ++ [k]).idxOf b := by
      refine ih.imp_of_mem fun ha hb hlt => ?_
      rwa [List.idxOf_append_of_mem (List.mem_eraseDups.1 ha), List.idxOf_append_of_mem (List.mem_eraseDups.1 hb)]
    rw [eraseDups_concat]
    split
    · exact hold
    · rename_i hnew
      refine List.pairwise_append.2 ⟨hold, by simp, fun a ha b hb => ?_⟩
      have ha : a ∈ keys := List.mem_eraseDups.1 ha
      rw [List.mem_singleton.1 hb, List.idxOf_append_of_mem ha, List.idxOf_append_of_notMem hnew]
      exact Nat.lt_add_right _ (List.idxOf_lt_length_of_mem ha)

theorem isGrouping_groupsOf (xs : List α) : IsGrouping key xs (groupsOf key xs) := by
  have hfst : (groupsOf key xs).map Prod.fst = (xs.map key).eraseDups := by simp [groupsOf, Function.comp_def]
  constructor
  case complete =>
    rw [groupsOf, List.flatMap_map]
    exact flatMap_filter_perm key xs
  case own =>
    intro group hgroup x hx
    obtain ⟨k, -, rfl⟩ := List.mem_map.1 hgroup
    exact beq_iff_eq.1 (List.mem_filter.1 hx).2
  case ordered =>
    intro group hgroup
    obtain ⟨k, -, rfl⟩ := List.mem_map.1 hgroup
    exact List.filter_sublist
  case inhabited =>
    intro group hgroup
    obtain ⟨k, hk, rfl⟩ := List.mem_map.1 hgroup
    obtain ⟨x, hx, rfl⟩ := List.mem_map.1 (List.mem_eraseDups.1 hk)
    exact List.ne_nil_of_mem (List.mem_filter.2 ⟨hx, BEq.rfl⟩)
  case distinct =>
    rw [hfst]
    exact nodup_eraseDups _
  case byFirst =>
    have hkeys := pairwise_idxOf_eraseDups (xs.map key)
    rwa [← hfst, List.pairwise_map] at hkeys

variable {key}

/-- Where an element goes: into the group of its key, or into a new one. -/
theorem enter_map {keys : List κ} (hnodup : keys.Nodup) (members : κ → List α) (x : α) :
    enter key (keys.map fun k => (k, members k)) x =
      (keys.map fun k => (k, members k ++ if key x == k then [x] else [])) ++
        if key x ∈ keys then [] else [(key x, [x])] := by
  induction keys with
  | nil => rfl
  | cons k keys ih =>
    obtain ⟨hk, hkeys⟩ := List.nodup_cons.1 hnodup
    rw [List.map_cons, List.map_cons, enter]
    by_cases h : k = key x
    · subst h
      have hothers : (keys.map fun k => (k, members k ++ if key x == k then [x] else [])) =
          keys.map fun k => (k, members k) := by
        refine List.map_congr_left fun k hmem => ?_
        have hne : ¬ key x = k := fun he => hk (he ▸ hmem)
        simp [hne]
      simp [hothers]
    · simp [h, Ne.symm h, ih hkeys]

/-- One more element at the end of the list is one more element of the groups. -/
theorem enter_groupsOf (xs : List α) (x : α) : enter key (groupsOf key xs) x = groupsOf key (xs ++ [x]) := by
  have hmembers (k : κ) : (xs ++ [x]).filter (key · == k) =
      xs.filter (key · == k) ++ if key x == k then [x] else [] := by
    rw [List.filter_append, List.filter_singleton]
    cases key x == k <;> rfl
  rw [groupsOf, enter_map (nodup_eraseDups _), groupsOf, List.map_append, List.map_singleton, eraseDups_concat]
  simp only [hmembers, List.mem_eraseDups]
  split
  · simp
  · rename_i hnew
    have hnone : xs.filter (key · == key x) = [] := by
      refine List.filter_eq_nil_iff.2 fun y hy hxy => hnew ?_
      exact List.mem_map.2 ⟨y, hy, beq_iff_eq.1 hxy⟩
    simp [hnone]

/-- To enter the elements of a list one after the other makes its groups. -/
theorem foldl_enter (xs : List α) : xs.foldl (enter key) [] = groupsOf key xs := by
  induction xs using List.reverseRecOn with
  | nil => rfl
  | append_singleton xs x ih => rw [List.foldl_append, ih, List.foldl_cons, List.foldl_nil, enter_groupsOf]

end Groups

end Template

/-! ## Slotted content -/

namespace Render

/-- The slots of a component that its children go to, each with the children that go there. -/
def slotGroups (children : List Node) : List (String × List Node) :=
  groupsOf Node.slotTarget children

variable {sources : Sources} {table : HoistTable} {locals : List String} {children : List Node}

theorem nodesRender_filter {keep : Node → Bool} {nodes : List Node} {values : List Value}
    (h : NodesRender sources table locals keep nodes values) :
    NodesRender sources table locals (fun _ => true) (nodes.filter keep) values := by
  induction nodes generalizing values with
  | nil => exact h
  | cons n ns ih =>
    simp only [NodesRender] at h
    rw [List.filter_cons]
    split at h
    · rename_i hkeep
      obtain ⟨v, rest, hv, hrest, rfl⟩ := h
      rw [if_pos hkeep]
      simp only [NodesRender, if_true]
      exact ⟨v, rest, hv, ih hrest, rfl⟩
    · rename_i hdrop
      rw [if_neg hdrop]
      exact ih h

/-- The entry for a group: a function of its slot's name that gives the nodes of the group, in their order. -/
def GroupRenders (sources : Sources) (table : HoistTable) (locals : List String) (group : String × List Node)
    (entry : String × Value) : Prop :=
  entry.1 = group.1 ∧ ∃ values, NodesRender sources table locals (fun _ => true) group.2 values ∧
    entry.2 = .arrow (arrayOf group.2 values)

/-- What a component gets for its children. -/
structure SlottedRenders (sources : Sources) (table : HoistTable) (locals : List String) (children : List Node)
    (content : Value) : Prop where
  /-- It gets nothing exactly if there are none. -/
  nothing : content = .undefined ↔ children = []
  /-- Otherwise it gets one entry for each group. -/
  entries : children ≠ [] → ∃ entries,
    List.Forall₂ (GroupRenders sources table locals) (slotGroups children) entries ∧ content = .object entries

theorem slottedRenders_slottedOf {slots : List (String × List Value)}
    (h : SlotsRender children (fun keep values => NodesRender sources table locals keep children values) slots) :
    SlottedRenders sources table locals children (slottedOf children slots) := by
  obtain ⟨hnames, hslots⟩ := h
  unfold slottedOf
  constructor
  case nothing =>
    split
    · rename_i hempty
      simpa using hempty
    · rename_i hne
      simpa using hne
  case entries =>
    intro hne
    rw [if_neg (by simpa using hne)]
    refine ⟨_, ?_, rfl⟩
    have hgroups : slotGroups children =
        slots.map fun slot => (slot.1, children.filter (·.slotTarget == slot.1)) := by
      rw [slotGroups, groupsOf, ← slotNames, ← hnames, List.map_map]
      rfl
    rw [hgroups, List.forall₂_map_left_iff, List.forall₂_map_right_iff]
    exact List.forall₂_same.2 fun slot hslot => ⟨rfl, slot.2, nodesRender_filter (hslots slot hslot), rfl⟩

end Render

/-! ## Components of a template -/

namespace Template

/-- The flag of a component with content for its slots. -/
def slotsFlag : Nat := 2 ^ 4

@[simp] theorem Facts.has_slotsFlag (facts : Facts) : facts.has slotsFlag = facts.hints.slots :=
  facts.has_two_pow 4

/-- What renders an element in the role with content for slots, if the role has slots. -/
def Role.slotting? : Role → Option Helper
  | .native => none
  | .component => some .customElement
  | .dynamic _ => some .dynamicComponent

theorem markNodes_eq_nil {mode : RenderMode} {nodes : List Node} : markNodes mode nodes = [] ↔ nodes = [] := by
  cases nodes <;> simp [markNodes]

/-- Components are hinted to have content exactly if they have children. -/
theorem hints_slots_of_slotting {mode : RenderMode} {lift : Bool} {key id : Nat} {p : Text.Position} {role : Role}
    {data : ElementData} {children : List Node} {helper : Helper} (h : role.slotting? = some helper) :
    ((Node.element id p role data children).facts mode lift key).hints.slots = !children.isEmpty := by
  cases role with
  | native => cases h
  | component => rfl
  | dynamic constructor => rfl

theorem isStatic_of_slotting {mode : RenderMode} {id : Nat} {p : Text.Position} {role : Role} {data : ElementData}
    {children : List Node} {helper : Helper} (h : role.slotting? = some helper) :
    (Node.element id p role data children).isStatic mode = false := by
  cases role with
  | native => cases h
  | component => rfl
  | dynamic constructor => rfl

end Template

/-- The call that renders a component ends with its content and its hints. -/
theorem Render.NodeRenders.slotted {sources : Sources} {table : HoistTable} {locals : List String} {id : Nat}
    {p : Text.Position} {role : Role} {data : ElementData} {children : List Node} {helper : Helper} {v : Value}
    (hrole : role.slotting? = some helper)
    (hfragment : sources.isFragment (.element id p role data children) = false)
    (h : NodeRenders sources table locals (.element id p role data children) v) :
    ∃ facts front content, sources.analysis.get? id = some facts ∧
      v = .call helper.localName (front ++ [content, .number facts.hints.mask]) ∧
      SlottedRenders sources table locals children content := by
  simp only [NodeRenders] at h
  rcases h.cases with ⟨facts, hf, -⟩ | ⟨facts, hget, -, options, -, hrender⟩
  · rw [hfragment] at hf
    cases hf
  cases role with
  | native => cases hrole
  | component =>
    obtain rfl := Option.some.inj hrole
    obtain ⟨name, slots, -, hslots, rfl⟩ := hrender
    exact ⟨facts, [_, _, _], _, hget, rfl, slottedRenders_slottedOf hslots⟩
  | dynamic constructor =>
    obtain rfl := Option.some.inj hrole
    obtain ⟨slots, hslots, rfl⟩ := hrender
    exact ⟨facts, [_, _, _], _, hget, rfl, slottedRenders_slottedOf hslots⟩

/-- A module has the content of a component, where `n` is the component and `helper` renders it. -/
structure Template.Slots (t : Template) (m : RenderModule) (n : Node) (children : List Node) (helper : Helper) :
    Prop where
  /-- There is a call that renders the component, and what it gets comes before its hints. -/
  exists_call : ∃ facts locals front content, t.analysis.get? n.id = some facts ∧
    let call := Value.call helper.localName (front ++ [content, .number facts.hints.mask])
    call ∈ m.body.all ∧ NodeRenders t.sources m.hoists locals n call ∧
      SlottedRenders t.sources m.hoists locals children content
  /-- The flag for content is clear exactly if there are no children. -/
  flag : ∀ facts, t.analysis.get? n.id = some facts → (facts.has slotsFlag = false ↔ children = [])

theorem CompilesTo.slots {config : Config} {source : String} {t : Template} {m : RenderModule}
    (h : CompilesTo config source t m) {id : Nat} {p : Text.Position} {role : Role} {data : ElementData}
    {children : List Node} {helper : Helper} (hn : .element id p role data children ∈ allNodes t.mark.nodes)
    (hrole : role.slotting? = some helper) : t.Slots m (.element id p role data children) children helper := by
  have hfree : ¬ InFragment t.sources.isFragment (allNodes t.mark.nodes) (.element id p role data children) := by
    refine h.not_inFragment fun n heq => ?_
    cases n with
    | element id₀ p₀ role₀ data₀ children₀ =>
      obtain ⟨-, -, rfl, -, -⟩ := Node.element.inj heq
      exact isStatic_of_slotting hrole
    | _ => cases heq
  obtain ⟨hfragment, locals, v, hv, hrender⟩ := h.renderedIn_body hn hfree
  obtain ⟨facts, front, content, hget, rfl, hcontent⟩ := hrender.slotted hrole hfragment
  refine ⟨⟨facts, locals, front, content, hget, hv, hrender, hcontent⟩, fun facts' hget' => ?_⟩
  obtain ⟨n, -, heq, lift, key, hfacts⟩ := h.facts hn
  cases n with
  | element id₀ p₀ role₀ data₀ children₀ =>
    obtain ⟨rfl, -, rfl, -, rfl⟩ := Node.element.inj heq
    obtain rfl := Option.some.inj (hget'.symm.trans hfacts)
    rw [Facts.has_slotsFlag, hints_slots_of_slotting hrole, markNodes_eq_nil]
    simp
  | _ => cases heq

/-- The children of a component, whatever they are, are grouped by their slots, as they are when they are entered one
by one. Wherever compiling gives no error, each component of the template gets an entry for each group. -/
theorem compile_slotted {config : Config} {source : String} {output : Output}
    (h : compile config source = .ok output) (hclean : output.hasErrors = false) :
    (∀ children : List Node, IsGrouping Node.slotTarget children (slotGroups children) ∧
      children.foldl (enter Node.slotTarget) [] = slotGroups children) ∧
    ∃ t m, CompilesTo config source t m ∧ output.code = some m.text ∧
      ∀ {id : Nat} {p : Text.Position} {role : Role} {data : ElementData} {children : List Node} {helper : Helper},
        .element id p role data children ∈ allNodes t.mark.nodes → role.slotting? = some helper →
        t.Slots m (.element id p role data children) children helper := by
  refine ⟨fun children => ⟨isGrouping_groupsOf Node.slotTarget children, foldl_enter children⟩, ?_⟩
  obtain ⟨t, m, hm, hcode⟩ := compilesTo_of_noErrors h hclean
  exact ⟨t, m, hm, hcode, hm.slots⟩

/-- A component with children for two slots, and one without children. -/
theorem compile_slotted_components :
    ∃ (output : Output) (t : Template) (m : RenderModule),
      compile {} "<template><c-a><p slot=\"x\">{a}</p>b<i slot=\"x\">{c}</i></c-a><c-d></c-d></template>" =
        .ok output ∧ output.hasErrors = false ∧ output.code = some m.text ∧
      (∀ {id : Nat} {p : Text.Position} {role : Role} {data : ElementData} {children : List Node} {helper : Helper},
        .element id p role data children ∈ allNodes t.mark.nodes → role.slotting? = some helper →
        t.Slots m (.element id p role data children) children helper) ∧
      m.body.text = "[api_custom_element(\"c-a\", _cA, stc0, \x7b " ++
        "x: () => [api_element(\"p\", stc1, [api_text(api_dynamic_text($cmp.a))], 129), " ++
        "api_element(\"i\", stc2, [api_text(api_dynamic_text($cmp.c))], 129)], " ++
        "\"\": () => [api_text(\"b\")] \x7d, 144), api_custom_element(\"c-d\", _cD, stc3, undefined, 0)]" := by
  have htext : (compiled? {}
      "<template><c-a><p slot=\"x\">{a}</p>b<i slot=\"x\">{c}</i></c-a><c-d></c-d></template>").map
      (fun result => result.2.body.text) = some ("[api_custom_element(\"c-a\", _cA, stc0, \x7b " ++
        "x: () => [api_element(\"p\", stc1, [api_text(api_dynamic_text($cmp.a))], 129), " ++
        "api_element(\"i\", stc2, [api_text(api_dynamic_text($cmp.c))], 129)], " ++
        "\"\": () => [api_text(\"b\")] \x7d, 144), api_custom_element(\"c-d\", _cD, stc3, undefined, 0)]") := by
    decide +kernel
  obtain ⟨t, m, hm, htext⟩ := exists_compilesTo htext
  obtain ⟨output, houtput, hcode⟩ := hm.code
  have hclean : output.hasErrors = false := hm.hasErrors houtput
  obtain ⟨-, t', m', hm', -, hslots⟩ := compile_slotted houtput hclean
  obtain rfl := Except.ok.inj (hm.parsed.symm.trans hm'.parsed)
  obtain rfl := Except.ok.inj (hm.rendered.symm.trans hm'.rendered)
  exact ⟨output, t, m, houtput, hclean, hcode, hslots, htext⟩

end TemplateCompiler

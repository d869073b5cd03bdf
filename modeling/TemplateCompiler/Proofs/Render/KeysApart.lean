import TemplateCompiler.Proofs.Markup.SoundDocument
import TemplateCompiler.Proofs.Render.ObjectKeys
import TemplateCompiler.Proofs.Render.References
import TemplateCompiler.Proofs.Template.Reserved
/-!
# Keys that are apart

No element has two attributes with one name, no class counts twice, and each slot has one entry, so the keys of an object
are apart. There is one exception: a component takes its attributes as properties in camel case, where different names
can be the same, and nothing looks at that. `compile_keysApart_iff` says that a module has a key twice exactly where this
happens, and in no other object.
-/

namespace TemplateCompiler

open Text Template Render

/-! ## Names of attributes -/

namespace Markup

variable {source : List Char} {document : List Node} {seat : Seat}

/-- No element of a document has two attributes with the same name. -/
theorem nodup_attributeNames (h : parse source = .ok document) (hseat : seat ∈ seatsOf [] document) :
    (seat.element.attributes.map Attribute.name).Nodup := by
  obtain ⟨call, hcall, hmakes⟩ := exists_of_mem_right (parse_seats h).1 hseat
  obtain ⟨raws, -, helement⟩ := hmakes.element
  obtain ⟨hsound, hnodup⟩ := sound_of_mem_tokenize _ (mem_tokens_of_mem_calls hcall)
  have hlower : ((seat.element.attributes.map Attribute.name).map lowerName).Nodup := by
    rw [helement, List.map_map]
    exact distinct_elementOf hsound hnodup source _ _ raws
  exact hlower.of_map

theorem nodup_own (h : parse source = .ok document) (hseat : seat ∈ seatsOf [] document) :
    (seat.element.own.map Attribute.name).Nodup :=
  (nodup_attributeNames h hseat).sublist (List.filter_sublist.map _)

end Markup

namespace Template

/-- The names of the properties that the attributes of a component become, in their order. -/
def propertyNames (e : Markup.Element) : List String :=
  (e.own.filter fun a => becomesProperty? e.tag a.name = some true).map fun a => camelCase a.name

theorem eventName?_eq_some {name event : String} (h : ElementData.eventName? name = some event) :
    name.toList = 'o' :: 'n' :: event.toList := by
  unfold ElementData.eventName? at h
  split at h
  · rename_i c cs hname
    obtain rfl := Option.some.inj h
    rw [hname, String.toList_ofList]
  · cases h

theorem eventName?_of_listener {a : Markup.Attribute} {l : Listener} (h : listener? a = some l) :
    ElementData.eventName? a.name = some l.event := by
  unfold listener? at h
  split at h
  · rename_i event handler hevent hvalue
    obtain rfl := Option.some.inj h
    exact hevent
  · cases h

/-! ## Classes -/

namespace ElementData

theorem nodup_classNames_set {data : ElementData} (h : (classNames data.classes).Nodup) (custom : Bool)
    (name : String) (value : AttributeValue) (position : Position) :
    (classNames (data.set custom name value position).classes).Nodup := by
  unfold set
  split_ifs
  · unfold setClasses
    split
    · split
      · exact h
      · exact nodup_eraseDups (words _)
    · exact List.nodup_nil
    · exact h
  · unfold setStyle
    split <;> [split; skip; skip] <;> exact h
  all_goals exact h

theorem nodup_classNames_addAll {custom : Bool} (attributes : List Markup.Attribute) {data : ElementData}
    (h : (classNames data.classes).Nodup) : (classNames (data.addAll custom attributes).1.classes).Nodup := by
  induction attributes generalizing data with
  | nil => exact h
  | cons a attributes ih =>
    rw [addAll]
    cases hadd : data.add custom a with
    | error problem => exact ih h
    | ok later =>
      refine ih ?_
      rcases add_cases hadd with ⟨listener, rfl⟩ | ⟨value, -, rfl⟩
      · exact h
      · exact nodup_classNames_set h custom a.name value a.position

end ElementData

/-! ## Names of a node -/

theorem names_made {tag : String} (hcustom : Markup.isCustomName tag = true) {attributes : List Markup.Attribute}
    (h : ∀ a ∈ attributes, Accepted tag a) : (attributes.filterMap (made? tag true)).map Attribute.name =
      (attributes.filter fun a => becomesProperty? tag a.name = some true).map fun a => camelCase a.name := by
  induction attributes with
  | nil => rfl
  | cons a attributes ih =>
    obtain ⟨ha, hrest⟩ := List.forall_mem_cons.1 h
    by_cases hbecomes : becomesProperty? tag a.name = some true
    · obtain ⟨rfl, -⟩ | ⟨value, hvalue⟩ := ha.value
      · exact absurd hcustom (by decide)
      · obtain ⟨made, hmade⟩ := exists_made hvalue hbecomes
        have hname : made.name = camelCase a.name := by simpa [hcustom] using (name_of_made hmade).2
        rw [List.filterMap_cons_some hmade, List.filter_cons_of_pos (by simpa using hbecomes), List.map_cons,
          List.map_cons, ih hrest, hname]
    · have hnone : made? tag true a = none := if_neg hbecomes
      rw [List.filterMap_cons_none hnone, List.filter_cons_of_neg (by simpa using hbecomes), ih hrest]

section IsMadeOf

variable {inSvg : Bool} {e : Markup.Element} {n : Node}

/-- The attributes of a node, and the properties of one that is no component, differ in their names. -/
theorem Node.IsMadeOf.nodup_bag (h : n.IsMadeOf inSvg e) (hnodup : (e.own.map Markup.Attribute.name).Nodup)
    {asProperty : Bool} (hplain : (Markup.isCustomName e.tag && asProperty) = false) :
    ((n.bag asProperty).map Attribute.name).Nodup := by
  have hname {a : Markup.Attribute} {made : Attribute} (hmade : made? e.tag asProperty a = some made) :
      made.name = a.name := by
    rw [(name_of_made hmade).2, hplain, if_neg (by decide)]
  rw [List.Nodup, List.pairwise_map] at hnodup
  rw [h.bag, List.Nodup, List.pairwise_map, List.pairwise_filterMap]
  exact hnodup.imp fun hne made hmade made' hmade' heq => hne (by rw [← hname hmade, ← hname hmade', heq])

/-- The properties of a component have the names of its attributes in camel case. -/
theorem Node.IsMadeOf.names_properties (h : n.IsMadeOf inSvg e) (hcustom : Markup.isCustomName e.tag = true) :
    n.properties.map Attribute.name = propertyNames e := by
  rw [show n.properties = n.bag true from rfl, h.bag]
  exact names_made hcustom h.accepted.1

theorem Node.IsMadeOf.nodup_listeners (h : n.IsMadeOf inSvg e) (hnodup : (e.own.map Markup.Attribute.name).Nodup) :
    (n.listeners.map Listener.event).Nodup := by
  by_cases htag : e.tag = "slot"
  · cases h with
    | element key tag => exact absurd htag tag
    | slot => exact List.nodup_nil
  · rw [List.Nodup, List.pairwise_map] at hnodup
    rw [h.accepted.2 htag, List.Nodup, List.pairwise_map, List.pairwise_filterMap]
    refine hnodup.imp fun hne l hl l' hl' heq => hne (String.toList_injective ?_)
    rw [eventName?_eq_some (eventName?_of_listener hl), eventName?_eq_some (eventName?_of_listener hl'), heq]

theorem Node.IsMadeOf.nodup_classKeys (h : n.IsMadeOf inSvg e) : n.classKeys.Nodup := by
  cases h with
  | @element id role data children key tag custom added =>
    have hclasses := @ElementData.nodup_classNames_addAll (Markup.isCustomName e.tag) e.own
      ⟨e.tag, namespaceIn inSvg e.tag, [], [], none, none, [], key⟩ List.nodup_nil
    rw [added] at hclasses
    exact hclasses
  | slot => exact List.nodup_nil

/-- All names that a node gives are apart, unless they are those of the properties of a component. -/
theorem Node.IsMadeOf.hasNames (h : n.IsMadeOf inSvg e) (hnodup : (e.own.map Markup.Attribute.name).Nodup)
    {P : List String → Prop} (hP : ∀ keys, keys.Nodup → P keys)
    (hcomponent : Markup.isCustomName e.tag = true → P (propertyNames e)) : n.HasNames P := by
  constructor
  case bags =>
    intro asProperty
    cases hproperty : Markup.isCustomName e.tag && asProperty with
    | false => exact hP _ (h.nodup_bag hnodup hproperty)
    | true =>
      obtain ⟨hcustom, rfl⟩ := Bool.and_eq_true_iff.1 hproperty
      have hnames := hcomponent hcustom
      rwa [← h.names_properties hcustom] at hnames
  case classes => exact hP _ h.nodup_classKeys
  case listeners => exact hP _ (h.nodup_listeners hnodup)

end IsMadeOf

theorem Node.hasNames_of_not_isKeyed {n : Node} (h : n.isKeyed = false) {P : List String → Prop} (hP : P []) :
    n.HasNames P := by
  cases n with
  | element | slot => cases h
  | _ => exact ⟨fun asProperty => by cases asProperty <;> exact hP, hP, hP⟩

/-- Marking keeps the names of attributes and properties. -/
theorem names_bag_mark (mode : RenderMode) (asProperty : Bool) (n : Node) :
    ((n.mark mode).bag asProperty).map Attribute.name = (n.bag asProperty).map Attribute.name := by
  have hname : Attribute.name ∘ Attribute.markIn mode asProperty = Attribute.name := by
    funext a
    unfold Attribute.markIn Attribute.markProperty Attribute.mark
    cases asProperty <;> simp <;> split <;> rfl
  rw [bag_mark, List.map_map, hname]

theorem Node.HasNames.mark {n : Node} {P : List String → Prop} (h : n.HasNames P) (mode : RenderMode) :
    (n.mark mode).HasNames P := by
  constructor
  case bags =>
    intro asProperty
    rw [names_bag_mark]
    exact h.bags asProperty
  case classes => cases n <;> exact h.classes
  case listeners => cases n <;> exact h.listeners

end Template

/-! ## Keys of a module -/

/-- The objects of a module that are made of a document have keys that are apart, but for the properties of components. -/
structure Render.RenderModule.HasKeysOf (m : RenderModule) (document : List Markup.Node) : Prop where
  /-- If keys of an object are not apart, they are the names of the properties of a component. -/
  objects : ∀ entries, m.Writes (.object entries) → (entries.map Prod.fst).Nodup ∨
    ∃ seat ∈ Markup.seatsOf [] document, Markup.isCustomName seat.element.tag = true ∧
      entries.map Prod.fst = propertyNames seat.element
  /-- The properties of every component are an object, unless there are none. -/
  components : ∀ seat ∈ Markup.seatsOf [] document, Markup.isCustomName seat.element.tag = true →
    propertyNames seat.element ≠ [] →
      ∃ entries, m.Writes (.object entries) ∧ entries.map Prod.fst = propertyNames seat.element

theorem Render.RenderModule.HasKeysOf.keysApart_iff {m : RenderModule} {document : List Markup.Node}
    (h : m.HasKeysOf document) : m.KeysApart ↔ ∀ seat ∈ Markup.seatsOf [] document,
      Markup.isCustomName seat.element.tag = true → (propertyNames seat.element).Nodup := by
  constructor
  case mp =>
    intro hapart seat hseat hcustom
    by_cases hnone : propertyNames seat.element = []
    · rw [hnone]
      exact List.nodup_nil
    · obtain ⟨entries, hwrites, hnames⟩ := h.components seat hseat hcustom hnone
      exact hnames ▸ hapart entries hwrites
  case mpr =>
    intro hnodup entries hwrites
    rcases h.objects entries hwrites with hapart | ⟨seat, hseat, hcustom, hnames⟩
    · exact hapart
    · exact hnames ▸ hnodup seat hseat hcustom

theorem CompilesTo.hasKeysOf {config : Config} {source : String} {m : RenderModule} {document : List Markup.Node}
    (h : CompilesTo config source (ofDocument config document) m) (hparse : Markup.parse source.toList = .ok document) :
    m.HasKeysOf document := by
  have hmade := (ofDocument_areMadeOf config document h.noErrors).nodes
  constructor
  case objects =>
    intro entries hwrites
    refine h.keys (P := fun keys => keys.Nodup ∨ ∃ seat ∈ Markup.seatsOf [] document,
      Markup.isCustomName seat.element.tag = true ∧ keys = propertyNames seat.element) (fun _ hkeys => .inl hkeys)
      (fun n hn => ?_) hwrites
    rw [show allNodes (ofDocument config document).mark.nodes = _ from allNodes_markNodes _ _] at hn
    obtain ⟨n₀, hn₀, rfl⟩ := List.mem_map.1 hn
    refine Node.HasNames.mark ?_ _
    cases hkeyed : n₀.isKeyed with
    | false => exact Node.hasNames_of_not_isKeyed hkeyed (.inl List.nodup_nil)
    | true =>
      obtain ⟨seat, hseat, hof⟩ := forall₂_mem_right hmade.flip (List.mem_filter.2 ⟨hn₀, hkeyed⟩)
      obtain ⟨hseat, -⟩ := List.mem_filter.1 hseat
      exact hof.hasNames (Markup.nodup_own hparse hseat) (fun _ hkeys => .inl hkeys)
        fun hcustom => .inr ⟨seat, hseat, hcustom, rfl⟩
  case components =>
    intro seat hseat hcustom hne
    have htemplate : seat.element.tag ≠ "template" := by
      intro heq
      rw [heq] at hcustom
      exact absurd hcustom (by decide)
    obtain ⟨n, hn, hof⟩ := forall₂_mem_right hmade (List.mem_filter.2 ⟨hseat, by simpa using htemplate⟩)
    obtain ⟨hn, -⟩ := List.mem_filter.1 hn
    generalize hmode : (ofDocument config document).config.renderMode = mode
    have hnode : n.mark mode ∈ allNodes (ofDocument config document).mark.nodes := by
      rw [show allNodes (ofDocument config document).mark.nodes = _ from allNodes_markNodes _ _, hmode]
      exact List.mem_map_of_mem hn
    have hfree : ¬ InFragment (ofDocument config document).sources.isFragment
        (allNodes (ofDocument config document).mark.nodes) (n.mark mode) := by
      refine h.not_inFragment fun n₀ hmark => ?_
      rw [hmode] at hmark ⊢
      exact isStatic_of_isMadeOf hof hcustom hmark
    have hnames : (n.mark mode).properties.map Attribute.name = propertyNames seat.element := by
      rw [← hof.names_properties hcustom]
      exact names_bag_mark mode true n
    have hproperties : (n.mark mode).properties ≠ [] := by
      intro hnil
      rw [hnil] at hnames
      exact hne hnames.symm
    rw [← hnames]
    exact h.writes_properties hnode hfree hproperties

/-- Wherever compiling gives code, an object has a key twice exactly if a component has two attributes whose names are
the same in camel case, and then the object holds the properties of such a component. -/
theorem compile_keysApart_iff {config : Config} {source code : String} {output : Output}
    (h : compile config source = .ok output) (hcode : output.code = some code) :
    ∃ t m document, CompilesTo config source t m ∧ code = m.text ∧ Markup.parse source.toList = .ok document ∧
      m.HasKeysOf document ∧ (m.KeysApart ↔ ∀ seat ∈ Markup.seatsOf [] document,
        Markup.isCustomName seat.element.tag = true → (propertyNames seat.element).Nodup) := by
  obtain ⟨t, m, hm, rfl⟩ := compile_code_iff.1 ⟨output, h, hcode⟩
  obtain ⟨document, hdocument, rfl⟩ := exists_ofDocument hm.parsed
  have hkeys := hm.hasKeysOf hdocument
  exact ⟨_, m, document, hm, rfl, hdocument, hkeys, hkeys.keysApart_iff⟩

/-- A component with two properties, a class that is named twice, a listener and a child for a slot. -/
theorem compile_keysApart_component :
    ∃ (output : Output) (m : RenderModule) (document : List Markup.Node),
      compile {} "<template><c-d a-b=\"x\" a-c=\"y\" class=\"k k\" onfoo={f}><p slot=\"s\">{x}</p></c-d></template>" =
        .ok output ∧ output.code = some m.text ∧ m.HasKeysOf document ∧ m.KeysApart ∧
      m.hoists.entries.map (·.content) = ["\x7b aB: \"x\", aC: \"y\" \x7d", "{ k: true }",
        "\x7b attrs: \x7b slot: \"s\" \x7d, key: 1 \x7d"] ∧
      m.body.text = "[api_custom_element(\"c-d\", _cD, " ++
        "{ props: stc0, classMap: stc1, key: 0, on: { foo: _m0 || ($ctx._m0 = api_bind($cmp.f)) } }, " ++
        "\x7b s: () => [api_element(\"p\", stc2, " ++
        "[api_text(api_dynamic_text($cmp.x))], 129)] \x7d, 410)]" := by
  have hread : (compiled? {}
      "<template><c-d a-b=\"x\" a-c=\"y\" class=\"k k\" onfoo={f}><p slot=\"s\">{x}</p></c-d></template>").map
      (fun result => (result.2.hoists.entries.map (·.content), result.2.body.text)) =
      some (["\x7b aB: \"x\", aC: \"y\" \x7d", "{ k: true }",
        "\x7b attrs: \x7b slot: \"s\" \x7d, key: 1 \x7d"],
        "[api_custom_element(\"c-d\", _cD, " ++
        "{ props: stc0, classMap: stc1, key: 0, on: { foo: _m0 || ($ctx._m0 = api_bind($cmp.f)) } }, " ++
        "\x7b s: () => [api_element(\"p\", stc2, " ++
        "[api_text(api_dynamic_text($cmp.x))], 129)] \x7d, 410)]") := by
    decide +kernel
  obtain ⟨t, m, hm, hread⟩ := exists_compilesTo hread
  obtain ⟨hdeclared, hbody⟩ := Prod.mk.inj hread
  obtain ⟨output, houtput, hcode⟩ := hm.code
  obtain ⟨t', m', document, hm', -, hparse, hkeys, hiff⟩ := compile_keysApart_iff houtput hcode
  obtain rfl := Except.ok.inj (hm.parsed.symm.trans hm'.parsed)
  obtain rfl := Except.ok.inj (hm.rendered.symm.trans hm'.rendered)
  refine ⟨output, m, document, houtput, hcode, hkeys, hiff.2 ?_, hdeclared, hbody⟩
  obtain ⟨document', hparse', hnodup⟩ := @Markup.exists_parse
    "<template><c-d a-b=\"x\" a-c=\"y\" class=\"k k\" onfoo={f}><p slot=\"s\">{x}</p></c-d></template>".toList
    (fun document => ∀ seat ∈ Markup.seatsOf [] document,
      Markup.isCustomName seat.element.tag = true → (propertyNames seat.element).Nodup) _ (by decide +kernel)
  obtain rfl := Except.ok.inj (hparse.symm.trans hparse')
  exact hnodup

/-- Two attributes of a component have the same name in camel case. -/
theorem compile_not_keysApart :
    ¬ ∀ (config : Config) (source code : String) (output : Output) (t : Template) (m : RenderModule),
      compile config source = .ok output → output.code = some code → CompilesTo config source t m → m.KeysApart := by
  intro h
  let properties : List (String × Value) := [("aB", .string "x"), ("aB", .string "y")]
  have hread : (compiled? {} "<template><c-d a-b=\"x\" a--b=\"y\"></c-d></template>").map
      (fun result => result.2.hoists.entries) =
      some [⟨.object, (Value.object [("props", .object properties), ("key", .number 0)]).text, "stc0"⟩] := by
    decide +kernel
  obtain ⟨t, m, hm, hentries⟩ := exists_compilesTo hread
  obtain ⟨output, houtput, hcode⟩ := hm.code
  have hwrites : m.Writes (.object properties) := by
    refine .inr ⟨.object [("props", .object properties), ("key", .number 0)], "stc0", rfl, ?_, ?_⟩
    · rw [HoistTable.Declares, show m.hoists.entries = _ from hentries]
      exact List.mem_singleton_self _
    · simp [Value.all, Value.allUnder]
  exact absurd (h _ _ _ _ _ _ houtput hcode hm properties hwrites) (by decide)

end TemplateCompiler

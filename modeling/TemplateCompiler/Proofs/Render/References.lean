import TemplateCompiler.Proofs.Render.Described
import TemplateCompiler.Proofs.Render.InIteration
import TemplateCompiler.Proofs.Render.Inlined
import TemplateCompiler.Proofs.Render.ScopedValues
import TemplateCompiler.Proofs.Template.Authored
/-!
# References in a module

An attribute that holds an id, refers to ids or leads to a place in the same document is to go through a helper, so that
it does not meet equal ones of the page. On elements of the platform and on slots it does. A component takes its attributes
as properties, and of these only the id is scoped: whatever else refers to an element there is passed on as it is written
(`CompilesTo.keepsReferences`).
-/

namespace TemplateCompiler

open Text Template Render Binding

/-! ## What the nodes of a body are given -/

namespace Render

/-- In the body, the node with the key is created with the value under the name in the option `bag`, once declarations
are put in. -/
def Value.Gives (body : Value) (table : HoistTable) (key : Nat) (bag name : String) (value : Value) : Prop :=
  ∃ w ∈ body.all, ∃ options, w.options? = some options ∧ options.key? table = some key ∧
    ∃ entries values, options.inlined table = .object entries ∧ (bag, .object values) ∈ entries ∧ (name, value) ∈ values

theorem mem_attributesOption {locals : List String} {bag name : String} {asProperty : Bool}
    {attributes : List Attribute} {value : Value} :
    (bag, value) ∈ attributesOption locals name asProperty attributes ↔ bag = name ∧ attributes ≠ [] ∧
      value = .object (attributes.map fun a => (a.name, scopedValue locals asProperty a)) := by
  unfold attributesOption
  split <;> simp_all

/-- The option holds neither attributes nor properties. -/
def IsOther (option : String × Value) : Prop :=
  ∀ asProperty, option.1 ≠ bagName asProperty

theorem isOther_iff {option : String × Value} : IsOther option ↔ option.1 ≠ "attrs" ∧ option.1 ≠ "props" := by
  simp [IsOther, bagName]

/-- The options of an element beside its attributes and properties. -/
def otherOptions (locals : List String) (data : ElementData) (number : Nat) : List (String × Value) :=
  classOption locals data.classes ++ styleEntry locals data.style ++ svgOption data.namespace ++
    [("key", keyOption locals number data.key)] ++ listenersOption locals data.listeners

theorem isOther_otherOptions (locals : List String) (data : ElementData) (number : Nat) :
    ∀ option ∈ otherOptions locals data number, IsOther option := by
  simp only [otherOptions, List.forall_mem_append, isOther_iff]
  refine ⟨⟨⟨⟨?classes, ?style⟩, ?svg⟩, ?key⟩, ?listeners⟩
  case classes => rcases data.classes with _ | names | expr <;> simp [classOption]
  case style => rcases data.style with _ | declarations | expr <;> simp [styleEntry]
  case svg =>
    intro option hoption
    simp [name_svgOption _ option hoption]
  case key => simp
  case listeners =>
    unfold listenersOption
    split <;> simp

/-- Among the options of a node, those for its attributes and properties are the only ones under their names. -/
theorem mem_bags_iff (locals : List String) {n : Node} {others : List (String × Value)}
    (h : ∀ option ∈ others, IsOther option) (asProperty : Bool) (value : Value) :
    (bagName asProperty, value) ∈ attributesOption locals "attrs" false n.attributes ++
        attributesOption locals "props" true n.properties ++ others ↔
      n.bag asProperty ≠ [] ∧
        value = .object ((n.bag asProperty).map fun a => (a.name, scopedValue locals asProperty a)) := by
  have hothers : (bagName asProperty, value) ∉ others := fun hm => h _ hm asProperty rfl
  simp only [List.mem_append, hothers, or_false, mem_attributesOption]
  cases asProperty <;> simp [bagName, Node.bag]

section Nodes

variable {sources : Sources} {table : HoistTable} {locals : List String} {n : Node} {v : Value}

/-- An element or a slot that is no fragment is created with its attributes and its properties. -/
theorem options_of_renders (hs : table.Sound) (hfree : sources.isFragment n = false) (hkeyed : n.isKeyed = true)
    (h : NodeRenders sources table locals n v) :
    ∃ options key entries, v.options? = some options ∧ options.key? table = some key ∧
      sources.analysis.key? n = some key ∧ options.inlined table = .object entries ∧
      ∀ asProperty value, (bagName asProperty, value) ∈ entries ↔ n.bag asProperty ≠ [] ∧
        value = .object ((n.bag asProperty).map fun a => (a.name, scopedValue locals asProperty a)) := by
  cases n with
  | element id p role data children =>
    obtain ⟨facts, options, hget, hcreated, hoptions⟩ := exists_elementOptions hfree h
    obtain ⟨key, hkey, hread⟩ := key?_of_elementOptions hs hoptions
    obtain ⟨number, -, hinlined⟩ := inlined_elementOptions hs hoptions
    have hbags := mem_bags_iff locals (n := .element id p role data children) (isOther_otherOptions locals data number)
    refine ⟨options, key, _, hcreated, hread, by rw [Analysis.key?, Node.id, hget, Option.bind_some, hkey], hinlined, ?_⟩
    simpa [elementOptions, otherOptions, svgOption, Node.attributes, Node.properties] using hbags
  | slot id p name attributes children =>
    rw [NodeRenders] at h
    obtain ⟨facts, hget, key, options, values, hkey, hrender, -, rfl⟩ := h.inner hfree
    have hbags := @mem_bags_iff locals (.slot id p name attributes children) [("key", .number key)]
      (by simp [isOther_iff])
    refine ⟨options, key, _, ?_, key?_of_slotOptions hs hrender, by rw [Analysis.key?, hget, Option.bind_some, hkey],
      inlined_slotOptions hs hrender, ?_⟩
    · simp [Value.options?, Helper.named?_localName]
    · simpa [slotEntries, Node.attributes, Node.properties, attributesOption] using hbags
  | _ => cases hkeyed

theorem isGlue_of_options? {w options : Value} (h : w.options? = some options) : w.isGlue = false := by
  unfold Value.options? at h
  split at h
  · split at h <;> simp_all [Value.isGlue, Helper.makesNode]
  · cases h

/-- Only an element or a slot that is no fragment is created with options. -/
theorem isKeyed_of_options? {options : Value} (h : NodeRenders sources table locals n v)
    (hoptions : v.options? = some options) : sources.isFragment n = false ∧ n.isKeyed = true := by
  obtain ⟨helper, arguments, rfl, ⟨-, rfl⟩ | ⟨hfree, hhelper⟩⟩ := call_of_render h (isGlue_of_options? hoptions)
  · simp [Value.options?, Helper.named?_localName] at hoptions
  · refine ⟨hfree, ?_⟩
    cases n with
    | element => rfl
    | slot => rfl
    | conditional => cases hhelper
    | _ =>
      obtain rfl := Option.some.inj hhelper
      simp [Value.options?, Helper.named?_localName] at hoptions

end Nodes

end Render

namespace CompilesTo

variable {config : Config} {source : String} {t : Template} {m : RenderModule}

/-- An element or a slot that is in no fragment is given its attributes and its properties. -/
theorem gives (h : CompilesTo config source t m) {s : Site} (hs : s ∈ sitesOf [] t.mark.nodes)
    (hkeyed : s.node.isKeyed = true) (hfree : ¬ InFragment t.sources.isFragment (allNodes t.mark.nodes) s.node) :
    ∃ key, t.analysis.key? s.node = some key ∧ ∀ asProperty, ∀ a ∈ s.node.bag asProperty,
      m.body.Gives m.hoists key (bagName asProperty) a.name (scopedValue s.locals asProperty a) := by
  obtain ⟨hfragment, w, hw, hrender⟩ := h.renderedIn_site hs hfree
  obtain ⟨options, key, entries, hoptions, hread, hkey, hinlined, hbags⟩ :=
    options_of_renders h.fits.noted.sound hfragment hkeyed hrender
  refine ⟨key, hkey, fun asProperty a ha => ?_⟩
  have hentry := (hbags asProperty _).2 ⟨List.ne_nil_of_mem ha, rfl⟩
  have hvalue := List.mem_map_of_mem (f := fun a => (a.name, scopedValue s.locals asProperty a)) ha
  exact ⟨w, hw, options, hoptions, hread, entries, _, hinlined, hentry, hvalue⟩

/-- A call with options renders an element or a slot that is no fragment. -/
theorem exists_of_options? (h : CompilesTo config source t m) {w options : Value} (hw : w ∈ m.body.all)
    (hoptions : w.options? = some options) :
    ∃ n ∈ allNodes t.mark.nodes, ∃ locals, NodeRenders t.sources m.hoists locals n w ∧
      t.sources.isFragment n = false ∧ n.isKeyed = true := by
  obtain ⟨n, hn, locals, v, hrender, heq⟩ := h.rendersOneOf_body hw (isGlue_of_options? hoptions)
  have hself : w = v := by
    rcases heq with heq | ⟨iterable, rfl⟩
    · exact heq
    · obtain ⟨id, p, loop, children, body, -, rfl⟩ := function_of_render hrender
      cases hoptions
  subst hself
  exact ⟨n, shownNodes_subset_allNodes _ _ hn, locals, hrender, isKeyed_of_options? hrender hoptions⟩

/-- A node is given nothing but its attributes and its properties. -/
theorem exists_of_gives (h : CompilesTo config source t m) {key : Nat} {asProperty : Bool} {name : String} {v : Value}
    (hgives : m.body.Gives m.hoists key (bagName asProperty) name v) :
    ∃ n ∈ allNodes t.mark.nodes, t.analysis.key? n = some key ∧
      ∃ a ∈ n.bag asProperty, a.name = name ∧ ∃ locals, v = scopedValue locals asProperty a := by
  obtain ⟨w, hw, options, hoptions, hread, entries, values, hinlined, hentry, hvalue⟩ := hgives
  obtain ⟨n, hn, locals, hrender, hfree, hkeyed⟩ := h.exists_of_options? hw hoptions
  obtain ⟨options', key', entries', hoptions', hread', hkey, hinlined', hbags⟩ :=
    options_of_renders h.fits.noted.sound hfree hkeyed hrender
  obtain rfl := Option.some.inj (hoptions.symm.trans hoptions')
  obtain rfl := Option.some.inj (hread.symm.trans hread')
  obtain rfl := Value.object.inj (hinlined.symm.trans hinlined')
  obtain ⟨-, hvalues⟩ := (hbags asProperty _).1 hentry
  obtain rfl := Value.object.inj hvalues
  obtain ⟨a, ha, heq⟩ := List.mem_map.1 hvalue
  obtain ⟨rfl, rfl⟩ := Prod.mk.inj heq
  exact ⟨n, hn, hkey, a, ha, rfl, locals, rfl⟩

/-- Different nodes have different keys. -/
theorem eq_of_key? (h : CompilesTo config source t m) {n n' : Node} (hn : n ∈ allNodes t.mark.nodes)
    (hn' : n' ∈ allNodes t.mark.nodes) {key : Nat} (hkey : t.analysis.key? n = some key)
    (hkey' : t.analysis.key? n' = some key) : n = n' := by
  obtain ⟨document, -, rfl⟩ := exists_ofDocument h.parsed
  rw [show allNodes (ofDocument config document).mark.nodes = _ from allNodes_markNodes _ _] at hn hn'
  obtain ⟨n₀, hn₀, rfl⟩ := List.mem_map.1 hn
  obtain ⟨n₀', hn₀', rfl⟩ := List.mem_map.1 hn'
  rw [Analysis.key?, mark_id] at hkey hkey'
  rw [eq_of_key?_analyze _ (numbersOf_nodup config document) hn₀ hn₀' hkey hkey']

end CompilesTo

/-! ## References -/

namespace Template

/-- An attribute of the name with the value holds an id or refers to ids, or it leads to a place in the same document. -/
inductive Refers : String → AttributeValue → Scoping → Prop where
  | id {name text : String} (known : name ∈ "id" :: idReferences) (nonempty : text ≠ "") :
      Refers name (.literal text) .id
  | boundId {name : String} {expr : Expr} (known : name ∈ "id" :: idReferences) : Refers name (.expression expr) .id
  | link {name text : String} {c : Char} {cs : List Char} (known : name ∈ urlAttributes)
      (place : text.toList = '#' :: c :: cs) : Refers name (.literal text) .fragment
  | boundLink {name : String} {expr : Expr} (known : name ∈ urlAttributes) : Refers name (.expression expr) .fragment

/-- The names of attributes that may be references. -/
def referenceNames : List String :=
  "id" :: idReferences ++ urlAttributes

theorem Refers.mem_referenceNames {name : String} {value : AttributeValue} {scoping : Scoping}
    (h : Refers name value scoping) : name ∈ referenceNames := by
  rw [referenceNames, List.mem_append]
  cases h with
  | id known | boundId known => exact .inl known
  | link known | boundLink known => exact .inr known

theorem isFragmentUrl_iff {url : String} : isFragmentUrl url = true ↔ ∃ c cs, url.toList = '#' :: c :: cs := by
  unfold isFragmentUrl
  split <;> simp_all

/-- No attribute both refers to ids and holds a URL. -/
theorem not_mem_of_mem_urlAttributes : ∀ name ∈ urlAttributes, name ∉ "id" :: idReferences := by
  decide

theorem reference?_eq_some_iff {name : String} {value : AttributeValue} {position : Position} {marked : Option Scoping}
    {scoping : Scoping} :
    (⟨name, value, position, marked⟩ : Attribute).reference? = some scoping ↔ Refers name value scoping := by
  have hids : (name == "id" || idReferences.contains name) = true ↔ name ∈ "id" :: idReferences := by
    simp
  constructor
  case mp =>
    intro h
    cases value with
    | boolean value => cases h
    | literal text =>
      simp only [Attribute.reference?] at h
      split at h
      · cases h
      · rename_i hnonempty
        split at h
        · rename_i hname
          cases h
          exact .id (hids.1 hname) (by simpa using hnonempty)
        · split at h
          · rename_i hurl
            cases h
            obtain ⟨hname, hplace⟩ := Bool.and_eq_true_iff.1 hurl
            obtain ⟨c, cs, hplace⟩ := isFragmentUrl_iff.1 hplace
            exact .link (by simpa using hname) hplace
          · cases h
    | expression expr =>
      simp only [Attribute.reference?] at h
      split at h
      · rename_i hname
        cases h
        exact .boundId (hids.1 hname)
      · split at h
        · rename_i hurl
          cases h
          exact .boundLink (by simpa using hurl)
        · cases h
  case mpr =>
    have hurl (hname : name ∈ urlAttributes) : ¬ (name == "id" || idReferences.contains name) = true :=
      fun h => not_mem_of_mem_urlAttributes name hname (hids.1 h)
    intro h
    cases h with
    | id known nonempty =>
      simp only [Attribute.reference?]
      rw [if_neg (by simpa using nonempty), if_pos (hids.2 known)]
    | boundId known =>
      simp only [Attribute.reference?]
      rw [if_pos (hids.2 known)]
    | @link text c cs known place =>
      have hnonempty : ¬ text.isEmpty = true := by
        rw [String.isEmpty_iff, ← String.toList_eq_nil_iff, place]
        exact List.cons_ne_nil _ _
      simp only [Attribute.reference?]
      rw [if_neg hnonempty, if_neg (hurl known), if_pos]
      rw [Bool.and_eq_true_iff]
      exact ⟨by simpa using known, isFragmentUrl_iff.2 ⟨c, cs, place⟩⟩
    | boundLink known =>
      simp only [Attribute.reference?]
      rw [if_neg (hurl known), if_pos (by simpa using known)]

/-- The name under which a reference of an element with the tag is kept. -/
def referenceName (tag name : String) : String :=
  if Markup.isCustomName tag then camelCase name else name

section Made

variable {tag : String} {a : Markup.Attribute} {value : AttributeValue} {scoping : Scoping}

theorem becomesProperty?_of_mem {name : String} (h : name ∈ referenceNames) (tag : String) :
    becomesProperty? tag name = some (Markup.isCustomName tag) := by
  have hplain : ∀ name ∈ referenceNames, name ≠ "name" ∧ (ElementData.eventName? name).isSome = false ∧ name ≠ "class" ∧
      name ≠ "style" ∧ Markup.startsWith name "data-" = false ∧ name ≠ "slot" ∧ name ≠ "value" ∧ name ≠ "checked" := by
    decide
  obtain ⟨hname, hevent, hclass, hstyle, hdata, hslot, hvalue, hchecked⟩ := hplain name h
  have hnative : ElementData.isNativeProperty tag name = false := by
    unfold ElementData.isNativeProperty
    split <;> simp_all
  unfold becomesProperty?
  by_cases htag : tag = "slot"
  · subst htag
    simp [hname, Markup.isCustomName]
  · cases hcustom : Markup.isCustomName tag <;> simp [*]

/-- What a reference becomes of an element: a property of a component, and an attribute of any other. -/
theorem made?_of_refers (hvalue : attributeValue a = .ok value) (h : Refers a.name value scoping) :
    made? tag (Markup.isCustomName tag) a = some ⟨referenceName tag a.name, value, a.position, none⟩ := by
  have hspellcheck : a.name ≠ "spellcheck" := by
    intro hname
    have hmem := h.mem_referenceNames
    rw [hname] at hmem
    exact absurd hmem (by decide)
  have hproperty : ElementData.propertyValue a.name value = value := by
    cases value <;> simp [ElementData.propertyValue, hspellcheck]
  rw [made?, if_pos (becomesProperty?_of_mem h.mem_referenceNames tag), hvalue]
  cases hcustom : Markup.isCustomName tag <;> simp [Except.toOption, referenceName, hcustom, hproperty]

end Made

/-- How an attribute is marked where it is kept. -/
def Attribute.markIn (mode : RenderMode) (asProperty : Bool) (a : Attribute) : Attribute :=
  if asProperty then a.markProperty mode else a.mark mode

theorem bag_mark (mode : RenderMode) (asProperty : Bool) (n : Node) :
    (n.mark mode).bag asProperty = (n.bag asProperty).map (Attribute.markIn mode asProperty) := by
  cases asProperty <;> cases n <;> rfl

/-- The scoping of a reference of an element with the tag: a component has only its id scoped. -/
def keptScoping (tag name : String) (scoping : Scoping) : Option Scoping :=
  if Markup.isCustomName tag && name != "id" then none else some scoping

theorem camelCase_eq_id_iff : ∀ name ∈ referenceNames, (camelCase name = "id" ↔ name = "id") := by
  decide

theorem Refers.scoping_eq_id {value : AttributeValue} {scoping : Scoping} (h : Refers "id" value scoping) :
    scoping = .id := by
  have hurl : "id" ∉ urlAttributes := by decide
  cases h with
  | id | boundId => rfl
  | link known | boundLink known => exact absurd known hurl

theorem markIn_of_refers {tag name : String} {value : AttributeValue} {position : Position} {scoping : Scoping}
    (h : Refers name value scoping) :
    Attribute.markIn .shadow (Markup.isCustomName tag) ⟨referenceName tag name, value, position, none⟩ =
      ⟨referenceName tag name, value, position, keptScoping tag name scoping⟩ := by
  have hreference (name : String) (h : Refers name value scoping) :
      (⟨name, value, position, none⟩ : Attribute).reference? = some scoping := reference?_eq_some_iff.2 h
  cases hcustom : Markup.isCustomName tag with
  | false =>
    simp [Attribute.markIn, Attribute.mark, Attribute.needsScoping, referenceName, keptScoping, hcustom,
      hreference name h]
  | true =>
    have hcamel := camelCase_eq_id_iff name h.mem_referenceNames
    by_cases hid : name = "id"
    · obtain rfl := hid
      obtain rfl := h.scoping_eq_id
      simp [Attribute.markIn, Attribute.markProperty, Attribute.needsScoping, referenceName, keptScoping, hcustom,
        hcamel.2 rfl, hreference "id" h]
    · have hname : camelCase name ≠ "id" := fun h => hid (hcamel.1 h)
      simp [Attribute.markIn, Attribute.markProperty, referenceName, keptScoping, hcustom, hname, hid]

/-- What marks no attribute but the id leaves any other property as it is. -/
theorem scoping_of_mem_properties {svg : Bool} {e : Markup.Element} {n : Node} (h : n.IsMadeOf svg e)
    (mode : RenderMode) {a : Attribute} (ha : a ∈ (n.mark mode).bag true) (hname : a.name ≠ "id") :
    a.scoping = none := by
  rw [bag_mark, h.bag, List.mem_map] at ha
  obtain ⟨a₀, ha₀, rfl⟩ := ha
  obtain ⟨written, -, hmade⟩ := List.mem_filterMap.1 ha₀
  have hunmarked : a₀.scoping = none := by
    unfold made? at hmade
    split at hmade
    · obtain ⟨value, -, rfl⟩ := Option.map_eq_some_iff.1 hmade
      split <;> rfl
    · cases hmade
  simp only [Attribute.markIn, if_true, Attribute.markProperty] at hname ⊢
  split
  · rename_i hid
    simp_all
  · exact hunmarked

theorem mark_kind (mode : RenderMode) (n : Node) : (n.mark mode).kind = n.kind := by
  cases n <;> rfl

/-- A component may change. -/
theorem isStatic_of_isMadeOf {mode : RenderMode} {svg : Bool} {e : Markup.Element} {n n₀ : Node} (h : n.IsMadeOf svg e)
    (hcustom : Markup.isCustomName e.tag = true) (hmark : n.mark mode = n₀.mark mode) : n₀.isStatic mode = false := by
  have hkind : n₀.kind = n.kind := by rw [← mark_kind mode n₀, ← hmark, mark_kind]
  cases h with
  | @element id role data children key tag custom added =>
    have hrole : role.kind ≠ .element := fun hrole => by simp [custom.1 hrole] at hcustom
    cases n₀ with
    | element id p role' data' children' =>
      cases role' with
      | native => exact absurd hkind.symm hrole
      | _ => rfl
    | text | comment => cases role <;> cases hkind
    | _ => rfl
  | slot tag =>
    rw [tag] at hcustom
    exact absurd hcustom (by decide)

end Template

/-! ## References of elements -/

section Module

variable (t : Template) (m : RenderModule) (s : Site) (tag name : String)

/-- The node at the site is given the value for the attribute `name` of its element, as a property if the element is a
component and as an attribute otherwise. -/
def Template.IsGiven (value : Value) : Prop :=
  ∃ key, t.analysis.key? s.node = some key ∧
    m.body.Gives m.hoists key (bagName (Markup.isCustomName tag)) (referenceName tag name) value

/-- A reference of an element is kept at the node that the element is made into. -/
structure Template.KeepsReference (value : AttributeValue) (scoping : Scoping) : Prop where
  /-- On elements of the platform, on slots, and if it is an id, it goes through the helper. -/
  throughHelper : (Markup.isCustomName tag = true → name = "id") →
    t.IsGiven m s tag name (.call scoping.helper.localName [plainValue s.locals (Markup.isCustomName tag) value])
  /-- On components, any other reference is passed on as it is, and goes through no helper. -/
  asWritten : Markup.isCustomName tag = true → name ≠ "id" →
    t.IsGiven m s tag name (plainValue s.locals true value) ∧
      ∀ (helper : Helper) (arguments : List Value), ¬ t.IsGiven m s tag name (.call helper.localName arguments)

/-- All references of an element are kept at the node that the element is made into. -/
def Template.KeepsReferences (e : Markup.Element) : Prop :=
  ∀ a ∈ e.own, ∀ value scoping, attributeValue a = .ok value → Refers a.name value scoping →
    t.KeepsReference m s e.tag a.name value scoping

end Module

theorem Render.plainValue_ne_call (locals : List String) (asProperty : Bool) (value : AttributeValue) (callee : String)
    (arguments : List Value) : plainValue locals asProperty value ≠ .call callee arguments := by
  cases value with
  | literal text => simp [plainValue]
  | boolean value =>
    rw [plainValue]
    split <;> simp
  | expression expr => simp [plainValue, exprValue]

namespace CompilesTo

variable {config : Config} {source : String} {t : Template} {m : RenderModule}

theorem keepsReferences (h : CompilesTo config source t m) (hmode : t.config.renderMode = .shadow) {s : Site}
    (hs : s ∈ sitesOf [] t.nodes) (hkeyed : s.node.isKeyed = true) {svg : Bool} {e : Markup.Element}
    (hmade : s.node.IsMadeOf svg e) : t.KeepsReferences m (s.mark .shadow) e := by
  intro a ha value scoping hvalue hrefers
  have hsite : s.mark .shadow ∈ sitesOf [] t.mark.nodes := by
    rw [sitesOf_markedNodes, hmode]
    exact List.mem_map_of_mem hs
  have hnode : (s.mark .shadow).node ∈ allNodes t.mark.nodes := by
    rw [← map_node_sitesOf [] t.mark.nodes]
    exact List.mem_map_of_mem hsite
  -- The attribute or the property that the reference becomes.
  have hmem : ⟨referenceName e.tag a.name, value, a.position, keptScoping e.tag a.name scoping⟩ ∈
      (s.mark .shadow).node.bag (Markup.isCustomName e.tag) := by
    rw [Site.mark, bag_mark, hmade.bag, ← markIn_of_refers hrefers]
    exact List.mem_map_of_mem (List.mem_filterMap.2 ⟨a, ha, made?_of_refers hvalue hrefers⟩)
  have hfree : ¬ InFragment t.sources.isFragment (allNodes t.mark.nodes) (s.mark .shadow).node := by
    intro hin
    cases hcustom : Markup.isCustomName e.tag with
    | true =>
      refine h.not_inFragment (fun n₀ hmark => ?_) hin
      rw [hmode] at hmark ⊢
      exact isStatic_of_isMadeOf hmade hcustom hmark
    | false =>
      rw [hcustom] at hmem
      have hnone := h.unscoped_of_inFragment hin _ (List.mem_append_left _ hmem)
      simp [keptScoping, hcustom] at hnone
  obtain ⟨key, hkey, hgives⟩ := h.gives hsite ((mark_isKeyed _ _).trans hkeyed) hfree
  have hgiven := hgives _ _ hmem
  constructor
  case throughHelper =>
    intro hid
    have hscoping : keptScoping e.tag a.name scoping = some scoping := by
      unfold keptScoping
      split <;> simp_all
    refine ⟨key, hkey, ?_⟩
    rwa [scopedValue_of_scoping hscoping] at hgiven
  case asWritten =>
    intro hcustom hid
    have hscoping : keptScoping e.tag a.name scoping = none := by
      simp [keptScoping, hcustom, hid]
    have hname : referenceName e.tag a.name ≠ "id" := by
      rw [referenceName, if_pos hcustom, Ne, camelCase_eq_id_iff a.name hrefers.mem_referenceNames]
      exact hid
    refine ⟨⟨key, hkey, ?_⟩, ?_⟩
    · rw [hcustom] at hgiven ⊢
      rwa [scopedValue, hscoping] at hgiven
    · rintro helper arguments ⟨key', hkey', hgives'⟩
      rw [hcustom] at hgives'
      obtain ⟨n, hn, hkey'', a', ha', hname', locals, heq⟩ := h.exists_of_gives hgives'
      obtain rfl := h.eq_of_key? hn hnode hkey'' hkey'
      have hnone := scoping_of_mem_properties hmade .shadow ha' (hname' ▸ hname)
      rw [scopedValue, hnone] at heq
      exact plainValue_ne_call _ _ _ _ _ heq.symm

end CompilesTo

/-- The elements of a document and the nodes that they are made into, nested `template` elements aside. -/
def Template.Pairs (t : Template) (document : List Markup.Node) (r : Site → Markup.Element → Prop) : Prop :=
  List.Forall₂ (fun s seat => r s seat.element) ((sitesOf [] t.mark.nodes).filter (·.node.isKeyed))
    ((Markup.seatsOf [] document).filter (·.element.tag != "template"))

theorem Template.pairs_of_isMadeOf {config : Config} {document : List Markup.Node} {r : Site → Markup.Element → Prop}
    (hclean : (ofDocument config document).hasErrors = false)
    (h : ∀ s ∈ sitesOf [] (ofDocument config document).nodes, s.node.isKeyed = true → ∀ svg e, s.node.IsMadeOf svg e →
      r (s.mark (ofDocument config document).config.renderMode) e) :
    (ofDocument config document).Pairs document r := by
  have hmade := (ofDocument_areMadeOf config document hclean).nodes
  rw [← map_node_sitesOf [] _, List.filter_map, List.forall₂_map_left_iff] at hmade
  unfold Pairs
  rw [sitesOf_markedNodes, List.filter_map, List.forall₂_map_left_iff]
  have hkeyed : (fun s : Site => s.node.isKeyed) ∘ Site.mark (ofDocument config document).config.renderMode =
      Node.isKeyed ∘ Site.node :=
    funext fun s => mark_isKeyed _ s.node
  rw [hkeyed]
  have hsites : ∀ s ∈ (sitesOf [] (ofDocument config document).nodes).filter (Node.isKeyed ∘ Site.node),
      s ∈ sitesOf [] (ofDocument config document).nodes ∧ s.node.isKeyed = true := fun s hs => List.mem_filter.1 hs
  refine (((List.forall₂_and_left _ _).2 ⟨hsites, hmade⟩).imp fun s seat hs => ?_)
  exact h s hs.1.1 hs.1.2 _ _ hs.2

/-- The nodes keep all references of a document. -/
structure Template.KeepsAllReferences (t : Template) (m : RenderModule) (document : List Markup.Node) : Prop where
  elements : t.Pairs document (t.KeepsReferences m)
  /-- Nothing can be referred to at the root element and at nested `template` elements. -/
  templates : ∀ seat ∈ Markup.seatsOf [] document, seat.element.tag = "template" → seat.element.own = []

theorem CompilesTo.keepsAllReferences {config : Config} {source : String} {m : RenderModule}
    {document : List Markup.Node} (h : CompilesTo config source (ofDocument config document) m)
    (hmode : (ofDocument config document).config.renderMode = .shadow) :
    (ofDocument config document).KeepsAllReferences m document := by
  constructor
  case elements =>
    refine Template.pairs_of_isMadeOf h.noErrors fun s hs hkeyed svg e hmade => ?_
    rw [hmode]
    exact h.keepsReferences hmode hs hkeyed hmade
  case templates => exact (ofDocument_areMadeOf config document h.noErrors).templates

/-- Wherever compiling gives code for a shadow tree, all references are kept: they go through the helpers for them unless
they are those of components and no ids. -/
theorem compile_keepsAllReferences {config : Config} {source code : String} {output : Output}
    (h : compile config source = .ok output) (hcode : output.code = some code) :
    ∃ t m document, CompilesTo config source t m ∧ code = m.text ∧ Markup.parse source.toList = .ok document ∧
      (t.config.renderMode = .shadow → t.KeepsAllReferences m document) := by
  obtain ⟨t, m, hm, rfl⟩ := compile_code_iff.1 ⟨output, h, hcode⟩
  obtain ⟨document, hdocument, rfl⟩ := exists_ofDocument hm.parsed
  exact ⟨_, m, document, hm, rfl, hdocument, hm.keepsAllReferences⟩

/-- A label and a component, to which the label refers. -/
theorem compile_keepsAllReferences_label :
    ∃ (output : Output) (t : Template) (m : RenderModule) (document : List Markup.Node),
      compile {} "<template><label for=\"a\">{x}</label><c-d id=\"a\" aria-owns=\"a\"></c-d></template>" = .ok output ∧
      output.code = some m.text ∧ t.config.renderMode = .shadow ∧ t.KeepsAllReferences m document ∧
      m.body.text = "[api_element(\"label\", \x7b attrs: \x7b for: api_scoped_id(\"a\") \x7d, key: 0 \x7d, " ++
        "[api_text(api_dynamic_text($cmp.x))], 129), api_custom_element(\"c-d\", _cD, \x7b props: \x7b id: " ++
        "api_scoped_id(\"a\"), ariaOwns: \"a\" \x7d, key: 1 \x7d, undefined, 256)]" := by
  have hread : (compiled? {}
      "<template><label for=\"a\">{x}</label><c-d id=\"a\" aria-owns=\"a\"></c-d></template>").map
      (fun result => (result.1.config.renderMode, result.2.body.text)) =
      some (.shadow, "[api_element(\"label\", \x7b attrs: \x7b for: api_scoped_id(\"a\") \x7d, key: 0 \x7d, " ++
        "[api_text(api_dynamic_text($cmp.x))], 129), api_custom_element(\"c-d\", _cD, \x7b props: \x7b id: " ++
        "api_scoped_id(\"a\"), ariaOwns: \"a\" \x7d, key: 1 \x7d, undefined, 256)]") := by
    decide +kernel
  obtain ⟨t, m, hm, hread⟩ := exists_compilesTo hread
  obtain ⟨hmode, hbody⟩ := Prod.mk.inj hread
  obtain ⟨output, houtput, hcode⟩ := hm.code
  obtain ⟨t', m', document, hm', -, -, hkeeps⟩ := compile_keepsAllReferences houtput hcode
  obtain rfl := Except.ok.inj (hm.parsed.symm.trans hm'.parsed)
  obtain rfl := Except.ok.inj (hm.rendered.symm.trans hm'.rendered)
  exact ⟨output, t, m, document, houtput, hcode, hmode, hkeeps hmode, hbody⟩

/-- A reference of a component that is no id goes through no helper. -/
theorem compile_not_scopesReferences :
    ¬ ∀ (config : Config) (source code : String) (output : Output) (t : Template) (m : RenderModule)
        (document : List Markup.Node), compile config source = .ok output → output.code = some code →
      CompilesTo config source t m → Markup.parse source.toList = .ok document → t.config.renderMode = .shadow →
      t.Pairs document fun s e => ∀ a ∈ e.own, ∀ value scoping, attributeValue a = .ok value →
        Refers a.name value scoping → ∃ v, t.IsGiven m s e.tag a.name (.call scoping.helper.localName [v]) := by
  intro h
  have hread : (compiled? {} "<template><c-d aria-owns=\"a\"></c-d></template>").map
      (fun result => result.1.config.renderMode) = some .shadow := by
    decide +kernel
  obtain ⟨t, m, hm, hmode⟩ := exists_compilesTo hread
  obtain ⟨output, houtput, hcode⟩ := hm.code
  obtain ⟨document, hdocument, rfl⟩ := exists_ofDocument hm.parsed
  have hseats : (Markup.seatsOf [] document).filter (·.element.tag != "template") =
      [⟨["template"], "c-d", [⟨"aria-owns", "a", true, true, ⟨1, 16⟩⟩], false, ⟨1, 11⟩⟩] := by
    obtain ⟨document', hdocument', hseats⟩ := @Markup.exists_parse
      "<template><c-d aria-owns=\"a\"></c-d></template>".toList
      (fun document => (Markup.seatsOf [] document).filter (·.element.tag != "template") =
        [⟨["template"], "c-d", [⟨"aria-owns", "a", true, true, ⟨1, 16⟩⟩], false, ⟨1, 11⟩⟩]) _ (by decide +kernel)
    obtain rfl := Except.ok.inj (hdocument.symm.trans hdocument')
    exact hseats
  have hscopes := h _ _ _ _ _ m document houtput hcode hm hdocument hmode
  have hkeeps := (hm.keepsAllReferences hmode).elements
  unfold Template.Pairs at hscopes hkeeps
  rw [hseats] at hscopes hkeeps
  generalize (sitesOf [] (ofDocument {} document).mark.nodes).filter (·.node.isKeyed) = sites at hscopes hkeeps
  obtain _ | ⟨hscopes, -⟩ := hscopes
  obtain _ | ⟨hkeeps, -⟩ := hkeeps
  have hown : (⟨"aria-owns", "a", true, true, ⟨1, 16⟩⟩ : Markup.Attribute) ∈
      (⟨"c-d", [⟨"aria-owns", "a", true, true, ⟨1, 16⟩⟩], false, ⟨1, 11⟩⟩ : Markup.Element).own := by
    decide
  have hrefers : Refers "aria-owns" (.literal "a") .id := .id (by decide) (by decide)
  obtain ⟨v, hgiven⟩ := hscopes _ hown _ _ rfl hrefers
  exact ((hkeeps _ hown _ _ rfl hrefers).asWritten (by decide) (by decide)).2 _ _ hgiven

end TemplateCompiler

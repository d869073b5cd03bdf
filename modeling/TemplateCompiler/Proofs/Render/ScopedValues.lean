import TemplateCompiler.Proofs.Render.EveryNode
import TemplateCompiler.Proofs.Template.Changes
import TemplateCompiler.Proofs.Template.Keys
import TemplateCompiler.Proofs.Template.WithFragments
/-!
# Scoped values

Which nodes become fragments is settled before the scoped attributes are marked, and the two agree: nothing in a
fragment is marked, and the value of everything else that is marked goes through the helper for it, where the node is
created (`compile_isScopedIn`). It is in no declaration, since what is declared is the text of a literal, and a literal
calls nothing.
-/

namespace TemplateCompiler

open Text Template Render

/-! ## Fragments -/

namespace Template

variable {rules : Markup.Rules} {mode : RenderMode}

/-- Building an element marks nothing. -/
theorem ElementData.IsOf.unscoped {data : ElementData} {e : Markup.Element} (h : data.IsOf e) :
    ∀ a ∈ data.attributes ++ data.properties, a.scoping = none := by
  obtain ⟨_, _, attributes, -, rfl⟩ := h
  refine ElementData.addAll_of_adds (P := fun data => ∀ a ∈ data.attributes ++ data.properties, a.scoping = none) _ _
    (by simp) fun data later hadds h => ?_
  obtain ⟨hattributes, hproperties⟩ := List.forall_mem_append.1 h
  cases hadds with
  | asAttribute name value position =>
    refine List.forall_mem_append.2 ⟨List.forall_mem_append.2 ⟨hattributes, ?_⟩, hproperties⟩
    exact List.forall_mem_singleton.2 rfl
  | asProperty name value position =>
    refine List.forall_mem_append.2 ⟨hattributes, List.forall_mem_append.2 ⟨hproperties, ?_⟩⟩
    exact List.forall_mem_singleton.2 rfl
  | _ => exact h

/-- Marking a node that never changes marks nothing either. -/
theorem unscoped_of_isStatic {n : Node} (horigin : n.HasOrigin rules) (h : n.isStatic mode = true) :
    ∀ a ∈ (n.mark mode).attributes ++ (n.mark mode).properties, a.scoping = none := by
  rw [mark_of_isStatic mode n h]
  cases n with
  | element id p role data children =>
    obtain ⟨e, content, -, hof, -⟩ := horigin
    exact hof.unscoped
  | slot => cases h
  | _ => simp [Node.attributes, Node.properties]

/-! ## Options -/

/-- The helper that values of the kind go through. -/
def Scoping.helper : Scoping → Helper
  | .id => .scopedId
  | .fragment => .scopedFragmentId

/-- The attributes of a node, or its properties. -/
def Node.bag (asProperty : Bool) (n : Node) : List Attribute :=
  if asProperty then n.properties else n.attributes

/-- The name of the option that holds attributes, or properties. -/
def bagName (asProperty : Bool) : String :=
  if asProperty then "props" else "attrs"

end Template

namespace Render

namespace Value

/-- A literal calls no helper. -/
theorem call_not_mem_of_isLiteral {v : Value} (h : v.isLiteral = true) (helper : Helper) (arguments : List Value) :
    .call helper.localName arguments ∉ v.all := by
  intro hm
  have hhelper : helper ∈ v.trace.helpers := by
    refine List.mem_filterMap.2 ⟨_, hm, ?_⟩
    simp [helper?, Helper.named?_localName]
  rw [trace_of_isLiteral v h] at hhelper
  cases hhelper

theorem isLiteral_of_mem {entries : List (String × Value)} (h : (Value.object entries).isLiteral = true)
    {entry : String × Value} (hentry : entry ∈ entries) : entry.2.isLiteral = true := by
  rw [isLiteral] at h
  induction entries with
  | nil => cases hentry
  | cons first rest ih =>
    obtain ⟨hfirst, hrest⟩ := Bool.and_eq_true_iff.1 h
    rcases List.mem_cons.1 hentry with rfl | hentry
    · exact hfirst
    · exact ih hrest hentry

/-- The options in a call that creates a node. -/
def options? : Value → Option Value
  | .call callee arguments =>
    match Helper.named? callee, arguments with
    | some .element, [_, options, _, _] => some options
    | some .customElement, [_, _, options, _, _] => some options
    | some .dynamicComponent, [_, _, options, _, _] => some options
    | some .slot, [_, options, _, _, _] => some options
    | _, _ => none
  | _ => none

/-- In the body, the node with the key is created with the value under the name in the option `bag`, and all of this is
written right there. -/
def Sets (body : Value) (table : HoistTable) (key : Nat) (bag name : String) (value : Value) : Prop :=
  ∃ w ∈ body.all, ∃ options, w.options? = some (.object options) ∧ (Value.object options).key? table = some key ∧
    ∃ entries, (bag, .object entries) ∈ options ∧ (name, value) ∈ entries

theorem Sets.mono {body body' value : Value} {table : HoistTable} {key : Nat} {bag name : String}
    (h : body.Sets table key bag name value) (hsub : body.all ⊆ body'.all) : body'.Sets table key bag name value := by
  obtain ⟨w, hw, hsets⟩ := h
  exact ⟨w, hsub hw, hsets⟩

end Value

variable {sources : Sources} {table : HoistTable} {locals : List String}

theorem scopedValue_of_scoping {a : Attribute} {scoping : Scoping} (h : a.scoping = some scoping) (asProperty : Bool) :
    scopedValue locals asProperty a = .call scoping.helper.localName [plainValue locals asProperty a.value] := by
  unfold scopedValue
  rw [h]
  cases scoping <;> rfl

/-- An option that is no literal stays where it is. -/
theorem OptionsRender.exists_object {entries : List (String × Value)} {v : Value} (h : OptionsRender table entries v)
    {entry : String × Value} (hentry : entry ∈ entries) (hliteral : entry.2.isLiteral = false) :
    ∃ options, v = .object options ∧ entry ∈ options := by
  unfold OptionsRender at h
  split at h
  · rename_i hobject
    rw [Value.isLiteral_of_mem hobject hentry] at hliteral
    cases hliteral
  · obtain ⟨options, hrender, rfl⟩ := h
    obtain ⟨entry', hentry', hname, hvalue⟩ := forall₂_mem_right hrender.flip hentry
    have hseparate : isSeparate entry = false := by simp [isSeparate, hliteral]
    rw [hseparate] at hvalue
    obtain rfl : entry' = entry := Prod.ext hname hvalue
    exact ⟨options, rfl, hentry'⟩

/-- Options that hold the attributes or properties of a node are no literal if one of them is scoped. -/
theorem exists_scoped {bag : List Attribute} {a : Attribute} (ha : a ∈ bag) {scoping : Scoping}
    (hscoping : a.scoping = some scoping) {asProperty : Bool} {entries : List (String × Value)} {v : Value}
    (h : OptionsRender table entries v) (hbag : attributesOption locals (bagName asProperty) asProperty bag ⊆ entries) :
    ∃ options, v = .object options ∧ ∃ values, (bagName asProperty, .object values) ∈ options ∧
      (a.name, .call scoping.helper.localName [plainValue locals asProperty a.value]) ∈ values := by
  have hvalue := List.mem_map_of_mem (f := fun a => (a.name, scopedValue locals asProperty a)) ha
  rw [scopedValue_of_scoping hscoping] at hvalue
  have hoption : (bagName asProperty, .object (bag.map fun a => (a.name, scopedValue locals asProperty a))) ∈
      attributesOption locals (bagName asProperty) asProperty bag := by
    unfold attributesOption
    rw [if_neg (by simpa using List.ne_nil_of_mem ha)]
    exact List.mem_singleton_self _
  -- One call among the values keeps the whole option, and with it all options, from being declared.
  have hliteral : (Value.object (bag.map fun a => (a.name, scopedValue locals asProperty a))).isLiteral = false := by
    refine Bool.eq_false_iff.2 fun hobject => ?_
    exact absurd (Value.isLiteral_of_mem hobject hvalue) Bool.false_ne_true
  obtain ⟨options, rfl, hmem⟩ := h.exists_object (hbag hoption) hliteral
  exact ⟨options, rfl, _, hmem, hvalue⟩

/-- An element that is no fragment is created with its options. -/
theorem exists_elementOptions {id : Nat} {p : Text.Position} {role : Role} {data : ElementData} {children : List Node}
    {v : Value} (hfree : sources.isFragment (.element id p role data children) = false)
    (h : NodeRenders sources table locals (.element id p role data children) v) :
    ∃ facts options, sources.analysis.get? id = some facts ∧ v.options? = some options ∧
      ElementOptionsRender sources table locals id data facts options := by
  rw [NodeRenders] at h
  obtain ⟨facts, hget, options, hoptions, hrole⟩ := h.inner hfree
  refine ⟨facts, options, hget, ?_, hoptions⟩
  cases role with
  | native =>
    obtain ⟨values, -, rfl⟩ := hrole
    simp [Value.options?, Helper.named?_localName]
  | component =>
    obtain ⟨name, slots, -, -, rfl⟩ := hrole
    simp [Value.options?, Helper.named?_localName]
  | dynamic constructor =>
    obtain ⟨slots, -, rfl⟩ := hrole
    simp [Value.options?, Helper.named?_localName]

/-- A node that is no fragment is created with what is scoped of it. -/
theorem sets_of_renders (hs : table.Sound) {n : Node} {v : Value} (hfree : sources.isFragment n = false)
    (h : NodeRenders sources table locals n v) {asProperty : Bool} {a : Attribute} (ha : a ∈ n.bag asProperty)
    {scoping : Scoping} (hscoping : a.scoping = some scoping) :
    ∃ key, sources.analysis.key? n = some key ∧ v.Sets table key (bagName asProperty) a.name
      (.call scoping.helper.localName [plainValue locals asProperty a.value]) := by
  cases n with
  | element id p role data children =>
    obtain ⟨facts, options, hget, hcreated, hoptions⟩ := exists_elementOptions hfree h
    obtain ⟨key, hkey, hread⟩ := key?_of_elementOptions hs hoptions
    obtain ⟨number, listeners, -, -, hrender⟩ := hoptions
    have hbag : attributesOption locals (bagName asProperty) asProperty
        ((Node.element id p role data children).bag asProperty) ⊆ elementOptions locals data number ++ listeners := by
      intro entry hentry
      cases asProperty <;> simp_all [elementOptions, bagName, Node.bag, Node.attributes, Node.properties]
    obtain ⟨object, rfl, values, hvalues, hvalue⟩ := exists_scoped ha hscoping hrender hbag
    exact ⟨key, by rw [Analysis.key?, Node.id, hget, Option.bind_some, hkey], v, v.self_mem_all, object, hcreated, hread,
      values, hvalues, hvalue⟩
  | slot id p name attributes children =>
    rw [NodeRenders] at h
    obtain ⟨facts, hget, key, options, values, hkey, hrender, -, rfl⟩ := h.inner hfree
    have hread := key?_of_slotOptions hs hrender
    have hbag : attributesOption locals (bagName asProperty) asProperty
        ((Node.slot id p name attributes children).bag asProperty) ⊆ slotEntries locals attributes key := by
      intro entry hentry
      cases asProperty <;> simp_all [slotEntries, bagName, Node.bag, Node.attributes, Node.properties]
    obtain ⟨object, rfl, entries, hentries, hvalue⟩ := exists_scoped ha hscoping hrender hbag
    refine ⟨key, by rw [Analysis.key?, hget, Option.bind_some, hkey], _, Value.self_mem_all _, object, ?_, hread,
      entries, hentries, hvalue⟩
    simp [Value.options?, Helper.named?_localName]
  | _ => cases asProperty <;> cases ha

end Render

/-! ## Modules -/

/-- What is scoped in a template is scoped in the module. -/
structure Template.IsScopedIn (t : Template) (m : RenderModule) : Prop where
  /-- Nothing in a fragment is scoped. -/
  fragments : ∀ n ∈ allNodes t.mark.nodes, t.sources.isFragment n = true →
    ∀ n' ∈ n.all, ∀ a ∈ n'.attributes ++ n'.properties, a.scoping = none
  /-- The value of a scoped attribute or property goes through the helper for it, where its node is created. -/
  elsewhere : ∀ s ∈ sitesOf [] t.mark.nodes, ∀ asProperty, ∀ a ∈ s.node.bag asProperty, ∀ scoping,
    a.scoping = some scoping → ∃ key, t.analysis.key? s.node = some key ∧
      m.body.Sets m.hoists key (bagName asProperty) a.name
        (.call scoping.helper.localName [plainValue s.locals asProperty a.value])
  /-- What is declared as a literal is the text of one, and calls no helper. -/
  literals : ∀ h ∈ m.hoists.entries, h.kind = .object → ∃ v : Value, v.isLiteral = true ∧ h.content = v.text ∧
    ∀ (helper : Helper) (arguments : List Value), .call helper.localName arguments ∉ v.all

namespace CompilesTo

variable {config : Config} {source : String} {t : Template} {m : RenderModule}

theorem unscoped_of_inFragment (h : CompilesTo config source t m) {n : Node}
    (hn : InFragment t.sources.isFragment (allNodes t.mark.nodes) n) :
    ∀ a ∈ n.attributes ++ n.properties, a.scoping = none := by
  obtain ⟨n₀, hn₀, rfl, hstatic⟩ := h.isStatic_of_inFragment hn
  obtain ⟨document, hdocument, rfl⟩ := exists_ofDocument h.parsed
  exact unscoped_of_isStatic (haveOrigins_ofDocument config (Markup.parse_voidsEmpty hdocument) n₀ hn₀) hstatic

theorem isScopedIn (h : CompilesTo config source t m) : t.IsScopedIn m := by
  constructor
  case fragments =>
    intro n hn hfragment n' hn'
    exact h.unscoped_of_inFragment ⟨n, hn, hfragment, hn'⟩
  case elsewhere =>
    intro s hs asProperty a ha scoping hscoping
    -- Nothing in a fragment is scoped, so the node is created by itself.
    have hfree : ¬ InFragment t.sources.isFragment (allNodes t.mark.nodes) s.node := by
      intro hin
      have hmem : a ∈ s.node.attributes ++ s.node.properties := by
        cases asProperty
        · exact List.mem_append_left _ ha
        · exact List.mem_append_right _ ha
      rw [h.unscoped_of_inFragment hin a hmem] at hscoping
      cases hscoping
    obtain ⟨hfragment, w, hw, hrender⟩ := h.renderedIn_site hs hfree
    obtain ⟨key, hkey, hsets⟩ := sets_of_renders h.fits.noted.sound hfragment hrender ha hscoping
    exact ⟨key, hkey, hsets.mono (Value.all_subset m.body w hw)⟩
  case literals =>
    intro hoist hhoist hkind
    have hcontent := h.fits.noted.contents hoist hhoist
    rw [hkind] at hcontent
    obtain ⟨v, hliteral, htext⟩ := hcontent
    exact ⟨v, hliteral, htext, Value.call_not_mem_of_isLiteral hliteral⟩

end CompilesTo

/-- Wherever compiling gives code, what is scoped in the template is scoped in the module. -/
theorem compile_isScopedIn {config : Config} {source code : String} {output : Output}
    (h : compile config source = .ok output) (hcode : output.code = some code) :
    ∃ t m, CompilesTo config source t m ∧ code = m.text ∧ t.IsScopedIn m := by
  obtain ⟨t, m, hm, rfl⟩ := compile_code_iff.1 ⟨output, h, hcode⟩
  exact ⟨t, m, hm, rfl, hm.isScopedIn⟩

/-- An attribute of an element, one that names a fragment of the page and a property of a component are scoped, and the
paragraph beside them is a fragment. -/
theorem compile_isScopedIn_label :
    ∃ (output : Output) (t : Template) (m : RenderModule),
      compile {} "<template><label for=\"a\">{x}</label><a href=\"#b\"></a><c-d id={e}></c-d><p>s</p></template>" =
        .ok output ∧ output.code = some m.text ∧ t.IsScopedIn m ∧
      (allNodes t.mark.nodes).map (fun n => (n.attributes ++ n.properties).map fun a => (a.name, a.scoping)) =
        [[("for", some .id)], [], [("href", some .fragment)], [("id", some .id)], [], []] ∧
      m.hoists.entries.map (·.content) = ["<p>s</p>"] := by
  have hscopings : (compiled? {}
      "<template><label for=\"a\">{x}</label><a href=\"#b\"></a><c-d id={e}></c-d><p>s</p></template>").map
      (fun result => ((allNodes result.1.mark.nodes).map (fun n =>
        (n.attributes ++ n.properties).map fun a => (a.name, a.scoping)), result.2.hoists.entries.map (·.content))) =
      some ([[("for", some .id)], [], [("href", some .fragment)], [("id", some .id)], [], []], ["<p>s</p>"]) := by
    decide +kernel
  obtain ⟨t, m, hm, hscopings⟩ := exists_compilesTo hscopings
  obtain ⟨hmarked, hdeclared⟩ := Prod.mk.inj hscopings
  obtain ⟨output, houtput, hcode⟩ := hm.code
  obtain ⟨t', m', hm', -, hscoped⟩ := compile_isScopedIn houtput hcode
  obtain rfl := Except.ok.inj (hm.parsed.symm.trans hm'.parsed)
  obtain rfl := Except.ok.inj (hm.rendered.symm.trans hm'.rendered)
  exact ⟨output, t, m, houtput, hcode, hscoped, hmarked, hdeclared⟩

end TemplateCompiler

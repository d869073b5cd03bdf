import TemplateCompiler.Proofs.Render.EveryNode
import TemplateCompiler.Proofs.Render.ObjectKeys
import TemplateCompiler.Proofs.Render.References
/-!
# Flags and options

The flags of an element come from the analysis, and its options from the generation of the body, each with conditions
of its own, and parts of the options may be declared apart. `CompilesTo.flagsAgree` shows that the two agree in every
call that creates an element or a slot: a flag is set exactly if the options have the entry that it stands for.
-/

namespace TemplateCompiler

open Text Template Render Binding

/-! ## Flags -/

namespace Template

/-- The flag of what has attributes. -/
def attributesFlag : Nat := 2 ^ 0

/-- The flag of what has classes. -/
def classesFlag : Nat := 2 ^ 1

/-- The flag of what has a style. -/
def styleFlag : Nat := 2 ^ 2

/-- The flag of what has listeners. -/
def listenersFlag : Nat := 2 ^ 3

/-- The flag of what is in the namespace of SVG. -/
def svgFlag : Nat := 2 ^ 5

/-- The flag of what has properties. -/
def propertiesFlag : Nat := 2 ^ 8

/-- Whether a flag is among some flags. -/
def hasFlag (flags flag : Nat) : Bool :=
  flags &&& flag != 0

section Mask

variable (hints : Hints)

theorem hasFlag_mask (i : Nat) : hasFlag hints.mask (2 ^ i) = (hints.bits[i]?).getD false := by
  rw [hasFlag, Nat.and_two_pow, ← hints.testBit_mask i]
  cases hints.mask.testBit i <;> simp

@[simp] theorem hasFlag_attributesFlag : hasFlag hints.mask attributesFlag = hints.attributes :=
  hasFlag_mask hints 0

@[simp] theorem hasFlag_classesFlag : hasFlag hints.mask classesFlag = hints.classes :=
  hasFlag_mask hints 1

@[simp] theorem hasFlag_styleFlag : hasFlag hints.mask styleFlag = hints.style :=
  hasFlag_mask hints 2

@[simp] theorem hasFlag_listenersFlag : hasFlag hints.mask listenersFlag = hints.listeners :=
  hasFlag_mask hints 3

@[simp] theorem hasFlag_svgFlag : hasFlag hints.mask svgFlag = hints.svg :=
  hasFlag_mask hints 5

@[simp] theorem hasFlag_propertiesFlag : hasFlag hints.mask propertiesFlag = hints.properties :=
  hasFlag_mask hints 8

end Mask

/-- Flags say which options there are: `names` are the names of the options, in order. -/
structure FlagsAgree (flags : Nat) (names : List String) : Prop where
  attributes : hasFlag flags attributesFlag = true ↔ "attrs" ∈ names
  properties : hasFlag flags propertiesFlag = true ↔ "props" ∈ names
  listeners : hasFlag flags listenersFlag = true ↔ "on" ∈ names
  svg : hasFlag flags svgFlag = true ↔ "svg" ∈ names
  classes : hasFlag flags classesFlag = true ↔ "classMap" ∈ names ∨ "className" ∈ names
  style : hasFlag flags styleFlag = true ↔ "styleDecls" ∈ names ∨ "style" ∈ names
  key : "key" ∈ names
  order : names.Sublist optionNames
  /-- Classes and styles are given in one way. -/
  single : ¬ ("classMap" ∈ names ∧ "className" ∈ names) ∧ ¬ ("styleDecls" ∈ names ∧ "style" ∈ names)

/-- The name of the option for classes. -/
def ClassBinding.optionName : ClassBinding → String
  | .static _ => "classMap"
  | .dynamic _ => "className"

/-- The name of the option for a style. -/
def StyleBinding.optionName : StyleBinding → String
  | .static _ => "styleDecls"
  | .dynamic _ => "style"

namespace ElementData

variable (data : ElementData)

/-- The names of the options of an element. -/
def optionNames : List String :=
  (if data.attributes.isEmpty then [] else ["attrs"]) ++ (if data.properties.isEmpty then [] else ["props"]) ++
    (data.classes.map ClassBinding.optionName).toList ++ (data.style.map StyleBinding.optionName).toList ++
    (if data.namespace = .svg then ["svg"] else []) ++ ["key"] ++ (if data.listeners.isEmpty then [] else ["on"])

theorem mem_optionNames {name : String} : name ∈ data.optionNames ↔
    data.attributes.isEmpty = false ∧ name = "attrs" ∨ data.properties.isEmpty = false ∧ name = "props" ∨
      data.classes.map ClassBinding.optionName = some name ∨ data.style.map StyleBinding.optionName = some name ∨
      data.namespace = .svg ∧ name = "svg" ∨ name = "key" ∨ data.listeners.isEmpty = false ∧ name = "on" := by
  have hif (c : Bool) (other : String) : name ∈ (if c then [] else [other]) ↔ c = false ∧ name = other := by
    cases c <;> simp
  have hsvg : name ∈ (if data.namespace = .svg then ["svg"] else []) ↔ data.namespace = .svg ∧ name = "svg" := by
    split <;> simp_all
  simp only [optionNames, List.mem_append, hif, hsvg, Option.mem_toList, List.mem_singleton, or_assoc]

/-- Classes are one option, if there are any. -/
theorem map_optionName_classes {name : String} : data.classes.map ClassBinding.optionName = some name →
    data.classes.isSome = true ∧ (name = "classMap" ∨ name = "className") := by
  rcases data.classes with _ | names | expr <;> simp +contextual [ClassBinding.optionName, eq_comm]

theorem map_optionName_style {name : String} : data.style.map StyleBinding.optionName = some name →
    data.style.isSome = true ∧ (name = "styleDecls" ∨ name = "style") := by
  rcases data.style with _ | declarations | expr <;> simp +contextual [StyleBinding.optionName, eq_comm]

theorem mem_optionNames_of_class {name : String} (h : name = "classMap" ∨ name = "className") :
    name ∈ data.optionNames ↔ data.classes.map ClassBinding.optionName = some name := by
  have hstyle : data.style.map StyleBinding.optionName ≠ some name := by
    intro hname
    rcases (data.map_optionName_style hname).2 with rfl | rfl <;> simp at h
  rcases h with rfl | rfl <;> simp [mem_optionNames, hstyle]

theorem mem_optionNames_of_style {name : String} (h : name = "styleDecls" ∨ name = "style") :
    name ∈ data.optionNames ↔ data.style.map StyleBinding.optionName = some name := by
  have hclasses : data.classes.map ClassBinding.optionName ≠ some name := by
    intro hname
    rcases (data.map_optionName_classes hname).2 with rfl | rfl <;> simp at h
  rcases h with rfl | rfl <;> simp [mem_optionNames, hclasses]

/-- Any other name depends on one part of the element alone. -/
theorem mem_optionNames_of_other {name : String} (hclasses : name ≠ "classMap" ∧ name ≠ "className")
    (hstyle : name ≠ "styleDecls" ∧ name ≠ "style") : name ∈ data.optionNames ↔
      data.attributes.isEmpty = false ∧ name = "attrs" ∨ data.properties.isEmpty = false ∧ name = "props" ∨
        data.namespace = .svg ∧ name = "svg" ∨ name = "key" ∨ data.listeners.isEmpty = false ∧ name = "on" := by
  have hclass : data.classes.map ClassBinding.optionName ≠ some name := fun hname =>
    (data.map_optionName_classes hname).2.elim hclasses.1 hclasses.2
  have hdeclared : data.style.map StyleBinding.optionName ≠ some name := fun hname =>
    (data.map_optionName_style hname).2.elim hstyle.1 hstyle.2
  rw [mem_optionNames]
  simp only [hclass, hdeclared, false_or]

theorem optionNames_mark (mode : RenderMode) : (data.mark mode).optionNames = data.optionNames := by
  simp only [optionNames, mark, List.isEmpty_map]
  rfl

end ElementData

end Template

namespace Render

theorem map_fst_elementOptions (locals : List String) (data : ElementData) (number : Nat) :
    (elementOptions locals data number ++ listenersOption locals data.listeners).map Prod.fst = data.optionNames := by
  have hbag (name : String) (asProperty : Bool) (attributes : List Attribute) :
      (attributesOption locals name asProperty attributes).map Prod.fst =
        if attributes.isEmpty then [] else [name] := by
    unfold attributesOption
    split <;> rfl
  have hclasses : (classOption locals data.classes).map Prod.fst =
      (data.classes.map ClassBinding.optionName).toList := by
    rcases data.classes with _ | names | expr <;> rfl
  have hstyle : (styleEntry locals data.style).map Prod.fst = (data.style.map StyleBinding.optionName).toList := by
    rcases data.style with _ | declarations | expr <;> rfl
  have hsvg : (if data.namespace = .svg then [("svg", Value.bool true)] else []).map Prod.fst =
      if data.namespace = .svg then ["svg"] else [] := by
    split <;> rfl
  have hlisteners : (listenersOption locals data.listeners).map Prod.fst =
      if data.listeners.isEmpty then [] else ["on"] := by
    unfold listenersOption
    split <;> rfl
  simp only [elementOptions, List.map_append, hbag, hclasses, hstyle, hsvg, hlisteners, ElementData.optionNames,
    List.map_cons, List.map_nil]

theorem optionNames_sublist (data : ElementData) : data.optionNames.Sublist optionNames := by
  rw [← map_fst_elementOptions [] data 0]
  refine names_elementOptions_sublist data 0 ?_
  unfold listenersOption
  split <;> simp

/-- The flags of an element agree with the names of its options. -/
theorem flagsAgree_element (mode : RenderMode) (lift : Bool) (key id : Nat) (p : Position) (role : Role)
    (data : ElementData) (children : List Node) :
    FlagsAgree ((Node.element id p role data children).facts mode lift key).hints.mask data.optionNames := by
  -- What creates the element makes a difference to the flag for slots only.
  obtain ⟨slots, hhints⟩ : ∃ slots, ((Node.element id p role data children).facts mode lift key).hints =
      { data.hints with
        slots, static := (Node.element id p role data children).isStatic mode
        dynamicBelow := (Node.element id p role data children).isDynamicBelow } := by
    cases role with
    | native => exact ⟨false, rfl⟩
    | component | dynamic => exact ⟨!children.isEmpty, rfl⟩
  rw [hhints]
  constructor
  case attributes =>
    rw [hasFlag_attributesFlag, data.mem_optionNames_of_other (by simp) (by simp)]
    simp [ElementData.hints]
  case properties =>
    rw [hasFlag_propertiesFlag, data.mem_optionNames_of_other (by simp) (by simp)]
    simp [ElementData.hints]
  case listeners =>
    rw [hasFlag_listenersFlag, data.mem_optionNames_of_other (by simp) (by simp)]
    simp [ElementData.hints]
  case svg =>
    rw [hasFlag_svgFlag, data.mem_optionNames_of_other (by simp) (by simp)]
    simp [ElementData.hints]
  case classes =>
    rw [hasFlag_classesFlag, data.mem_optionNames_of_class (.inl rfl), data.mem_optionNames_of_class (.inr rfl)]
    rcases hclasses : data.classes with _ | names | expr <;>
      simp [ElementData.hints, hclasses, ClassBinding.optionName]
  case style =>
    rw [hasFlag_styleFlag, data.mem_optionNames_of_style (.inl rfl), data.mem_optionNames_of_style (.inr rfl)]
    rcases hstyle : data.style with _ | declarations | expr <;>
      simp [ElementData.hints, hstyle, StyleBinding.optionName]
  case key => simp [ElementData.optionNames]
  case order => exact optionNames_sublist data
  case single =>
    rw [data.mem_optionNames_of_class (.inl rfl), data.mem_optionNames_of_class (.inr rfl),
      data.mem_optionNames_of_style (.inl rfl), data.mem_optionNames_of_style (.inr rfl)]
    constructor
    · rintro ⟨hfirst, hsecond⟩
      simp [hfirst] at hsecond
    · rintro ⟨hfirst, hsecond⟩
      simp [hfirst] at hsecond

/-- The flags of a slot agree with the names of its options. -/
theorem flagsAgree_slot (mode : RenderMode) (lift : Bool) (key id number : Nat) (p : Position) (name : String)
    (attributes : List Attribute) (children : List Node) (locals : List String) :
    FlagsAgree ((Node.slot id p name attributes children).facts mode lift key).hints.mask
      ((slotEntries locals attributes number).map Prod.fst) := by
  have hnames : (slotEntries locals attributes number).map Prod.fst =
      (if attributes.isEmpty then [] else ["attrs"]) ++ ["key"] := by
    unfold slotEntries attributesOption
    split <;> rfl
  rw [hnames]
  cases hempty : attributes.isEmpty <;> constructor <;>
    simp [Node.facts, Node.plainFacts, Node.hints, Node.ownHints, hempty, optionNames]

/-- The flags in a call that creates a node, which are its last argument. -/
def Value.flags? : Value → Option Nat
  | .call _ arguments =>
    match arguments.getLast? with
    | some (.number flags) => some flags
    | _ => none
  | _ => none

/-- The flags in a call agree with its options, once declarations are put in. -/
def Value.FlagsAgree (table : HoistTable) (w options : Value) : Prop :=
  ∃ flags entries, w.flags? = some flags ∧ options.inlined table = .object entries ∧
    Template.FlagsAgree flags (entries.map Prod.fst)

/-- An element or a slot that is no fragment is created with its key and its flags, and these agree with its options. -/
theorem flagsAgree_of_renders {sources : Sources} {table : HoistTable} (hs : table.Sound) {locals : List String}
    {mode : RenderMode} {lift : Bool} {key : Nat} {n : Node} {v : Value}
    (hfacts : sources.analysis.get? (n.mark mode).id = some (n.facts mode lift key))
    (hfree : sources.isFragment (n.mark mode) = false) (hkeyed : n.isKeyed = true)
    (h : NodeRenders sources table locals (n.mark mode) v) :
    ∃ options, v.options? = some options ∧ options.key? table = (n.facts mode lift key).key ∧
      v.flags? = some (n.facts mode lift key).hints.mask ∧ v.FlagsAgree table options := by
  cases n with
  | element id p role data children =>
    simp only [Node.mark, NodeRenders] at h
    obtain ⟨facts, hget, options, hoptions, hrole⟩ := h.inner hfree
    obtain rfl := Option.some.inj (hget.symm.trans hfacts)
    obtain ⟨number, hnumber, hread⟩ := key?_of_elementOptions hs hoptions
    obtain ⟨number', -, hinlined⟩ := inlined_elementOptions hs hoptions
    have hagree : Template.FlagsAgree ((Node.element id p role data children).facts mode lift key).hints.mask
        ((elementOptions locals (data.mark mode) number' ++
          listenersOption locals (data.mark mode).listeners).map Prod.fst) := by
      rw [map_fst_elementOptions, ElementData.optionNames_mark]
      exact flagsAgree_element mode lift key id p role data children
    have hcall : v.options? = some options ∧
        v.flags? = some ((Node.element id p role data children).facts mode lift key).hints.mask := by
      cases role with
      | native =>
        obtain ⟨values, -, rfl⟩ := hrole
        exact ⟨by simp [Value.options?, Helper.named?_localName], rfl⟩
      | component =>
        obtain ⟨name, slots, -, -, rfl⟩ := hrole
        exact ⟨by simp [Value.options?, Helper.named?_localName], rfl⟩
      | dynamic constructor =>
        obtain ⟨slots, -, rfl⟩ := hrole
        exact ⟨by simp [Value.options?, Helper.named?_localName], rfl⟩
    exact ⟨options, hcall.1, hread.trans hnumber.symm, hcall.2, _, _, hcall.2, hinlined, hagree⟩
  | slot id p name attributes children =>
    simp only [Node.mark, NodeRenders] at h
    obtain ⟨facts, hget, number, options, values, hnumber, hoptions, -, rfl⟩ := h.inner hfree
    obtain rfl := Option.some.inj (hget.symm.trans hfacts)
    have hagree := flagsAgree_slot mode lift key id number p name attributes children locals
    have hnames : (slotEntries locals attributes number).map Prod.fst =
        (slotEntries locals (attributes.map (·.mark mode)) number).map Prod.fst := by
      simp only [slotEntries, attributesOption, List.isEmpty_map]
      split <;> rfl
    rw [hnames] at hagree
    refine ⟨options, by simp [Value.options?, Helper.named?_localName], ?_, rfl, _, _, rfl,
      inlined_slotOptions hs hoptions, hagree⟩
    exact (key?_of_slotOptions hs hoptions).trans hnumber.symm
  | _ => cases hkeyed

end Render

/-! ## Modules -/

/-- The flags in a module agree with its options. -/
structure Template.FlagsAgreeIn (t : Template) (m : RenderModule) : Prop where
  /-- So they do in every call that creates an element or a slot. -/
  calls : ∀ w ∈ m.body.all, ∀ options, w.options? = some options → w.FlagsAgree m.hoists options
  /-- There is such a call for each element and each slot, fragments and what is in them aside; it has the key and the
  flags of the node. -/
  nodes : ∀ n ∈ allNodes t.mark.nodes, n.isKeyed = true →
    ¬ InFragment t.sources.isFragment (allNodes t.mark.nodes) n →
    ∃ w ∈ m.body.all, ∃ options facts, w.options? = some options ∧ t.analysis.get? n.id = some facts ∧
      options.key? m.hoists = facts.key ∧ w.flags? = some facts.hints.mask ∧ w.FlagsAgree m.hoists options

theorem Template.isKeyed_mark (mode : RenderMode) (n : Node) : (n.mark mode).isKeyed = n.isKeyed := by
  cases n <;> rfl

theorem CompilesTo.flagsAgree {config : Config} {source : String} {t : Template} {m : RenderModule}
    (h : CompilesTo config source t m) : t.FlagsAgreeIn m := by
  have hsound := h.fits.noted.sound
  constructor
  case calls =>
    intro w hw options hoptions
    obtain ⟨n, hn, locals, hrender, hfree, hkeyed⟩ := h.exists_of_options? hw hoptions
    obtain ⟨n, -, rfl, lift, key, hfacts⟩ := h.facts hn
    rw [isKeyed_mark] at hkeyed
    obtain ⟨options', hoptions', -, -, hagree⟩ := flagsAgree_of_renders hsound hfacts hfree hkeyed hrender
    obtain rfl := Option.some.inj (hoptions.symm.trans hoptions')
    exact hagree
  case nodes =>
    intro n hn hkeyed hfree
    obtain ⟨hfragment, locals, w, hw, hrender⟩ := h.renderedIn_body hn hfree
    obtain ⟨n, -, rfl, lift, key, hfacts⟩ := h.facts hn
    rw [isKeyed_mark] at hkeyed
    obtain ⟨options, hoptions, hkey, hflags, hagree⟩ := flagsAgree_of_renders hsound hfacts hfragment hkeyed hrender
    exact ⟨w, hw, options, _, hoptions, hfacts, hkey, hflags, hagree⟩

/-- Wherever compiling gives no error, the flags of every element and every slot agree with its options. -/
theorem compile_flagsAgree {config : Config} {source : String} {output : Output}
    (h : compile config source = .ok output) (hclean : output.hasErrors = false) :
    ∃ t m, CompilesTo config source t m ∧ output.code = some m.text ∧ t.FlagsAgreeIn m := by
  obtain ⟨t, m, hm, hcode⟩ := compilesTo_of_noErrors h hclean
  exact ⟨t, m, hm, hcode, hm.flagsAgree⟩

/-- Options of all kinds, of which the only ones of the `svg` element are declared as a whole. -/
theorem compile_flagsAgree_options :
    ∃ (output : Output) (t : Template) (m : RenderModule),
      compile {} ("<template><p class={c} style=\"color: red\" onclick={g} title=\"a\">x</p><input value={v}>" ++
        "<svg>{d}</svg><x-y lwc:dynamic={k} class=\"u\" data-a={b} q=\"1\" style={s}></x-y></template>") =
        .ok output ∧ output.hasErrors = false ∧ output.code = some m.text ∧ t.FlagsAgreeIn m ∧
      m.body.text = "[api_element(\"p\", \x7b attrs: stc0, className: api_normalize_class_name($cmp.c), " ++
        "styleDecls: stc1, key: 0, on: { click: _m0 || ($ctx._m0 = api_bind($cmp.g)) } \x7d, " ++
        "[api_text(\"x\")], 15), api_element(\"input\", { props: { value: $cmp.v }, key: 1 }, [], 256), " ++
        "api_element(\"svg\", stc2, [api_text(api_dynamic_text($cmp.d))], 160), " ++
        "api_dynamic_component(\"x-y\", $cmp.k, \x7b attrs: \x7b \"data-a\": $cmp.b \x7d, props: stc3, " ++
        "classMap: stc4, style: $cmp.s, key: 3 \x7d, undefined, 263)]" := by
  have htext : (compiled? {}
      ("<template><p class={c} style=\"color: red\" onclick={g} title=\"a\">x</p><input value={v}>" ++
        "<svg>{d}</svg><x-y lwc:dynamic={k} class=\"u\" data-a={b} q=\"1\" style={s}></x-y></template>")).map
      (fun result => result.2.body.text) =
      some ("[api_element(\"p\", \x7b attrs: stc0, className: api_normalize_class_name($cmp.c), " ++
        "styleDecls: stc1, key: 0, on: { click: _m0 || ($ctx._m0 = api_bind($cmp.g)) } \x7d, " ++
        "[api_text(\"x\")], 15), api_element(\"input\", { props: { value: $cmp.v }, key: 1 }, [], 256), " ++
        "api_element(\"svg\", stc2, [api_text(api_dynamic_text($cmp.d))], 160), " ++
        "api_dynamic_component(\"x-y\", $cmp.k, \x7b attrs: \x7b \"data-a\": $cmp.b \x7d, props: stc3, " ++
        "classMap: stc4, style: $cmp.s, key: 3 \x7d, undefined, 263)]") := by
    decide +kernel
  obtain ⟨t, m, hm, htext⟩ := exists_compilesTo htext
  obtain ⟨output, houtput, hcode⟩ := hm.code
  have hclean : output.hasErrors = false := hm.hasErrors houtput
  obtain ⟨t', m', hm', -, hagree⟩ := compile_flagsAgree houtput hclean
  obtain rfl := Except.ok.inj (hm.parsed.symm.trans hm'.parsed)
  obtain rfl := Except.ok.inj (hm.rendered.symm.trans hm'.rendered)
  exact ⟨output, t, m, houtput, hclean, hcode, hagree, htext⟩

end TemplateCompiler

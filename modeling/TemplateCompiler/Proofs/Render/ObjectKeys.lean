import TemplateCompiler.Proofs.Render.Inlined
import TemplateCompiler.Proofs.Render.Occurrences
import TemplateCompiler.Proofs.Render.Preamble
import TemplateCompiler.Proofs.Render.ScopedValues
import TemplateCompiler.Proofs.Template.Written
/-!
# Keys of objects

A module writes objects in its body and in the literals that it declares. Each of them is made for one node: its options,
its attributes or properties, its classes, its listeners or the slots of its children. So what is known of the names of
all nodes is known of the keys of all objects (`CompilesTo.keys`), and the properties of a node are one of them
(`CompilesTo.writes_properties`).
-/

namespace TemplateCompiler

open Template Binding

namespace Template

/-! ## Names of a node -/

/-- The classes of a node, those that are bound aside. -/
def Node.classKeys : Node → List String
  | .element _ _ _ data _ => classNames data.classes
  | _ => []

/-- The names that a node gives to its attributes and properties, to its classes and to its listeners are as `P` says. -/
structure Node.HasNames (P : List String → Prop) (n : Node) : Prop where
  bags : ∀ asProperty, P ((n.bag asProperty).map Attribute.name)
  classes : P n.classKeys
  listeners : P (n.listeners.map Listener.event)

end Template

namespace Render

/-! ## What is written -/

/-- A value is in a body, or in a literal that is declared. -/
def HoistTable.Writes (table : HoistTable) (body w : Value) : Prop :=
  w ∈ body.all ∨ ∃ (literal : Value) (name : String),
    literal.isLiteral = true ∧ table.Declares .object literal.text name ∧ w ∈ literal.all

theorem HoistTable.Writes.mono {table : HoistTable} {body body' w : Value} (h : table.Writes body w)
    (hsub : body.all ⊆ body'.all) : table.Writes body' w :=
  h.imp_left fun hw => hsub hw

/-- A value is written in a module. -/
def RenderModule.Writes (m : RenderModule) (w : Value) : Prop :=
  m.hoists.Writes m.body w

/-- No object that a module writes has two entries with the same key. -/
def RenderModule.KeysApart (m : RenderModule) : Prop :=
  ∀ entries, m.Writes (.object entries) → (entries.map Prod.fst).Nodup

namespace Value

/-- If a value is an object, its keys are as `P` says, and so are those of all objects in a literal that it names. -/
structure HasKeys (table : HoistTable) (P : List String → Prop) (v : Value) : Prop where
  object : ∀ entries, v = .object entries → P (entries.map Prod.fst)
  declared : ∀ name literal, v.reference? = some name → table.constant? name = some literal →
    ∀ entries, .object entries ∈ literal.all → P (entries.map Prod.fst)

/-- The keys of all objects in a value, and in the literals that it names, are as `P` says. -/
def AllKeys (table : HoistTable) (P : List String → Prop) (v : Value) : Prop :=
  ∀ w ∈ v.all, w.HasKeys table P

section AllKeys

variable {table : HoistTable} {P : List String → Prop}

/-- What is no object and names nothing is no matter. -/
theorem hasKeys_of_other {v : Value} (hobject : ∀ entries, v ≠ .object entries) (hname : v.reference? = none) :
    v.HasKeys table P :=
  ⟨fun entries heq => absurd heq (hobject entries), fun name literal href => by simp [hname] at href⟩

theorem allKeys_of_leaf {v : Value} (hall : v.all = [v]) (hobject : ∀ entries, v ≠ .object entries)
    (hname : v.reference? = none) : v.AllKeys table P := by
  rw [AllKeys, hall, List.forall_mem_singleton]
  exact hasKeys_of_other hobject hname

@[simp] theorem allKeys_string (text : String) : (Value.string text).AllKeys table P :=
  allKeys_of_leaf rfl (by simp) rfl

@[simp] theorem allKeys_number (n : Nat) : (Value.number n).AllKeys table P :=
  allKeys_of_leaf rfl (by simp) rfl

@[simp] theorem allKeys_bool (value : Bool) : (Value.bool value).AllKeys table P :=
  allKeys_of_leaf rfl (by simp) rfl

@[simp] theorem allKeys_undefined : Value.undefined.AllKeys table P :=
  allKeys_of_leaf rfl (by simp) rfl

@[simp] theorem allKeys_raw (source : String) : (Value.raw source).AllKeys table P :=
  allKeys_of_leaf rfl (by simp) rfl

@[simp] theorem allKeys_array {items : List Value} :
    (Value.array items).AllKeys table P ↔ ∀ v ∈ items, v.AllKeys table P := by
  simp only [AllKeys, all, List.forall_mem_cons, forall_mem_allOf, hasKeys_of_other (v := .array items) (by simp) rfl,
    true_and]

@[simp] theorem allKeys_object {entries : List (String × Value)} : (Value.object entries).AllKeys table P ↔
    P (entries.map Prod.fst) ∧ ∀ entry ∈ entries, entry.2.AllKeys table P := by
  have hobject : (Value.object entries).HasKeys table P ↔ P (entries.map Prod.fst) :=
    ⟨fun h => h.object entries rfl, fun h => ⟨fun _ heq => Value.object.inj heq ▸ h, fun _ _ href => by cases href⟩⟩
  simp only [AllKeys, all, List.forall_mem_cons, forall_mem_allUnder, hobject]

@[simp] theorem allKeys_helper (helper : Helper) {arguments : List Value} :
    (Value.call helper.localName arguments).AllKeys table P ↔ ∀ v ∈ arguments, v.AllKeys table P := by
  have hname : (Value.call helper.localName arguments).reference? = none := by
    simp [reference?, Helper.named?_localName]
  simp only [AllKeys, all, List.forall_mem_cons, forall_mem_allOf, hasKeys_of_other (by simp) hname, true_and]

@[simp] theorem allKeys_concat {parts : List Value} :
    (Value.concat parts).AllKeys table P ↔ ∀ v ∈ parts, v.AllKeys table P := by
  simp only [AllKeys, all, List.forall_mem_cons, forall_mem_allOf, hasKeys_of_other (v := .concat parts) (by simp) rfl,
    true_and]

@[simp] theorem allKeys_function {parameters : List String} {body : Value} :
    (Value.function parameters body).AllKeys table P ↔ body.AllKeys table P := by
  simp only [AllKeys, all, List.forall_mem_cons, hasKeys_of_other (v := .function parameters body) (by simp) rfl,
    true_and]

@[simp] theorem allKeys_arrow {body : Value} : (Value.arrow body).AllKeys table P ↔ body.AllKeys table P := by
  simp only [AllKeys, all, List.forall_mem_cons, hasKeys_of_other (v := .arrow body) (by simp) rfl, true_and]

@[simp] theorem allKeys_conditional {test consequent alternate : Value} :
    (Value.conditional test consequent alternate).AllKeys table P ↔
      test.AllKeys table P ∧ consequent.AllKeys table P ∧ alternate.AllKeys table P := by
  simp only [AllKeys, all, List.forall_mem_cons, List.forall_mem_append, and_assoc,
    hasKeys_of_other (v := .conditional test consequent alternate) (by simp) rfl, true_and]

@[simp] theorem allKeys_memo {name : String} {value : Value} :
    (Value.memo name value).AllKeys table P ↔ value.AllKeys table P := by
  simp only [AllKeys, all, List.forall_mem_cons, hasKeys_of_other (v := .memo name value) (by simp) rfl, true_and]

/-- A name is no matter if it stands for no literal. -/
theorem allKeys_constant {name : String} (h : table.constant? name = none) : (Value.constant name).AllKeys table P := by
  rw [AllKeys, all, List.forall_mem_singleton]
  refine ⟨fun entries heq => (nomatch heq), fun _ literal href hconstant => ?_⟩
  obtain rfl := Option.some.inj href
  simp [h] at hconstant

end AllKeys

end Value

open Value

variable {sources : Sources} {table : HoistTable} {locals : List String} {P : List String → Prop}

/-! ## Options -/

@[simp] theorem allKeys_exprValue (locals : List String) (expr : Expr) : (exprValue locals expr).AllKeys table P :=
  allKeys_raw _

@[simp] theorem allKeys_scopedValue (locals : List String) (asProperty : Bool) (a : Attribute) :
    (scopedValue locals asProperty a).AllKeys table P := by
  have hplain : (plainValue locals asProperty a.value).AllKeys table P := by
    unfold plainValue
    split
    · simp
    · split <;> simp
    · simp
  unfold scopedValue
  split <;> simp [hplain]

theorem allKeys_attributesOption (name : String) (asProperty : Bool) {attributes : List Attribute}
    (h : P (attributes.map Attribute.name)) :
    ∀ entry ∈ attributesOption locals name asProperty attributes, entry.2.AllKeys table P := by
  unfold attributesOption
  split
  · simp
  · simpa [Function.comp_def] using h

theorem allKeys_classOption {classes : Option ClassBinding} (h : P (classNames classes)) :
    ∀ entry ∈ classOption locals classes, entry.2.AllKeys table P := by
  rcases classes with _ | names | expr
  · simp [classOption]
  · rw [classNames] at h
    simpa [classOption, Function.comp_def] using h
  · simp [classOption]

theorem allKeys_styleEntry (locals : List String) (style : Option StyleBinding) :
    ∀ entry ∈ styleEntry locals style, entry.2.AllKeys table P := by
  rcases style with _ | declarations | expr <;> simp [styleEntry, declarationValue]

theorem allKeys_keyOption (locals : List String) (number : Nat) (key : Option Expr) :
    (keyOption locals number key).AllKeys table P := by
  cases key <;> simp [keyOption]

theorem allKeys_listeners {memoized : Bool} {listeners : List Listener} {entries : List (String × Value)}
    (h : ListenersRender locals memoized listeners entries) (hevents : P (listeners.map Listener.event)) :
    ∀ entry ∈ entries, entry.2.AllKeys table P := by
  unfold ListenersRender at h
  split at h
  · simp [h]
  · obtain ⟨handlers, hhandlers, rfl⟩ := h
    have hnames : handlers.map Prod.fst = listeners.map Listener.event :=
      forall₂_eq_map (f := Listener.event) (List.forall₂_map_right_iff.2 (hhandlers.imp fun _ _ hentry => hentry.1))
    rw [List.forall_mem_singleton, allKeys_object, hnames]
    refine ⟨hevents, fun entry hentry => ?_⟩
    obtain ⟨l, -, -, hvalue⟩ := forall₂_mem_right hhandlers hentry
    split at hvalue
    · obtain ⟨n, hn⟩ := hvalue
      simp [hn]
    · simp [hvalue]

/-- The names that options may have, in their order. -/
def optionNames : List String :=
  ["attrs"] ++ ["props"] ++ ["classMap", "className"] ++ ["styleDecls", "style"] ++ ["svg"] ++ ["key"] ++ ["on"]

theorem names_attributesOption_sublist (locals : List String) (name : String) (asProperty : Bool)
    (attributes : List Attribute) : ((attributesOption locals name asProperty attributes).map Prod.fst).Sublist [name] := by
  unfold attributesOption
  split <;> simp

/-- The options of an element come in the order of their names. -/
theorem names_elementOptions_sublist (data : ElementData) (number : Nat) {listeners : List (String × Value)}
    (h : (listeners.map Prod.fst).Sublist ["on"]) :
    ((elementOptions locals data number ++ listeners).map Prod.fst).Sublist optionNames := by
  have hattributes := names_attributesOption_sublist locals "attrs" false data.attributes
  have hproperties := names_attributesOption_sublist locals "props" true data.properties
  have hclasses : ((classOption locals data.classes).map Prod.fst).Sublist ["classMap", "className"] := by
    rcases data.classes with _ | names | expr <;> simp [classOption]
  have hstyle : ((styleEntry locals data.style).map Prod.fst).Sublist ["styleDecls", "style"] := by
    rcases data.style with _ | declarations | expr <;> simp [styleEntry]
  have hsvg : ((if data.namespace = .svg then [("svg", Value.bool true)] else []).map Prod.fst).Sublist ["svg"] := by
    split <;> simp
  simp only [elementOptions, List.map_append]
  exact (((((hattributes.append hproperties).append hclasses).append hstyle).append hsvg).append
    (List.Sublist.refl _)).append h

/-- No two options of an element have the same name. -/
theorem nodup_elementOptions {data : ElementData} {number : Nat} {memoized : Bool} {listeners : List (String × Value)}
    (h : ListenersRender locals memoized data.listeners listeners) :
    ((elementOptions locals data number ++ listeners).map Prod.fst).Nodup := by
  refine (names_elementOptions_sublist data number ?_).nodup (by decide)
  unfold ListenersRender at h
  split at h
  · simp [h]
  · obtain ⟨handlers, -, rfl⟩ := h
    simp

theorem allKeys_namesLiteral (hs : table.Sound) {literal v : Value} (hliteral : literal.isLiteral = true)
    (h : NamesLiteral table literal v) (hkeys : literal.AllKeys table P) : v.AllKeys table P := by
  obtain ⟨name, hdeclares, rfl⟩ := h
  rw [AllKeys, all, List.forall_mem_singleton]
  refine ⟨fun entries heq => (nomatch heq), fun name' literal' href hconstant entries hmem => ?_⟩
  obtain rfl := Option.some.inj href
  obtain rfl := Option.some.inj ((hs.constant? hliteral hdeclares).symm.trans hconstant)
  exact (hkeys _ hmem).object entries rfl

/-- Declaring options keeps the keys. -/
theorem allKeys_options (hs : table.Sound) {entries : List (String × Value)} {v : Value}
    (h : OptionsRender table entries v) (hentries : (Value.object entries).AllKeys table P) : v.AllKeys table P := by
  unfold OptionsRender at h
  split at h
  · rename_i hliteral
    exact allKeys_namesLiteral hs hliteral h hentries
  · obtain ⟨entries', hrender, rfl⟩ := h
    have hnames : entries'.map Prod.fst = entries.map Prod.fst :=
      forall₂_eq_map (List.forall₂_map_right_iff.2 (hrender.imp fun _ _ hentry => hentry.1))
    rw [allKeys_object] at hentries ⊢
    refine ⟨hnames ▸ hentries.1, fun entry' hentry' => ?_⟩
    obtain ⟨entry, hentry, -, hvalue⟩ := forall₂_mem_right hrender hentry'
    split at hvalue
    · rename_i hseparate
      exact allKeys_namesLiteral hs (isLiteral_of_isSeparate hseparate) hvalue (hentries.2 entry hentry)
    · rw [hvalue]
      exact hentries.2 entry hentry

/-! ## Nodes -/

section Nodes

variable {sources : Sources} {table : HoistTable} {P : List String → Prop}

theorem allKeys_fragment (hs : table.Sound) {n : Node} {facts : Facts} {v : Value}
    (h : FragmentRenders table n facts v) : v.AllKeys table P := by
  obtain ⟨html, name, key, -, hdeclares, -, rfl⟩ := h
  -- The name of a fragment stands for no literal, as no two declarations have one name.
  have hconstant : table.constant? name = none := by
    cases hdeclared : table.declared? .object name with
    | none => rw [HoistTable.constant?, hdeclared, Option.bind_none]
    | some content =>
      have heq := List.inj_on_of_nodup_map hs.names_nodup (HoistTable.exists_declares hdeclared) hdeclares rfl
      cases heq
  have hcall : (Value.call name []).AllKeys table P := by
    rw [AllKeys, all, allOf, List.forall_mem_singleton]
    refine ⟨fun entries heq => (by cases heq), fun name' literal href hliteral => ?_⟩
    rw [reference?, hs.named?_fragment hdeclares] at href
    obtain rfl := Option.some.inj href
    simp [hconstant] at hliteral
  simp [hcall]

theorem allKeys_rendersAs (hs : table.Sound) {n : Node} {v : Value} {inner : Facts → Prop}
    (h : RendersAs sources table n v inner) (hinner : ∀ facts, inner facts → v.AllKeys table P) : v.AllKeys table P := by
  obtain ⟨facts, -, h⟩ := h
  split at h
  · exact allKeys_fragment hs h
  · exact hinner facts h

theorem allKeys_arrayOf (nodes : List Node) {values : List Value} (h : ∀ v ∈ values, v.AllKeys table P) :
    (arrayOf nodes values).AllKeys table P := by
  unfold arrayOf
  split <;> simpa using h

/-- Each slot of a component has one entry. -/
theorem allKeys_slottedOf (hnodup : ∀ keys, keys.Nodup → P keys) {children : List Node}
    {slots : List (String × List Value)} {render : (Node → Bool) → List Value → Prop} (hslots : SlotsRender children render slots)
    (h : ∀ slot ∈ slots, ∀ v ∈ slot.2, v.AllKeys table P) : (slottedOf children slots).AllKeys table P := by
  unfold slottedOf
  split
  · simp
  · rw [allKeys_object, List.map_map]
    refine ⟨hnodup _ ?_, List.forall_mem_map.2 fun slot hslot => ?_⟩
    · change (slots.map Prod.fst).Nodup
      rw [hslots.1]
      exact nodup_eraseDups _
    · rw [allKeys_arrow]
      exact allKeys_arrayOf _ (h slot hslot)

theorem allKeys_elementOptions (hs : table.Sound) (hnodup : ∀ keys, keys.Nodup → P keys) {locals : List String}
    {id number : Nat} {p : Text.Position} {role : Role} {data : ElementData} {children : List Node} {facts : Facts}
    {options : Value} (h : ElementOptionsRender sources table locals number data facts options)
    (hnames : (Node.element id p role data children).HasNames P) : options.AllKeys table P := by
  obtain ⟨number, listeners, -, hlisteners, hoptions⟩ := h
  refine allKeys_options hs hoptions (allKeys_object.2 ⟨hnodup _ (nodup_elementOptions hlisteners), ?_⟩)
  refine List.forall_mem_append.2 ⟨?_, allKeys_listeners hlisteners hnames.listeners⟩
  simp only [elementOptions, List.forall_mem_append]
  refine ⟨⟨⟨⟨⟨?attributes, ?properties⟩, ?classes⟩, allKeys_styleEntry locals data.style⟩, ?svg⟩, ?key⟩
  case attributes => exact allKeys_attributesOption _ _ (hnames.bags false)
  case properties => exact allKeys_attributesOption _ _ (hnames.bags true)
  case classes => exact allKeys_classOption hnames.classes
  case svg => split <;> simp
  case key => simpa using allKeys_keyOption locals number data.key

theorem allKeys_slotOptions (hs : table.Sound) (hnodup : ∀ keys, keys.Nodup → P keys) {locals : List String}
    {attributes : List Attribute} {number : Nat} {options : Value}
    (h : OptionsRender table (slotEntries locals attributes number) options)
    (hnames : P (attributes.map Attribute.name)) : options.AllKeys table P := by
  have hsublist : ((slotEntries locals attributes number).map Prod.fst).Sublist (["attrs"] ++ ["key"]) := by
    rw [slotEntries, List.map_append]
    exact (names_attributesOption_sublist locals "attrs" false attributes).append (List.Sublist.refl _)
  refine allKeys_options hs h (allKeys_object.2 ⟨hnodup _ (hsublist.nodup (by decide)), ?_⟩)
  exact List.forall_mem_append.2 ⟨allKeys_attributesOption _ _ hnames, by simp⟩

theorem allKeys_joined {pieces : List Value} (h : ∀ v ∈ pieces, v.AllKeys table P) :
    (joined pieces).AllKeys table P := by
  unfold joined
  split
  · exact h _ List.mem_cons_self
  · exact allKeys_concat.2 h

mutual

/-- If the names that a node and the nodes in it give are as `P` says, so are the keys of the objects in its value. -/
theorem allKeys_node (hs : table.Sound)
    (himports : ∀ tag name, sources.imports.local? tag = some name → table.constant? name = none)
    (hnodup : ∀ keys, keys.Nodup → P keys) (locals : List String) : ∀ n : Node, ∀ v, NodeRenders sources table locals n v →
    (∀ n' ∈ n.all, n'.HasNames P) → v.AllKeys table P
  | .element id p role data children => by
    intro v h hnames
    obtain ⟨hown, hbelow⟩ := List.forall_mem_cons.1 hnames
    rw [NodeRenders] at h
    refine allKeys_rendersAs hs h fun facts h => ?_
    obtain ⟨options, hoptions, h⟩ := h
    have hkeys : options.AllKeys table P := allKeys_elementOptions hs hnodup hoptions hown
    have hslotted {slots : List (String × List Value)}
        (h : SlotsRender children (fun keep values => NodesRender sources table locals keep children values) slots) :
        (slottedOf children slots).AllKeys table P :=
      allKeys_slottedOf hnodup h fun slot hslot =>
        allKeys_nodes hs himports hnodup locals (·.slotTarget == slot.1) children slot.2 (h.2 slot hslot) hbelow
    cases role with
    | native =>
      obtain ⟨values, hvalues, rfl⟩ := h
      have hvalues := allKeys_nodes hs himports hnodup locals _ children values hvalues hbelow
      simpa [hkeys] using allKeys_arrayOf children hvalues
    | component =>
      obtain ⟨name, slots, hname, hslots, rfl⟩ := h
      simpa [hkeys, allKeys_constant (himports _ _ hname)] using hslotted hslots
    | dynamic constructor =>
      obtain ⟨slots, hslots, rfl⟩ := h
      simpa [hkeys] using hslotted hslots
  | .slot id p name attributes children => by
    intro v h hnames
    obtain ⟨hown, hbelow⟩ := List.forall_mem_cons.1 hnames
    rw [NodeRenders] at h
    refine allKeys_rendersAs hs h fun facts h => ?_
    obtain ⟨number, options, values, -, hoptions, hvalues, rfl⟩ := h
    have hkeys : options.AllKeys table P := allKeys_slotOptions hs hnodup hoptions (hown.bags false)
    have hvalues := allKeys_nodes hs himports hnodup locals _ children values hvalues hbelow
    simpa [hkeys] using allKeys_arrayOf children hvalues
  | .text id p parts => by
    intro v h _
    rw [NodeRenders] at h
    refine allKeys_rendersAs hs h fun facts h => ?_
    have hpieces : ∀ piece ∈ parts.map (pieceValue locals), piece.AllKeys table P :=
      List.forall_mem_map.2 fun part _ => by cases part <;> simp [pieceValue]
    simpa [h] using allKeys_joined hpieces
  | .comment id p text => by
    intro v h _
    rw [NodeRenders] at h
    refine allKeys_rendersAs hs h fun facts h => ?_
    simp [h]
  | .conditional id p chain => by
    intro v h hnames
    rw [NodeRenders] at h
    refine allKeys_rendersAs hs h fun facts h => ?_
    exact allKeys_chain hs himports hnodup locals chain v h (List.forall_mem_cons.1 hnames).2
  | .iteration id p loop children => by
    intro v h hnames
    rw [NodeRenders] at h
    refine allKeys_rendersAs hs h fun facts h => ?_
    obtain ⟨values, hvalues, rfl⟩ := h
    have hbelow := (List.forall_mem_cons.1 hnames).2
    simpa using allKeys_arrayOf children (allKeys_nodes hs himports hnodup _ _ children values hvalues hbelow)

theorem allKeys_chain (hs : table.Sound)
    (himports : ∀ tag name, sources.imports.local? tag = some name → table.constant? name = none)
    (hnodup : ∀ keys, keys.Nodup → P keys) (locals : List String) : ∀ c : Chain, ∀ v, ChainRenders sources table locals c v →
    (∀ n' ∈ c.all, n'.HasNames P) → v.AllKeys table P
  | .done => by
    intro v h _
    obtain rfl : v = .array [] := h
    simp
  | .otherwise children => by
    intro v h hnames
    obtain ⟨values, hvalues, rfl⟩ := h
    exact allKeys_arrayOf children (allKeys_nodes hs himports hnodup locals _ children values hvalues hnames)
  | .branch test negate children next => by
    intro v h hnames
    obtain ⟨values, alternate, hvalues, halternate, rfl⟩ := h
    obtain ⟨hchildren, hnext⟩ := List.forall_mem_append.1 hnames
    have hvalues := allKeys_nodes hs himports hnodup locals _ children values hvalues hchildren
    have hconsequent := allKeys_arrayOf children hvalues
    simpa [hconsequent] using allKeys_chain hs himports hnodup locals next alternate halternate hnext

theorem allKeys_nodes (hs : table.Sound)
    (himports : ∀ tag name, sources.imports.local? tag = some name → table.constant? name = none)
    (hnodup : ∀ keys, keys.Nodup → P keys) (locals : List String) (keep : Node → Bool) : ∀ nodes : List Node, ∀ values,
    NodesRender sources table locals keep nodes values → (∀ n' ∈ allNodes nodes, n'.HasNames P) →
      ∀ v ∈ values, v.AllKeys table P
  | [] => by
    intro values h _
    obtain rfl : values = [] := h
    simp
  | n :: ns => by
    intro values h hnames
    obtain ⟨hfirst, hrest⟩ := List.forall_mem_append.1 hnames
    rw [NodesRender] at h
    split at h
    · obtain ⟨v, rest, hv, hns, rfl⟩ := h
      have hvalue := allKeys_node hs himports hnodup locals n v hv hfirst
      exact List.forall_mem_cons.2 ⟨hvalue, allKeys_nodes hs himports hnodup locals keep ns rest hns hrest⟩
    · exact allKeys_nodes hs himports hnodup locals keep ns values h hrest

end

end Nodes

/-! ## Properties -/

/-- The value of an option is written, where the options stand or in a declaration. -/
theorem OptionsRender.writes {table : HoistTable} {entries : List (String × Value)} {v : Value}
    (h : OptionsRender table entries v) {entry : String × Value} (hentry : entry ∈ entries) :
    table.Writes v entry.2 := by
  unfold OptionsRender at h
  split at h
  · rename_i hliteral
    obtain ⟨name, hdeclares, -⟩ := h
    exact .inr ⟨_, name, hliteral, hdeclares, List.mem_cons_of_mem _ (mem_allUnder.2 ⟨entry, hentry, entry.2.self_mem_all⟩)⟩
  · obtain ⟨entries', hrender, rfl⟩ := h
    obtain ⟨entry', hentry', -, hvalue⟩ := forall₂_mem_right hrender.flip hentry
    split at hvalue
    · rename_i hseparate
      obtain ⟨name, hdeclares, -⟩ := hvalue
      exact .inr ⟨_, name, isLiteral_of_isSeparate hseparate, hdeclares, entry.2.self_mem_all⟩
    · refine .inl (List.mem_cons_of_mem _ (mem_allUnder.2 ⟨entry', hentry', ?_⟩))
      rw [← hvalue]
      exact entry'.2.self_mem_all

/-- The properties of a node are an object that is written, unless the node is a fragment. -/
theorem writes_properties {sources : Sources} {table : HoistTable} {locals : List String} {n : Node} {v : Value}
    (hfree : sources.isFragment n = false) (h : NodeRenders sources table locals n v) (hne : n.properties ≠ []) :
    ∃ entries, table.Writes v (.object entries) ∧ entries.map Prod.fst = n.properties.map Attribute.name := by
  cases n with
  | element id p role data children =>
    rw [NodeRenders] at h
    obtain ⟨facts, -, options, ⟨number, listeners, -, -, hoptions⟩, hrole⟩ := h.inner hfree
    have hentry : ("props", .object (data.properties.map fun a => (a.name, scopedValue locals true a))) ∈
        elementOptions locals data number ++ listeners := by
      have hproperties : data.properties.isEmpty = false := by simpa [Node.properties] using hne
      simp [elementOptions, attributesOption, hproperties]
    refine ⟨_, (hoptions.writes hentry).mono (all_subset v options ?_), by simp [Node.properties, Function.comp_def]⟩
    have hargument {callee : String} {arguments : List Value} (h : options ∈ arguments) :
        options ∈ (Value.call callee arguments).all :=
      List.mem_cons_of_mem _ (mem_allOf.2 ⟨options, h, options.self_mem_all⟩)
    cases role with
    | native =>
      obtain ⟨values, -, rfl⟩ := hrole
      exact hargument (by simp)
    | component =>
      obtain ⟨name, slots, -, -, rfl⟩ := hrole
      exact hargument (by simp)
    | dynamic constructor =>
      obtain ⟨slots, -, rfl⟩ := hrole
      exact hargument (by simp)
  | _ => exact absurd rfl hne

end Render

/-! ## Modules -/

open Render

namespace CompilesTo

variable {config : Config} {source : String} {t : Template} {m : RenderModule}

/-- If the names that the nodes of a template give are as `P` says, so are the keys of all objects that are written. -/
theorem keys (h : CompilesTo config source t m) {P : List String → Prop} (hnodup : ∀ keys, keys.Nodup → P keys)
    (hnames : ∀ n ∈ allNodes t.mark.nodes, n.HasNames P) {entries : List (String × Value)}
    (hwrites : m.Writes (.object entries)) : P (entries.map Prod.fst) := by
  have hsound := h.fits.noted.sound
  have himports (tag name : String) (hname : t.sources.imports.local? tag = some name) :
      m.hoists.constant? name = none :=
    hsound.constant?_import (h.fits.noted.underscore name (local?_mem_locals hname))
  obtain ⟨values, hvalues, hbody⟩ := h.fits.body
  have hkeys : m.body.AllKeys m.hoists P := by
    rw [hbody]
    exact allKeys_arrayOf _ (allKeys_nodes hsound himports hnodup [] _ _ values hvalues hnames)
  rcases hwrites with hbody | ⟨literal, name, hliteral, hdeclares, hmem⟩
  · exact (hkeys _ hbody).object entries rfl
  · -- What is declared is named in the body.
    have hname : name ∈ m.hoists.names := List.mem_map_of_mem hdeclares
    rw [h.fits.noted.names, List.mem_eraseDups] at hname
    obtain ⟨w, hw, href⟩ := List.mem_filterMap.1 (List.mem_filter.1 hname).1
    exact (hkeys w hw).declared name literal href (hsound.constant? hliteral hdeclares) entries hmem

/-- The properties of a node that is in no fragment are an object that is written. -/
theorem writes_properties (h : CompilesTo config source t m) {n : Node} (hn : n ∈ allNodes t.mark.nodes)
    (hfree : ¬ InFragment t.sources.isFragment (allNodes t.mark.nodes) n) (hne : n.properties ≠ []) :
    ∃ entries, m.Writes (.object entries) ∧ entries.map Prod.fst = n.properties.map Attribute.name := by
  obtain ⟨hfragment, locals, w, hw, hrender⟩ := h.renderedIn_body hn hfree
  obtain ⟨entries, hwrites, hnames⟩ := Render.writes_properties hfragment hrender hne
  exact ⟨entries, hwrites.mono (Value.all_subset m.body w hw), hnames⟩

end CompilesTo

end TemplateCompiler

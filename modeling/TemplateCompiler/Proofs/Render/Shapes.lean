import TemplateCompiler.Proofs.Render.VariableNames
import TemplateCompiler.Proofs.Template.Proper
/-!
# Shapes of bodies

A body is written without parentheses of its own, so that it is read back as it was made rests on where the values in
it stand. `Value.IsBuilt` says of a value what stands right in it, and `isBuilt_body` shows it of all values in the
body of a module, with the expressions of the template as its texts.
-/

namespace TemplateCompiler

open Template Render Binding

namespace Render.Value

/-- Whether a value is a conditional. -/
def isConditional : Value → Bool
  | .conditional .. => true
  | _ => false

/-- Whether a value joins strings. -/
def isConcat : Value → Bool
  | .concat _ => true
  | _ => false

/-- Whether a value is neither a conditional nor joins strings. -/
def isSimple (v : Value) : Bool :=
  !v.isConditional && !v.isConcat

/-- Whether a value is an array or a call. -/
def isGroup : Value → Bool
  | .array _ => true
  | .call .. => true
  | _ => false

/-- Whether a value is a string or the text of an expression. -/
def isPiece : Value → Bool
  | .string _ => true
  | .call callee _ => callee == Helper.dynamicText.localName
  | _ => false

/-- Whether a value is the text of an expression. -/
def isRaw : Value → Bool
  | .raw _ => true
  | _ => false

/-- A text is that of an expression, which may be negated, with some of the names as they are; or it is what a render
function is given for slots. -/
def IsSource (names : List String) (source : String) : Prop :=
  source = "$slotset" ∨ ∃ locals expr, ∃ negate : Bool, locals ⊆ names ∧ Expr.IsProper expr ∧
    source = (if negate then "!" else "") ++ expr.toJs locals

/-- What stands right in a value: `names` are those that iterations bind. -/
def IsBuilt (names : List String) : Value → Prop
  | .raw source => IsSource names source
  | .constant name => IsVariableName name
  | .array items => ∀ v ∈ items, v.isConcat = false
  | .object entries => ∀ entry ∈ entries, entry.2.isSimple = true
  | .call callee arguments => IsVariableName callee ∧ ((∀ v ∈ arguments, v.isSimple = true) ∨
      callee = Helper.text.localName ∧ ∃ parts, arguments = [.concat parts])
  | .function parameters body => parameters ≠ [] ∧ parameters ⊆ names ∧ body.isGroup = true
  | .arrow body => body.isGroup = true
  | .conditional test consequent alternate =>
    test.isRaw = true ∧ consequent.isSimple = true ∧ alternate.isConcat = false
  | .concat parts => 2 ≤ parts.length ∧ ∀ v ∈ parts, v.isPiece = true
  | .memo name value => IsVariableName name ∧ value.isSimple = true
  | _ => True

/-- All values in a value are built as they should be. -/
def AllBuilt (names : List String) (v : Value) : Prop :=
  ∀ w ∈ v.all, w.IsBuilt names

section AllBuilt

variable {names : List String}

theorem allBuilt_array {items : List Value} :
    (Value.array items).AllBuilt names ↔ (Value.array items).IsBuilt names ∧ ∀ v ∈ items, v.AllBuilt names := by
  simp only [AllBuilt, all, List.forall_mem_cons, forall_mem_allOf]

theorem allBuilt_object {entries : List (String × Value)} :
    (Value.object entries).AllBuilt names ↔
      (Value.object entries).IsBuilt names ∧ ∀ entry ∈ entries, entry.2.AllBuilt names := by
  simp only [AllBuilt, all, List.forall_mem_cons, forall_mem_allUnder]

theorem allBuilt_call {callee : String} {arguments : List Value} :
    (Value.call callee arguments).AllBuilt names ↔
      (Value.call callee arguments).IsBuilt names ∧ ∀ v ∈ arguments, v.AllBuilt names := by
  simp only [AllBuilt, all, List.forall_mem_cons, forall_mem_allOf]

theorem allBuilt_concat {parts : List Value} :
    (Value.concat parts).AllBuilt names ↔ (Value.concat parts).IsBuilt names ∧ ∀ v ∈ parts, v.AllBuilt names := by
  simp only [AllBuilt, all, List.forall_mem_cons, forall_mem_allOf]

theorem allBuilt_function {parameters : List String} {body : Value} :
    (Value.function parameters body).AllBuilt names ↔
      (Value.function parameters body).IsBuilt names ∧ body.AllBuilt names := by
  simp only [AllBuilt, all, List.forall_mem_cons]

theorem allBuilt_arrow {body : Value} :
    (Value.arrow body).AllBuilt names ↔ (Value.arrow body).IsBuilt names ∧ body.AllBuilt names := by
  simp only [AllBuilt, all, List.forall_mem_cons]

theorem allBuilt_conditional {test consequent alternate : Value} :
    (Value.conditional test consequent alternate).AllBuilt names ↔
      (Value.conditional test consequent alternate).IsBuilt names ∧
        test.AllBuilt names ∧ consequent.AllBuilt names ∧ alternate.AllBuilt names := by
  simp only [AllBuilt, all, List.forall_mem_cons, List.forall_mem_append, and_assoc]

theorem allBuilt_memo {name : String} {value : Value} :
    (Value.memo name value).AllBuilt names ↔ (Value.memo name value).IsBuilt names ∧ value.AllBuilt names := by
  simp only [AllBuilt, all, List.forall_mem_cons]

theorem allBuilt_string (text : String) : (Value.string text).AllBuilt names := by
  simp [AllBuilt, all, IsBuilt]

theorem allBuilt_number (n : Nat) : (Value.number n).AllBuilt names := by
  simp [AllBuilt, all, IsBuilt]

theorem allBuilt_bool (value : Bool) : (Value.bool value).AllBuilt names := by
  simp [AllBuilt, all, IsBuilt]

theorem allBuilt_undefined : Value.undefined.AllBuilt names := by
  simp [AllBuilt, all, IsBuilt]

theorem allBuilt_raw {source : String} (h : IsSource names source) : (Value.raw source).AllBuilt names := by
  simpa [AllBuilt, all, IsBuilt] using h

theorem allBuilt_constant {name : String} (h : IsVariableName name) : (Value.constant name).AllBuilt names := by
  simpa [AllBuilt, all, IsBuilt] using h

/-- A call of a helper with simple arguments. -/
theorem allBuilt_helper (helper : Helper) {arguments : List Value}
    (h : ∀ v ∈ arguments, v.isSimple = true ∧ v.AllBuilt names) :
    (Value.call helper.localName arguments).AllBuilt names :=
  allBuilt_call.2 ⟨⟨isVariableName_localName helper, .inl fun v hv => (h v hv).1⟩, fun v hv => (h v hv).2⟩

end AllBuilt

end Render.Value

open Render.Value

namespace Render

variable {sources : Sources} {table : HoistTable} {names locals : List String}

/-- A value that is simple and built as it should be. -/
abbrev IsFine (names : List String) (v : Value) : Prop :=
  v.isSimple = true ∧ v.AllBuilt names

theorem isFine_helper (helper : Helper) {arguments : List Value} (h : ∀ v ∈ arguments, IsFine names v) :
    IsFine names (.call helper.localName arguments) :=
  ⟨rfl, allBuilt_helper helper h⟩

theorem isFine_exprValue (hlocals : locals ⊆ names) {expr : Expr} (h : expr.IsProper) :
    IsFine names (exprValue locals expr) :=
  ⟨rfl, allBuilt_raw (.inr ⟨locals, expr, false, hlocals, h, String.empty_append.symm⟩)⟩

theorem isFine_number (n : Nat) : IsFine names (.number n) :=
  ⟨rfl, allBuilt_number n⟩

theorem isFine_array {items : List Value} (h : ∀ v ∈ items, IsFine names v) : IsFine names (.array items) :=
  ⟨rfl, allBuilt_array.2 ⟨fun v hv => (Bool.and_eq_true_iff.1 (h v hv).1).2 |> (by simpa using ·), fun v hv => (h v hv).2⟩⟩

theorem isFine_object {entries : List (String × Value)} (h : ∀ entry ∈ entries, IsFine names entry.2) :
    IsFine names (.object entries) :=
  ⟨rfl, allBuilt_object.2 ⟨fun entry hentry => (h entry hentry).1, fun entry hentry => (h entry hentry).2⟩⟩

/-! ## Options -/

section Options

variable (hlocals : locals ⊆ names)
include hlocals

theorem isFine_plainValue (asProperty : Bool) {value : AttributeValue} (h : value.IsProper) :
    IsFine names (plainValue locals asProperty value) := by
  cases value with
  | literal text => exact ⟨rfl, allBuilt_string text⟩
  | boolean value =>
    unfold plainValue
    dsimp only
    split
    · exact ⟨rfl, allBuilt_string ""⟩
    · exact ⟨rfl, allBuilt_bool value⟩
  | expression expr => exact isFine_exprValue hlocals (h expr rfl)

theorem isFine_scopedValue (asProperty : Bool) {a : Attribute} (h : a.value.IsProper) :
    IsFine names (scopedValue locals asProperty a) := by
  have hsimple := isFine_plainValue hlocals asProperty h
  unfold scopedValue
  split
  · exact isFine_helper .scopedId (by simpa using hsimple)
  · exact isFine_helper .scopedFragmentId (by simpa using hsimple)
  · exact hsimple

theorem isFine_attributesOption (name : String) (asProperty : Bool) {attributes : List Attribute}
    (h : ∀ a ∈ attributes, a.value.IsProper) :
    ∀ entry ∈ attributesOption locals name asProperty attributes, IsFine names entry.2 := by
  unfold attributesOption
  split
  · simp
  · refine List.forall_mem_singleton.2 (isFine_object (List.forall_mem_map.2 fun a ha => ?_))
    exact isFine_scopedValue hlocals asProperty (h a ha)

theorem isFine_elementOptions {data : ElementData} (h : data.IsProper) (number : Nat) :
    ∀ entry ∈ elementOptions locals data number, IsFine names entry.2 := by
  have hclasses : ∀ entry ∈ classOption locals data.classes, IsFine names entry.2 := by
    unfold classOption
    split
    · refine List.forall_mem_singleton.2 (isFine_object (List.forall_mem_map.2 fun name _ => ?_))
      exact ⟨rfl, allBuilt_bool true⟩
    · rename_i expr hexpr
      refine List.forall_mem_singleton.2 (isFine_helper .normalizeClassName (List.forall_mem_singleton.2 ?_))
      exact isFine_exprValue hlocals (h.classes expr hexpr)
    · simp
  have hstyle : ∀ entry ∈ styleEntry locals data.style, IsFine names entry.2 := by
    unfold styleEntry
    split
    · refine List.forall_mem_singleton.2 (isFine_array (List.forall_mem_map.2 fun d _ => isFine_array ?_))
      intro v hv
      simp only [List.mem_cons, List.not_mem_nil, or_false] at hv
      rcases hv with rfl | rfl | rfl
      · exact ⟨rfl, allBuilt_string _⟩
      · exact ⟨rfl, allBuilt_string _⟩
      · exact ⟨rfl, allBuilt_bool _⟩
    · rename_i expr hexpr
      exact List.forall_mem_singleton.2 (isFine_exprValue hlocals (h.style expr hexpr))
    · simp
  have hkey : IsFine names (keyOption locals number data.key) := by
    unfold keyOption
    split
    · rename_i expr hexpr
      refine isFine_helper .key (List.forall_mem_cons.2 ⟨isFine_number number, List.forall_mem_singleton.2 ?_⟩)
      exact isFine_exprValue hlocals (h.key expr hexpr)
    · exact isFine_number number
  have hsvg : ∀ entry ∈ (if data.namespace = .svg then [("svg", Value.bool true)] else []), IsFine names entry.2 := by
    split
    · exact List.forall_mem_singleton.2 ⟨rfl, allBuilt_bool true⟩
    · simp
  unfold elementOptions
  simp only [List.forall_mem_append, List.forall_mem_singleton]
  exact ⟨⟨⟨⟨⟨isFine_attributesOption hlocals _ _ h.attributes, isFine_attributesOption hlocals _ _ h.properties⟩, hclasses⟩,
    hstyle⟩, hsvg⟩, hkey⟩

theorem isFine_listeners {memoized : Bool} {listeners : List Listener} {entries : List (String × Value)}
    (h : ListenersRender locals memoized listeners entries) (hproper : ∀ l ∈ listeners, l.handler.IsProper) :
    ∀ entry ∈ entries, IsFine names entry.2 := by
  unfold ListenersRender at h
  split at h
  · rw [h]
    simp
  · obtain ⟨handlers, hhandlers, rfl⟩ := h
    refine List.forall_mem_singleton.2 (isFine_object fun entry hentry => ?_)
    obtain ⟨l, hl, -, hvalue⟩ := forall₂_mem_right hhandlers hentry
    have hbound : IsFine names (.call Helper.bind.localName [exprValue locals l.handler]) :=
      isFine_helper .bind (List.forall_mem_singleton.2 (isFine_exprValue hlocals (hproper l hl)))
    split at hvalue
    · obtain ⟨n, hn⟩ := hvalue
      rw [hn]
      exact ⟨rfl, allBuilt_memo.2 ⟨⟨isVariableName_memoName n, hbound.1⟩, hbound.2⟩⟩
    · rw [hvalue]
      exact hbound

end Options

theorem isFine_namesLiteral (hs : table.Sound) {literal v : Value} (h : NamesLiteral table literal v) :
    IsFine names v := by
  obtain ⟨name, hdeclares, rfl⟩ := h
  exact ⟨rfl, allBuilt_constant (hs.isVariableName hdeclares)⟩

theorem isFine_optionsRender (hs : table.Sound) {entries : List (String × Value)} {v : Value}
    (h : OptionsRender table entries v) (hentries : ∀ entry ∈ entries, IsFine names entry.2) : IsFine names v := by
  unfold OptionsRender at h
  split at h
  · exact isFine_namesLiteral hs h
  · obtain ⟨entries', hrender, rfl⟩ := h
    refine isFine_object fun entry' hentry' => ?_
    obtain ⟨entry, hentry, -, hvalue⟩ := forall₂_mem_right hrender hentry'
    split at hvalue
    · exact isFine_namesLiteral hs hvalue
    · rw [hvalue]
      exact hentries entry hentry

theorem isFine_elementOptionsRender (hs : table.Sound) (hlocals : locals ⊆ names) {id : Nat} {data : ElementData}
    {facts : Facts} {options : Value} (h : ElementOptionsRender sources table locals id data facts options)
    (hdata : data.IsProper) : IsFine names options := by
  obtain ⟨number, listeners, -, hlisteners, hoptions⟩ := h
  refine isFine_optionsRender hs hoptions (List.forall_mem_append.2 ⟨?_, ?_⟩)
  · exact isFine_elementOptions hlocals hdata number
  · exact isFine_listeners hlocals hlisteners hdata.listeners

theorem isFine_slotEntries (hlocals : locals ⊆ names) {attributes : List Attribute}
    (h : ∀ a ∈ attributes, a.value.IsProper) (number : Nat) :
    ∀ entry ∈ slotEntries locals attributes number, IsFine names entry.2 := by
  refine List.forall_mem_append.2 ⟨isFine_attributesOption hlocals _ _ h, ?_⟩
  exact List.forall_mem_singleton.2 (isFine_number number)

/-! ## Text, fragments and lists -/

/-- A text is a call with a piece, or with pieces that are joined. -/
theorem isFine_text (hlocals : locals ⊆ names) {parts : List TextPart} (hne : parts ≠ [])
    (h : ∀ expr, .expression expr ∈ parts → expr.IsProper) :
    IsFine names (.call Helper.text.localName [joined (parts.map (pieceValue locals))]) := by
  have hpiece : ∀ part ∈ parts, (pieceValue locals part).isPiece = true ∧ IsFine names (pieceValue locals part) := by
    intro part hpart
    cases part with
    | literal text => exact ⟨rfl, rfl, allBuilt_string text⟩
    | expression expr =>
      refine ⟨by simp [pieceValue, isPiece], isFine_helper .dynamicText (List.forall_mem_singleton.2 ?_)⟩
      exact isFine_exprValue hlocals (h expr hpart)
  match parts, hne with
  | [part], _ => exact isFine_helper .text (List.forall_mem_singleton.2 (hpiece part List.mem_cons_self).2)
  | part :: part' :: rest, _ =>
    have hbuilt : (Value.concat ((part :: part' :: rest).map (pieceValue locals))).AllBuilt names :=
      allBuilt_concat.2 ⟨⟨by simp, List.forall_mem_map.2 fun p hp => (hpiece p hp).1⟩,
        List.forall_mem_map.2 fun p hp => (hpiece p hp).2.2⟩
    exact ⟨rfl, allBuilt_call.2 ⟨⟨isVariableName_localName .text, .inr ⟨rfl, _, rfl⟩⟩, List.forall_mem_singleton.2 hbuilt⟩⟩

theorem isFine_fragment (hs : table.Sound) {n : Node} {facts : Facts} {v : Value} (h : FragmentRenders table n facts v) :
    IsFine names v := by
  obtain ⟨html, name, key, -, hdeclares, -, rfl⟩ := h
  refine isFine_helper .staticFragment fun v hv => ?_
  simp only [List.mem_cons, List.not_mem_nil, or_false] at hv
  rcases hv with rfl | rfl | rfl
  · exact ⟨rfl, allBuilt_call.2 ⟨⟨hs.isVariableName hdeclares, .inl (by simp)⟩, by simp⟩⟩
  · exact isFine_number key
  · exact isFine_number _

/-- A value may stand in an array. -/
abbrev IsItem (names : List String) (v : Value) : Prop :=
  v.isConcat = false ∧ v.AllBuilt names

theorem IsFine.isItem {v : Value} (h : IsFine names v) : IsItem names v :=
  ⟨by simpa using (Bool.and_eq_true_iff.1 h.1).2, h.2⟩

/-- A list of nodes is a call or an array. -/
theorem isGroup_arrayOf (nodes : List Node) {values : List Value} (h : ∀ v ∈ values, IsItem names v) :
    (arrayOf nodes values).isGroup = true ∧ IsFine names (arrayOf nodes values) := by
  have harray : (Value.array values).AllBuilt names := allBuilt_array.2 ⟨fun v hv => (h v hv).1, fun v hv => (h v hv).2⟩
  unfold arrayOf
  split
  · exact ⟨rfl, isFine_helper .flatten (List.forall_mem_singleton.2 ⟨rfl, harray⟩)⟩
  · exact ⟨rfl, rfl, harray⟩

theorem isFine_slottedOf (children : List Node) {slots : List (String × List Value)}
    (h : ∀ slot ∈ slots, ∀ v ∈ slot.2, IsItem names v) : IsFine names (slottedOf children slots) := by
  unfold slottedOf
  split
  · exact ⟨rfl, allBuilt_undefined⟩
  · refine isFine_object (List.forall_mem_map.2 fun slot hslot => ?_)
    obtain ⟨hgroup, hfine⟩ := isGroup_arrayOf (children.filter (·.slotTarget == slot.1)) (h slot hslot)
    exact ⟨rfl, allBuilt_arrow.2 ⟨hgroup, hfine.2⟩⟩

/-! ## Nodes -/

/-- What an iteration of the nodes binds is among the names. -/
def BindsAmong (names : List String) (nodes : List Node) : Prop :=
  ∀ id p loop children, .iteration id p loop children ∈ nodes → loop.names ⊆ names

theorem BindsAmong.mono {nodes nodes' : List Node} (h : BindsAmong names nodes) (hsub : nodes' ⊆ nodes) :
    BindsAmong names nodes' :=
  fun id p loop children hm => h id p loop children (hsub hm)

/-- A node is a fragment, or what `inner` says. -/
theorem isItem_rendersAs (hs : table.Sound) {n : Node} {v : Value} {inner : Facts → Prop}
    (h : RendersAs sources table n v inner) (hinner : ∀ facts, inner facts → IsItem names v) : IsItem names v := by
  obtain ⟨facts, -, h⟩ := h
  split at h
  · exact (isFine_fragment hs h).isItem
  · exact hinner facts h

mutual

/-- The value of a node may stand in an array, and all values in it are built as they should be. -/
theorem isItem_node (hs : table.Sound)
    (himports : ∀ tag name, sources.imports.local? tag = some name → IsVariableName name) {locals : List String}
    (hlocals : locals ⊆ names) : ∀ n : Node, ∀ v,
    NodeRenders sources table locals n v → AreProper n.all → BindsAmong names n.all → IsItem names v
  | .element id p role data children => by
    intro v h hproper hbinds
    obtain ⟨⟨hrole, hdata⟩, hchildren⟩ := areProper_cons.1 hproper
    have hbelow := hbinds.mono (List.subset_cons_self _ _)
    rw [NodeRenders] at h
    refine isItem_rendersAs hs h fun facts h => ?_
    obtain ⟨options, hoptions, h⟩ := h
    have hfine : IsFine names options := isFine_elementOptionsRender hs hlocals hoptions hdata
    have hslots {slots : List (String × List Value)}
        (h : SlotsRender children (fun keep values => NodesRender sources table locals keep children values) slots) :
        IsFine names (slottedOf children slots) :=
      isFine_slottedOf children fun slot hslot =>
        isItem_nodes hs himports hlocals (·.slotTarget == slot.1) children slot.2 (h.2 slot hslot) hchildren hbelow
    have hcall (helper : Helper) {arguments : List Value} (h : ∀ v ∈ arguments, IsFine names v) :
        IsItem names (.call helper.localName (.string data.tag :: arguments)) :=
      (isFine_helper helper (List.forall_mem_cons.2 ⟨⟨rfl, allBuilt_string data.tag⟩, h⟩)).isItem
    cases role with
    | native =>
      obtain ⟨values, hvalues, rfl⟩ := h
      have hitems := isItem_nodes hs himports hlocals _ children values hvalues hchildren hbelow
      exact hcall .element (by simpa using ⟨hfine, (isGroup_arrayOf children hitems).2, isFine_number _⟩)
    | component =>
      obtain ⟨name, slots, hname, hrender, rfl⟩ := h
      have hconstant : IsFine names (.constant name) := ⟨rfl, allBuilt_constant (himports _ _ hname)⟩
      exact hcall .customElement (by simpa using ⟨hconstant, hfine, hslots hrender, isFine_number _⟩)
    | dynamic constructor =>
      obtain ⟨slots, hrender, rfl⟩ := h
      have hconstructor : IsFine names (exprValue locals constructor) := isFine_exprValue hlocals (hrole _ rfl)
      exact hcall .dynamicComponent (by simpa using ⟨hconstructor, hfine, hslots hrender, isFine_number _⟩)
  | .slot id p name attributes children => by
    intro v h hproper hbinds
    obtain ⟨hattributes, hchildren⟩ := areProper_cons.1 hproper
    rw [NodeRenders] at h
    refine isItem_rendersAs hs h fun facts h => ?_
    obtain ⟨number, options, values, -, hoptions, hvalues, rfl⟩ := h
    have hfine : IsFine names options := isFine_optionsRender hs hoptions (isFine_slotEntries hlocals hattributes number)
    have hitems := isItem_nodes hs himports hlocals _ children values hvalues hchildren
      (hbinds.mono (List.subset_cons_self _ _))
    have hslotset : IsFine names (.raw "$slotset") := ⟨rfl, allBuilt_raw (.inl rfl)⟩
    have hname : IsFine names (.string name) := ⟨rfl, allBuilt_string name⟩
    exact (isFine_helper .slot
      (by simpa using ⟨hname, hfine, (isGroup_arrayOf children hitems).2, hslotset, isFine_number _⟩)).isItem
  | .text id p parts => by
    intro v h hproper _
    obtain ⟨hne, hparts⟩ := (areProper_cons.1 hproper).1
    rw [NodeRenders] at h
    refine isItem_rendersAs hs h fun facts h => ?_
    rw [h]
    exact (isFine_text hlocals hne hparts).isItem
  | .comment id p text => by
    intro v h _ _
    rw [NodeRenders] at h
    refine isItem_rendersAs hs h fun facts h => ?_
    rw [h]
    exact (isFine_helper .comment (List.forall_mem_singleton.2 ⟨rfl, allBuilt_string text⟩)).isItem
  | .conditional id p chain => by
    intro v h hproper hbinds
    obtain ⟨htests, hchain⟩ := areProper_cons.1 hproper
    rw [NodeRenders] at h
    refine isItem_rendersAs hs h fun facts h => ?_
    exact isItem_chain hs himports hlocals chain v h htests hchain (hbinds.mono (List.subset_cons_self _ _))
  | .iteration id p loop children => by
    intro v h hproper hbinds
    obtain ⟨hloop, hchildren⟩ := areProper_cons.1 hproper
    rw [NodeRenders] at h
    refine isItem_rendersAs hs h fun facts h => ?_
    obtain ⟨values, hvalues, rfl⟩ := h
    -- The names of the iteration join the locals below it; that all locals are among `names` is what goes down.
    have hnames : loop.names ⊆ names := hbinds id p loop children List.mem_cons_self
    have hitems := isItem_nodes hs himports (List.append_subset.2 ⟨hlocals, hnames⟩) _ children values hvalues hchildren
      (hbinds.mono (List.subset_cons_self _ _))
    obtain ⟨hgroup, hbody⟩ := isGroup_arrayOf children hitems
    have hfunction : IsFine names (.function loop.names (arrayOf children values)) :=
      ⟨rfl, allBuilt_function.2 ⟨⟨List.cons_ne_nil _ _, hnames, hgroup⟩, hbody.2⟩⟩
    exact (isFine_helper .iterator (by simpa using ⟨isFine_exprValue hlocals hloop.iterable, hfunction⟩)).isItem

theorem isItem_chain (hs : table.Sound)
    (himports : ∀ tag name, sources.imports.local? tag = some name → IsVariableName name) {locals : List String}
    (hlocals : locals ⊆ names) : ∀ c : Chain, ∀ v,
    ChainRenders sources table locals c v → c.HasProperTests → AreProper c.all → BindsAmong names c.all → IsItem names v
  | .done => by
    intro v h _ _ _
    obtain rfl : v = .array [] := h
    exact (isFine_array (by simp)).isItem
  | .otherwise children => by
    intro v h _ hproper hbinds
    obtain ⟨values, hvalues, rfl⟩ := h
    have hitems := isItem_nodes hs himports hlocals _ children values hvalues hproper hbinds
    exact (isGroup_arrayOf children hitems).2.isItem
  | .branch test negate children next => by
    intro v h htests hproper hbinds
    obtain ⟨values, alternate, hvalues, halternate, rfl⟩ := h
    obtain ⟨hchildren, hnext⟩ := areProper_append.1 hproper
    have hitems := isItem_nodes hs himports hlocals _ children values hvalues hchildren
      (hbinds.mono (List.subset_append_left _ _))
    obtain ⟨hsimple, hconsequent⟩ := (isGroup_arrayOf children hitems).2
    obtain ⟨hconcat, hbuilt⟩ := isItem_chain hs himports hlocals next alternate halternate htests.2 hnext
      (hbinds.mono (List.subset_append_right _ _))
    refine ⟨rfl, allBuilt_conditional.2 ⟨⟨rfl, hsimple, hconcat⟩, allBuilt_raw (.inr ?_), hconsequent, hbuilt⟩⟩
    exact ⟨locals, test, negate, hlocals, htests.1, rfl⟩

theorem isItem_nodes (hs : table.Sound)
    (himports : ∀ tag name, sources.imports.local? tag = some name → IsVariableName name) {locals : List String}
    (hlocals : locals ⊆ names) (keep : Node → Bool) :
    ∀ nodes : List Node, ∀ values, NodesRender sources table locals keep nodes values → AreProper (allNodes nodes) →
      BindsAmong names (allNodes nodes) → ∀ v ∈ values, IsItem names v
  | [] => by
    intro values h _ _
    obtain rfl : values = [] := h
    simp
  | n :: ns => by
    intro values h hproper hbinds
    obtain ⟨hfirst, hrest⟩ := areProper_append.1 hproper
    have hbelow := hbinds.mono (List.subset_append_right _ _)
    rw [NodesRender] at h
    split at h
    · obtain ⟨v, rest, hv, hns, rfl⟩ := h
      refine List.forall_mem_cons.2 ⟨?_, isItem_nodes hs himports hlocals keep ns rest hns hrest hbelow⟩
      exact isItem_node hs himports hlocals n v hv hfirst (hbinds.mono (List.subset_append_left _ _))
    · exact isItem_nodes hs himports hlocals keep ns values h hrest hbelow

end

end Render

/-! ## Bodies -/

/-- The names that the iterations of a template bind. -/
def Template.boundNames (t : Template) : List String :=
  t.iterations.flatMap Iteration.names

theorem Template.areProper_mark (t : Template) (h : AreProper (allNodes t.nodes)) :
    AreProper (allNodes t.mark.nodes) := by
  rw [show allNodes t.mark.nodes = _ from allNodes_markNodes _ _]
  exact List.forall_mem_map.2 fun n hn => (h n hn).mark _

theorem Template.bindsAmong_mark (t : Template) : BindsAmong t.boundNames (allNodes t.mark.nodes) := by
  intro id p loop children hm
  rw [show allNodes t.mark.nodes = _ from allNodes_markNodes _ _] at hm
  obtain ⟨n, hn, heq⟩ := List.mem_map.1 hm
  have hloop : n.iteration? = some loop := by
    rw [← mark_iteration? t.config.renderMode, heq]
    rfl
  exact fun name hname => List.mem_flatMap.2 ⟨loop, List.mem_filterMap.2 ⟨n, hn, hloop⟩, hname⟩

/-- The body of a module is an array or a call, and all values in it are built as they should be. -/
theorem CompilesTo.isBuilt_body {config : Config} {source : String} {t : Template} {m : RenderModule}
    (h : CompilesTo config source t m) : m.body.isGroup = true ∧ m.body.AllBuilt t.boundNames := by
  obtain ⟨values, hvalues, hbody⟩ := h.fits.body
  have hproper : AreProper (allNodes t.nodes) := by
    obtain ⟨document, -, heq⟩ := exists_ofDocument h.parsed
    rw [heq]
    exact areProper_ofDocument config document
  have hitems := isItem_nodes h.fits.noted.sound (fun tag name => isVariableName_of_local?) (List.nil_subset _)
    (fun _ => true) t.mark.nodes values hvalues (t.areProper_mark hproper) t.bindsAmong_mark
  obtain ⟨hgroup, -, hbuilt⟩ := isGroup_arrayOf t.mark.nodes hitems
  rw [hbody]
  exact ⟨hgroup, hbuilt⟩

end TemplateCompiler

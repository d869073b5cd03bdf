import TemplateCompiler.Proofs.Render.Preamble
import TemplateCompiler.Proofs.Render.Stack
/-!
# Where expressions occur

The expressions of a body occur in the functions of iterations, and some of them in values that are kept from their
first use on. `occurrences_nodes` shows that these are the expressions of the nodes of the template, each once and with the
names that are bound at its site: they are written with these names as they are, and the functions that they occur in
have just these names as parameters.
-/

namespace TemplateCompiler

open Text Binding

/-! ## Expressions of nodes -/

/-- The expression that a piece of text is. -/
def Binding.TextPart.expr? : TextPart → Option Expr
  | .expression expr => some expr
  | .literal _ => none

namespace Template

/-- The expression that an attribute is bound to. -/
def AttributeValue.expr? : AttributeValue → Option Expr
  | .expression expr => some expr
  | _ => none

/-- The expression that yields the classes of an element. -/
def ClassBinding.expr? : ClassBinding → Option Expr
  | .dynamic expr => some expr
  | .static _ => none

/-- The expression that yields the style of an element. -/
def StyleBinding.expr? : StyleBinding → Option Expr
  | .dynamic expr => some expr
  | .static _ => none

/-- The expression that yields the component of an element. -/
def Role.expr? : Role → Option Expr
  | .dynamic constructor => some constructor
  | _ => none

/-- The expressions that attributes are bound to. -/
def attributeExprs (attributes : List Attribute) : List Expr :=
  attributes.filterMap fun a => a.value.expr?

/-- The expressions that an element is bound to, its listeners aside. -/
def ElementData.exprs (data : ElementData) : List Expr :=
  attributeExprs data.attributes ++ attributeExprs data.properties ++ (data.classes.bind ClassBinding.expr?).toList ++
    (data.style.bind StyleBinding.expr?).toList ++ data.key.toList

/-- The tests of the branches of a chain, as they are written. -/
def Chain.tests (locals : List String) : Chain → List String
  | .branch test negate _ next => ((if negate then "!" else "") ++ test.toJs locals) :: next.tests locals
  | _ => []

/-- The expressions of a node, as they are written where `locals` are bound, its listeners aside. A slot is given what
the module is given for slots. -/
def Node.expressions (locals : List String) : Node → List String
  | .element _ _ role data _ => (role.expr?.toList ++ data.exprs).map (Expr.toJs locals)
  | .slot _ _ _ attributes _ => (attributeExprs attributes).map (Expr.toJs locals) ++ ["$slotset"]
  | .text _ _ parts => (parts.filterMap TextPart.expr?).map (Expr.toJs locals)
  | .comment .. => []
  | .conditional _ _ chain => chain.tests locals
  | .iteration _ _ loop _ => [loop.iterable.toJs locals]

/-- The listeners of a node. -/
def Node.listeners : Node → List Listener
  | .element _ _ _ data _ => data.listeners
  | _ => []

theorem AttributeValue.expr?_eq_none_iff {value : AttributeValue} : value.expr? = none ↔ value.isExpression = false := by
  cases value <;> simp [expr?, isExpression]

theorem attributeExprs_eq_nil_iff {attributes : List Attribute} :
    attributeExprs attributes = [] ↔ attributes.any (·.value.isExpression) = false := by
  simp [attributeExprs, AttributeValue.expr?_eq_none_iff]

theorem filterMap_expr?_eq_nil_iff {parts : List TextPart} :
    parts.filterMap TextPart.expr? = [] ↔ parts.any TextPart.isExpression = false := by
  have hpart : ∀ part : TextPart, part.expr? = none ↔ part.isExpression = false := by
    intro part
    cases part <;> simp [TextPart.expr?, TextPart.isExpression]
  simp [hpart]

/-- Nothing of an element is bound if it has neither expressions nor listeners. -/
theorem ElementData.isBound_eq_false_iff {data : ElementData} :
    data.isBound = false ↔ data.exprs = [] ∧ data.listeners = [] := by
  have hclasses : data.classes.any ClassBinding.isDynamic = false ↔ data.classes.bind ClassBinding.expr? = none := by
    rcases data.classes with _ | _ | _ <;> simp [ClassBinding.isDynamic, ClassBinding.expr?]
  have hstyle : data.style.any StyleBinding.isDynamic = false ↔ data.style.bind StyleBinding.expr? = none := by
    rcases data.style with _ | _ | _ <;> simp [StyleBinding.isDynamic, StyleBinding.expr?]
  rw [isBound, exprs]
  simp only [Bool.or_eq_false_iff, List.append_eq_nil_iff, Option.toList_eq_nil_iff, attributeExprs_eq_nil_iff, hclasses,
    hstyle, Option.isSome_eq_false_iff, Option.isNone_iff_eq_none, Bool.not_eq_false', List.isEmpty_iff]
  tauto

end Template

/-! ## Expressions of values -/

namespace Render

open Template

/-- An expression where it occurs in a value. -/
structure Occurrence where
  /-- The parameters of the functions that it is in, those of the outermost function first. -/
  parameters : List String
  /-- Whether it is in a value that is kept from its first use on. -/
  isMemoized : Bool
  source : String
deriving DecidableEq, Repr

namespace Value

mutual

/-- The expressions of a value in functions with the parameters. -/
def occurrences (parameters : List String) (isMemoized : Bool) : Value → List Occurrence
  | .raw source => [⟨parameters, isMemoized, source⟩]
  | .array items => occurrencesOf parameters isMemoized items
  | .object entries => occurrencesUnder parameters isMemoized entries
  | .call _ arguments => occurrencesOf parameters isMemoized arguments
  | .function names body => body.occurrences (parameters ++ names) isMemoized
  | .arrow body => body.occurrences parameters isMemoized
  | .conditional test consequent alternate =>
    test.occurrences parameters isMemoized ++ consequent.occurrences parameters isMemoized ++
      alternate.occurrences parameters isMemoized
  | .concat parts => occurrencesOf parameters isMemoized parts
  | .memo _ value => value.occurrences parameters true
  | .string _ => []
  | .number _ => []
  | .bool _ => []
  | .undefined => []
  | .constant _ => []

/-- The expressions of the values of a list. -/
def occurrencesOf (parameters : List String) (isMemoized : Bool) : List Value → List Occurrence
  | [] => []
  | v :: vs => v.occurrences parameters isMemoized ++ occurrencesOf parameters isMemoized vs

/-- The expressions of the values of an object. -/
def occurrencesUnder (parameters : List String) (isMemoized : Bool) : List (String × Value) → List Occurrence
  | [] => []
  | (_, v) :: rest => v.occurrences parameters isMemoized ++ occurrencesUnder parameters isMemoized rest

end

variable {parameters : List String} {isMemoized : Bool}

theorem occurrencesOf_eq_flatMap (vs : List Value) :
    occurrencesOf parameters isMemoized vs = vs.flatMap (occurrences parameters isMemoized) := by
  induction vs with
  | nil => rfl
  | cons v vs ih => rw [occurrencesOf, List.flatMap_cons, ih]

theorem occurrencesUnder_eq_flatMap (entries : List (String × Value)) :
    occurrencesUnder parameters isMemoized entries =
      entries.flatMap fun entry => entry.2.occurrences parameters isMemoized := by
  induction entries with
  | nil => rfl
  | cons entry rest ih => rw [occurrencesUnder, List.flatMap_cons, ih]

@[simp] theorem occurrencesUnder_append (xs ys : List (String × Value)) :
    occurrencesUnder parameters isMemoized (xs ++ ys) =
      occurrencesUnder parameters isMemoized xs ++ occurrencesUnder parameters isMemoized ys := by
  simp only [occurrencesUnder_eq_flatMap, List.flatMap_append]

mutual

/-- A literal has no expressions. -/
theorem occurrences_of_isLiteral : ∀ v : Value, v.isLiteral = true → v.occurrences parameters isMemoized = []
  | .string _ => fun _ => rfl
  | .number _ => fun _ => rfl
  | .bool _ => fun _ => rfl
  | .array items => fun h => by
    rw [occurrences, occurrencesOf_of_areLiteral items (by simpa [isLiteral] using h)]
  | .object entries => fun h => by
    rw [occurrences, occurrencesUnder_of_haveLiterals entries (by simpa [isLiteral] using h)]
  | .undefined => nofun
  | .raw _ => nofun
  | .constant _ => nofun
  | .call _ _ => nofun
  | .function _ _ => nofun
  | .arrow _ => nofun
  | .conditional _ _ _ => nofun
  | .concat _ => nofun
  | .memo _ _ => nofun

theorem occurrencesOf_of_areLiteral : ∀ vs : List Value, areLiteral vs = true →
    occurrencesOf parameters isMemoized vs = []
  | [] => fun _ => rfl
  | v :: vs => fun h => by
    obtain ⟨hv, hvs⟩ := Bool.and_eq_true_iff.1 h
    rw [occurrencesOf, occurrences_of_isLiteral v hv, occurrencesOf_of_areLiteral vs hvs, List.append_nil]

theorem occurrencesUnder_of_haveLiterals : ∀ entries : List (String × Value), haveLiterals entries = true →
    occurrencesUnder parameters isMemoized entries = []
  | [] => fun _ => rfl
  | (_, v) :: rest => fun h => by
    obtain ⟨hv, hrest⟩ := Bool.and_eq_true_iff.1 h
    rw [occurrencesUnder, occurrences_of_isLiteral v hv, occurrencesUnder_of_haveLiterals rest hrest, List.append_nil]

end

end Value

/-! ## Expressions of options and of lists -/

/-- What is made of related members one after the other is the same. -/
theorem flatMap_eq_of_forall₂ {α β γ : Type} {r : α → β → Prop} {f : α → List γ} {g : β → List γ} {xs : List α}
    {ys : List β} (h : List.Forall₂ r xs ys) (hr : ∀ x y, r x y → f x = g y) : xs.flatMap f = ys.flatMap g := by
  induction h with
  | nil => rfl
  | cons hxy _ ih => rw [List.flatMap_cons, List.flatMap_cons, hr _ _ hxy, ih]

section Parts

variable {table : HoistTable} {parameters locals : List String} {isMemoized : Bool}

theorem occurrences_scopedValue (asProperty : Bool) (a : Attribute) :
    (scopedValue locals asProperty a).occurrences parameters isMemoized =
      (a.value.expr?.toList.map (Expr.toJs locals)).map (Occurrence.mk parameters isMemoized) := by
  have hplain : (plainValue locals asProperty a.value).occurrences parameters isMemoized =
      (a.value.expr?.toList.map (Expr.toJs locals)).map (Occurrence.mk parameters isMemoized) := by
    cases a.value with
    | literal text => rfl
    | boolean value =>
      simp only [plainValue]
      split <;> rfl
    | expression expr => rfl
  unfold scopedValue
  split
  · simpa [Value.occurrences, Value.occurrencesOf] using hplain
  · simpa [Value.occurrences, Value.occurrencesOf] using hplain
  · exact hplain

theorem occurrences_attributesOption (name : String) (asProperty : Bool) (attributes : List Attribute) :
    Value.occurrencesUnder parameters isMemoized (attributesOption locals name asProperty attributes) =
      ((attributeExprs attributes).map (Expr.toJs locals)).map (Occurrence.mk parameters isMemoized) := by
  have hentries : Value.occurrencesUnder parameters isMemoized
      (attributes.map fun a => (a.name, scopedValue locals asProperty a)) =
        ((attributeExprs attributes).map (Expr.toJs locals)).map (Occurrence.mk parameters isMemoized) := by
    induction attributes with
    | nil => rfl
    | cons a attributes ih =>
      rw [List.map_cons, Value.occurrencesUnder, ih, occurrences_scopedValue, attributeExprs, attributeExprs,
        List.filterMap_cons]
      cases a.value.expr? <;> simp
  unfold attributesOption
  split
  · rename_i hempty
    rw [List.isEmpty_iff.1 hempty]
    rfl
  · simpa [Value.occurrencesUnder, Value.occurrences] using hentries

theorem occurrences_classOption (classes : Option ClassBinding) :
    Value.occurrencesUnder parameters isMemoized (classOption locals classes) =
      ((classes.bind ClassBinding.expr?).toList.map (Expr.toJs locals)).map (Occurrence.mk parameters isMemoized) := by
  rcases classes with _ | names | expr
  · rfl
  · have hnames : Value.occurrencesUnder parameters isMemoized (names.map fun name => (name, .bool true)) = [] := by
      simp [Value.occurrencesUnder_eq_flatMap, Value.occurrences]
    simp [classOption, Value.occurrencesUnder, Value.occurrences, hnames, ClassBinding.expr?]
  · rfl

theorem occurrences_styleEntry (style : Option StyleBinding) :
    Value.occurrencesUnder parameters isMemoized (styleEntry locals style) =
      ((style.bind StyleBinding.expr?).toList.map (Expr.toJs locals)).map (Occurrence.mk parameters isMemoized) := by
  rcases style with _ | declarations | expr
  · rfl
  · have hdeclarations : Value.occurrencesOf parameters isMemoized (declarations.map declarationValue) = [] := by
      simp [Value.occurrencesOf_eq_flatMap, declarationValue, Value.occurrences]
    simp [styleEntry, Value.occurrencesUnder, Value.occurrences, hdeclarations, StyleBinding.expr?]
  · rfl

theorem occurrences_keyOption (number : Nat) (key : Option Expr) :
    (keyOption locals number key).occurrences parameters isMemoized =
      (key.toList.map (Expr.toJs locals)).map (Occurrence.mk parameters isMemoized) := by
  cases key <;> rfl

theorem occurrences_elementOptions (data : ElementData) (number : Nat) :
    Value.occurrencesUnder parameters isMemoized (elementOptions locals data number) =
      (data.exprs.map (Expr.toJs locals)).map (Occurrence.mk parameters isMemoized) := by
  have hsvg : Value.occurrencesUnder parameters isMemoized
      (if data.namespace = .svg then [("svg", Value.bool true)] else []) = [] := by
    split <;> rfl
  simp [elementOptions, ElementData.exprs, occurrences_attributesOption, occurrences_classOption,
    occurrences_styleEntry, occurrences_keyOption, hsvg, Value.occurrencesUnder]

/-- A listener is kept if it is memoized. -/
theorem occurrences_listeners {memoized : Bool} {listeners : List Listener} {entries : List (String × Value)}
    (h : ListenersRender locals memoized listeners entries) :
    Value.occurrencesUnder parameters false entries =
      listeners.map fun l => ⟨parameters, memoized, l.handler.toJs locals⟩ := by
  have hlistener : ∀ l entry, ListenerRenders locals memoized l entry →
      entry.2.occurrences parameters false = [⟨parameters, memoized, l.handler.toJs locals⟩] := by
    rintro l ⟨event, v⟩ ⟨-, hv⟩
    cases memoized with
    | false =>
      obtain rfl : v = _ := hv
      rfl
    | true =>
      obtain ⟨n, rfl⟩ : ∃ n, v = .memo (memoName n) _ := hv
      rfl
  unfold ListenersRender at h
  split at h
  · rename_i hempty
    rw [h, List.isEmpty_iff.1 hempty]
    rfl
  · obtain ⟨handlers, hhandlers, rfl⟩ := h
    have hentries : Value.occurrencesUnder parameters false handlers =
        listeners.map fun l => ⟨parameters, memoized, l.handler.toJs locals⟩ := by
      rw [Value.occurrencesUnder_eq_flatMap, List.map_eq_flatMap]
      exact (flatMap_eq_of_forall₂ hhandlers fun l entry hl => (hlistener l entry hl).symm).symm
    simpa [Value.occurrencesUnder, Value.occurrences] using hentries

/-- Options have the same expressions as their values, whatever is declared by itself. -/
theorem occurrences_options {entries : List (String × Value)} {v : Value} (h : OptionsRender table entries v) :
    v.occurrences parameters isMemoized = Value.occurrencesUnder parameters isMemoized entries := by
  unfold OptionsRender at h
  split at h
  · rename_i hliteral
    obtain ⟨name, -, rfl⟩ := h
    exact (Value.occurrences_of_isLiteral _ hliteral).symm
  · obtain ⟨entries', hentries, rfl⟩ := h
    rw [Value.occurrences, Value.occurrencesUnder_eq_flatMap, Value.occurrencesUnder_eq_flatMap]
    -- An option stays as it is, or it is a literal, which has no expressions, and neither has its name.
    refine (flatMap_eq_of_forall₂ hentries fun entry entry' hentry => ?_).symm
    obtain ⟨-, hvalue⟩ := hentry
    split at hvalue
    · rename_i hseparate
      obtain ⟨name, -, heq⟩ := hvalue
      rw [heq, Value.occurrences_of_isLiteral _ (isLiteral_of_isSeparate hseparate)]
      rfl
    · rw [hvalue]

theorem occurrences_joined (parts : List TextPart) :
    (joined (parts.map (pieceValue locals))).occurrences parameters isMemoized =
      ((parts.filterMap TextPart.expr?).map (Expr.toJs locals)).map (Occurrence.mk parameters isMemoized) := by
  have hpieces : Value.occurrencesOf parameters isMemoized (parts.map (pieceValue locals)) =
      ((parts.filterMap TextPart.expr?).map (Expr.toJs locals)).map (Occurrence.mk parameters isMemoized) := by
    induction parts with
    | nil => rfl
    | cons part parts ih =>
      rw [List.map_cons, Value.occurrencesOf, ih]
      cases part <;> rfl
  unfold joined
  split
  · rename_i piece heq
    rw [heq] at hpieces
    simpa [Value.occurrencesOf] using hpieces
  · exact hpieces

@[simp] theorem occurrences_arrayOf (nodes : List Node) (values : List Value) :
    (arrayOf nodes values).occurrences parameters isMemoized = Value.occurrencesOf parameters isMemoized values := by
  unfold arrayOf
  split
  · simp [Value.occurrences, Value.occurrencesOf]
  · rfl

theorem occurrences_slottedOf {children : List Node} {slots : List (String × List Value)}
    (hslots : slots.map Prod.fst = slotNames children) :
    (slottedOf children slots).occurrences parameters isMemoized =
      slots.flatMap fun slot => Value.occurrencesOf parameters isMemoized slot.2 := by
  unfold slottedOf
  split
  · rename_i hempty
    rw [List.isEmpty_iff.1 hempty] at hslots
    rw [List.map_eq_nil_iff.1 hslots]
    rfl
  · simp [Value.occurrences, Value.occurrencesUnder_eq_flatMap, List.flatMap_map]

end Parts

/-! ## Expressions of nodes and of their values -/

/-- Where the expressions of a node occur if `locals` are bound there: a listener is kept if it is memoized. -/
def nodeOccurrences (locals : List String) (memoized : Bool) (n : Node) : List Occurrence :=
  (n.expressions locals).map (Occurrence.mk locals false) ++
    n.listeners.map fun l => ⟨locals, memoized, l.handler.toJs locals⟩

/-- Where the expressions of a site occur if listeners are memoized as the table says. -/
def siteOccurrences (sources : Sources) (s : Site) : List Occurrence :=
  nodeOccurrences s.locals (sources.table.iteration? s.node.id).isNone s.node

/-- A node without expressions. -/
def IsUnbound (n : Node) : Prop :=
  (∀ locals, n.expressions locals = []) ∧ n.listeners = []

section Nodes

variable {sources : Sources} {table : HoistTable}

theorem occurrences_unbound {n : Node} (h : ∀ m ∈ n.all, IsUnbound m) (around : List Node) :
    (n.sites around).flatMap (siteOccurrences sources) = [] := by
  refine List.flatMap_eq_nil_iff.2 fun s hs => ?_
  have hnode : s.node ∈ n.all := by
    rw [← map_node_sites around n]
    exact List.mem_map_of_mem hs
  rw [siteOccurrences, nodeOccurrences, (h _ hnode).1, (h _ hnode).2]
  rfl

/-- The value of a node has the expressions of the node and of those below it, where `inner` says so of a node that is
no fragment. -/
theorem occurrences_rendersAs {around : List Node} {n : Node} {v : Value} {inner : Facts → Prop}
    (h : RendersAs sources table n v inner) (hunbound : ∀ m, InFragment sources.isFragment n.all m → IsUnbound m)
    (hinner : ∀ facts, inner facts →
      (v.occurrences (localsOf around) false).Perm ((n.sites around).flatMap (siteOccurrences sources))) :
    (v.occurrences (localsOf around) false).Perm ((n.sites around).flatMap (siteOccurrences sources)) := by
  rcases h.cases with ⟨facts, hfragment, html, name, key, -, -, -, rfl⟩ | ⟨facts, -, -, hrender⟩
  · rw [occurrences_unbound fun m hm => hunbound m ⟨n, n.self_mem_all, hfragment, hm⟩]
    exact .nil
  · exact hinner facts hrender

theorem occurrences_elementOptionsRender {parameters locals : List String} {id : Nat} {data : ElementData}
    {facts : Facts} {options : Value} (h : ElementOptionsRender sources table locals id data facts options) :
    options.occurrences parameters false =
      (data.exprs.map (Expr.toJs locals)).map (Occurrence.mk parameters false) ++
        data.listeners.map fun l => ⟨parameters, (sources.table.iteration? id).isNone, l.handler.toJs locals⟩ := by
  obtain ⟨number, listeners, -, hlisteners, hoptions⟩ := h
  rw [occurrences_options hoptions, Value.occurrencesUnder_append, occurrences_elementOptions,
    occurrences_listeners hlisteners]

/-- The content of all slots has the expressions of all children. -/
theorem occurrences_slots {parameters : List String} {around children : List Node}
    {render : (Node → Bool) → List Value → Prop} {slots : List (String × List Value)}
    (h : SlotsRender children render slots)
    (hchildren : ∀ keep values, render keep values → (Value.occurrencesOf parameters false values).Perm
      ((sitesOf around (children.filter keep)).flatMap (siteOccurrences sources))) :
    ((slottedOf children slots).occurrences parameters false).Perm
      ((sitesOf around children).flatMap (siteOccurrences sources)) := by
  rw [occurrences_slottedOf h.1]
  calc slots.flatMap (fun slot => Value.occurrencesOf parameters false slot.2)
    List.Perm _ (slots.flatMap fun slot =>
          (sitesOf around (children.filter (·.slotTarget == slot.1))).flatMap (siteOccurrences sources)) :=
      List.Perm.flatMap_left _ fun slot hslot => hchildren _ _ (h.2 slot hslot)
    _ = ((slotNames children).flatMap fun name => children.filter (·.slotTarget == name)).flatMap fun n =>
          (n.sites around).flatMap (siteOccurrences sources) := by
      simp only [← h.1, sitesOf_eq_flatMap, List.flatMap_map, List.flatMap_assoc]
    List.Perm _ (children.flatMap fun n => (n.sites around).flatMap (siteOccurrences sources)) :=
      (flatMap_filter_perm Node.slotTarget children).flatMap_right _
    _ = (sitesOf around children).flatMap (siteOccurrences sources) := by
      rw [sitesOf_eq_flatMap, List.flatMap_assoc]

mutual

theorem occurrences_node (around : List Node) : ∀ n : Node, ∀ v,
    NodeRenders sources table (localsOf around) n v →
    (∀ m, InFragment sources.isFragment n.all m → IsUnbound m) →
    (v.occurrences (localsOf around) false).Perm ((n.sites around).flatMap (siteOccurrences sources))
  | .element id p role data children => by
    intro v h hunbound
    have hchildren : ∀ keep values, NodesRender sources table (localsOf around) keep children values →
        (Value.occurrencesOf (localsOf around) false values).Perm
          ((sitesOf (.element id p role data children :: around) (children.filter keep)).flatMap
            (siteOccurrences sources)) := by
      intro keep values hvalues
      rw [← localsOf_cons_of (n := .element id p role data children) rfl] at hvalues ⊢
      exact occurrences_nodes _ keep children values hvalues fun m hm =>
        hunbound m (hm.mono _ (List.subset_cons_self _ _))
    rw [NodeRenders] at h
    refine occurrences_rendersAs h hunbound fun facts hrender => ?_
    obtain ⟨options, hoptions, hrender⟩ := hrender
    have hown : options.occurrences (localsOf around) false = _ := occurrences_elementOptionsRender hoptions
    rw [Node.sites, List.flatMap_cons, siteOccurrences, nodeOccurrences]
    cases role with
    | native =>
      obtain ⟨values, hvalues, rfl⟩ := hrender
      have hcontent := hchildren _ values hvalues
      rw [List.filter_true] at hcontent
      simp only [Value.occurrences, Value.occurrencesOf, List.nil_append, List.append_nil, hown, occurrences_arrayOf]
      exact hcontent.append_left _
    | component =>
      obtain ⟨name, slots, -, hslots, rfl⟩ := hrender
      simp only [Value.occurrences, Value.occurrencesOf, List.nil_append, List.append_nil, hown]
      exact (occurrences_slots hslots hchildren).append_left _
    | dynamic constructor =>
      obtain ⟨slots, hslots, rfl⟩ := hrender
      simp only [Value.occurrences, Value.occurrencesOf, List.nil_append, List.append_nil, hown]
      rw [← List.append_assoc]
      exact (occurrences_slots hslots hchildren).append_left _
  | .slot id p name attributes children => by
    intro v h hunbound
    rw [NodeRenders] at h
    refine occurrences_rendersAs h hunbound fun facts hrender => ?_
    obtain ⟨number, options, values, -, hoptions, hvalues, rfl⟩ := hrender
    have hown : options.occurrences (localsOf around) false = ((attributeExprs attributes).map
        (Expr.toJs (localsOf around))).map (Occurrence.mk (localsOf around) false) := by
      rw [occurrences_options hoptions, slotEntries, Value.occurrencesUnder_append, occurrences_attributesOption]
      simp [Value.occurrencesUnder, Value.occurrences]
    rw [← localsOf_cons_of (n := .slot id p name attributes children) rfl] at hvalues
    have hcontent := occurrences_nodes _ _ children values hvalues fun m hm =>
      hunbound m (hm.mono _ (List.subset_cons_self _ _))
    rw [localsOf_cons_of rfl, List.filter_true] at hcontent
    rw [Node.sites, List.flatMap_cons, siteOccurrences, nodeOccurrences, Node.expressions, List.map_append]
    simp only [Value.occurrences, Value.occurrencesOf, List.nil_append, List.append_nil, hown, occurrences_arrayOf,
      List.append_assoc]
    -- What the module is given for slots stands behind the content.
    exact (List.perm_append_comm.trans (hcontent.append_left _)).append_left _
  | .text id p parts => by
    intro v h hunbound
    rw [NodeRenders] at h
    refine occurrences_rendersAs h hunbound fun facts hrender => ?_
    subst hrender
    simp [Value.occurrences, Value.occurrencesOf, occurrences_joined, Node.sites, siteOccurrences, nodeOccurrences,
      Site.locals, Node.expressions, Node.listeners]
  | .comment id p text => by
    intro v h hunbound
    rw [NodeRenders] at h
    refine occurrences_rendersAs h hunbound fun facts hrender => ?_
    subst hrender
    exact .nil
  | .conditional id p chain => by
    intro v h hunbound
    rw [NodeRenders] at h
    refine occurrences_rendersAs h hunbound fun facts hrender => ?_
    rw [← localsOf_cons_of (n := .conditional id p chain) rfl] at hrender
    have hchain := occurrences_chain _ chain v hrender fun m hm =>
      hunbound m (hm.mono _ (List.subset_cons_self _ _))
    rw [localsOf_cons_of rfl] at hchain
    simpa [Node.sites, siteOccurrences, nodeOccurrences, Site.locals, Node.expressions, Node.listeners] using hchain
  | .iteration id p loop children => by
    intro v h hunbound
    rw [NodeRenders] at h
    refine occurrences_rendersAs h hunbound fun facts hrender => ?_
    obtain ⟨values, hvalues, rfl⟩ := hrender
    -- The parameters of the function are just the names that are bound below the iteration and not at it.
    have hlocals : localsOf (.iteration id p loop children :: around) = localsOf around ++ loop.names :=
      localsOf_cons _ _
    rw [← hlocals] at hvalues
    have hcontent := occurrences_nodes _ _ children values hvalues fun m hm =>
      hunbound m (hm.mono _ (List.subset_cons_self _ _))
    rw [hlocals, List.filter_true] at hcontent
    rw [Node.sites, List.flatMap_cons]
    simp only [Value.occurrences, Value.occurrencesOf, List.append_nil, occurrences_arrayOf]
    exact hcontent.append_left _

theorem occurrences_chain (around : List Node) : ∀ c : Chain, ∀ v,
    ChainRenders sources table (localsOf around) c v →
    (∀ m, InFragment sources.isFragment c.all m → IsUnbound m) →
    (v.occurrences (localsOf around) false).Perm
      ((c.tests (localsOf around)).map (Occurrence.mk (localsOf around) false) ++
        (c.sites around).flatMap (siteOccurrences sources))
  | .done => by
    intro v h _
    obtain rfl : v = .array [] := h
    exact .nil
  | .otherwise children => by
    intro v h hunbound
    obtain ⟨values, hvalues, rfl⟩ := h
    have hperm := occurrences_nodes around _ children values hvalues hunbound
    rw [List.filter_true] at hperm
    rwa [occurrences_arrayOf]
  | .branch test negate children next => by
    intro v h hunbound
    obtain ⟨values, alternate, hvalues, halternate, rfl⟩ := h
    have hfirst := occurrences_nodes around _ children values hvalues fun m hm =>
      hunbound m (hm.mono _ (List.subset_append_left _ _))
    have hnext := occurrences_chain around next alternate halternate fun m hm =>
      hunbound m (hm.mono _ (List.subset_append_right _ _))
    rw [List.filter_true] at hfirst
    rw [Chain.tests, Chain.sites, List.map_cons, List.flatMap_append]
    simp only [Value.occurrences, occurrences_arrayOf, List.cons_append]
    refine List.Perm.cons _ ((hfirst.append hnext).trans ?_)
    -- The tests of the other branches stand behind the first list, but before it among those of the chain.
    rw [← List.append_assoc, ← List.append_assoc]
    exact List.perm_append_comm.append_right _

/-- The values of the nodes that `keep` picks have the expressions of these nodes and of those below them. -/
theorem occurrences_nodes (around : List Node) (keep : Node → Bool) : ∀ nodes : List Node, ∀ values,
    NodesRender sources table (localsOf around) keep nodes values →
    (∀ m, InFragment sources.isFragment (allNodes nodes) m → IsUnbound m) →
    (Value.occurrencesOf (localsOf around) false values).Perm
      ((sitesOf around (nodes.filter keep)).flatMap (siteOccurrences sources))
  | [] => by
    intro values h _
    obtain rfl : values = [] := h
    exact .nil
  | n :: ns => by
    intro values h hunbound
    rw [NodesRender] at h
    rw [List.filter_cons]
    have hrest := fun values hvalues => occurrences_nodes around keep ns values hvalues fun m hm =>
      hunbound m (hm.mono _ (List.subset_append_right _ _))
    split at h
    · rename_i hkeep
      obtain ⟨v, rest, hv, hns, rfl⟩ := h
      rw [if_pos hkeep, sitesOf, List.flatMap_append, Value.occurrencesOf]
      refine (occurrences_node around n v hv fun m hm => ?_).append (hrest rest hns)
      exact hunbound m (hm.mono _ (List.subset_append_left _ _))
    · rename_i hkeep
      rw [if_neg hkeep]
      exact hrest values h

end

end Nodes

end Render

end TemplateCompiler

import TemplateCompiler.Proofs.Render.FragmentMarkup
import TemplateCompiler.Proofs.Render.Literals
import TemplateCompiler.Proofs.Render.Outlines
/-!
# Reading bodies back

A body of a render function is made of constructs: calls that create nodes, and conditionals. `Value.constructs?` reads
them off a body, with no reference to the template, and `constructs?_body` shows that what is read off a body that is
generated is the outline of the template, with the construct of its node at each place.
-/

namespace TemplateCompiler.Render

open TemplateCompiler.Template TemplateCompiler.Binding

/-! ## Constructs -/

/-- A piece of text: the text itself, or an expression. -/
inductive Piece where
  | literal (text : String)
  | expression (source : String)
deriving DecidableEq, Repr

/-- What creates a node, what is inside aside. -/
inductive Construct where
  | element (tag : String) (key flags : Nat)
  | component (tag localName : String) (key flags : Nat) (slots : List String)
  | dynamic (tag constructor : String) (key flags : Nat) (slots : List String)
  | slot (name : String) (key flags : Nat)
  | text (pieces : List Piece)
  | comment (text : String)
  | conditional (tests : List String)
  | iterator (iterable : String) (parameters : List String)
  | fragment (markup : String) (key flags : Nat)
deriving DecidableEq, Repr

/-! ## Reading options and text -/

namespace Value

/-- Whether nothing in a value creates a node. -/
def isPlain (v : Value) : Bool :=
  v.all.all isGlue

/-- The entries of options, which stand where they are used or are declared as a whole. They create no nodes. -/
def entries? (table : HoistTable) : Value → Option (List (String × Value))
  | .constant name =>
    match table.constant? name with
    | some (.object entries) => some entries
    | _ => none
  | .object entries => if (Value.object entries).isPlain then some entries else none
  | _ => none

/-- The number of a key, which may be joined to an expression. -/
def keyNumber? : Value → Option Nat
  | .number key => some key
  | .call callee [.number key, _] => if callee = Helper.key.localName then some key else none
  | _ => none

/-- The key among options. -/
def key? (table : HoistTable) (options : Value) : Option Nat :=
  ((options.entries? table).bind (List.lookup "key")).bind keyNumber?

/-- A piece of text. -/
def piece? : Value → Option Piece
  | .string text => some (.literal text)
  | .call callee [.raw source] => if callee = Helper.dynamicText.localName then some (.expression source) else none
  | _ => none

/-- The pieces of a text. -/
def pieces? : Value → Option (List Piece)
  | .concat parts => parts.mapM piece?
  | v => v.piece?.map fun piece => [piece]

/-! ## Reading bodies -/

mutual

/-- The construct that a value is, and what is inside. -/
def construct? (table : HoistTable) : Value → Option (Outline Construct)
  | .call callee arguments =>
    match Helper.named? callee, arguments with
    | some .element, [.string tag, options, content, .number flags] => do
      return .node (.element tag (← options.key? table) flags) [← content.constructs? table]
    | some .customElement, [.string tag, .constant localName, options, content, .number flags] => do
      let slots ← content.slots? table
      return .node (.component tag localName (← options.key? table) flags (slots.map Prod.fst)) (slots.map Prod.snd)
    | some .dynamicComponent, [.string tag, .raw constructor, options, content, .number flags] => do
      let slots ← content.slots? table
      return .node (.dynamic tag constructor (← options.key? table) flags (slots.map Prod.fst)) (slots.map Prod.snd)
    | some .slot, [.string name, options, content, .raw _, .number flags] => do
      return .node (.slot name (← options.key? table) flags) [← content.constructs? table]
    | some .text, [content] => do return .node (.text (← content.pieces?)) []
    | some .comment, [.string text] => some (.node (.comment text) [])
    | some .iterator, [.raw iterable, .function parameters content] => do
      return .node (.iterator iterable parameters) [← content.constructs? table]
    | some .staticFragment, [.call name [], .number key, .number flags] => do
      return .node (.fragment (← table.declared? .fragment name) key flags) []
    | _, _ => none
  | .conditional (.raw test) consequent alternate => do
    let content ← consequent.constructs? table
    let (tests, groups) ← alternate.branches? table
    return .node (.conditional (test :: tests)) (content :: groups)
  | _ => none

/-- The tests of the branches that a value is, and what is inside them and where no test holds. -/
def branches? (table : HoistTable) : Value → Option (List String × List (List (Outline Construct)))
  | .conditional (.raw test) consequent alternate => do
    let content ← consequent.constructs? table
    let (tests, groups) ← alternate.branches? table
    return (test :: tests, content :: groups)
  | .array items => do return ([], [← constructsOf? table items])
  | .call callee [.array items] =>
    if callee = Helper.flatten.localName then do return ([], [← constructsOf? table items]) else none
  | _ => none

/-- The constructs in an array. -/
def constructs? (table : HoistTable) : Value → Option (List (Outline Construct))
  | .array items => constructsOf? table items
  | .call callee [.array items] => if callee = Helper.flatten.localName then constructsOf? table items else none
  | _ => none

/-- The constructs that values are. -/
def constructsOf? (table : HoistTable) : List Value → Option (List (Outline Construct))
  | [] => some []
  | v :: vs => do return (← v.construct? table) :: (← constructsOf? table vs)

/-- The content of slots, with their names. -/
def slots? (table : HoistTable) : Value → Option (List (String × List (Outline Construct)))
  | .undefined => some []
  | .object entries => slotsOf? table entries
  | _ => none

/-- The content of slots, with their names, as entries. -/
def slotsOf? (table : HoistTable) : List (String × Value) → Option (List (String × List (Outline Construct)))
  | [] => some []
  | (name, .arrow content) :: rest => do return (name, ← content.constructs? table) :: (← slotsOf? table rest)
  | _ => none

end

end Value

/-! ## The constructs of nodes -/

/-- A piece of a text, where iterations around it bind names. -/
def pieceOf (locals : List String) : TextPart → Piece
  | .literal text => .literal text
  | .expression expr => .expression (expr.toJs locals)

/-- The tests of the branches of a chain. -/
def testsOf (locals : List String) : Chain → List String
  | .done => []
  | .otherwise _ => []
  | .branch test negate _ next => ((if negate then "!" else "") ++ test.toJs locals) :: testsOf locals next

/-- The construct of a node that is a fragment. -/
def fragmentOf? (n : Node) (facts : Facts) : Option Construct := do
  return .fragment (← (markup n).toOption) (← facts.key) facts.hints.mask

/-- The construct of a node that is no fragment. -/
def constructOf? (sources : Sources) (locals : List String) (facts : Facts) : Node → Option Construct
  | .element _ _ .native data _ => do return .element data.tag (← facts.key) facts.hints.mask
  | .element _ _ .component data children => do
    return .component data.tag (← sources.imports.local? data.tag) (← facts.key) facts.hints.mask (slotNames children)
  | .element _ _ (.dynamic constructor) data children => do
    return .dynamic data.tag (constructor.toJs locals) (← facts.key) facts.hints.mask (slotNames children)
  | .slot _ _ name _ _ => do return .slot name (← facts.key) facts.hints.mask
  | .text _ _ parts => some (.text (parts.map (pieceOf locals)))
  | .comment _ _ text => some (.comment text)
  | .conditional _ _ chain => some (.conditional (testsOf locals chain))
  | .iteration _ _ loop _ => some (.iterator (loop.iterable.toJs locals) loop.names)

/-- The construct of a node, with the key and the hints that are known of it. -/
def constructAt? (sources : Sources) (p : Placed) : Option Construct :=
  (sources.analysis.get? p.node.id).bind fun facts =>
    if facts.isFragment then fragmentOf? p.node facts else constructOf? sources p.locals facts p.node

/-! ## Options and text are read back -/

theorem lookup_of_forall₂ {table : HoistTable} {entries entries' : List (String × Value)} {name : String}
    (hname : isBag name = false) (h : List.Forall₂ (OptionRenders table) entries entries') :
    entries'.lookup name = entries.lookup name := by
  induction h with
  | nil => rfl
  | @cons entry entry' rest rest' hentry _ ih =>
    obtain ⟨key, v⟩ := entry
    obtain ⟨key', v'⟩ := entry'
    obtain ⟨hkey, hvalue⟩ := hentry
    dsimp only at hkey
    subst hkey
    rw [List.lookup_cons, List.lookup_cons, ih]
    by_cases heq : name = key'
    · subst heq
      simp only [isSeparate, hname, Bool.false_and, Bool.false_eq_true, if_false] at hvalue
      rw [hvalue]
    · rw [beq_false_of_ne heq]

theorem key?_of_options {table : HoistTable} (hs : table.Sound) {entries : List (String × Value)} {v w : Value}
    {key : Nat} (h : OptionsRender table entries v) (hplain : ∀ entry ∈ entries, entry.2.IsPlain)
    (hlookup : entries.lookup "key" = some w) (hkey : w.keyNumber? = some key) : v.key? table = some key := by
  have hv := isPlain_options h hplain
  unfold OptionsRender at h
  split at h
  · rename_i hliteral
    obtain ⟨name, hname, rfl⟩ := h
    simp [Value.key?, Value.entries?, hs.constant? hliteral hname, hlookup, hkey]
  · obtain ⟨entries', hrender, rfl⟩ := h
    have hall : (Value.object entries').isPlain = true := List.all_eq_true.2 hv
    simp [Value.key?, Value.entries?, hall, lookup_of_forall₂ (show isBag "key" = false by decide) hrender, hlookup, hkey]

theorem lookup_attributesOption (locals : List String) {name : String} (hname : name ≠ "key") (asProperty : Bool)
    (attributes : List Attribute) : (attributesOption locals name asProperty attributes).lookup "key" = none := by
  unfold attributesOption
  split
  · rfl
  · simp [Ne.symm hname]

theorem keyNumber?_keyOption (locals : List String) (number : Nat) (key : Option Expr) :
    (keyOption locals number key).keyNumber? = some number := by
  cases key <;> simp [keyOption, Value.keyNumber?]

theorem key?_of_elementOptions {sources : Sources} {table : HoistTable} (hs : table.Sound) {locals : List String}
    {id : Nat} {data : ElementData} {facts : Facts} {v : Value}
    (h : ElementOptionsRender sources table locals id data facts v) :
    ∃ key, facts.key = some key ∧ v.key? table = some key := by
  obtain ⟨number, listeners, hnumber, hlisteners, hoptions⟩ := h
  refine ⟨number, hnumber, ?_⟩
  refine key?_of_options hs hoptions (fun entry hm => ?_) (w := keyOption locals number data.key) ?_
    (keyNumber?_keyOption _ _ _)
  · rcases List.mem_append.1 hm with hm | hm
    · exact isPlain_elementOptions _ _ _ entry hm
    · exact isPlain_listeners hlisteners entry hm
  · have hclasses : (classOption locals data.classes).lookup "key" = none := by
      rcases data.classes with _ | names | expr <;> simp [classOption]
    have hstyle : (styleEntry locals data.style).lookup "key" = none := by
      rcases data.style with _ | declarations | expr <;> simp [styleEntry]
    have hsvg : (if data.namespace = .svg then [("svg", Value.bool true)] else []).lookup "key" = none := by
      split <;> simp
    simp [elementOptions, List.lookup_append, lookup_attributesOption, hclasses, hstyle, hsvg]

theorem key?_of_slotOptions {table : HoistTable} (hs : table.Sound) {locals : List String}
    {attributes : List Attribute} {v : Value} {key : Nat}
    (h : OptionsRender table (slotEntries locals attributes key) v) : v.key? table = some key := by
  refine key?_of_options hs h (fun entry hm => ?_) (w := .number key) ?_ rfl
  · rcases List.mem_append.1 hm with hm | hm
    · exact isPlain_attributesOption _ _ _ _ entry hm
    · rw [List.mem_singleton.1 hm]
      exact Value.isPlain_leaf rfl rfl
  · simp [slotEntries, List.lookup_append, lookup_attributesOption]

theorem piece?_pieceValue (locals : List String) (part : TextPart) :
    (pieceValue locals part).piece? = some (pieceOf locals part) := by
  cases part with
  | literal text => rfl
  | expression expr => simp [pieceValue, exprValue, Value.piece?, pieceOf]

theorem mapM_piece? (locals : List String) (parts : List TextPart) :
    (parts.map (pieceValue locals)).mapM Value.piece? = some (parts.map (pieceOf locals)) := by
  induction parts with
  | nil => rfl
  | cons part parts ih =>
    rw [List.map_cons, List.mapM_cons, piece?_pieceValue, ih]
    rfl

theorem pieces?_joined (locals : List String) (parts : List TextPart) :
    (joined (parts.map (pieceValue locals))).pieces? = some (parts.map (pieceOf locals)) := by
  cases parts with
  | nil => rfl
  | cons part parts =>
    cases parts with
    | nil =>
      have hpiece := piece?_pieceValue locals part
      cases part <;> simp_all [joined, pieceValue, Value.pieces?]
    | cons part' parts => exact mapM_piece? locals (part :: part' :: parts)

/-! ## Bodies are read back -/

section Read

variable {sources : Sources} {table : HoistTable}

theorem constructs?_arrayOf (nodes : List Node) (values : List Value) :
    (arrayOf nodes values).constructs? table = Value.constructsOf? table values := by
  unfold arrayOf
  split <;> simp [Value.constructs?]

theorem branches?_arrayOf (nodes : List Node) (values : List Value) :
    (arrayOf nodes values).branches? table = (Value.constructsOf? table values).map fun content => ([], [content]) := by
  unfold arrayOf
  split <;> cases h : Value.constructsOf? table values <;> simp [Value.branches?, h]

/-- What is read off the value of a node: its construct, and what is inside. -/
theorem construct?_of_rendersAs (hs : table.Sound) {locals : List String} {n : Node} {v : Value}
    {inner : Facts → Prop} {groups : List (List (Outline Placed))} (h : RendersAs sources table n v inner)
    (hinner : ∀ facts, inner facts → ∃ construct read, v.construct? table = some (.node construct read) ∧
      constructOf? sources locals facts n = some construct ∧
      Outline.mapGroups some read = Outline.mapGroups (constructAt? sources) groups) :
    ∃ read, v.construct? table = some read ∧
      read.map some = (Outline.node ⟨locals, n⟩ (if sources.isFragment n then [] else groups)).map
        (constructAt? sources) := by
  obtain ⟨facts, hget, hcases⟩ := h
  have hfragment : sources.isFragment n = facts.isFragment := by simp [Sources.isFragment, hget]
  rw [hfragment]
  split at hcases
  · rename_i hf
    obtain ⟨html, name, key, hmarkup, hname, hkey, rfl⟩ := hcases
    refine ⟨.node (.fragment html key facts.hints.mask) [], ?_, ?_⟩
    · simp [Value.construct?, Helper.named?_localName, hs.declared? hname]
    · simp [Outline.map, Outline.mapGroups, constructAt?, hget, hf, fragmentOf?, hmarkup, hkey, Except.toOption]
  · rename_i hf
    obtain ⟨construct, read, hread, hconstruct, hgroups⟩ := hinner facts hcases
    refine ⟨.node construct read, hread, ?_⟩
    simp [Outline.map, constructAt?, hget, hf, hconstruct, hgroups]

/-- What is read off the value of a node with nothing below it. -/
theorem construct?_of_leaf (hs : table.Sound) {locals : List String} {n : Node} {v : Value} {inner : Facts → Prop}
    (h : RendersAs sources table n v inner)
    (hinner : ∀ facts, inner facts → ∃ construct, v.construct? table = some (.node construct []) ∧
      constructOf? sources locals facts n = some construct) :
    ∃ read, v.construct? table = some read ∧
      read.map some = (Outline.node ⟨locals, n⟩ []).map (constructAt? sources) := by
  have hread := construct?_of_rendersAs hs h fun facts hfacts =>
    let ⟨construct, hconstruct, hof⟩ := hinner facts hfacts
    ⟨construct, [], hconstruct, hof, show _ = Outline.mapGroups (constructAt? sources) [] from rfl⟩
  simpa using hread

theorem slotsOf?_map {locals : List String} {children : List Node} {slots : List (String × List Value)}
    (hslots : ∀ slot ∈ slots, ∃ read, Value.constructsOf? table slot.2 = some read ∧
      Outline.mapAll some read =
        Outline.mapAll (constructAt? sources) (outlines sources.isFragment locals (·.slotTarget == slot.1) children)) :
    ∃ read, Value.slotsOf? table (slots.map fun slot =>
        (slot.1, .arrow (arrayOf (children.filter (·.slotTarget == slot.1)) slot.2))) = some read ∧
      read.map Prod.fst = slots.map Prod.fst ∧
      Outline.mapGroups some (read.map Prod.snd) = Outline.mapGroups (constructAt? sources)
        ((slots.map Prod.fst).map fun name =>
          outlines sources.isFragment locals (·.slotTarget == name) children) := by
  induction slots with
  | nil => exact ⟨[], rfl, rfl, rfl⟩
  | cons slot rest ih =>
    obtain ⟨first, hfirst, hgroup⟩ := hslots slot List.mem_cons_self
    obtain ⟨read, hread, hnames, hgroups⟩ := ih fun slot' hm => hslots slot' (List.mem_cons_of_mem _ hm)
    refine ⟨(slot.1, first) :: read, ?_, ?_, ?_⟩
    · simp [Value.slotsOf?, constructs?_arrayOf, hfirst, hread]
    · simp [hnames]
    · simp [Outline.mapGroups, hgroup, hgroups]

/-- What is read off the slots of a component: their names, and what is put into each. -/
theorem slots?_slottedOf {locals : List String} {children : List Node} {slots : List (String × List Value)}
    (hnames : slots.map Prod.fst = slotNames children)
    (hslots : ∀ slot ∈ slots, ∃ read, Value.constructsOf? table slot.2 = some read ∧
      Outline.mapAll some read =
        Outline.mapAll (constructAt? sources) (outlines sources.isFragment locals (·.slotTarget == slot.1) children)) :
    ∃ read, (slottedOf children slots).slots? table = some read ∧ read.map Prod.fst = slotNames children ∧
      Outline.mapGroups some (read.map Prod.snd) = Outline.mapGroups (constructAt? sources)
        ((slotNames children).map fun name => outlines sources.isFragment locals (·.slotTarget == name) children) := by
  unfold slottedOf
  split
  · rename_i hempty
    rw [List.isEmpty_iff.1 hempty]
    exact ⟨[], by simp [Value.slots?], by simp [slotNames], by simp [slotNames, Outline.mapGroups]⟩
  · rw [← hnames]
    exact slotsOf?_map hslots

theorem construct?_conditional (test : String) (consequent alternate : Value) :
    (Value.conditional (.raw test) consequent alternate).construct? table =
      ((Value.conditional (.raw test) consequent alternate).branches? table).map fun read =>
        .node (.conditional read.1) read.2 := by
  simp only [Value.construct?, Value.branches?]
  cases consequent.constructs? table with
  | none => rfl
  | some content => cases alternate.branches? table <;> rfl

mutual

theorem construct?_of_renders (hs : table.Sound) (locals : List String) :
    ∀ (n : Node) (v : Value), NodeRenders sources table locals n v → AreRegular n.all →
      ∃ read, v.construct? table = some read ∧
        read.map some = (n.outline sources.isFragment locals).map (constructAt? sources)
  | .element id p role data children, v => by
    intro h hregular
    have hbelow := (areRegular_cons.1 hregular).2
    rw [NodeRenders] at h
    refine construct?_of_rendersAs hs h fun facts hfacts => ?_
    obtain ⟨options, hoptions, hrole⟩ := hfacts
    obtain ⟨key, hkey, hread⟩ := key?_of_elementOptions hs hoptions
    cases role with
    | native =>
      obtain ⟨values, hvalues, rfl⟩ := hrole
      obtain ⟨content, hcontent, hgroup⟩ := constructsOf?_of_renders hs locals _ children values hvalues hbelow
      refine ⟨.element data.tag key facts.hints.mask, [content], ?_, ?_, ?_⟩
      · simp [Value.construct?, Helper.named?_localName, hread, constructs?_arrayOf, hcontent]
      · simp [constructOf?, hkey]
      · simp [Outline.mapGroups, hgroup]
    | component =>
      obtain ⟨name, slots, hname, ⟨hnames, hslots⟩, rfl⟩ := hrole
      obtain ⟨groups, hgroups, hslotNames, hmap⟩ := slots?_slottedOf hnames fun slot hm =>
        constructsOf?_of_renders hs locals _ children slot.2 (hslots slot hm) hbelow
      refine ⟨.component data.tag name key facts.hints.mask (slotNames children), groups.map Prod.snd, ?_, ?_, hmap⟩
      · simp [Value.construct?, Helper.named?_localName, hread, hgroups, hslotNames]
      · simp [constructOf?, hkey, hname]
    | dynamic constructor =>
      obtain ⟨slots, ⟨hnames, hslots⟩, rfl⟩ := hrole
      obtain ⟨groups, hgroups, hslotNames, hmap⟩ := slots?_slottedOf hnames fun slot hm =>
        constructsOf?_of_renders hs locals _ children slot.2 (hslots slot hm) hbelow
      refine ⟨.dynamic data.tag (constructor.toJs locals) key facts.hints.mask (slotNames children),
        groups.map Prod.snd, ?_, ?_, hmap⟩
      · simp [Value.construct?, Helper.named?_localName, exprValue, hread, hgroups, hslotNames]
      · simp [constructOf?, hkey]
  | .slot id p name attributes children, v => by
    intro h hregular
    rw [NodeRenders] at h
    refine construct?_of_rendersAs hs h fun facts hfacts => ?_
    obtain ⟨key, options, values, hkey, hoptions, hvalues, rfl⟩ := hfacts
    obtain ⟨content, hcontent, hgroup⟩ := constructsOf?_of_renders hs locals _ children values hvalues
      (areRegular_cons.1 hregular).2
    refine ⟨.slot name key facts.hints.mask, [content], ?_, ?_, ?_⟩
    · simp [Value.construct?, Helper.named?_localName, key?_of_slotOptions hs hoptions, constructs?_arrayOf, hcontent]
    · simp [constructOf?, hkey]
    · simp [Outline.mapGroups, hgroup]
  | .text id p parts, v => by
    intro h _
    rw [NodeRenders] at h
    refine construct?_of_leaf hs h fun facts hv => ⟨.text (parts.map (pieceOf locals)), ?_, rfl⟩
    rw [hv]
    simp [Value.construct?, Helper.named?_localName, pieces?_joined]
  | .comment id p text, v => by
    intro h _
    rw [NodeRenders] at h
    refine construct?_of_leaf hs h fun facts hv => ⟨.comment text, ?_, rfl⟩
    rw [hv]
    simp [Value.construct?, Helper.named?_localName]
  | .conditional id p chain, v => by
    intro h hregular
    rw [NodeRenders] at h
    refine construct?_of_rendersAs hs h fun facts hchain => ?_
    obtain ⟨test, negate, children, next, rfl⟩ := (areRegular_cons.1 hregular).1
    obtain ⟨groups, hread, hmap⟩ := branches?_of_renders hs locals _ v hchain
      (areRegular_cons.1 hregular).2
    rw [ChainRenders] at hchain
    obtain ⟨values, alternate, -, -, rfl⟩ := hchain
    exact ⟨_, groups, by rw [construct?_conditional, hread]; rfl, rfl, hmap⟩
  | .iteration id p loop children, v => by
    intro h hregular
    rw [NodeRenders] at h
    refine construct?_of_rendersAs hs h fun facts hfacts => ?_
    obtain ⟨values, hvalues, rfl⟩ := hfacts
    obtain ⟨content, hcontent, hgroup⟩ := constructsOf?_of_renders hs (locals ++ loop.names) _ children values hvalues
      (areRegular_cons.1 hregular).2
    refine ⟨.iterator (loop.iterable.toJs locals) loop.names, [content], ?_, rfl, ?_⟩
    · simp [Value.construct?, Helper.named?_localName, exprValue, constructs?_arrayOf, hcontent]
    · simp [Outline.mapGroups, hgroup]

theorem branches?_of_renders (hs : table.Sound) (locals : List String) :
    ∀ (c : Chain) (v : Value), ChainRenders sources table locals c v → AreRegular c.all →
      ∃ read, v.branches? table = some (testsOf locals c, read) ∧
        Outline.mapGroups some read = Outline.mapGroups (constructAt? sources) (c.outlines sources.isFragment locals)
  | .done, v => by
    intro h _
    rw [ChainRenders] at h
    rw [h]
    exact ⟨[[]], rfl, rfl⟩
  | .otherwise children, v => by
    intro h hregular
    rw [ChainRenders] at h
    obtain ⟨values, hvalues, rfl⟩ := h
    obtain ⟨content, hcontent, hgroup⟩ := constructsOf?_of_renders hs locals _ children values hvalues hregular
    refine ⟨[content], ?_, ?_⟩
    · simp [branches?_arrayOf, hcontent, testsOf]
    · simp [Chain.outlines, Outline.mapGroups, hgroup]
  | .branch test negate children next, v => by
    intro h hregular
    rw [ChainRenders] at h
    obtain ⟨values, alternate, hvalues, hnext, rfl⟩ := h
    obtain ⟨content, hcontent, hgroup⟩ := constructsOf?_of_renders hs locals _ children values hvalues
      (areRegular_append.1 hregular).1
    obtain ⟨rest, hrest, hgroups⟩ := branches?_of_renders hs locals next alternate hnext
      (areRegular_append.1 hregular).2
    refine ⟨content :: rest, ?_, ?_⟩
    · simp [Value.branches?, constructs?_arrayOf, hcontent, hrest, testsOf]
    · simp [Chain.outlines, Outline.mapGroups, hgroup, hgroups]

theorem constructsOf?_of_renders (hs : table.Sound) (locals : List String) (keep : Node → Bool) :
    ∀ (nodes : List Node) (values : List Value), NodesRender sources table locals keep nodes values →
      AreRegular (allNodes nodes) → ∃ read, Value.constructsOf? table values = some read ∧
        Outline.mapAll some read =
          Outline.mapAll (constructAt? sources) (outlines sources.isFragment locals keep nodes)
  | [], values => by
    intro h _
    rw [NodesRender] at h
    rw [h]
    exact ⟨[], rfl, rfl⟩
  | n :: ns, values => by
    intro h hregular
    have hrest := (areRegular_append.1 hregular).2
    rw [NodesRender] at h
    rw [outlines]
    split at h
    · rename_i hkeep
      obtain ⟨v, rest, hv, hvs, rfl⟩ := h
      obtain ⟨first, hfirst, hnode⟩ := construct?_of_renders hs locals n v hv
        (areRegular_append.1 hregular).1
      obtain ⟨others, hothers, hnodes⟩ := constructsOf?_of_renders hs locals keep ns rest hvs hrest
      refine ⟨first :: others, ?_, ?_⟩
      · simp [Value.constructsOf?, hfirst, hothers]
      · simp [if_pos hkeep, Outline.mapAll, hnode, hnodes]
    · rename_i hkeep
      rw [if_neg hkeep]
      exact constructsOf?_of_renders hs locals keep ns values h hrest

end

end Read

end TemplateCompiler.Render

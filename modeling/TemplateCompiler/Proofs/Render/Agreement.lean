import TemplateCompiler.Proofs.Render.Described
/-!
# Bodies that describe the same tree

A body with fragments and one without can be compared once each fragment is replaced by the element that its markup is
read as (`Value.Agrees`). The bodies that a template is rendered as agree exactly if the start tags in all fragments
show their quotes (`agrees_nodes`): what surrounds the fragments is the same in both.
-/

namespace TemplateCompiler.Render

open TemplateCompiler.Template TemplateCompiler.Binding
open Markup (soundRules)

/-! ## Agreement -/

/-- A tree that stands in a body, and what its root has besides. -/
structure Tree where
  shape : Shape
  key : Nat
  flags : Nat

/-- The shape of the one element that a markup is read as. -/
def markupShape? (markup : String) : Option Shape :=
  match Markup.parse markup.toList with
  | .ok document =>
    match Markup.shapesOf document with
    | [shape] => some shape
    | _ => none
  | .error _ => none

namespace Value

/-- The tree that a fragment stands for, given the arguments of its call: what its markup is read as, with its key and
its flags. -/
def fragmentTree? : List Value → Option Tree
  | [.call "parseFragment" [.string markup], .number key, .number flags] =>
    (markupShape? markup).map fun shape => ⟨shape, key, flags⟩
  | _ => none

/-- The tree that an element describes, with its own key and flags. -/
def elementTree? : Value → Option Tree
  | .call callee [tag, .object options, content, .number flags] =>
    match options.lookup "key" with
    | some (.number key) =>
      (Value.call callee [tag, .object options, content, .number flags]).shape?.map fun shape => ⟨shape, key, flags⟩
    | _ => none
  | _ => none

mutual

/-- Two values, with their declarations put in, describe the same tree: where the first one has a fragment, the second
one has an element that describes what the markup of the fragment is read as, with the same key and flags. Everywhere
else they are equal. -/
def Agrees : Value → Value → Prop
  | .call callee arguments, w =>
    if Helper.named? callee = some .staticFragment then
      ∃ tree, fragmentTree? arguments = some tree ∧ w.elementTree? = some tree
    else ∃ arguments', w = .call callee arguments' ∧ AllAgree arguments arguments'
  | .array items, w => ∃ items', w = .array items' ∧ AllAgree items items'
  | .object entries, w => ∃ entries', w = .object entries' ∧ EntriesAgree entries entries'
  | .function parameters body, w => ∃ body', w = .function parameters body' ∧ body.Agrees body'
  | .arrow body, w => ∃ body', w = .arrow body' ∧ body.Agrees body'
  | .conditional test consequent alternate, w => ∃ test' consequent' alternate',
      w = .conditional test' consequent' alternate' ∧ test.Agrees test' ∧ consequent.Agrees consequent' ∧
        alternate.Agrees alternate'
  | .concat parts, w => ∃ parts', w = .concat parts' ∧ AllAgree parts parts'
  | .memo name value, w => ∃ value', w = .memo name value' ∧ value.Agrees value'
  | .string text, w => w = .string text
  | .number n, w => w = .number n
  | .bool value, w => w = .bool value
  | .undefined, w => w = .undefined
  | .raw source, w => w = .raw source
  | .constant name, w => w = .constant name

/-- Values that describe the same trees one by one. -/
def AllAgree : List Value → List Value → Prop
  | [], ws => ws = []
  | v :: vs, ws => ∃ w ws', ws = w :: ws' ∧ v.Agrees w ∧ AllAgree vs ws'

/-- Entries of objects with the same keys, whose values describe the same trees one by one. -/
def EntriesAgree : List (String × Value) → List (String × Value) → Prop
  | [], ws => ws = []
  | (key, v) :: rest, ws => ∃ w rest', ws = (key, w) :: rest' ∧ v.Agrees w ∧ EntriesAgree rest rest'

end

/-! ## Values without fragments -/

theorem isPlain_call_iff {callee : String} {arguments : List Value} (h : (Value.call callee arguments).IsPlain) :
    Helper.named? callee ≠ some .staticFragment ∧ ∀ v ∈ arguments, v.IsPlain := by
  refine ⟨fun hnamed => ?_, fun v hv w hw => h w (List.mem_cons_of_mem _ (mem_allOf.2 ⟨v, hv, hw⟩))⟩
  have hglue := h _ List.mem_cons_self
  simp [isGlue, hnamed, Helper.makesNode] at hglue

mutual

/-- A value in which no node is rendered agrees with itself. -/
theorem agrees_refl : ∀ v : Value, v.IsPlain → v.Agrees v
  | .call callee arguments, h => by
    obtain ⟨hnamed, harguments⟩ := isPlain_call_iff h
    rw [Agrees, if_neg hnamed]
    exact ⟨arguments, rfl, allAgree_refl arguments harguments⟩
  | .array items, h => by
    rw [Agrees]
    exact ⟨items, rfl, allAgree_refl items (isPlain_array.1 h)⟩
  | .object entries, h => by
    rw [Agrees]
    exact ⟨entries, rfl, entriesAgree_refl entries (isPlain_object.1 h)⟩
  | .function parameters body, h => by
    have hglue := h _ List.mem_cons_self
    cases hglue
  | .arrow body, h => by
    rw [Agrees]
    exact ⟨body, rfl, agrees_refl body fun w hw => h w (List.mem_cons_of_mem _ hw)⟩
  | .conditional test consequent alternate, h => by
    have hbelow : ∀ w, w ∈ test.all ∨ w ∈ consequent.all ∨ w ∈ alternate.all → w.isGlue = true := by
      intro w hw
      refine h w (List.mem_cons_of_mem _ ?_)
      simpa [or_assoc] using hw
    rw [Agrees]
    refine ⟨test, consequent, alternate, rfl, agrees_refl test ?_, agrees_refl consequent ?_, agrees_refl alternate ?_⟩
    · exact fun w hw => hbelow w (.inl hw)
    · exact fun w hw => hbelow w (.inr (.inl hw))
    · exact fun w hw => hbelow w (.inr (.inr hw))
  | .concat parts, h => by
    rw [Agrees]
    exact ⟨parts, rfl, allAgree_refl parts fun v hv w hw => h w (List.mem_cons_of_mem _ (mem_allOf.2 ⟨v, hv, hw⟩))⟩
  | .memo name value, h => by
    rw [Agrees]
    exact ⟨value, rfl, agrees_refl value fun w hw => h w (List.mem_cons_of_mem _ hw)⟩
  | .string text, h => by rw [Agrees]
  | .number n, h => by rw [Agrees]
  | .bool value, h => by rw [Agrees]
  | .undefined, h => by rw [Agrees]
  | .raw source, h => by rw [Agrees]
  | .constant name, h => by rw [Agrees]

theorem allAgree_refl : ∀ vs : List Value, (∀ v ∈ vs, v.IsPlain) → AllAgree vs vs
  | [], h => by rw [AllAgree]
  | v :: vs, h => by
    rw [AllAgree]
    exact ⟨v, vs, rfl, agrees_refl v (h v (by simp)), allAgree_refl vs fun w hw => h w (by simp [hw])⟩

theorem entriesAgree_refl : ∀ entries : List (String × Value), (∀ entry ∈ entries, entry.2.IsPlain) →
    EntriesAgree entries entries
  | [], h => by rw [EntriesAgree]
  | (key, v) :: rest, h => by
    rw [EntriesAgree]
    exact ⟨v, rest, rfl, agrees_refl v (h (key, v) (by simp)),
      entriesAgree_refl rest fun entry hentry => h entry (by simp [hentry])⟩

end

/-! ## Agreement of parts -/

theorem allAgree_cons {v w : Value} {vs ws : List Value} :
    AllAgree (v :: vs) (w :: ws) ↔ v.Agrees w ∧ AllAgree vs ws := by
  rw [AllAgree]
  constructor
  · rintro ⟨w', ws', heq, hv, hvs⟩
    obtain ⟨rfl, rfl⟩ := List.cons.inj heq
    exact ⟨hv, hvs⟩
  · exact fun ⟨hv, hvs⟩ => ⟨w, ws, rfl, hv, hvs⟩

theorem allAgree_nil : AllAgree [] [] := by
  rw [AllAgree]

theorem entriesAgree_cons {key : String} {v w : Value} {rest rest' : List (String × Value)} :
    EntriesAgree ((key, v) :: rest) ((key, w) :: rest') ↔ v.Agrees w ∧ EntriesAgree rest rest' := by
  rw [EntriesAgree]
  constructor
  · rintro ⟨w', rest'', heq, hv, hrest⟩
    obtain ⟨hentry, rfl⟩ := List.cons.inj heq
    obtain ⟨-, rfl⟩ := Prod.mk.inj hentry
    exact ⟨hv, hrest⟩
  · exact fun ⟨hv, hrest⟩ => ⟨w, rest', rfl, hv, hrest⟩

theorem agrees_call {helper : Helper} (hhelper : helper ≠ .staticFragment) {arguments arguments' : List Value} :
    (Value.call helper.localName arguments).Agrees (.call helper.localName arguments') ↔
      AllAgree arguments arguments' := by
  have hnamed : Helper.named? helper.localName ≠ some .staticFragment := by
    rw [Helper.named?_localName]
    exact fun heq => hhelper (Option.some.inj heq)
  rw [Agrees, if_neg hnamed]
  constructor
  · rintro ⟨ws, heq, hall⟩
    cases heq
    exact hall
  · exact fun hall => ⟨arguments', rfl, hall⟩

theorem agrees_array {items items' : List Value} : (Value.array items).Agrees (.array items') ↔ AllAgree items items' := by
  rw [Agrees]
  constructor
  · rintro ⟨ws, heq, hall⟩
    cases heq
    exact hall
  · exact fun hall => ⟨items', rfl, hall⟩

theorem agrees_object {entries entries' : List (String × Value)} :
    (Value.object entries).Agrees (.object entries') ↔ EntriesAgree entries entries' := by
  rw [Agrees]
  constructor
  · rintro ⟨ws, heq, hall⟩
    cases heq
    exact hall
  · exact fun hall => ⟨entries', rfl, hall⟩

theorem agrees_arrow {body body' : Value} : (Value.arrow body).Agrees (.arrow body') ↔ body.Agrees body' := by
  rw [Agrees]
  constructor
  · rintro ⟨w, heq, h⟩
    cases heq
    exact h
  · exact fun h => ⟨body', rfl, h⟩

theorem agrees_function {parameters : List String} {body body' : Value} :
    (Value.function parameters body).Agrees (.function parameters body') ↔ body.Agrees body' := by
  rw [Agrees]
  constructor
  · rintro ⟨w, heq, h⟩
    cases heq
    exact h
  · exact fun h => ⟨body', rfl, h⟩

theorem agrees_conditional {test consequent consequent' alternate alternate' : Value} (htest : test.IsPlain) :
    (Value.conditional test consequent alternate).Agrees (.conditional test consequent' alternate') ↔
      consequent.Agrees consequent' ∧ alternate.Agrees alternate' := by
  rw [Agrees]
  constructor
  · rintro ⟨_, _, _, heq, -, h⟩
    cases heq
    exact h
  · exact fun h => ⟨test, consequent', alternate', rfl, agrees_refl test htest, h⟩

theorem agrees_string (text : String) : (Value.string text).Agrees (.string text) := by
  rw [Agrees]

theorem agrees_number (n : Nat) : (Value.number n).Agrees (.number n) := by
  rw [Agrees]

theorem agrees_raw (source : String) : (Value.raw source).Agrees (.raw source) := by
  rw [Agrees]

theorem agrees_constant (name : String) : (Value.constant name).Agrees (.constant name) := by
  rw [Agrees]

end Value

open Value

theorem agrees_arrayOf (nodes : List Node) {values values' : List Value} :
    (arrayOf nodes values).Agrees (arrayOf nodes values') ↔ AllAgree values values' := by
  unfold arrayOf
  split
  · rw [agrees_call (by decide), allAgree_cons, agrees_array]
    exact and_iff_left allAgree_nil
  · exact agrees_array

theorem entriesAgree_slots (children : List Node) {slots slots' : List (String × List Value)}
    (hnames : slots.map Prod.fst = slots'.map Prod.fst) {p : String → Prop}
    (h : ∀ slot ∈ slots, ∀ slot' ∈ slots', slot.1 = slot'.1 → (AllAgree slot.2 slot'.2 ↔ p slot.1)) :
    EntriesAgree
      (slots.map fun slot => (slot.1, .arrow (arrayOf (children.filter (·.slotTarget == slot.1)) slot.2)))
      (slots'.map fun slot => (slot.1, .arrow (arrayOf (children.filter (·.slotTarget == slot.1)) slot.2))) ↔
      ∀ slot ∈ slots, p slot.1 := by
  induction slots generalizing slots' with
  | nil =>
    obtain rfl : slots' = [] := by simpa using hnames.symm
    simp [EntriesAgree]
  | cons slot rest ih =>
    cases slots' with
    | nil => cases hnames
    | cons slot' rest' =>
      rw [List.map_cons, List.map_cons] at hnames
      obtain ⟨hname, hrest⟩ := List.cons.inj hnames
      have hothers := ih hrest fun s hs s' hs' => h s (by simp [hs]) s' (by simp [hs'])
      rw [List.map_cons, List.map_cons, ← hname, entriesAgree_cons, agrees_arrow, agrees_arrayOf,
        h slot (by simp) slot' (by simp) hname, hothers, List.forall_mem_cons]

/-- The slots of a component agree if the content of each slot does. -/
theorem agrees_slottedOf {children : List Node} {slots slots' : List (String × List Value)}
    (hnames : slots.map Prod.fst = slotNames children) (hnames' : slots'.map Prod.fst = slotNames children)
    {p : String → Prop} (h : ∀ slot ∈ slots, ∀ slot' ∈ slots', slot.1 = slot'.1 → (AllAgree slot.2 slot'.2 ↔ p slot.1)) :
    (slottedOf children slots).Agrees (slottedOf children slots') ↔ ∀ n ∈ children, p n.slotTarget := by
  unfold slottedOf
  split
  · rename_i hempty
    rw [List.isEmpty_iff.1 hempty, Agrees]
    simp
  · rw [agrees_object, entriesAgree_slots children (hnames.trans hnames'.symm) h]
    have hmem : ∀ name, name ∈ slots.map Prod.fst ↔ ∃ n ∈ children, n.slotTarget = name := by
      simp [hnames, slotNames]
    constructor
    · intro hall n hn
      obtain ⟨slot, hslot, heq⟩ := List.mem_map.1 ((hmem n.slotTarget).2 ⟨n, hn, rfl⟩)
      exact heq ▸ hall slot hslot
    · intro hall slot hslot
      obtain ⟨n, hn, heq⟩ := (hmem slot.1).1 (List.mem_map_of_mem hslot)
      exact heq ▸ hall n hn

/-! ## Two bodies of a template -/

theorem markupShape?_eq_some {markup : String} {shape : Shape} :
    markupShape? markup = some shape ↔
      ∃ document, Markup.parse markup.toList = .ok document ∧ Markup.shapesOf document = [shape] := by
  unfold markupShape?
  cases hparse : Markup.parse markup.toList with
  | error e => simp
  | ok document =>
    dsimp only
    split
    · rename_i other heq
      simp [heq]
    · rename_i hne
      simp only [reduceCtorEq, Except.ok.injEq, exists_eq_left', false_iff]
      exact hne shape

/-- Of two sources of one template, the second one renders no node as a fragment, and otherwise they say the same. -/
structure Sources.Twins (first second : Sources) : Prop where
  imports : first.imports = second.imports
  underscore : ∀ tag name, first.imports.local? tag = some name → name.toList.head? = some '_'
  noFragments : second.NoFragments
  facts : ∀ id facts, first.analysis.get? id = some facts →
    second.analysis.get? id = some { facts with isFragment := false }

/-- The nodes that are fragments can be read back, as far as their start tags show their quotes. -/
def Sources.FragmentsSound (sources : Sources) (mode : RenderMode) (nodes : List Node) : Prop :=
  ∀ n ∈ nodes, sources.isFragment n = true → n.canBeFragment mode = true ∧ HaveOrigins soundRules n.all

/-- The fragments that a node is rendered with show the quotes of their start tags. -/
def Sources.FragmentsShow (sources : Sources) (nodes : List Node) : Prop :=
  ∀ n ∈ nodes, sources.isFragment n = true → n.ShowsQuotes

section Twins

variable {first second : Sources} {table table' : HoistTable} {mode : RenderMode}

/-- What is read off an element that never changes, if no node is rendered as a fragment: its shape, its key and its
hints. -/
theorem elementTree?_of_renders (hs : table.Sound) (hnone : second.NoFragments) {locals : List String} {n : Node}
    {w : Value} (h : NodeRenders second table locals n w) (hcan : n.canBeFragment mode = true)
    (horigins : HaveOrigins soundRules n.all) {facts : Facts} (hget : second.analysis.get? n.id = some facts) {key : Nat}
    (hkey : facts.key = some key) :
    (w.inlined table).elementTree? = some ⟨n.written.shape, key, facts.hints.mask⟩ := by
  have hstatic := (isStatic_of_canBeFragment hcan).1
  have hshape := shape?_of_renders hs hnone mode locals n w h hstatic horigins
  unfold Node.canBeFragment at hcan
  split at hcan
  · rename_i id p data children
    obtain ⟨⟨e, content, hrule, hof, -⟩, -⟩ := haveOrigins_cons.1 horigins
    simp only [Node.isStatic, Bool.and_eq_true, Bool.not_eq_true', ElementData.isPlain, List.isEmpty_iff] at hstatic
    obtain ⟨⟨hbound, hproperties, -⟩, -⟩ := hstatic
    rw [NodeRenders] at h
    obtain ⟨facts', hget', options, hoptions, values, -, rfl⟩ := h.inner (hnone.isFragment _)
    obtain rfl := Option.some.inj (hget.symm.trans hget')
    obtain ⟨number, hnumber, hinlined⟩ := inlined_elementOptions hs hoptions
    obtain rfl := Option.some.inj (hkey.symm.trans hnumber)
    rw [listenersOption_of_unbound locals hbound, List.append_nil] at hinlined
    obtain ⟨-, -, -, -, hlookup⟩ := read_elementOptions locals (hof.writable hrule.1) key hbound hproperties
    rw [inlined_call hs] at hshape ⊢
    simp only [List.map_cons, List.map_nil, hinlined, Value.inlined] at hshape ⊢
    simp only [elementTree?, hlookup, hshape, Option.map_some]
  · cases hcan

/-- A fragment agrees with the element that the same node is otherwise exactly if its start tags show their quotes. -/
theorem agrees_fragment (hs : table.Sound) (hs' : table'.Sound) (htwins : first.Twins second) {locals : List String}
    {n : Node} {v w : Value} {facts : Facts} (hget : first.analysis.get? n.id = some facts)
    (h : FragmentRenders table n facts v) (h' : NodeRenders second table' locals n w)
    (hcan : n.canBeFragment mode = true) (horigins : HaveOrigins soundRules n.all) :
    (v.inlined table).Agrees (w.inlined table') ↔ n.ShowsQuotes := by
  obtain ⟨html, name, key, hmarkup, hname, hkey, rfl⟩ := h
  have htree : (w.inlined table').elementTree? = some ⟨n.written.shape, key, facts.hints.mask⟩ :=
    elementTree?_of_renders hs' htwins.noFragments h' hcan horigins (htwins.facts n.id facts hget) hkey
  have hfragment : (Value.call Helper.staticFragment.localName
      [.call name [], .number key, .number facts.hints.mask]).inlined table =
      .call Helper.staticFragment.localName
        [.call "parseFragment" [.string html], .number key, .number facts.hints.mask] := by
    have hinlined : (Value.call name []).inlined table = .call "parseFragment" [.string html] := by
      rw [Value.inlined, hs.declared? hname]
    rw [inlined_call hs, List.map_cons, hinlined]
    rfl
  rw [hfragment, Agrees, if_pos (Helper.named?_localName _), htree, ← reread_markup hcan horigins hmarkup,
    ← markupShape?_eq_some, fragmentTree?]
  constructor
  · rintro ⟨tree, hread, heq⟩
    obtain rfl := Option.some.inj heq
    obtain ⟨shape, hshape, heq⟩ := Option.map_eq_some_iff.1 hread
    exact hshape.trans (congrArg (fun tree => some tree.shape) heq)
  · intro hshape
    rw [hshape]
    exact ⟨_, rfl, rfl⟩

/-- Two values of one node agree if what is in the node does, and the node is a fragment that shows its quotes, or
none. -/
theorem agrees_of_rendersAs (hs : table.Sound) (hs' : table'.Sound) (htwins : first.Twins second) {locals : List String}
    {n : Node} {v w : Value} {inner inner' : Facts → Prop} (h : RendersAs first table n v inner)
    (h' : RendersAs second table' n w inner') (hrenders : NodeRenders second table' locals n w) {below shown : List Node}
    (hall : n.all = n :: below) (hsound : first.FragmentsSound mode n.all)
    (hshown : n.shown first.isFragment = n :: if first.isFragment n then [] else shown)
    (hinner : ∀ facts facts', facts'.key = facts.key → facts'.hints = facts.hints → inner facts → inner' facts' →
      first.FragmentsSound mode below →
      ((v.inlined table).Agrees (w.inlined table') ↔ first.FragmentsShow shown)) :
    (v.inlined table).Agrees (w.inlined table') ↔ first.FragmentsShow (n.shown first.isFragment) := by
  obtain ⟨facts, hget, hcases⟩ := h
  obtain ⟨facts', hget', hinner'⟩ := h'.inner (htwins.noFragments.isFragment _)
  obtain rfl := Option.some.inj ((htwins.facts n.id facts hget).symm.trans hget')
  have hfragment : first.isFragment n = facts.isFragment := by simp [Sources.isFragment, hget]
  rw [hall] at hsound
  rw [hshown]
  split at hcases
  · rename_i hf
    obtain ⟨hcan, horigins⟩ := hsound n (by simp) (hfragment.trans hf)
    rw [agrees_fragment hs hs' htwins hget hcases hrenders hcan horigins, if_pos (hfragment.trans hf)]
    simp [Sources.FragmentsShow, hfragment, hf]
  · rename_i hf
    have hf : first.isFragment n = false := hfragment.trans (by simpa using hf)
    rw [hinner facts { facts with isFragment := false } rfl rfl hcases hinner' fun m hm => hsound m (by simp [hm]),
      if_neg (by simp [hf])]
    simp [Sources.FragmentsShow, hf]

theorem Sources.fragmentsShow_append {sources : Sources} {nodes nodes' : List Node} :
    sources.FragmentsShow (nodes ++ nodes') ↔ sources.FragmentsShow nodes ∧ sources.FragmentsShow nodes' :=
  List.forall_mem_append

theorem Sources.fragmentsShow_shownNodes {sources : Sources} {nodes : List Node} :
    sources.FragmentsShow (shownNodes sources.isFragment nodes) ↔
      ∀ n ∈ nodes, sources.FragmentsShow (n.shown sources.isFragment) := by
  simp only [FragmentsShow, mem_shownNodes]
  exact ⟨fun h n hn m hm => h m ⟨n, hn, hm⟩, fun h m ⟨n, hn, hm⟩ => h n hn m hm⟩

theorem Sources.FragmentsSound.append {sources : Sources} {nodes nodes' : List Node}
    (h : sources.FragmentsSound mode (nodes ++ nodes')) :
    sources.FragmentsSound mode nodes ∧ sources.FragmentsSound mode nodes' :=
  List.forall_mem_append.1 h

theorem inlined_constant (hs : table.Sound) (htwins : first.Twins second) {tag name : String}
    (h : first.imports.local? tag = some name) : (Value.constant name).inlined table = .constant name := by
  rw [Value.inlined, hs.constant?_import (htwins.underscore tag name h), Option.getD_none]

/-- The options of an element are the same in both bodies. -/
theorem agrees_elementOptions (hs : table.Sound) (hs' : table'.Sound) {locals : List String} {id : Nat}
    {data : ElementData} {facts facts' : Facts} {options options' : Value} (hkey : facts'.key = facts.key)
    (h : ElementOptionsRender first table locals id data facts options)
    (h' : ElementOptionsRender second table' locals id data facts' options') :
    (options.inlined table).Agrees (options'.inlined table') := by
  obtain ⟨number, hnumber, hinlined⟩ := inlined_elementOptions hs h
  obtain ⟨number', hnumber', hinlined'⟩ := inlined_elementOptions hs' h'
  obtain rfl : number' = number := Option.some.inj ((hnumber'.symm.trans hkey).trans hnumber)
  rw [hinlined, hinlined']
  refine agrees_refl _ (isPlain_object.2 (List.forall_mem_append.2 ⟨isPlain_elementOptions _ _ _, ?_⟩))
  unfold listenersOption
  split
  · simp
  · simp only [List.mem_singleton, forall_eq, isPlain_object, List.forall_mem_map]
    exact fun l _ => isPlain_call rfl (by simpa using isPlain_exprValue locals l.handler)

/-- The slots of a component agree exactly if the fragments in its children show their quotes. -/
theorem agrees_slots (hs : table.Sound) (hs' : table'.Sound) {children : List Node}
    {slots slots' : List (String × List Value)} {render render' : (Node → Bool) → List Value → Prop}
    (h : SlotsRender children render slots) (h' : SlotsRender children render' slots')
    (hnodes : ∀ keep values values', render keep values → render' keep values' →
      (AllAgree (values.map (Value.inlined table)) (values'.map (Value.inlined table')) ↔
        ∀ n ∈ children, keep n = true → first.FragmentsShow (n.shown first.isFragment))) :
    ((slottedOf children slots).inlined table).Agrees ((slottedOf children slots').inlined table') ↔
      first.FragmentsShow (shownNodes first.isFragment children) := by
  rw [inlined_slottedOf hs, inlined_slottedOf hs']
  rw [agrees_slottedOf (p := fun name => ∀ n ∈ children, (n.slotTarget == name) = true →
    first.FragmentsShow (n.shown first.isFragment))]
  · rw [Sources.fragmentsShow_shownNodes]
    exact ⟨fun hall n hn => hall n hn n hn (by simp), fun hall n _ m hm _ => hall m hm⟩
  · rw [List.map_map]
    exact h.1
  · rw [List.map_map]
    exact h'.1
  · intro slot hslot slot' hslot' heq
    obtain ⟨s, hs, rfl⟩ := List.mem_map.1 hslot
    obtain ⟨s', hs', rfl⟩ := List.mem_map.1 hslot'
    have hrender' := h'.2 s' hs'
    rw [← show s.1 = s'.1 from heq] at hrender'
    exact hnodes _ _ _ (h.2 s hs) hrender'

mutual

/-- The values that a node is rendered as in two bodies agree exactly if the fragments in the first one show their
quotes. -/
theorem agrees_node (hs : table.Sound) (hs' : table'.Sound) (htwins : first.Twins second) (locals : List String) :
    ∀ (n : Node) (v w : Value), NodeRenders first table locals n v → NodeRenders second table' locals n w →
      first.FragmentsSound mode n.all →
      ((v.inlined table).Agrees (w.inlined table') ↔ first.FragmentsShow (n.shown first.isFragment))
  | .element id p role data children, v, w, h, h', hsound => by
    have hrenders := h'
    rw [NodeRenders] at h h'
    refine agrees_of_rendersAs hs hs' htwins h h' hrenders rfl hsound rfl ?_
    rintro facts facts' hkey hhints ⟨options, hoptions, hrole⟩ ⟨options', hoptions', hrole'⟩ hbelow
    have hagree := agrees_elementOptions hs hs' hkey hoptions hoptions'
    have hnodes := fun keep values values' hvalues hvalues' =>
      agrees_nodes hs hs' htwins locals keep children values values' hvalues hvalues' hbelow
    cases role with
    | native =>
      obtain ⟨values, hvalues, rfl⟩ := hrole
      obtain ⟨values', hvalues', rfl⟩ := hrole'
      rw [inlined_call hs, inlined_call hs', agrees_call (by decide)]
      simp only [List.map_cons, List.map_nil, Value.inlined, inlined_arrayOf hs, inlined_arrayOf hs', allAgree_cons,
        agrees_string, hagree, agrees_arrayOf, hhints, agrees_number, allAgree_nil, true_and, and_true]
      rw [hnodes _ _ _ hvalues hvalues', Sources.fragmentsShow_shownNodes]
      simp
    | component =>
      obtain ⟨name, slots, hname, hslots, rfl⟩ := hrole
      obtain ⟨name', slots', hname', hslots', rfl⟩ := hrole'
      rw [← htwins.imports] at hname'
      obtain rfl := Option.some.inj (hname.symm.trans hname')
      rw [inlined_call hs, inlined_call hs', agrees_call (by decide)]
      simp only [List.map_cons, List.map_nil, inlined_constant hs htwins hname, inlined_constant hs' htwins hname,
        allAgree_cons, agrees_constant, hagree, agrees_slots hs hs' hslots hslots' hnodes, allAgree_nil, true_and,
        and_true]
      simp only [Value.inlined, agrees_string, hhints, agrees_number, true_and, and_true]
    | dynamic constructor =>
      obtain ⟨slots, hslots, rfl⟩ := hrole
      obtain ⟨slots', hslots', rfl⟩ := hrole'
      rw [inlined_call hs, inlined_call hs', agrees_call (by decide)]
      simp only [List.map_cons, List.map_nil, allAgree_cons, hagree, agrees_slots hs hs' hslots hslots' hnodes,
        allAgree_nil, true_and, and_true]
      simp only [exprValue, Value.inlined, agrees_string, agrees_raw, hhints, agrees_number, true_and, and_true]
  | .slot id p name attributes children, v, w, h, h', hsound => by
    have hrenders := h'
    rw [NodeRenders] at h h'
    refine agrees_of_rendersAs hs hs' htwins h h' hrenders rfl hsound rfl ?_
    rintro facts facts' hkey hhints ⟨number, options, values, hnumber, hoptions, hvalues, rfl⟩
      ⟨number', options', values', hnumber', hoptions', hvalues', rfl⟩ hbelow
    obtain rfl : number' = number := Option.some.inj ((hnumber'.symm.trans hkey).trans hnumber)
    have hagree : (options.inlined table).Agrees (options'.inlined table') := by
      rw [inlined_slotOptions hs hoptions, inlined_slotOptions hs' hoptions']
      refine agrees_refl _ (isPlain_object.2 (List.forall_mem_append.2 ⟨isPlain_attributesOption _ _ _ _, ?_⟩))
      simpa using isPlain_leaf rfl rfl
    have hnodes := agrees_nodes hs hs' htwins locals _ children values values' hvalues hvalues' hbelow
    rw [inlined_call hs, inlined_call hs', agrees_call (by decide)]
    simp only [List.map_cons, List.map_nil, Value.inlined, inlined_arrayOf hs, inlined_arrayOf hs', allAgree_cons,
      agrees_string, agrees_raw, hagree, agrees_arrayOf, hhints, agrees_number, allAgree_nil, true_and, and_true]
    rw [hnodes, Sources.fragmentsShow_shownNodes]
    simp
  | .text id p parts, v, w, h, h', hsound => by
    have hrenders := h'
    rw [NodeRenders] at h h'
    have hshown : (Node.text id p parts).shown first.isFragment = .text id p parts ::
      if first.isFragment (.text id p parts) then [] else [] := by
      rw [ite_self, Node.shown]
    refine agrees_of_rendersAs hs hs' htwins h h' hrenders rfl hsound hshown ?_
    rintro facts facts' - - rfl rfl -
    rw [inlined_call hs, inlined_call hs', agrees_call (by decide), List.map_singleton, List.map_singleton,
      inlined_joined hs, inlined_joined hs', allAgree_cons]
    have hplain : ∀ v ∈ parts.map (pieceValue locals), v.IsPlain := by
      simpa using fun part _ => isPlain_pieceValue locals part
    simp [agrees_refl _ (isPlain_joined hplain), allAgree_nil, Sources.FragmentsShow]
  | .comment id p content, v, w, h, h', hsound => by
    have hrenders := h'
    rw [NodeRenders] at h h'
    have hshown : (Node.comment id p content).shown first.isFragment = .comment id p content ::
      if first.isFragment (.comment id p content) then [] else [] := by
      rw [ite_self, Node.shown]
    refine agrees_of_rendersAs hs hs' htwins h h' hrenders rfl hsound hshown ?_
    rintro facts facts' - - rfl rfl -
    rw [inlined_call hs, inlined_call hs', agrees_call (by decide)]
    simp [Value.inlined, allAgree_cons, agrees_string, allAgree_nil, Sources.FragmentsShow]
  | .conditional id p chain, v, w, h, h', hsound => by
    have hrenders := h'
    rw [NodeRenders] at h h'
    refine agrees_of_rendersAs hs hs' htwins h h' hrenders rfl hsound rfl ?_
    rintro facts facts' - - hchain hchain' hbelow
    exact agrees_chain hs hs' htwins locals chain v w hchain hchain' hbelow
  | .iteration id p loop children, v, w, h, h', hsound => by
    have hrenders := h'
    rw [NodeRenders] at h h'
    refine agrees_of_rendersAs hs hs' htwins h h' hrenders rfl hsound rfl ?_
    rintro facts facts' - - ⟨values, hvalues, rfl⟩ ⟨values', hvalues', rfl⟩ hbelow
    have hnodes := agrees_nodes hs hs' htwins (locals ++ loop.names) _ children values values' hvalues hvalues' hbelow
    rw [inlined_call hs, inlined_call hs', agrees_call (by decide)]
    simp only [List.map_cons, List.map_nil, exprValue, Value.inlined, inlined_arrayOf hs, inlined_arrayOf hs',
      allAgree_cons, agrees_raw, agrees_function, agrees_arrayOf, allAgree_nil, true_and, and_true]
    rw [hnodes, Sources.fragmentsShow_shownNodes]
    simp

theorem agrees_chain (hs : table.Sound) (hs' : table'.Sound) (htwins : first.Twins second) (locals : List String) :
    ∀ (c : Chain) (v w : Value), ChainRenders first table locals c v → ChainRenders second table' locals c w →
      first.FragmentsSound mode c.all →
      ((v.inlined table).Agrees (w.inlined table') ↔ first.FragmentsShow (c.shown first.isFragment))
  | .done, v, w, h, h', hsound => by
    rw [ChainRenders] at h h'
    rw [h, h', Value.inlined, Value.inlined, agrees_array]
    simp [Value.inlinedOf, allAgree_nil, Chain.shown, Sources.FragmentsShow]
  | .otherwise children, v, w, h, h', hsound => by
    rw [ChainRenders] at h h'
    obtain ⟨values, hvalues, rfl⟩ := h
    obtain ⟨values', hvalues', rfl⟩ := h'
    rw [inlined_arrayOf hs, inlined_arrayOf hs', agrees_arrayOf,
      agrees_nodes hs hs' htwins locals _ children values values' hvalues hvalues' hsound, Chain.shown,
      Sources.fragmentsShow_shownNodes]
    simp
  | .branch test negate children next, v, w, h, h', hsound => by
    rw [ChainRenders] at h h'
    obtain ⟨values, alternate, hvalues, hnext, rfl⟩ := h
    obtain ⟨values', alternate', hvalues', hnext', rfl⟩ := h'
    obtain ⟨hchildren, hrest⟩ := hsound.append
    rw [Value.inlined, Value.inlined, inlined_arrayOf hs, inlined_arrayOf hs']
    simp only [Value.inlined]
    rw [agrees_conditional (isPlain_leaf rfl rfl), agrees_arrayOf,
      agrees_nodes hs hs' htwins locals _ children values values' hvalues hvalues' hchildren,
      agrees_chain hs hs' htwins locals next alternate alternate' hnext hnext' hrest, Chain.shown,
      Sources.fragmentsShow_append, Sources.fragmentsShow_shownNodes]
    simp

theorem agrees_nodes (hs : table.Sound) (hs' : table'.Sound) (htwins : first.Twins second) (locals : List String)
    (keep : Node → Bool) :
    ∀ (nodes : List Node) (values values' : List Value), NodesRender first table locals keep nodes values →
      NodesRender second table' locals keep nodes values' → first.FragmentsSound mode (allNodes nodes) →
      (AllAgree (values.map (Value.inlined table)) (values'.map (Value.inlined table')) ↔
        ∀ n ∈ nodes, keep n = true → first.FragmentsShow (n.shown first.isFragment))
  | [], values, values', h, h', hsound => by
    rw [NodesRender] at h h'
    rw [h, h']
    simp [allAgree_nil]
  | n :: ns, values, values', h, h', hsound => by
    obtain ⟨hn, hns⟩ := hsound.append
    rw [NodesRender] at h h'
    by_cases hkeep : keep n = true
    · rw [if_pos hkeep] at h h'
      obtain ⟨v, rest, hv, hrest, rfl⟩ := h
      obtain ⟨v', rest', hv', hrest', rfl⟩ := h'
      rw [List.map_cons, List.map_cons, allAgree_cons, agrees_node hs hs' htwins locals n v v' hv hv' hn,
        agrees_nodes hs hs' htwins locals keep ns rest rest' hrest hrest' hns, List.forall_mem_cons]
      simp [hkeep]
    · rw [if_neg hkeep] at h h'
      rw [agrees_nodes hs hs' htwins locals keep ns values values' h h' hns, List.forall_mem_cons]
      simp [hkeep]

end

end Twins

end TemplateCompiler.Render

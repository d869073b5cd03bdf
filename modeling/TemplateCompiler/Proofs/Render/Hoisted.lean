import TemplateCompiler.Proofs.Render.HoistCalls
import TemplateCompiler.Proofs.Render.References
/-!
# Options and their declared literals

Options that are a literal are declared as a whole, and of other options the bags that are literals are. A declaration is
looked up by its text, and the text of a literal says all of it, so two literals are never confused: `StandsFor` says what
options are once their names are replaced, and `compile_sharesLiterals` shows it wherever a node is created.
-/

namespace TemplateCompiler

open Template Render

namespace Render

/-! ## Names replaced -/

namespace Value

mutual

/-- A value with what names stand for in their places. -/
def replaced (stands : String → Option Value) : Value → Value
  | .constant name => (stands name).getD (.constant name)
  | .memo name value => .memo name (value.replaced stands)
  | .call callee arguments => .call callee (replacedIn stands arguments)
  | .array items => .array (replacedIn stands items)
  | .object entries => .object (replacedUnder stands entries)
  | .function parameters body => .function parameters (body.replaced stands)
  | .arrow body => .arrow (body.replaced stands)
  | .conditional test consequent alternate =>
    .conditional (test.replaced stands) (consequent.replaced stands) (alternate.replaced stands)
  | .concat parts => .concat (replacedIn stands parts)
  | .string text => .string text
  | .number n => .number n
  | .bool value => .bool value
  | .undefined => .undefined
  | .raw source => .raw source

/-- The values of a list with what names stand for in their places. -/
def replacedIn (stands : String → Option Value) : List Value → List Value
  | [] => []
  | v :: vs => v.replaced stands :: replacedIn stands vs

/-- The entries of an object with what names stand for in their places. -/
def replacedUnder (stands : String → Option Value) : List (String × Value) → List (String × Value)
  | [] => []
  | (key, v) :: rest => (key, v.replaced stands) :: replacedUnder stands rest

end

theorem replacedUnder_eq_map (stands : String → Option Value) (entries : List (String × Value)) :
    replacedUnder stands entries = entries.map fun entry => (entry.1, entry.2.replaced stands) := by
  induction entries with
  | nil => rfl
  | cons entry rest ih => rw [replacedUnder, ih, List.map_cons]

section Nameless

variable (stands : String → Option Value)

mutual

/-- A value without names stays as it is. -/
theorem replaced_of_nameless : ∀ v : Value, (∀ name, .constant name ∉ v.all) → v.replaced stands = v
  | .array items => fun h => by
    rw [replaced, replacedIn_of_nameless items fun name hm => h name (List.mem_cons_of_mem _ hm)]
  | .object entries => fun h => by
    rw [replaced, replacedUnder_of_nameless entries fun name hm => h name (List.mem_cons_of_mem _ hm)]
  | .call _ arguments => fun h => by
    rw [replaced, replacedIn_of_nameless arguments fun name hm => h name (List.mem_cons_of_mem _ hm)]
  | .function _ body => fun h => by
    rw [replaced, replaced_of_nameless body fun name hm => h name (List.mem_cons_of_mem _ hm)]
  | .arrow body => fun h => by
    rw [replaced, replaced_of_nameless body fun name hm => h name (List.mem_cons_of_mem _ hm)]
  | .conditional test consequent alternate => fun h => by
    simp only [all, List.mem_cons, List.mem_append, not_or] at h
    rw [replaced, replaced_of_nameless test fun name => (h name).2.1.1,
      replaced_of_nameless consequent fun name => (h name).2.1.2,
      replaced_of_nameless alternate fun name => (h name).2.2]
  | .concat parts => fun h => by
    rw [replaced, replacedIn_of_nameless parts fun name hm => h name (List.mem_cons_of_mem _ hm)]
  | .memo _ value => fun h => by
    rw [replaced, replaced_of_nameless value fun name hm => h name (List.mem_cons_of_mem _ hm)]
  | .constant name => fun h => absurd (self_mem_all (.constant name)) (h name)
  | .string _ => fun _ => rfl
  | .number _ => fun _ => rfl
  | .bool _ => fun _ => rfl
  | .undefined => fun _ => rfl
  | .raw _ => fun _ => rfl

theorem replacedIn_of_nameless : ∀ vs : List Value, (∀ name, .constant name ∉ allOf vs) → replacedIn stands vs = vs
  | [] => fun _ => rfl
  | v :: vs => fun h => by
    rw [replacedIn, replaced_of_nameless v fun name hm => h name (List.mem_append_left _ hm),
      replacedIn_of_nameless vs fun name hm => h name (List.mem_append_right _ hm)]

theorem replacedUnder_of_nameless : ∀ entries : List (String × Value), (∀ name, .constant name ∉ allUnder entries) →
    replacedUnder stands entries = entries
  | [] => fun _ => rfl
  | (_, v) :: rest => fun h => by
    rw [replacedUnder, replaced_of_nameless v fun name hm => h name (List.mem_append_left _ hm),
      replacedUnder_of_nameless rest fun name hm => h name (List.mem_append_right _ hm)]

end

end Nameless

theorem constant_not_mem_all {v : Value} (h : v.trace.names = []) (name : String) : .constant name ∉ v.all := by
  intro hm
  have hname : name ∈ v.trace.names := List.mem_filterMap.2 ⟨_, hm, rfl⟩
  rw [h] at hname
  cases hname

theorem textOfEntries_map {written : String × Value → Value} (entries : List (String × Value))
    (h : ∀ entry ∈ entries, (written entry).text = entry.2.text) :
    textOfEntries (entries.map fun entry => (entry.1, written entry)) = textOfEntries entries := by
  induction entries with
  | nil => rfl
  | cons entry rest ih =>
    obtain ⟨hentry, hrest⟩ := List.forall_mem_cons.1 h
    have hafter := ih hrest
    -- Whether a comma follows the entry depends on there being more of them.
    cases rest with
    | nil => simp [textOfEntries, hentry]
    | cons next rest =>
      rw [List.map_cons] at hafter
      simp only [List.map_cons, textOfEntries, hentry, hafter]

/-- An object is written the same with other values that are written the same. -/
theorem text_object_map {written : String × Value → Value} (entries : List (String × Value))
    (h : ∀ entry ∈ entries, (written entry).text = entry.2.text) :
    (Value.object (entries.map fun entry => (entry.1, written entry))).text = (Value.object entries).text := by
  cases entries with
  | nil => rfl
  | cons entry rest =>
    have hentries := textOfEntries_map (entry :: rest) h
    rw [List.map_cons] at hentries ⊢
    rw [text, text, hentries]

end Value

/-! ## Options with their names replaced -/

section Options

variable {table : HoistTable} {entries : List (String × Value)} {v : Value}

/-- The literals of options that are declared: the options as a whole if they are one, or else those bags that are. -/
def declaredLiterals (entries : List (String × Value)) : List Value :=
  if (Value.object entries).isLiteral then [.object entries] else (entries.filter isSeparate).map Prod.snd

/-- Where names stand for literals in a written form, options with their names replaced hold that form of the literals
that are declared, and everything else as it is. -/
theorem replaced_options (stands : String → Option Value) (written : Value → Value)
    (hstands : ∀ literal name, literal.isLiteral = true → table.Declares .object literal.text name →
      stands name = some (written literal))
    (hnames : ∀ entry ∈ entries, entry.2.trace.names = []) (h : OptionsRender table entries v) :
    v.replaced stands = if (Value.object entries).isLiteral then written (.object entries)
      else .object (entries.map fun entry => (entry.1, if isSeparate entry then written entry.2 else entry.2)) := by
  have hnamed {literal v : Value} (hliteral : literal.isLiteral = true) (h : NamesLiteral table literal v) :
      v.replaced stands = written literal := by
    obtain ⟨name, hdeclares, rfl⟩ := h
    rw [Value.replaced, hstands literal name hliteral hdeclares, Option.getD_some]
  unfold OptionsRender at h
  split_ifs at h ⊢ with hliteral
  · exact hnamed hliteral h
  · obtain ⟨entries', hrender, rfl⟩ := h
    rw [Value.replaced, Value.replacedUnder_eq_map]
    refine congrArg Value.object ?_
    -- Entry by entry: one that is declared by itself is its name, and one that is not has no names in it.
    clear hliteral
    induction hrender with
    | nil => rfl
    | @cons entry entry' rest rest' hentry _ ih =>
      obtain ⟨hfirst, hrest⟩ := List.forall_mem_cons.1 hnames
      obtain ⟨hkey, hvalue⟩ := hentry
      rw [List.map_cons, List.map_cons, ih hrest, hkey]
      split_ifs at hvalue ⊢ with hseparate
      · rw [hnamed (isLiteral_of_isSeparate hseparate) hvalue]
      · rw [hvalue, Value.replaced_of_nameless stands _ (Value.constant_not_mem_all hfirst)]

/-- The names in options are those of the literals of them that are declared, one by one. -/
theorem declares_options (hnames : ∀ entry ∈ entries, entry.2.trace.names = []) (h : OptionsRender table entries v) :
    List.Forall₂ (fun literal name => literal.isLiteral = true ∧ table.Declares .object literal.text name)
      (declaredLiterals entries) v.trace.names := by
  unfold OptionsRender at h
  unfold declaredLiterals
  split_ifs at h ⊢ with hliteral
  · obtain ⟨name, hdeclares, rfl⟩ := h
    exact .cons ⟨hliteral, hdeclares⟩ .nil
  · obtain ⟨entries', hrender, rfl⟩ := h
    rw [Value.trace_object]
    clear hliteral
    induction hrender with
    | nil => exact .nil
    | @cons entry entry' rest rest' hentry _ ih =>
      obtain ⟨hfirst, hrest⟩ := List.forall_mem_cons.1 hnames
      obtain ⟨-, hvalue⟩ := hentry
      rw [Value.traceUnder_cons, Trace.append_def]
      by_cases hseparate : isSeparate entry = true
      · rw [if_pos hseparate] at hvalue
        obtain ⟨name, hdeclares, hname⟩ := hvalue
        rw [List.filter_cons_of_pos hseparate, List.map_cons, hname]
        exact .cons ⟨isLiteral_of_isSeparate hseparate, hdeclares⟩ (ih hrest)
      · rw [if_neg hseparate] at hvalue
        rw [List.filter_cons_of_neg hseparate, hvalue, hfirst]
        exact ih hrest

/-- The options stand for an object, by the names of literals in it. -/
structure HoistTable.StandsFor (table : HoistTable) (options : Value) (entries : List (String × Value)) : Prop where
  /-- With the declared text of every name in its place, the options are written as the object. -/
  text : (options.replaced fun name => (table.declared? .object name).map .raw).text = (Value.object entries).text
  /-- With the literal that is declared under every name in its place, the options are the object. -/
  value : options.replaced table.constant? = .object entries
  /-- Each literal that is to be declared is, and its name stands in the options. -/
  declared : List.Forall₂ (fun literal name => literal.isLiteral = true ∧ table.Declares .object literal.text name)
    (declaredLiterals entries) options.trace.names
  numbered : ∀ name ∈ options.trace.names, ∃ n : Nat, name = "stc" ++ toString n

theorem HoistTable.Sound.standsFor (hs : table.Sound) (hnames : ∀ entry ∈ entries, entry.2.trace.names = [])
    (h : OptionsRender table entries v) : table.StandsFor v entries := by
  have hdeclared := declares_options hnames h
  refine ⟨?text, ?value, hdeclared, ?numbered⟩
  case text =>
    have hstands : ∀ (literal : Value) (name : String), literal.isLiteral = true →
        table.Declares .object literal.text name →
        (table.declared? .object name).map Value.raw = some (.raw literal.text) := by
      intro literal name _ hdeclares
      rw [hs.declared? hdeclares, Option.map_some]
    rw [replaced_options _ (fun literal => .raw literal.text) hstands hnames h]
    split
    · rfl
    · apply Value.text_object_map
      intro entry _
      split <;> rfl
  case value =>
    rw [replaced_options _ id (fun _ _ hliteral => hs.constant? hliteral) hnames h]
    simp
  case numbered =>
    intro name hname
    obtain ⟨literal, -, -, hdeclares⟩ := forall₂_mem_right hdeclared hname
    obtain ⟨n, -, hn⟩ := hs.numbered _ hdeclares
    exact ⟨n, hn⟩

/-- Literals share a name exactly if they are the same. -/
theorem HoistTable.StandsFor.shared (hs : table.Sound) {options options' : Value} {entries' : List (String × Value)}
    (h : table.StandsFor options entries) (h' : table.StandsFor options' entries') :
    ∀ p ∈ (declaredLiterals entries).zip options.trace.names,
      ∀ q ∈ (declaredLiterals entries').zip options'.trace.names, p.2 = q.2 ↔ p.1 = q.1 := by
  intro p hp q hq
  obtain ⟨hliteral, hdeclares⟩ := (List.forall₂_iff_zip.1 h.declared).2 hp
  obtain ⟨hliteral', hdeclares'⟩ := (List.forall₂_iff_zip.1 h'.declared).2 hq
  rw [hs.eq_iff hdeclares hdeclares', Prod.mk.injEq, and_iff_right rfl]
  constructor
  · exact text_injective hliteral hliteral'
  · exact congrArg Value.text

end Options

/-! ## Nodes -/

/-- The options of a node before anything in them is declared. The names that its listeners are kept under are left
open. -/
def Sources.HasOptions (sources : Sources) (locals : List String) (number : Nat) : Node → List (String × Value) → Prop
  | .element id _ _ data _, entries => ∃ listeners,
    ListenersRender locals (sources.table.iteration? id).isNone data.listeners listeners ∧
      entries = elementOptions locals data number ++ listeners
  | .slot _ _ _ attributes _, entries => entries = slotEntries locals attributes number
  | _, _ => False

section Nodes

variable {sources : Sources} {table : HoistTable} {locals : List String} {n : Node} {v : Value}

/-- No option names a declaration before anything is declared. -/
theorem names_hasOptions {number : Nat} {entries : List (String × Value)} (h : sources.HasOptions locals number n entries) :
    ∀ entry ∈ entries, entry.2.trace.names = [] := by
  rw [← names_traceUnder_iff]
  cases n with
  | element id p role data children =>
    obtain ⟨listeners, hlisteners, rfl⟩ := h
    simp [Value.traceUnder_append, Trace.append_def, names_elementOptions, names_listeners hlisteners]
  | slot id p name attributes children =>
    rw [show entries = slotEntries locals attributes number from h]
    simp [slotEntries, Value.traceUnder_append, Trace.append_def, names_attributesOption]
  | _ => cases h

/-- An element or a slot that is no fragment is created with its options. -/
theorem exists_hasOptions (hfree : sources.isFragment n = false) (hkeyed : n.isKeyed = true)
    (h : NodeRenders sources table locals n v) :
    ∃ options number entries, v.options? = some options ∧ sources.analysis.key? n = some number ∧
      sources.HasOptions locals number n entries ∧ OptionsRender table entries options := by
  cases n with
  | element id p role data children =>
    obtain ⟨facts, options, hget, hcreated, number, listeners, hnumber, hlisteners, hoptions⟩ :=
      exists_elementOptions hfree h
    have hkey : sources.analysis.key? (.element id p role data children) = some number := by
      rw [Analysis.key?, Node.id, hget, Option.bind_some, hnumber]
    exact ⟨options, number, _, hcreated, hkey, ⟨listeners, hlisteners, rfl⟩, hoptions⟩
  | slot id p name attributes children =>
    rw [NodeRenders] at h
    obtain ⟨facts, hget, number, options, values, hnumber, hoptions, -, rfl⟩ := h.inner hfree
    refine ⟨options, number, _, ?_, by rw [Analysis.key?, hget, Option.bind_some, hnumber], rfl, hoptions⟩
    simp [Value.options?, Helper.named?_localName]
  | _ => cases hkeyed

end Nodes

end Render

/-! ## Modules -/

/-- The module declares the literals in the options of the template. -/
structure Template.SharesLiterals (t : Template) (m : RenderModule) : Prop where
  /-- Each element and each slot is created with options that stand for its own, fragments and what is in them aside. -/
  options : ∀ s ∈ sitesOf [] t.mark.nodes, s.node.isKeyed = true →
    ¬ InFragment t.sources.isFragment (allNodes t.mark.nodes) s.node →
    ∃ w ∈ m.body.all, NodeRenders t.sources m.hoists s.locals s.node w ∧
      ∃ options number entries, w.options? = some options ∧ t.analysis.key? s.node = some number ∧
        t.sources.HasOptions s.locals number s.node entries ∧ m.hoists.StandsFor options entries
  /-- Literals, in the options of whatever nodes, share a name exactly if they are the same. -/
  shared : ∀ options entries options' entries', m.hoists.StandsFor options entries →
    m.hoists.StandsFor options' entries' →
    ∀ p ∈ (declaredLiterals entries).zip options.trace.names,
      ∀ q ∈ (declaredLiterals entries').zip options'.trace.names, p.2 = q.2 ↔ p.1 = q.1
  /-- No name is declared twice. -/
  nodup : m.hoists.names.Nodup

theorem CompilesTo.sharesLiterals {config : Config} {source : String} {t : Template} {m : RenderModule}
    (h : CompilesTo config source t m) : t.SharesLiterals m := by
  have hsound := h.fits.noted.sound
  refine ⟨?options, ?shared, hsound.names_nodup⟩
  case options =>
    intro s hs hkeyed hfree
    obtain ⟨hfragment, w, hw, hrender⟩ := h.renderedIn_site hs hfree
    obtain ⟨options, number, entries, hoptions, hnumber, hentries, hrenders⟩ :=
      exists_hasOptions hfragment hkeyed hrender
    have hstands := hsound.standsFor (names_hasOptions hentries) hrenders
    exact ⟨w, hw, hrender, options, number, entries, hoptions, hnumber, hentries, hstands⟩
  case shared =>
    intro options entries options' entries' hstands hstands'
    exact hstands.shared hsound hstands'

/-- Literals that are written the same are the same. So wherever compiling gives code, literals in options share a
declaration exactly if they are the same, and with the declarations in the places of their names all options are as they
were. -/
theorem compile_sharesLiterals :
    (∀ v w : Value, v.isLiteral = true → w.isLiteral = true → v.text = w.text → v = w) ∧
    ∀ (config : Config) (source code : String) (output : Output), compile config source = .ok output →
      output.code = some code → ∃ t m, CompilesTo config source t m ∧ code = m.text ∧ t.SharesLiterals m := by
  constructor
  · intro v w hv hw h
    exact text_injective hv hw h
  · intro config source code output h hcode
    obtain ⟨t, m, hm, rfl⟩ := compile_code_iff.1 ⟨output, h, hcode⟩
    exact ⟨t, m, hm, rfl, hm.sharesLiterals⟩

/-- Two elements share the declaration of their attributes, and a slot has a declaration of all its options. -/
theorem compile_sharesLiterals_bags :
    ∃ (output : Output) (t : Template) (m : RenderModule),
      compile {} "<template><p title=\"a\" onclick={g}>{x}</p><b title=\"a\" onclick={f}>{x}</b><slot></slot></template>" =
        .ok output ∧ output.code = some m.text ∧ t.SharesLiterals m ∧
      m.hoists.entries = [⟨.object, "\x7b title: \"a\" \x7d", "stc0"⟩, ⟨.object, "{ key: 2 }", "stc1"⟩] := by
  have hentries : (compiled? {}
      "<template><p title=\"a\" onclick={g}>{x}</p><b title=\"a\" onclick={f}>{x}</b><slot></slot></template>").map
      (fun result => result.2.hoists.entries) =
      some [⟨.object, "\x7b title: \"a\" \x7d", "stc0"⟩, ⟨.object, "{ key: 2 }", "stc1"⟩] := by
    decide +kernel
  obtain ⟨t, m, hm, hentries⟩ := exists_compilesTo hentries
  obtain ⟨output, houtput, hcode⟩ := hm.code
  obtain ⟨t', m', hm', -, hshares⟩ := compile_sharesLiterals.2 _ _ _ _ houtput hcode
  obtain rfl := Except.ok.inj (hm.parsed.symm.trans hm'.parsed)
  obtain rfl := Except.ok.inj (hm.rendered.symm.trans hm'.rendered)
  exact ⟨output, t, m, houtput, hcode, hshares, hentries⟩

end TemplateCompiler

import TemplateCompiler.Compile
import TemplateCompiler.Proofs.Render.Emitting
import TemplateCompiler.Proofs.Render.Naming
import TemplateCompiler.Proofs.Template.Facts
/-!
# Every template without errors has a module

The generation of a render function can fail in several ways, and none of them happens: whatever document a template is
built from, its analysis, its imports and its fragments are complete (`Sources.Knows`), and a generation that looks up
complete sources succeeds.
-/

namespace TemplateCompiler.Render

open TemplateCompiler.Template TemplateCompiler.Binding
open Emitting

/-- What the generation of a body needs to know of a node. -/
structure Sources.Knows (sources : Sources) (n : Node) : Prop where
  analyzed : (sources.analysis.get? n.id).isSome = true
  keyed : ∀ facts, sources.analysis.get? n.id = some facts → n.isKeyed = true ∨ facts.isFragment = true →
    facts.key.isSome = true
  imported : ∀ tag, n.importedTag? = some tag → (sources.imports.local? tag).isSome = true
  written : ∀ facts, sources.analysis.get? n.id = some facts → facts.isFragment = true →
    ∃ html, markup n = .ok html

/-! ## Options -/

theorem gives_attributeValue (locals : List String) (asProperty : Bool) (a : Attribute) :
    Gives (attributeValue locals asProperty a) fun v => v.callsFit = true := by
  have hplain : (plainValue locals asProperty a.value).callsFit = true := by
    cases a.value with
    | literal text => rfl
    | boolean value => simp only [plainValue]; split <;> rfl
    | expression expr => rfl
  unfold attributeValue
  split
  · exact gives_call _ _ rfl (by simpa using hplain)
  · exact gives_call _ _ rfl (by simpa using hplain)
  · exact .pure hplain

theorem gives_attributesEntry (locals : List String) (name : String) (asProperty : Bool)
    (attributes : List Attribute) :
    Gives (attributesEntry locals name asProperty attributes) fun entries =>
      ∀ entry ∈ entries, entry.2.callsFit = true := by
  unfold attributesEntry
  split
  · exact .pure (by simp)
  · have hentry : ∀ a ∈ attributes, Gives (attributeEntry locals asProperty a) fun entry =>
        entry.2.callsFit = true := fun a _ =>
      .bind (gives_attributeValue locals asProperty a) fun _ hv => .pure hv
    refine .bind (.mapM hentry) fun entries hentries => .pure ?_
    simpa [Value.callsFit, Value.callsFitUnder_iff] using hentries

theorem gives_classEntry (locals : List String) (classes : Option ClassBinding) :
    Gives (classEntry locals classes) fun entries => ∀ entry ∈ entries, entry.2.callsFit = true := by
  rcases classes with _ | names | expr
  · exact .pure (by simp)
  · exact .pure (by simp [Value.callsFit, Value.callsFitUnder_iff])
  · exact .bind (gives_call _ _ rfl (by simp [exprValue, Value.callsFit])) fun v hv => .pure (by simpa using hv)

theorem styleEntry_callsFit (locals : List String) (style : Option StyleBinding) :
    ∀ entry ∈ styleEntry locals style, entry.2.callsFit = true := by
  rcases style with _ | declarations | expr
  · simp [styleEntry]
  · simp [styleEntry, declarationValue, Value.callsFit, Value.callsFitIn_iff]
  · simp [styleEntry, exprValue, Value.callsFit]

theorem gives_keyValue (locals : List String) {number : Value} (hnumber : number.callsFit = true)
    (key : Option Expr) : Gives (keyValue locals number key) fun v => v.callsFit = true := by
  cases key with
  | none => exact .pure hnumber
  | some expr => exact gives_call _ _ rfl (by simpa [exprValue, Value.callsFit] using hnumber)

theorem gives_listenersEntry (locals : List String) (memoized : Bool) (listeners : List Listener) :
    Gives (listenersEntry locals memoized listeners) fun entries => ∀ entry ∈ entries, entry.2.callsFit = true := by
  unfold listenersEntry
  split
  · exact .pure (by simp)
  · have hentry : ∀ l ∈ listeners, Gives (listenerEntry locals memoized l) fun entry =>
        entry.2.callsFit = true := by
      intro l _
      refine .bind (gives_call _ _ rfl (by simp [exprValue, Value.callsFit])) fun bound hbound => ?_
      split
      · exact .bind (gives_memoize hbound) fun v hv => .pure hv
      · exact .pure hbound
    refine .bind (.mapM hentry) fun entries hentries => .pure ?_
    simpa [Value.callsFit, Value.callsFitUnder_iff] using hentries

theorem gives_hoistEntry {entry : String × Value} (h : entry.2.callsFit = true) :
    Gives (hoistEntry entry) fun entry => entry.2.callsFit = true := by
  unfold hoistEntry
  split
  · exact .bind (gives_hoistLiteral entry.2) fun v hv => .pure hv
  · exact .pure h

theorem gives_hoistOptions {entries : List (String × Value)} (h : ∀ entry ∈ entries, entry.2.callsFit = true) :
    Gives (hoistOptions entries) fun v => v.callsFit = true := by
  unfold hoistOptions
  dsimp only
  split
  · exact gives_hoistLiteral _
  · refine .bind (.mapM fun entry hm => gives_hoistEntry (h entry hm)) fun entries hentries => .pure ?_
    simpa [Value.callsFit, Value.callsFitUnder_iff] using hentries

theorem gives_keyFor {n : Node} {facts : Facts} (hkey : facts.key.isSome = true) :
    Gives (liftM (keyFor n facts)) fun v => v.callsFit = true := by
  obtain ⟨key, hk⟩ := Option.isSome_iff_exists.1 hkey
  have h : keyFor n facts = .ok (.number key) := by simp [keyFor, hk]
  intro e he
  obtain ⟨v, e', hrun, he', rfl⟩ := Gives.lift h e he
  exact ⟨_, e', hrun, he', rfl⟩

theorem gives_options (sources : Sources) (locals : List String) (n : Node) (data : ElementData) {facts : Facts}
    (hkey : facts.key.isSome = true) : Gives (options sources locals n data facts) fun v => v.callsFit = true := by
  unfold options
  refine .bind (gives_attributesEntry locals "attrs" false data.attributes) fun attributes hattributes => ?_
  refine .bind (gives_attributesEntry locals "props" true data.properties) fun properties hproperties => ?_
  refine .bind (gives_classEntry locals data.classes) fun classes hclasses => ?_
  refine .bind (gives_keyFor hkey) fun number hnumber => ?_
  refine .bind (gives_keyValue locals hnumber data.key) fun key hkey => ?_
  refine .bind (gives_listenersEntry locals _ data.listeners) fun listeners hlisteners => ?_
  refine gives_hoistOptions fun entry hm => ?_
  simp only [List.mem_append] at hm
  rcases hm with (((((hm | hm) | hm) | hm) | hm) | hm) | hm
  · exact hattributes entry hm
  · exact hproperties entry hm
  · exact hclasses entry hm
  · exact styleEntry_callsFit locals data.style entry hm
  · split at hm
    · rw [List.mem_singleton.1 hm]
      rfl
    · cases hm
  · rw [List.mem_singleton.1 hm]
    exact hkey
  · exact hlisteners entry hm

theorem gives_slotOptions (locals : List String) (n : Node) (attributes : List Attribute) {facts : Facts}
    (hkey : facts.key.isSome = true) :
    Gives (slotOptions locals n attributes facts) fun v => v.callsFit = true := by
  unfold slotOptions
  refine .bind (gives_attributesEntry locals "attrs" false attributes) fun entries hentries => ?_
  refine .bind (gives_keyFor hkey) fun key hkey => ?_
  refine gives_hoistOptions fun entry hm => ?_
  rcases List.mem_append.1 hm with hm | hm
  · exact hentries entry hm
  · rw [List.mem_singleton.1 hm]
    exact hkey

/-! ## Nodes -/

theorem gives_textValue (locals : List String) (parts : List TextPart) :
    Gives (textValue locals parts) fun v => v.callsFit = true := by
  have hpart : ∀ part ∈ parts, Gives (partValue locals part) fun v => v.callsFit = true := by
    intro part _
    cases part with
    | literal text => exact .pure rfl
    | expression expr => exact gives_call _ _ rfl (by simp [exprValue, Value.callsFit])
  unfold textValue
  refine .bind (gives_use .text) fun _ _ => ?_
  refine .bind (.mapM hpart) fun pieces hpieces => ?_
  split
  · exact gives_call _ _ rfl hpieces
  · refine gives_call _ _ rfl ?_
    simpa [Value.callsFit, Value.callsFitIn_iff] using hpieces

theorem gives_fragmentValue {n : Node} {facts : Facts} (hkey : facts.key.isSome = true)
    (hmarkup : ∃ html, markup n = .ok html) : Gives (fragmentValue n facts) fun v => v.callsFit = true := by
  obtain ⟨html, hhtml⟩ := hmarkup
  unfold fragmentValue
  refine .bind (gives_use .staticFragment) fun _ _ => ?_
  refine .bind (.lift hhtml) fun _ _ => ?_
  refine .bind (gives_hoist .fragment _) fun name hname => ?_
  refine .bind (gives_keyFor hkey) fun key hkey => ?_
  have hcall : (Value.call name []).callsFit = true := by
    simp only [Value.callsFit, Bool.and_eq_true, List.all_eq_true]
    exact ⟨fun helper _ => by simp [hname rfl helper], rfl⟩
  refine gives_call _ _ rfl fun v hv => ?_
  simp only [List.mem_cons, List.not_mem_nil, or_false] at hv
  rcases hv with rfl | rfl | rfl
  · exact hcall
  · exact hkey
  · rfl

theorem gives_renderedValue {sources : Sources} {n : Node} (hn : sources.Knows n) {render : Facts → Emitting Value}
    (hrender : ∀ facts, (n.isKeyed = true → facts.key.isSome = true) →
      Gives (render facts) fun v => v.callsFit = true) :
    Gives (renderedValue sources n render) fun v => v.callsFit = true := by
  obtain ⟨facts, hfacts⟩ := Option.isSome_iff_exists.1 hn.analyzed
  have hfor : factsFor sources n = .ok facts := by simp [factsFor, hfacts]
  unfold renderedValue
  refine .bind (.lift hfor) ?_
  rintro _ rfl
  split
  · rename_i hfragment
    exact gives_fragmentValue (hn.keyed _ hfacts (.inr hfragment)) (hn.written _ hfacts hfragment)
  · exact hrender _ fun hk => hn.keyed _ hfacts (.inl hk)

theorem gives_arrayValue (nodes : List Node) {values : Emitting (List Value)}
    (hvalues : Gives values fun vs => Value.callsFitIn vs = true) :
    Gives (arrayValue nodes values) fun v => v.callsFit = true := by
  unfold arrayValue
  split
  · refine .bind (gives_use .flatten) fun _ _ => ?_
    refine .bind hvalues fun vs hvs => ?_
    exact gives_call _ _ rfl (by simpa [Value.callsFit] using hvs)
  · exact .bind hvalues fun vs hvs => .pure (by simpa [Value.callsFit] using hvs)

theorem gives_slottedValue (children : List Node) {content : String → Emitting Value}
    (hcontent : ∀ name, Gives (content name) fun v => v.callsFit = true) :
    Gives (slottedValue children content) fun v => v.callsFit = true := by
  unfold slottedValue
  split
  · exact .pure rfl
  · have hentry : ∀ name ∈ slotNames children,
        Gives (do return (name, Value.arrow (← content name)) : Emitting (String × Value)) fun entry =>
          entry.2.callsFit = true := fun name _ =>
      .bind (hcontent name) fun v hv => .pure (by simpa [Value.callsFit] using hv)
    refine .bind (.mapM hentry) fun entries hentries => .pure ?_
    simpa [Value.callsFit, Value.callsFitUnder_iff] using hentries

mutual
theorem gives_nodeValue (sources : Sources) (locals : List String) :
    ∀ n : Node, (∀ m ∈ n.all, sources.Knows m) → Gives (nodeValue sources locals n) fun v => v.callsFit = true
  | .element id p role data children => by
    intro h
    have hn := h _ (List.mem_cons_self ..)
    have hchildren := fun keep => gives_nodeValues sources locals keep children
      fun m hm => h m (List.mem_cons_of_mem _ hm)
    have hslotted := gives_slottedValue children fun name =>
      gives_arrayValue (children.filter (·.slotTarget == name)) (hchildren (·.slotTarget == name))
    unfold nodeValue
    refine gives_renderedValue hn fun facts hkey => ?_
    have hoptions := gives_options sources locals (.element id p role data children) data (hkey rfl)
    cases role with
    | native =>
      refine .bind (gives_use .element) fun _ _ => ?_
      refine .bind hoptions fun options hoptions => ?_
      refine .bind (gives_arrayValue children (hchildren _)) fun content hcontent => ?_
      exact gives_call _ _ rfl (by simp [Value.callsFit, hoptions, hcontent])
    | component =>
      obtain ⟨name, hname⟩ := Option.isSome_iff_exists.1 (hn.imported data.tag rfl)
      have hfor : componentFor sources data.tag = .ok (.constant name) := by simp [componentFor, hname]
      refine .bind (gives_use .customElement) fun _ _ => ?_
      refine .bind (.lift hfor) ?_
      rintro _ rfl
      refine .bind hoptions fun options hoptions => ?_
      refine .bind hslotted fun slotted hslotted => ?_
      exact gives_call _ _ rfl (by simp [Value.callsFit, hoptions, hslotted])
    | dynamic constructor =>
      refine .bind (gives_use .dynamicComponent) fun _ _ => ?_
      refine .bind hoptions fun options hoptions => ?_
      refine .bind hslotted fun slotted hslotted => ?_
      exact gives_call _ _ rfl (by simp [Value.callsFit, exprValue, hoptions, hslotted])
  | .slot id p name attributes children => by
    intro h
    have hchildren := gives_nodeValues sources locals (fun _ => true) children
      fun m hm => h m (List.mem_cons_of_mem _ hm)
    unfold nodeValue
    refine gives_renderedValue (h _ (List.mem_cons_self ..)) fun facts hkey => ?_
    refine .bind (gives_use .slot) fun _ _ => ?_
    refine .bind (gives_slotOptions locals _ attributes (hkey rfl)) fun options hoptions => ?_
    refine .bind (gives_arrayValue children hchildren) fun fallback hfallback => ?_
    exact gives_call _ _ rfl (by simp [Value.callsFit, hoptions, hfallback])
  | .text id p parts => by
    intro h
    unfold nodeValue
    exact gives_renderedValue (h _ (List.mem_singleton_self _)) fun _ _ => gives_textValue locals parts
  | .comment id p text => by
    intro h
    unfold nodeValue
    exact gives_renderedValue (h _ (List.mem_singleton_self _)) fun _ _ =>
      gives_call _ _ rfl (by simp [Value.callsFit])
  | .conditional id p chain => by
    intro h
    unfold nodeValue
    exact gives_renderedValue (h _ (List.mem_cons_self ..)) fun _ _ =>
      gives_chainValue sources locals chain fun m hm => h m (List.mem_cons_of_mem _ hm)
  | .iteration id p loop children => by
    intro h
    have hchildren := gives_nodeValues sources (locals ++ loop.names) (fun _ => true) children
      fun m hm => h m (List.mem_cons_of_mem _ hm)
    unfold nodeValue
    refine gives_renderedValue (h _ (List.mem_cons_self ..)) fun _ _ => ?_
    refine .bind (gives_use .iterator) fun _ _ => ?_
    refine .bind (gives_arrayValue children hchildren) fun body hbody => ?_
    exact gives_call _ _ rfl (by simp [Value.callsFit, exprValue, hbody])

theorem gives_chainValue (sources : Sources) (locals : List String) :
    ∀ c : Chain, (∀ m ∈ c.all, sources.Knows m) → Gives (chainValue sources locals c) fun v => v.callsFit = true
  | .done => fun _ => by
    unfold chainValue
    exact .pure rfl
  | .otherwise children => by
    intro h
    unfold chainValue
    exact gives_arrayValue children (gives_nodeValues sources locals _ children h)
  | .branch test negate children next => by
    intro h
    have hchildren := gives_nodeValues sources locals (fun _ => true) children
      fun m hm => h m (List.mem_append_left _ hm)
    have hnext := gives_chainValue sources locals next fun m hm => h m (List.mem_append_right _ hm)
    unfold chainValue
    refine .bind (gives_arrayValue children hchildren) fun consequent hconsequent => ?_
    refine .bind hnext fun alternate halternate => ?_
    exact .pure (by simp [Value.callsFit, hconsequent, halternate])

theorem gives_nodeValues (sources : Sources) (locals : List String) (keep : Node → Bool) :
    ∀ nodes : List Node, (∀ m ∈ allNodes nodes, sources.Knows m) →
      Gives (nodeValues sources locals keep nodes) fun vs => Value.callsFitIn vs = true
  | [] => fun _ => by
    unfold nodeValues
    exact .pure rfl
  | n :: ns => by
    intro h
    have hn := gives_nodeValue sources locals n fun m hm => h m (List.mem_append_left _ hm)
    have hns := gives_nodeValues sources locals keep ns fun m hm => h m (List.mem_append_right _ hm)
    unfold nodeValues
    split
    · refine .bind hn fun v hv => ?_
      exact .bind hns fun vs hvs => .pure (by simp [Value.callsFitIn, hv, hvs])
    · exact hns
end

/-- A generation that looks up complete sources succeeds, and its calls have as many arguments as they need. -/
theorem gives_bodyValue {sources : Sources} {nodes : List Node} (h : ∀ n ∈ allNodes nodes, sources.Knows n) :
    Gives (bodyValue sources nodes) fun v => v.callsFit = true :=
  gives_arrayValue nodes (gives_nodeValues sources [] _ nodes h)

end TemplateCompiler.Render

namespace TemplateCompiler

open Template Render

/-! ## Templates -/

namespace Template

/-- What the generation of the body of a template looks up. -/
def sources (t : Template) : Sources := ⟨t.analysis, t.table, t.imports⟩

theorem knows_of_numbers {t : Template} (hd : (numbersOf t.nodes).Nodup) :
    ∀ n ∈ allNodes t.mark.nodes, t.sources.Knows n := by
  intro n hn
  rw [show allNodes t.mark.nodes = (allNodes t.nodes).map (Node.mark t.config.renderMode) from
    allNodes_markNodes _ _] at hn
  obtain ⟨m, hm, rfl⟩ := List.mem_map.1 hn
  obtain ⟨lift, key, hget⟩ := analyze_get? t.config hd hm
  have hget : t.sources.analysis.get? (m.mark t.config.renderMode).id =
      some (m.facts t.config.renderMode lift key) := by
    rw [mark_id]
    exact hget
  constructor
  case analyzed => rw [hget]; rfl
  case keyed =>
    rintro facts hfacts hkeyed
    obtain rfl := Option.some.inj (hget.symm.trans hfacts)
    have hm : m.isKeyed = true := by
      rcases hkeyed with hk | hf
      · rwa [mark_isKeyed] at hk
      · exact (isStatic_of_canBeFragment (Bool.and_eq_true_iff.1 hf).2).2
    simp [Node.facts, Node.plainFacts, hm]
  case imported =>
    intro tag htag
    rw [mark_importedTag?] at htag
    exact Scoping.ImportTable.isSome_local?_ofList.2 (List.mem_filterMap.2 ⟨m, hm, htag⟩)
  case written =>
    rintro facts hfacts hf
    obtain rfl := Option.some.inj (hget.symm.trans hfacts)
    rw [markup_mark]
    exact markup_ok _ m (isStatic_of_canBeFragment (Bool.and_eq_true_iff.1 hf).2).1

/-- The generation of the module of a template looks up complete sources. -/
theorem sources_know (config : Config) (document : List Markup.Node) :
    ∀ n ∈ allNodes (ofDocument config document).mark.nodes, (ofDocument config document).sources.Knows n :=
  knows_of_numbers (numbersOf_nodup config document)

theorem renderModule_ok (config : Config) (document : List Markup.Node) (source : String) :
    ∃ m, (ofDocument config document).renderModule source = .ok m ∧ m.body.callsFit = true := by
  obtain ⟨body, e, hrun, -, hbody⟩ := gives_bodyValue (sources_know config document) {} (by simp [HoistTable.NamesApart])
  obtain ⟨m, hm, rfl⟩ : ∃ m, (ofDocument config document).renderModule source = .ok m ∧ m.body = body := by
    unfold renderModule toModule
    rw [show (⟨(ofDocument config document).analysis, (ofDocument config document).mark.table,
      (ofDocument config document).imports⟩ : Sources) = (ofDocument config document).sources from rfl, hrun]
    exact ⟨_, rfl, rfl⟩
  exact ⟨m, hm, hbody⟩

theorem compile_ok (config : Config) (document : List Markup.Node) (source : String) :
    ∃ output, (ofDocument config document).compile source = .ok output ∧
      (output.code.isSome = true ↔ output.hasErrors = false) := by
  obtain ⟨m, hm, -⟩ := renderModule_ok config document source
  unfold Template.compile
  split
  · rename_i h
    exact ⟨_, rfl, by simpa [Output.hasErrors, Template.hasErrors] using h⟩
  · rename_i h
    rw [hm]
    exact ⟨_, rfl, by simpa [Output.hasErrors, Template.hasErrors] using h⟩

theorem hasErrors_compile {t : Template} {source : String} {output : Output} (h : t.compile source = .ok output) :
    output.hasErrors = t.hasErrors := by
  unfold Template.compile at h
  split at h
  · cases h
    rfl
  · cases hm : t.renderModule source with
    | error error =>
      rw [hm] at h
      cases h
    | ok m =>
      rw [hm] at h
      cases h
      rfl

end Template

theorem hasErrors_of_parse {config : Config} {source : String} {t : Template} {output : Output}
    (ht : Template.parse config source = .ok t) (h : compile config source = .ok output) :
    output.hasErrors = t.hasErrors := by
  unfold compile at h
  rw [ht] at h
  dsimp only at h
  cases hcompile : t.compile source with
  | error error =>
    rw [hcompile] at h
    cases h
  | ok output' =>
    rw [hcompile] at h
    cases h
    exact Template.hasErrors_compile hcompile

/-- Compiling never fails by itself. Wherever the markup of a source can be read, there is an output, which has a
module exactly if no diagnostic is an error. What a template is built from makes no difference: for every document,
the generation of the module finds what it looks up, and each call of a helper has as many arguments as it takes. -/
theorem compile_returns (config : Config) (source : String)
    (hread : ∀ offset, Markup.parse source.toList ≠ .error (.splitCharacter offset)) :
    (∃ output, compile config source = .ok output ∧
      (output.code.isSome = true ↔ output.hasErrors = false)) ∧
    ∀ document : List Markup.Node,
      (∀ n ∈ allNodes (ofDocument config document).mark.nodes, (ofDocument config document).sources.Knows n) ∧
      ∃ m, (ofDocument config document).renderModule source = .ok m ∧ m.body.callsFit = true := by
  refine ⟨?_, fun document => ⟨sources_know config document, renderModule_ok config document source⟩⟩
  unfold compile Template.parse
  cases hparse : Markup.parse source.toList with
  | ok document =>
    obtain ⟨output, hcompile, hcode⟩ := Template.compile_ok config document source
    refine ⟨output, ?_, hcode⟩
    change ((Template.ofDocument config document).compile source).mapError CompileError.internal = _
    rw [hcompile]
    rfl
  | error e =>
    cases e with
    | malformed error => exact ⟨_, rfl, by simp [Output.hasErrors, Diagnostic.hasErrors, Diagnostic.isError,
        Problem.diagnostic, Problem.code, DiagnosticCode.severity]⟩
    | splitCharacter offset => exact absurd hparse (hread offset)

/-- A component with content, one whose constructor is bound, a slot, a comment, keyed items, a listener, an id and a
link to it, a condition and a fragment: every helper is called. -/
theorem compile_returns_everyHelper :
    let config : Config :=
      { preserveComments := true, scopedStyles := true, componentName := some "c-x", stylesheets := ["./a.css"]
        runtimeModule := "rt" }
    let source := "<template><c-d><p slot='x' id='a'>{t}</p></c-d><x-y lwc:dynamic={make}></x-y>" ++
      "<slot name='s'>none</slot><!--c--><ul onclick={go}><template for:each={items} for:item='item'>" ++
      "<li key={item.id} class={item.class}>{item.name}</li></template></ul><a href='#a' lwc:if={on}></a>" ++
      "<section><b>fixed</b></section></template>"
    (∀ offset, Markup.parse source.toList ≠ .error (.splitCharacter offset)) ∧
    ∃ output t m, compile config source = .ok output ∧ output.code.isSome = true ∧
      Template.parse config source = .ok t ∧ (∀ n ∈ allNodes t.mark.nodes, t.sources.Knows n) ∧
      t.renderModule source = .ok m ∧ m.body.callsFit = true ∧ (∀ helper ∈ Helper.all, helper ∈ m.helpers) ∧
      m.imports.map (·.path) = ["c/d"] ∧ m.memos = 1 ∧
      m.hoists.entries.map (·.content) =
        ["{ key: 0 }", "{ key: 2 }", "{ key: 3 }", "<section><b>fixed</b></section>"] := by
  intro config source
  have hsource : ((Markup.parse source.toList).toOption.bind fun document =>
      ((ofDocument config document).renderModule source).toOption.map fun m =>
        (!(ofDocument config document).hasErrors && Helper.all.all (m.helpers.contains ·), m.imports.map (·.path),
          m.memos, m.hoists.entries.map (·.content))) =
      some (true, ["c/d"], 1, ["{ key: 0 }", "{ key: 2 }", "{ key: 3 }", "<section><b>fixed</b></section>"]) := by
    simp only [source, String.toList_append, String.reduceToList]
    decide +kernel
  cases hparse : Markup.parse source.toList with
  | error error =>
    rw [hparse] at hsource
    cases hsource
  | ok document =>
    have hread (offset : Nat) : Markup.parse source.toList ≠ .error (.splitCharacter offset) := by
      rw [hparse]
      nofun
    obtain ⟨⟨output, houtput, hcode⟩, hdocuments⟩ := compile_returns config source hread
    obtain ⟨hknows, m, hm, hfits⟩ := hdocuments document
    have ht : Template.parse config source = .ok (ofDocument config document) := by
      rw [Template.parse, hparse]
      rfl
    rw [hparse] at hsource
    simp only [Except.toOption, Option.bind_some, hm, Option.map_some, Option.some.injEq, Prod.mk.injEq,
      Bool.and_eq_true, Bool.not_eq_true', List.all_eq_true, List.contains_iff_mem] at hsource
    obtain ⟨⟨hclean, hhelpers⟩, himports, hmemos, hhoists⟩ := hsource
    have hnoErrors : output.hasErrors = false := (hasErrors_of_parse ht houtput).trans hclean
    exact ⟨by rwa [hparse] at hread, output, ofDocument config document, m, houtput, hcode.2 hnoErrors, ht,
      hknows, hm, hfits, hhelpers, himports, hmemos, hhoists⟩

end TemplateCompiler

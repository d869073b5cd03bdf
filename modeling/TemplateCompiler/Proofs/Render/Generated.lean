import TemplateCompiler.Proofs.Render.Rendered
/-!
# What is generated

A generation that succeeds makes values that the nodes may be rendered as, and notes what they mention, in the order in
which it is written.
-/

namespace TemplateCompiler.Render

open TemplateCompiler.Template TemplateCompiler.Binding
open Emitting

variable {imports : List String} {t : Trace} {e : Emission}

/-! ## Options -/

@[simp] theorem trace_exprValue (locals : List String) (expr : Expr) : (exprValue locals expr).trace = {} :=
  rfl

@[simp] theorem trace_plainValue (locals : List String) (asProperty : Bool) (value : AttributeValue) :
    (plainValue locals asProperty value).trace = {} := by
  cases value with
  | literal text => rfl
  | boolean value =>
    simp only [plainValue]
    split <;> rfl
  | expression expr => rfl

theorem ends_attributeValue (h : Noted imports t e) (locals : List String) (asProperty : Bool) (a : Attribute) :
    Ends (attributeValue locals asProperty a) e fun v e' =>
      Made imports t e v.trace (fun _ => v = scopedValue locals asProperty a) e' := by
  unfold attributeValue scopedValue
  cases a.scoping with
  | none =>
    refine .pure ?_
    rw [trace_plainValue]
    exact .nothing h fun _ => rfl
  | some scoping =>
    cases scoping
    · exact ends_call h .scopedId _ rfl (by simp)
    · exact ends_call h .scopedFragmentId _ rfl (by simp)

theorem ends_attributesEntry (h : Noted imports t e) (locals : List String) (name : String) (asProperty : Bool)
    (attributes : List Attribute) :
    Ends (attributesEntry locals name asProperty attributes) e fun entries e' =>
      Made imports t e (Value.traceUnder entries)
        (fun _ => entries = attributesOption locals name asProperty attributes) e' := by
  unfold attributesEntry attributesOption
  split
  · exact .pure (.nothing h fun _ => rfl)
  · have hentry (a : Attribute) : ∀ {t e}, Noted imports t e →
        Ends (attributeEntry locals asProperty a) e fun entry e' =>
          Made imports t e entry.2.trace (fun _ => entry = (a.name, scopedValue locals asProperty a)) e' :=
      fun h => .bind (ends_attributeValue h locals asProperty a) fun v e₁ h₁ =>
        .pure ⟨h₁.noted, h₁.grows, fun table hgrows => by rw [h₁.shape table hgrows]⟩
    refine .bind (ends_mapM attributes (fun a _ => hentry a) h) fun entries e₁ h₁ => .pure ⟨?_, h₁.grows, ?_⟩
    · simpa [← Value.traceUnder_eq_concat] using h₁.noted
    · intro table hgrows
      rw [forall₂_eq_map (h₁.shape table hgrows)]

theorem ends_classEntry (h : Noted imports t e) (locals : List String) (classes : Option ClassBinding) :
    Ends (classEntry locals classes) e fun entries e' =>
      Made imports t e (Value.traceUnder entries) (fun _ => entries = classOption locals classes) e' := by
  rcases classes with _ | names | expr
  · exact .pure (.nothing h fun _ => rfl)
  · have hnames : Value.traceUnder (names.map fun name => (name, Value.bool true)) = {} := by
      induction names with
      | nil => rfl
      | cons name names ih => simp [ih]
    refine .pure ?_
    rw [Value.traceUnder_cons, Value.trace_object, hnames]
    exact .nothing h fun _ => rfl
  · refine .bind (ends_call h _ _ rfl (by simp)) fun v e₁ h₁ => .pure ⟨?_, h₁.grows, fun table hgrows => ?_⟩
    · simpa using h₁.noted
    · rw [h₁.shape table hgrows]
      rfl

theorem ends_keyValue (h : Noted imports t e) (locals : List String) (number : Nat) (key : Option Expr) :
    Ends (keyValue locals (.number number) key) e fun v e' =>
      Made imports t e v.trace (fun _ => v = keyOption locals number key) e' := by
  cases key with
  | none => exact .pure (.nothing h fun _ => rfl)
  | some expr => exact ends_call h _ _ rfl (by simp)

theorem ends_listenerEntry (h : Noted imports t e) (locals : List String) (memoized : Bool) (l : Listener) :
    Ends (listenerEntry locals memoized l) e fun entry e' =>
      Made imports t e entry.2.trace (fun _ => ListenerRenders locals memoized l entry) e' := by
  refine .bind (ends_call h .bind _ rfl (by simp)) fun bound e₁ h₁ => ?_
  obtain rfl := h₁.shape _ (.refl _)
  split
  · rename_i hmemoized
    refine .bind (ends_memoize h₁.noted _) fun v e₂ ⟨n, h₂⟩ => .pure ?_
    obtain rfl := h₂.shape _ (.refl _)
    refine ⟨?_, h₁.grows.trans h₂.grows, fun _ _ => ⟨rfl, by simp [hmemoized]⟩⟩
    simpa [Trace.append_def] using h₂.noted
  · rename_i hmemoized
    exact .pure ⟨h₁.noted, h₁.grows, fun _ _ => ⟨rfl, by simp [hmemoized]⟩⟩

theorem ends_listenersEntry (h : Noted imports t e) (locals : List String) (memoized : Bool)
    (listeners : List Listener) :
    Ends (listenersEntry locals memoized listeners) e fun entries e' =>
      Made imports t e (Value.traceUnder entries) (fun _ => ListenersRender locals memoized listeners entries) e' := by
  unfold listenersEntry ListenersRender
  split
  · exact .pure (.nothing h fun _ => rfl)
  · refine .bind (ends_mapM listeners (fun l _ {_ _} h => ends_listenerEntry h locals memoized l) h)
      fun handlers e₁ h₁ => .pure ⟨?_, h₁.grows, fun table hgrows => ⟨handlers, h₁.shape table hgrows, rfl⟩⟩
    simpa [← Value.traceUnder_eq_concat] using h₁.noted

/-! ## Declared options -/

/-- Options mention names only where their values are declared by themselves. -/
theorem trace_optionRenders {table : HoistTable} {entry entry' : String × Value}
    (h : OptionRenders table entry entry') (hnames : entry.2.trace.names = []) :
    entry.2.trace ++ { names := entry'.2.trace.names } = entry'.2.trace := by
  obtain ⟨-, hvalue⟩ := h
  split at hvalue
  · rename_i hseparate
    obtain ⟨name, -, hname⟩ := hvalue
    simp [hname, Value.trace_of_isLiteral _ (isLiteral_of_isSeparate hseparate)]
  · rw [hvalue, hnames]
    exact Trace.append_empty _

theorem names_traceUnder_iff {entries : List (String × Value)} :
    (Value.traceUnder entries).names = [] ↔ ∀ entry ∈ entries, entry.2.trace.names = [] := by
  induction entries with
  | nil => simp
  | cons entry rest ih => simp [Trace.append_def, ih]

theorem traceUnder_optionsRender {table : HoistTable} {entries entries' : List (String × Value)}
    (h : List.Forall₂ (OptionRenders table) entries entries')
    (hnames : ∀ entry ∈ entries, entry.2.trace.names = []) :
    Value.traceUnder entries ++ .concat (entries'.map fun entry => { names := entry.2.trace.names }) =
      Value.traceUnder entries' := by
  induction h with
  | nil => rfl
  | @cons entry entry' rest rest' hentry _ ih =>
    have hnames' : ∀ entry ∈ rest, entry.2.trace.names = [] := fun entry hm => hnames entry (List.mem_cons_of_mem _ hm)
    have hrest := ih hnames'
    have hfirst := trace_optionRenders hentry (hnames entry (by simp))
    have hswap : Value.traceUnder rest ++ { names := entry'.2.trace.names } =
        { names := entry'.2.trace.names } ++ Value.traceUnder rest := by
      simp [Trace.append_def, names_traceUnder_iff.2 hnames']
    calc Value.traceUnder (entry :: rest) ++ .concat ((entry' :: rest').map fun entry => { names := entry.2.trace.names })
      _ = entry.2.trace ++ (Value.traceUnder rest ++ { names := entry'.2.trace.names }) ++
          .concat (rest'.map fun entry => { names := entry.2.trace.names }) := by simp [Trace.append_assoc]
      _ = (entry.2.trace ++ { names := entry'.2.trace.names }) ++ (Value.traceUnder rest ++
          .concat (rest'.map fun entry => { names := entry.2.trace.names })) := by simp [hswap, Trace.append_assoc]
      _ = Value.traceUnder (entry' :: rest') := by rw [hfirst, hrest, Value.traceUnder_cons]

theorem ends_hoistEntry (h : Noted imports t e) {entry : String × Value} (hnames : entry.2.trace.names = []) :
    Ends (hoistEntry entry) e fun entry' e' =>
      Made imports t e { names := entry'.2.trace.names } (fun table => OptionRenders table entry entry') e' := by
  unfold hoistEntry OptionRenders
  split
  · rename_i hseparate
    have hseparate : isSeparate entry = true := hseparate
    refine .bind (ends_hoistLiteral h (isLiteral_of_isSeparate hseparate)) fun v e₁ h₁ => .pure ⟨?_, h₁.grows, fun table hgrows => ?_⟩
    · obtain ⟨name, -, rfl⟩ := h₁.shape _ (.refl _)
      exact h₁.noted
    · exact ⟨rfl, by rw [if_pos hseparate]; exact h₁.shape table hgrows⟩
  · rename_i hseparate
    have hseparate : ¬ isSeparate entry = true := hseparate
    refine .pure ?_
    rw [hnames]
    exact .nothing h fun _ => ⟨rfl, by rw [if_neg hseparate]⟩

/-- Options are made after what they mention, and mention names only where they are declared. -/
theorem ends_hoistOptions {entries : List (String × Value)} (h : Noted imports (t ++ Value.traceUnder entries) e)
    (hnames : ∀ entry ∈ entries, entry.2.trace.names = []) :
    Ends (hoistOptions entries) e fun v e' => Noted imports (t ++ v.trace) e' ∧ e.hoists.Grows e'.hoists ∧
      ∀ table, e'.hoists.Grows table → OptionsRender table entries v := by
  unfold hoistOptions OptionsRender
  dsimp only
  split
  · rename_i hliteral
    have htrace : Value.traceUnder entries = {} := by
      rw [← Value.trace_object, Value.trace_of_isLiteral _ hliteral]
    rw [htrace, Trace.append_empty] at h
    exact (ends_hoistLiteral h hliteral).weaken fun v e₁ h₁ => ⟨h₁.noted, h₁.grows, h₁.shape⟩
  · refine .bind (ends_mapM entries (fun entry hm {_ _} h => ends_hoistEntry h (hnames entry hm)) h)
      fun entries' e₁ h₁ => .pure ⟨?_, h₁.grows, fun table hgrows => ⟨entries', h₁.shape table hgrows, rfl⟩⟩
    have hnoted := h₁.noted
    rwa [Trace.append_assoc, traceUnder_optionsRender (h₁.shape _ (.refl _)) hnames] at hnoted

/-! ## All options -/

theorem names_scopedValue (locals : List String) (asProperty : Bool) (a : Attribute) :
    (scopedValue locals asProperty a).trace.names = [] := by
  unfold scopedValue
  split <;> simp [Trace.append_def]

theorem names_attributesOption (locals : List String) (name : String) (asProperty : Bool)
    (attributes : List Attribute) :
    (Value.traceUnder (attributesOption locals name asProperty attributes)).names = [] := by
  unfold attributesOption
  split
  · rfl
  · simpa [names_traceUnder_iff] using fun a _ => names_scopedValue locals asProperty a

theorem names_classOption (locals : List String) (classes : Option ClassBinding) :
    (Value.traceUnder (classOption locals classes)).names = [] := by
  rcases classes with _ | names | expr
  · rfl
  · simp [classOption, names_traceUnder_iff]
  · simp [classOption, Trace.append_def]

theorem traceUnder_styleEntry (locals : List String) (style : Option StyleBinding) :
    Value.traceUnder (styleEntry locals style) = {} := by
  rcases style with _ | declarations | expr
  · rfl
  · have hdeclarations : Value.traceOf (declarations.map declarationValue) = {} := by
      induction declarations with
      | nil => rfl
      | cons d ds ih => simp [declarationValue, ih]
    simp [styleEntry, hdeclarations]
  · simp [styleEntry]

theorem traceUnder_svg (data : ElementData) :
    Value.traceUnder (if data.namespace = .svg then [("svg", Value.bool true)] else []) = {} := by
  split <;> simp

theorem names_keyOption (locals : List String) (number : Nat) (key : Option Expr) :
    (keyOption locals number key).trace.names = [] := by
  cases key <;> simp [keyOption, Trace.append_def]

theorem names_listeners {locals : List String} {memoized : Bool} {listeners : List Listener}
    {entries : List (String × Value)} (h : ListenersRender locals memoized listeners entries) :
    (Value.traceUnder entries).names = [] := by
  unfold ListenersRender at h
  split at h
  · simp [h]
  · obtain ⟨handlers, hhandlers, rfl⟩ := h
    rw [Value.traceUnder_cons, Value.trace_object, Value.traceUnder_nil, Trace.append_empty, names_traceUnder_iff]
    intro entry hm
    obtain ⟨l, -, -, hvalue⟩ := forall₂_mem_right hhandlers hm
    split at hvalue
    · obtain ⟨n, hn⟩ := hvalue
      simp [hn, Trace.append_def]
    · simp [hvalue, Trace.append_def]

theorem names_elementOptions (locals : List String) (data : ElementData) (number : Nat) :
    (Value.traceUnder (elementOptions locals data number)).names = [] := by
  simp [elementOptions, Value.traceUnder_append, Trace.append_def, names_attributesOption, names_classOption,
    traceUnder_styleEntry, traceUnder_svg, names_keyOption]

/-- The number of a node is its key. -/
theorem ends_keyFor (n : Node) (facts : Facts) :
    Ends (liftM (keyFor n facts)) e fun v e' => e = e' ∧ ∃ number, facts.key = some number ∧ v = .number number := by
  refine .lift fun v hv => ⟨rfl, ?_⟩
  unfold keyFor at hv
  split at hv
  · rename_i number hkey
    exact ⟨number, hkey, (Except.ok.inj hv).symm⟩
  · cases hv

theorem ends_options (sources : Sources) (h : Noted imports t e) (locals : List String) (n : Node)
    (data : ElementData) (facts : Facts) :
    Ends (options sources locals n data facts) e fun v e' =>
      Made imports t e v.trace (fun table => ElementOptionsRender sources table locals n.id data facts v) e' := by
  unfold options
  refine .bind (ends_attributesEntry h locals "attrs" false data.attributes) fun attributes e₁ h₁ => ?_
  refine .bind (ends_attributesEntry h₁.noted locals "props" true data.properties) fun properties e₂ h₂ => ?_
  refine .bind (ends_classEntry h₂.noted locals data.classes) fun classes e₃ h₃ => ?_
  refine .bind (ends_keyFor n facts) ?_
  rintro _ _ ⟨rfl, number, hkey, rfl⟩
  refine .bind (ends_keyValue h₃.noted locals number data.key) fun key e₄ h₄ => ?_
  refine .bind (ends_listenersEntry h₄.noted locals _ data.listeners) fun listeners e₅ h₅ => ?_
  obtain rfl := h₁.shape _ (.refl _)
  obtain rfl := h₂.shape _ (.refl _)
  obtain rfl := h₃.shape _ (.refl _)
  obtain rfl := h₄.shape _ (.refl _)
  have hlisteners := h₅.shape _ (.refl _)
  have hnoted : Noted imports (t ++ Value.traceUnder (elementOptions locals data number ++ listeners)) e₅ := by
    simpa [elementOptions, Value.traceUnder_append, traceUnder_styleEntry, traceUnder_svg, Trace.append_assoc]
      using h₅.noted
  refine (ends_hoistOptions hnoted (names_traceUnder_iff.1 ?_)).weaken ?_
  · simp [Value.traceUnder_append, Trace.append_def, names_elementOptions, names_listeners hlisteners]
  · rintro v e₆ ⟨h₆, hgrows, hshape⟩
    refine ⟨h₆, h₁.grows.trans (h₂.grows.trans (h₃.grows.trans (h₄.grows.trans (h₅.grows.trans hgrows)))), ?_⟩
    exact fun table htable => ⟨number, listeners, hkey, hlisteners, hshape table htable⟩

theorem ends_slotOptions (h : Noted imports t e) (locals : List String) (n : Node) (attributes : List Attribute)
    (facts : Facts) :
    Ends (slotOptions locals n attributes facts) e fun v e' =>
      Made imports t e v.trace (fun table => ∃ number, facts.key = some number ∧
        OptionsRender table (slotEntries locals attributes number) v) e' := by
  unfold slotOptions
  refine .bind (ends_attributesEntry h locals "attrs" false attributes) fun entries e₁ h₁ => ?_
  refine .bind (ends_keyFor n facts) ?_
  rintro _ _ ⟨rfl, number, hkey, rfl⟩
  obtain rfl := h₁.shape _ (.refl _)
  have hnoted : Noted imports (t ++ Value.traceUnder (slotEntries locals attributes number)) e₁ := by
    simpa [slotEntries, Value.traceUnder_append] using h₁.noted
  refine (ends_hoistOptions hnoted (names_traceUnder_iff.1 ?_)).weaken ?_
  · simp [slotEntries, Value.traceUnder_append, Trace.append_def, names_attributesOption]
  · rintro v e₂ ⟨h₂, hgrows, hshape⟩
    exact ⟨h₂, h₁.grows.trans hgrows, fun table htable => ⟨number, hkey, hshape table htable⟩⟩

/-! ## Text and fragments -/

theorem ends_textValue (h : Noted imports t e) (locals : List String) (parts : List TextPart) :
    Ends (textValue locals parts) e fun v e' =>
      Made imports t e v.trace
        (fun _ => v = .call Helper.text.localName [joined (parts.map (pieceValue locals))]) e' := by
  have hpart (part : TextPart) : ∀ {t e}, Noted imports t e →
      Ends (partValue locals part) e fun v e' => Made imports t e v.trace (fun _ => v = pieceValue locals part) e' := by
    intro t e h
    cases part with
    | literal text => exact .pure (.nothing h fun _ => rfl)
    | expression expr => exact ends_call h _ _ rfl (by simp)
  unfold textValue
  refine .bind (ends_use h .text) fun _ e₁ h₁ => ?_
  refine .bind (ends_mapM parts (fun part _ => hpart part) h₁.noted) fun pieces e₂ h₂ => ?_
  have hpieces := forall₂_eq_map (h₂.shape _ (.refl _))
  have hcall : Ends (call .text [joined pieces] rfl) e₂ fun v e' =>
      Made imports t e v.trace
        (fun _ => v = .call Helper.text.localName [joined (parts.map (pieceValue locals))]) e' := by
    refine (ends_call_again h₂.noted (by simp [Trace.append_def]) _ rfl).weaken ?_
    rintro v e' ⟨rfl, rfl⟩
    refine ⟨?_, h₁.grows.trans h₂.grows, fun _ _ => by rw [hpieces]⟩
    have hjoined : (joined pieces).trace = Value.traceOf pieces := by
      unfold joined
      split <;> simp
    simpa [hjoined, Value.traceOf_eq_concat, Trace.append_assoc] using h₂.noted
  split
  · exact hcall
  · rename_i hmany
    have hjoin : joined pieces = .concat pieces := by
      unfold joined
      split
      · exact absurd rfl (hmany _)
      · rfl
    rwa [hjoin] at hcall

theorem ends_fragmentValue (h : Noted imports t e) (n : Node) (facts : Facts) :
    Ends (fragmentValue n facts) e fun v e' =>
      Made imports t e v.trace (fun table => FragmentRenders table n facts v) e' := by
  unfold fragmentValue
  refine .bind (ends_use h .staticFragment) fun _ e₁ h₁ => ?_
  have hmarkup : Ends (liftM (markup n)) e₁ fun html e' => e₁ = e' ∧ markup n = .ok html :=
    .lift fun html hhtml => ⟨rfl, hhtml⟩
  refine .bind hmarkup ?_
  rintro html _ ⟨rfl, hhtml⟩
  have hcontent : HoistKind.fragment.Holds html := trivial
  refine .bind (ends_hoist h₁.noted hcontent) fun name e₂ h₂ => ?_
  refine .bind (ends_keyFor n facts) ?_
  rintro _ _ ⟨rfl, number, hkey, rfl⟩
  refine (ends_call_again h₂.noted (by simp [Trace.append_def]) _ rfl).weaken ?_
  rintro v e' ⟨rfl, rfl⟩
  refine ⟨?_, h₁.grows.trans h₂.grows, fun table hgrows => ?_⟩
  · have hother : Helper.named? name = none := h₂.noted.sound.named?_fragment (h₂.shape _ (.refl _))
    simpa [Value.trace_call_other hother, Trace.append_assoc] using h₂.noted
  · exact ⟨html, name, number, hhtml, h₂.shape table hgrows, hkey, rfl⟩

/-! ## Nodes -/

/-- A step that makes values of which `shape` holds, wherever it is taken. -/
def MakesValues (imports : List String) (m : Emitting (List Value)) (shape : HoistTable → List Value → Prop) : Prop :=
  ∀ {t e}, Noted imports t e → Ends m e fun values e' =>
    Made imports t e (Value.traceOf values) (fun table => shape table values) e'

theorem ends_arrayValue (h : Noted imports t e) (nodes : List Node) {values : Emitting (List Value)}
    {shape : HoistTable → List Value → Prop} (hvalues : MakesValues imports values shape) :
    Ends (arrayValue nodes values) e fun v e' =>
      Made imports t e v.trace (fun table => ∃ values, shape table values ∧ v = arrayOf nodes values) e' := by
  unfold arrayValue arrayOf
  split
  · refine .bind (ends_use h .flatten) fun _ e₁ h₁ => ?_
    refine .bind (hvalues h₁.noted) fun values e₂ h₂ => ?_
    refine (ends_call_again h₂.noted (by simp [Trace.append_def]) _ rfl).weaken ?_
    rintro v e' ⟨rfl, rfl⟩
    refine ⟨?_, h₁.grows.trans h₂.grows, fun table hgrows => ⟨values, h₂.shape table hgrows, rfl⟩⟩
    simpa [Trace.append_assoc] using h₂.noted
  · refine .bind (hvalues h) fun values e₁ h₁ => .pure ?_
    exact ⟨by simpa using h₁.noted, h₁.grows, fun table hgrows => ⟨values, h₁.shape table hgrows, rfl⟩⟩

/-- Entries that are made from values, one for each name. -/
theorem exists_slots {names : List String} {entries : List (String × Value)} {shape : String → List Value → Prop}
    {make : String → List Value → Value}
    (h : List.Forall₂ (fun name entry => ∃ values, shape name values ∧ entry = (name, make name values)) names entries) :
    ∃ slots : List (String × List Value), slots.map Prod.fst = names ∧ (∀ slot ∈ slots, shape slot.1 slot.2) ∧
      entries = slots.map fun slot => (slot.1, make slot.1 slot.2) := by
  induction h with
  | nil => exact ⟨[], rfl, by simp, rfl⟩
  | @cons name entry names entries hentry _ ih =>
    obtain ⟨values, hvalues, rfl⟩ := hentry
    obtain ⟨slots, hnames, hslots, rfl⟩ := ih
    exact ⟨(name, values) :: slots, by simp [hnames], by simpa using ⟨hvalues, fun a b => hslots (a, b)⟩, rfl⟩

theorem ends_slottedValue (h : Noted imports t e) (children : List Node) {values : String → Emitting (List Value)}
    {shape : HoistTable → (Node → Bool) → List Value → Prop}
    (hvalues : ∀ name, MakesValues imports (values name) fun table => shape table (·.slotTarget == name)) :
    Ends (slottedValue children fun name => arrayValue (children.filter (·.slotTarget == name)) (values name)) e
      fun v e' => Made imports t e v.trace
        (fun table => ∃ slots, SlotsRender children (shape table) slots ∧ v = slottedOf children slots) e' := by
  unfold slottedValue slottedOf
  split
  · rename_i hempty
    rw [List.isEmpty_iff.1 hempty]
    exact .pure (.nothing h fun _ => ⟨[], ⟨rfl, by simp⟩, rfl⟩)
  · have hentry (name : String) {t e} (h : Noted imports t e) : Ends (do
          return (name, Value.arrow (← arrayValue (children.filter (·.slotTarget == name)) (values name)))) e fun entry e' =>
        Made imports t e entry.2.trace (fun table => ∃ values, shape table (·.slotTarget == name) values ∧
          entry = (name, Value.arrow (arrayOf (children.filter (·.slotTarget == name)) values))) e' := by
      refine .bind (ends_arrayValue h _ (hvalues name)) fun content e₁ h₁ => .pure ⟨?_, h₁.grows, ?_⟩
      · simpa using h₁.noted
      · intro table hgrows
        obtain ⟨values, hvalues, rfl⟩ := h₁.shape table hgrows
        exact ⟨values, hvalues, rfl⟩
    refine .bind (ends_mapM (slotNames children) (fun name _ {_ _} h => hentry name h) h) fun entries e₁ h₁ =>
      .pure ⟨?_, h₁.grows, fun table hgrows => ?_⟩
    · simpa [← Value.traceUnder_eq_concat] using h₁.noted
    · obtain ⟨slots, hnames, hslots, rfl⟩ := exists_slots (h₁.shape table hgrows)
      exact ⟨slots, ⟨hnames, hslots⟩, rfl⟩

theorem ends_renderedValue {sources : Sources} (h : Noted imports t e) (n : Node) {render : Facts → Emitting Value}
    {inner : HoistTable → Value → Facts → Prop}
    (hrender : ∀ facts, Ends (render facts) e fun v e' =>
      Made imports t e v.trace (fun table => inner table v facts) e') :
    Ends (renderedValue sources n render) e fun v e' =>
      Made imports t e v.trace (fun table => RendersAs sources table n v (inner table v)) e' := by
  unfold renderedValue
  have hfacts : Ends (liftM (factsFor sources n)) e fun facts e' =>
      e = e' ∧ sources.analysis.get? n.id = some facts := by
    refine .lift fun facts hf => ⟨rfl, ?_⟩
    unfold factsFor at hf
    split at hf
    · rename_i hget
      rw [hget, Except.ok.inj hf]
    · cases hf
  refine .bind hfacts ?_
  rintro facts _ ⟨rfl, hget⟩
  split
  · rename_i hfragment
    refine (ends_fragmentValue h n facts).weaken fun v e' h' => ⟨h'.noted, h'.grows, fun table hgrows => ?_⟩
    exact ⟨facts, hget, by rw [if_pos hfragment]; exact h'.shape table hgrows⟩
  · rename_i hfragment
    refine (hrender facts).weaken fun v e' h' => ⟨h'.noted, h'.grows, fun table hgrows => ?_⟩
    exact ⟨facts, hget, by rw [if_neg hfragment]; exact h'.shape table hgrows⟩

theorem ends_componentFor {sources : Sources} (tag : String) :
    Ends (liftM (componentFor sources tag)) e fun v e' =>
      e = e' ∧ ∃ name, sources.imports.local? tag = some name ∧ v = .constant name := by
  refine .lift fun v hv => ⟨rfl, ?_⟩
  unfold componentFor at hv
  split at hv
  · rename_i name hname
    exact ⟨name, hname, (Except.ok.inj hv).symm⟩
  · cases hv

/-- A name that an import has is the name of one. -/
theorem local?_mem_locals {table : Scoping.ImportTable} {tag name : String} (h : table.local? tag = some name) :
    name ∈ table.locals := by
  obtain ⟨entry, hentry, rfl⟩ := Option.map_eq_some_iff.1 h
  exact List.mem_map_of_mem (List.mem_of_find?_eq_some hentry)

section Nodes

variable {sources : Sources}

mutual

theorem ends_nodeValue (locals : List String) : ∀ n : Node, ∀ {t e}, Noted sources.imports.locals t e →
    Ends (nodeValue sources locals n) e fun v e' =>
      Made sources.imports.locals t e v.trace (fun table => NodeRenders sources table locals n v) e'
  | .element id p role data children => by
    intro h
    unfold nodeValue
    simp only [NodeRenders]
    refine ends_renderedValue h _ fun facts => ?_
    have hslotted {t e} (h : Noted sources.imports.locals t e) :
        Ends (slottedValue children fun name => arrayValue (children.filter (·.slotTarget == name))
          (nodeValues sources locals (·.slotTarget == name) children)) e fun v e' =>
            Made sources.imports.locals t e v.trace (fun table => ∃ slots,
              SlotsRender children (fun keep => NodesRender sources table locals keep children) slots ∧
                v = slottedOf children slots) e' :=
      ends_slottedValue h children fun name => ends_nodeValues locals (·.slotTarget == name) children
    cases role with
    | native =>
      refine .bind (ends_use h .element) fun _ e₁ h₁ => ?_
      refine .bind (ends_options sources h₁.noted locals _ data facts) fun options e₂ h₂ => ?_
      refine .bind (ends_arrayValue h₂.noted children (ends_nodeValues locals _ children)) fun content e₃ h₃ => ?_
      refine (ends_call_again h₃.noted (by simp [Trace.append_def]) _ rfl).weaken ?_
      rintro v e' ⟨rfl, rfl⟩
      refine ⟨?_, h₁.grows.trans (h₂.grows.trans h₃.grows), fun table hgrows => ?_⟩
      · simpa [Trace.append_assoc] using h₃.noted
      · obtain ⟨values, hvalues, rfl⟩ := h₃.shape table hgrows
        exact ⟨options, h₂.shape table (h₃.grows.trans hgrows), values, hvalues, rfl⟩
    | component =>
      refine .bind (ends_use h .customElement) fun _ e₁ h₁ => ?_
      refine .bind (ends_componentFor data.tag) ?_
      rintro _ _ ⟨rfl, name, hname, rfl⟩
      have himported := h₁.noted.imported (local?_mem_locals hname)
      refine .bind (ends_options sources himported locals _ data facts) fun options e₂ h₂ => ?_
      refine .bind (hslotted h₂.noted) fun slotted e₃ h₃ => ?_
      refine (ends_call_again h₃.noted (by simp [Trace.append_def]) _ rfl).weaken ?_
      rintro v e' ⟨rfl, rfl⟩
      refine ⟨?_, h₁.grows.trans (h₂.grows.trans h₃.grows), fun table hgrows => ?_⟩
      · simpa [Trace.append_assoc] using h₃.noted
      · obtain ⟨slots, hslots, rfl⟩ := h₃.shape table hgrows
        exact ⟨options, h₂.shape table (h₃.grows.trans hgrows), name, slots, hname, hslots, rfl⟩
    | dynamic constructor =>
      refine .bind (ends_use h .dynamicComponent) fun _ e₁ h₁ => ?_
      refine .bind (ends_options sources h₁.noted locals _ data facts) fun options e₂ h₂ => ?_
      refine .bind (hslotted h₂.noted) fun slotted e₃ h₃ => ?_
      refine (ends_call_again h₃.noted (by simp [Trace.append_def]) _ rfl).weaken ?_
      rintro v e' ⟨rfl, rfl⟩
      refine ⟨?_, h₁.grows.trans (h₂.grows.trans h₃.grows), fun table hgrows => ?_⟩
      · simpa [Trace.append_assoc] using h₃.noted
      · obtain ⟨slots, hslots, rfl⟩ := h₃.shape table hgrows
        exact ⟨options, h₂.shape table (h₃.grows.trans hgrows), slots, hslots, rfl⟩
  | .slot id p name attributes children => by
    intro h
    unfold nodeValue
    simp only [NodeRenders]
    refine ends_renderedValue h _ fun facts => ?_
    refine .bind (ends_use h .slot) fun _ e₁ h₁ => ?_
    refine .bind (ends_slotOptions h₁.noted locals _ attributes facts) fun options e₂ h₂ => ?_
    refine .bind (ends_arrayValue h₂.noted children (ends_nodeValues locals _ children)) fun fallback e₃ h₃ => ?_
    refine (ends_call_again h₃.noted (by simp [Trace.append_def]) _ rfl).weaken ?_
    rintro v e' ⟨rfl, rfl⟩
    refine ⟨?_, h₁.grows.trans (h₂.grows.trans h₃.grows), fun table hgrows => ?_⟩
    · simpa [Trace.append_assoc] using h₃.noted
    · obtain ⟨values, hvalues, rfl⟩ := h₃.shape table hgrows
      obtain ⟨number, hkey, hoptions⟩ := h₂.shape table (h₃.grows.trans hgrows)
      exact ⟨number, options, values, hkey, hoptions, hvalues, rfl⟩
  | .text id p parts => by
    intro h
    unfold nodeValue
    simp only [NodeRenders]
    exact ends_renderedValue h _ fun _ => ends_textValue h locals parts
  | .comment id p text => by
    intro h
    unfold nodeValue
    simp only [NodeRenders]
    exact ends_renderedValue h _ fun _ => ends_call h .comment _ rfl (by simp)
  | .conditional id p chain => by
    intro h
    unfold nodeValue
    simp only [NodeRenders]
    exact ends_renderedValue h _ fun _ => ends_chainValue locals chain h
  | .iteration id p loop children => by
    intro h
    unfold nodeValue
    simp only [NodeRenders]
    refine ends_renderedValue h _ fun _ => ?_
    refine .bind (ends_use h .iterator) fun _ e₁ h₁ => ?_
    refine .bind (ends_arrayValue h₁.noted children (ends_nodeValues _ _ children)) fun body e₂ h₂ => ?_
    refine (ends_call_again h₂.noted (by simp [Trace.append_def]) _ rfl).weaken ?_
    rintro v e' ⟨rfl, rfl⟩
    refine ⟨?_, h₁.grows.trans h₂.grows, fun table hgrows => ?_⟩
    · simpa [Trace.append_assoc] using h₂.noted
    · obtain ⟨values, hvalues, rfl⟩ := h₂.shape table hgrows
      exact ⟨values, hvalues, rfl⟩

theorem ends_chainValue (locals : List String) : ∀ c : Chain, ∀ {t e}, Noted sources.imports.locals t e →
    Ends (chainValue sources locals c) e fun v e' =>
      Made sources.imports.locals t e v.trace (fun table => ChainRenders sources table locals c v) e'
  | .done => by
    intro h
    unfold chainValue
    exact .pure (.nothing h fun _ => rfl)
  | .otherwise children => by
    intro h
    unfold chainValue
    exact ends_arrayValue h children (ends_nodeValues locals _ children)
  | .branch test negate children next => by
    intro h
    unfold chainValue
    refine .bind (ends_arrayValue h children (ends_nodeValues locals _ children)) fun consequent e₁ h₁ => ?_
    refine .bind (ends_chainValue locals next h₁.noted) fun alternate e₂ h₂ => .pure ?_
    refine ⟨?_, h₁.grows.trans h₂.grows, fun table hgrows => ?_⟩
    · simpa [Trace.append_assoc] using h₂.noted
    · obtain ⟨values, hvalues, rfl⟩ := h₁.shape table (h₂.grows.trans hgrows)
      exact ⟨values, alternate, hvalues, h₂.shape table hgrows, rfl⟩

theorem ends_nodeValues (locals : List String) (keep : Node → Bool) : ∀ nodes : List Node,
    MakesValues sources.imports.locals (nodeValues sources locals keep nodes)
      fun table => NodesRender sources table locals keep nodes
  | [] => by
    intro h
    unfold nodeValues
    exact .pure (.nothing h fun _ => rfl)
  | n :: ns => by
    intro h
    unfold nodeValues
    simp only [NodesRender]
    split
    · refine .bind (ends_nodeValue locals n h) fun v e₁ h₁ => ?_
      refine .bind (ends_nodeValues locals keep ns h₁.noted) fun vs e₂ h₂ => .pure ?_
      refine ⟨?_, h₁.grows.trans h₂.grows, fun table hgrows => ?_⟩
      · simpa [Trace.append_assoc] using h₂.noted
      · exact ⟨v, vs, h₁.shape table (h₂.grows.trans hgrows), h₂.shape table hgrows, rfl⟩
    · exact ends_nodeValues locals keep ns h

end

end Nodes

end TemplateCompiler.Render

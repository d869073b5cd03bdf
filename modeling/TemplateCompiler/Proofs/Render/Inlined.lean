import TemplateCompiler.Proofs.Render.Literals
import TemplateCompiler.Proofs.Render.Shown
/-!
# Bodies with their declarations put in

A body refers to declarations by their names, and keeps listeners under names. `Value.inlined` puts the declarations in
and leaves the names of listeners out. What is left of the options of a node depends on the node alone
(`inlined_elementOptions`, `inlined_slotOptions`).
-/

namespace TemplateCompiler.Render

open TemplateCompiler.Template TemplateCompiler.Binding

/-! ## Putting declarations in -/

namespace Value

mutual

/-- A value with what its names of declarations stand for in their places, and without names of listeners. The call of a
fragment is that of `parseFragment` which declares it. -/
def inlined (table : HoistTable) : Value → Value
  | .constant name => (table.constant? name).getD (.constant name)
  | .memo _ value => value.inlined table
  | .call callee arguments =>
    match table.declared? .fragment callee with
    | some markup => .call "parseFragment" [.string markup]
    | none => .call callee (inlinedOf table arguments)
  | .array items => .array (inlinedOf table items)
  | .object entries => .object (inlinedUnder table entries)
  | .function parameters body => .function parameters (body.inlined table)
  | .arrow body => .arrow (body.inlined table)
  | .conditional test consequent alternate =>
    .conditional (test.inlined table) (consequent.inlined table) (alternate.inlined table)
  | .concat parts => .concat (inlinedOf table parts)
  | .string text => .string text
  | .number n => .number n
  | .bool value => .bool value
  | .undefined => .undefined
  | .raw source => .raw source

/-- The values of a list with declarations put in. -/
def inlinedOf (table : HoistTable) : List Value → List Value
  | [] => []
  | v :: vs => v.inlined table :: inlinedOf table vs

/-- The entries of an object with declarations put in. -/
def inlinedUnder (table : HoistTable) : List (String × Value) → List (String × Value)
  | [] => []
  | (key, v) :: rest => (key, v.inlined table) :: inlinedUnder table rest

end

theorem inlinedOf_eq_map (table : HoistTable) (vs : List Value) : inlinedOf table vs = vs.map (inlined table) := by
  induction vs with
  | nil => rfl
  | cons v vs ih => rw [inlinedOf, ih, List.map_cons]

theorem inlinedUnder_eq_map (table : HoistTable) (entries : List (String × Value)) :
    inlinedUnder table entries = entries.map fun entry => (entry.1, entry.2.inlined table) := by
  induction entries with
  | nil => rfl
  | cons entry rest ih => rw [inlinedUnder, ih, List.map_cons]

mutual

/-- A literal stays as it is. -/
theorem inlined_of_isLiteral (table : HoistTable) : ∀ v : Value, v.isLiteral = true → v.inlined table = v
  | .string _ => fun _ => rfl
  | .number _ => fun _ => rfl
  | .bool _ => fun _ => rfl
  | .array items => fun h => by rw [inlined, inlinedOf_of_areLiteral table items (by simpa [isLiteral] using h)]
  | .object entries => fun h => by
    rw [inlined, inlinedUnder_of_haveLiterals table entries (by simpa [isLiteral] using h)]
  | .undefined => nofun
  | .raw _ => nofun
  | .constant _ => nofun
  | .call _ _ => nofun
  | .function _ _ => nofun
  | .arrow _ => nofun
  | .conditional _ _ _ => nofun
  | .concat _ => nofun
  | .memo _ _ => nofun

theorem inlinedOf_of_areLiteral (table : HoistTable) : ∀ vs : List Value, areLiteral vs = true →
    inlinedOf table vs = vs
  | [] => fun _ => rfl
  | v :: vs => fun h => by
    obtain ⟨hv, hvs⟩ := Bool.and_eq_true_iff.1 h
    rw [inlinedOf, inlined_of_isLiteral table v hv, inlinedOf_of_areLiteral table vs hvs]

theorem inlinedUnder_of_haveLiterals (table : HoistTable) : ∀ entries : List (String × Value),
    haveLiterals entries = true → inlinedUnder table entries = entries
  | [] => fun _ => rfl
  | (_, v) :: rest => fun h => by
    obtain ⟨hv, hrest⟩ := Bool.and_eq_true_iff.1 h
    rw [inlinedUnder, inlined_of_isLiteral table v hv, inlinedUnder_of_haveLiterals table rest hrest]

end

end Value

variable {table : HoistTable}

theorem HoistTable.exists_declares {kind : HoistKind} {name content : String}
    (h : table.declared? kind name = some content) : table.Declares kind content name := by
  obtain ⟨found, hfound, rfl⟩ := Option.map_eq_some_iff.1 h
  have hkey := List.find?_some hfound
  simp only [Bool.and_eq_true, beq_iff_eq] at hkey
  obtain ⟨rfl, rfl⟩ := hkey
  exact List.mem_of_find?_eq_some hfound

/-- No helper is declared as a fragment. -/
theorem HoistTable.Sound.declared?_helper (hs : table.Sound) (helper : Helper) :
    table.declared? .fragment helper.localName = none := by
  cases hdeclared : table.declared? .fragment helper.localName with
  | none => rfl
  | some content =>
    have hnamed := hs.named?_fragment (HoistTable.exists_declares hdeclared)
    rw [Helper.named?_localName] at hnamed
    cases hnamed

/-- No import is declared as a literal. -/
theorem HoistTable.Sound.constant?_import (hs : table.Sound) {name : String} (h : name.toList.head? = some '_') :
    table.constant? name = none := by
  cases hdeclared : table.declared? .object name with
  | none => rw [HoistTable.constant?, hdeclared, Option.bind_none]
  | some content =>
    obtain ⟨kind, hhead⟩ := hs.head?_name (List.mem_map_of_mem (HoistTable.exists_declares hdeclared))
    rw [h] at hhead
    cases kind <;> cases hhead

theorem inlined_call (hs : table.Sound) (helper : Helper) (arguments : List Value) :
    (Value.call helper.localName arguments).inlined table =
      .call helper.localName (arguments.map (Value.inlined table)) := by
  rw [Value.inlined, hs.declared?_helper]
  simp only [Value.inlinedOf_eq_map]

/-! ## Options -/

theorem inlined_scopedValue (hs : table.Sound) (locals : List String) (asProperty : Bool) (a : Attribute) :
    (scopedValue locals asProperty a).inlined table = scopedValue locals asProperty a := by
  have hplain : (plainValue locals asProperty a.value).inlined table = plainValue locals asProperty a.value := by
    cases a.value with
    | literal text => rfl
    | boolean value =>
      simp only [plainValue]
      split <;> rfl
    | expression expr => rfl
  unfold scopedValue
  split
  · rw [inlined_call hs, List.map_singleton, hplain]
  · rw [inlined_call hs, List.map_singleton, hplain]
  · exact hplain

theorem inlinedUnder_attributesOption (hs : table.Sound) (locals : List String) (name : String) (asProperty : Bool)
    (attributes : List Attribute) : Value.inlinedUnder table (attributesOption locals name asProperty attributes) =
      attributesOption locals name asProperty attributes := by
  unfold attributesOption
  split
  · rfl
  · simp [Value.inlinedUnder_eq_map, Value.inlined, inlined_scopedValue hs]

theorem inlinedUnder_classOption (hs : table.Sound) (locals : List String) (classes : Option ClassBinding) :
    Value.inlinedUnder table (classOption locals classes) = classOption locals classes := by
  rcases classes with _ | names | expr
  · rfl
  · simp [classOption, Value.inlinedUnder_eq_map, Value.inlined]
  · rw [classOption, Value.inlinedUnder, inlined_call hs]
    rfl

theorem inlinedUnder_styleEntry (table : HoistTable) (locals : List String) (style : Option StyleBinding) :
    Value.inlinedUnder table (styleEntry locals style) = styleEntry locals style := by
  rcases style with _ | declarations | expr
  · rfl
  · simp [styleEntry, Value.inlinedUnder_eq_map, Value.inlined, Value.inlinedOf_eq_map, declarationValue]
  · rfl

theorem inlinedUnder_elementOptions (hs : table.Sound) (locals : List String) (data : ElementData) (number : Nat) :
    Value.inlinedUnder table (elementOptions locals data number) = elementOptions locals data number := by
  have hsvg : Value.inlinedUnder table (if data.namespace = .svg then [("svg", Value.bool true)] else []) =
      if data.namespace = .svg then [("svg", Value.bool true)] else [] := by
    split <;> rfl
  have hkey : (keyOption locals number data.key).inlined table = keyOption locals number data.key := by
    cases data.key with
    | none => rfl
    | some expr =>
      rw [keyOption, inlined_call hs]
      rfl
  have hattributes := inlinedUnder_attributesOption hs locals "attrs" false data.attributes
  have hproperties := inlinedUnder_attributesOption hs locals "props" true data.properties
  have hclasses := inlinedUnder_classOption hs locals data.classes
  have hstyle := inlinedUnder_styleEntry table locals data.style
  simp only [Value.inlinedUnder_eq_map] at *
  simp only [elementOptions, List.map_append, List.map_cons, List.map_nil, hattributes, hproperties, hclasses, hstyle,
    hsvg, hkey]

/-- The option for listeners, if there are any, whether they are memoized or not. -/
def listenersOption (locals : List String) (listeners : List Listener) : List (String × Value) :=
  if listeners.isEmpty then []
  else [("on", .object (listeners.map fun l => (l.event, .call Helper.bind.localName [exprValue locals l.handler])))]

theorem inlinedUnder_listeners (hs : table.Sound) {locals : List String} {memoized : Bool} {listeners : List Listener}
    {entries : List (String × Value)} (h : ListenersRender locals memoized listeners entries) :
    Value.inlinedUnder table entries = listenersOption locals listeners := by
  unfold ListenersRender at h
  unfold listenersOption
  by_cases hempty : listeners.isEmpty = true
  · rw [if_pos hempty] at h ⊢
    rw [h, Value.inlinedUnder]
  · rw [if_neg hempty] at h ⊢
    obtain ⟨handlers, hhandlers, rfl⟩ := h
    have hentries : Value.inlinedUnder table handlers = listeners.map fun l =>
        (l.event, .call Helper.bind.localName [exprValue locals l.handler]) := by
      rw [Value.inlinedUnder_eq_map]
      refine forall₂_eq_map (List.forall₂_map_right_iff.2 (hhandlers.imp fun l entry hentry => ?_))
      obtain ⟨hevent, hvalue⟩ := hentry
      have hbound : (Value.call Helper.bind.localName [exprValue locals l.handler]).inlined table =
          .call Helper.bind.localName [exprValue locals l.handler] := by
        rw [inlined_call hs]
        rfl
      split at hvalue
      · obtain ⟨n, hn⟩ := hvalue
        rw [hevent, hn, Value.inlined, hbound]
      · rw [hevent, hvalue, hbound]
    rw [Value.inlinedUnder, Value.inlinedUnder, Value.inlined, hentries]

/-- Options with declarations put in are the options themselves. -/
theorem inlined_options (hs : table.Sound) {entries : List (String × Value)} {v : Value}
    (h : OptionsRender table entries v) : v.inlined table = .object (Value.inlinedUnder table entries) := by
  unfold OptionsRender at h
  split at h
  · rename_i hliteral
    obtain ⟨name, hname, rfl⟩ := h
    rw [Value.inlined, hs.constant? hliteral hname, Option.getD_some, ← Value.inlined,
      Value.inlined_of_isLiteral table _ hliteral]
  · obtain ⟨entries', hrender, rfl⟩ := h
    rw [Value.inlined, Value.inlinedUnder_eq_map, Value.inlinedUnder_eq_map]
    refine congrArg Value.object (List.forall₂_eq_eq_eq ▸ ?_)
    rw [List.forall₂_map_left_iff, List.forall₂_map_right_iff]
    refine hrender.flip.imp fun entry' entry hentry => ?_
    obtain ⟨hkey, hvalue⟩ := hentry
    split at hvalue
    · rename_i hseparate
      obtain ⟨name, hname, heq⟩ := hvalue
      have hliteral := isLiteral_of_isSeparate hseparate
      rw [hkey, heq, Value.inlined, hs.constant? hliteral hname, Option.getD_some,
        Value.inlined_of_isLiteral table _ hliteral]
    · rw [hkey, hvalue]

/-- What is left of the options of an element depends on the element and its key alone. -/
theorem inlined_elementOptions (hs : table.Sound) {sources : Sources} {locals : List String} {id : Nat}
    {data : ElementData} {facts : Facts} {v : Value} (h : ElementOptionsRender sources table locals id data facts v) :
    ∃ number, facts.key = some number ∧
      v.inlined table = .object (elementOptions locals data number ++ listenersOption locals data.listeners) := by
  obtain ⟨number, listeners, hnumber, hlisteners, hoptions⟩ := h
  refine ⟨number, hnumber, ?_⟩
  have helement := inlinedUnder_elementOptions hs locals data number
  have hlistener := inlinedUnder_listeners hs hlisteners
  rw [inlined_options hs hoptions, Value.inlinedUnder_eq_map, List.map_append, ← Value.inlinedUnder_eq_map,
    ← Value.inlinedUnder_eq_map, helement, hlistener]

theorem inlined_slotOptions (hs : table.Sound) {locals : List String} {attributes : List Attribute} {number : Nat}
    {v : Value} (h : OptionsRender table (slotEntries locals attributes number) v) :
    v.inlined table = .object (slotEntries locals attributes number) := by
  have hattributes := inlinedUnder_attributesOption hs locals "attrs" false attributes
  rw [inlined_options hs h, slotEntries, Value.inlinedUnder_eq_map, List.map_append, ← Value.inlinedUnder_eq_map,
    hattributes]
  rfl

/-! ## Text and lists -/

theorem inlined_joined (hs : table.Sound) (locals : List String) (parts : List TextPart) :
    (joined (parts.map (pieceValue locals))).inlined table = joined (parts.map (pieceValue locals)) := by
  have hpiece : ∀ part, (pieceValue locals part).inlined table = pieceValue locals part := by
    intro part
    cases part with
    | literal text => rfl
    | expression expr =>
      rw [pieceValue, inlined_call hs]
      rfl
  have hpieces : (parts.map (pieceValue locals)).map (Value.inlined table) = parts.map (pieceValue locals) := by
    simp [hpiece]
  unfold joined
  split
  · rename_i piece heq
    rw [heq] at hpieces
    simpa using hpieces
  · rw [Value.inlined, Value.inlinedOf_eq_map, hpieces]

theorem inlined_arrayOf (hs : table.Sound) (nodes : List Node) (values : List Value) :
    (arrayOf nodes values).inlined table = arrayOf nodes (values.map (Value.inlined table)) := by
  unfold arrayOf
  split
  · rw [inlined_call hs, List.map_singleton, Value.inlined, Value.inlinedOf_eq_map]
  · rw [Value.inlined, Value.inlinedOf_eq_map]

theorem inlined_slottedOf (hs : table.Sound) (children : List Node) (slots : List (String × List Value)) :
    (slottedOf children slots).inlined table =
      slottedOf children (slots.map fun slot => (slot.1, slot.2.map (Value.inlined table))) := by
  unfold slottedOf
  split
  · rfl
  · rw [Value.inlined, Value.inlinedUnder_eq_map, List.map_map, List.map_map]
    refine congrArg Value.object (List.map_congr_left fun slot _ => ?_)
    simp [Value.inlined, inlined_arrayOf hs]

end TemplateCompiler.Render

import Mathlib.Data.Option.Basic
import TemplateCompiler.Proofs.Render.Inlined
import TemplateCompiler.Proofs.Template.Written
/-!
# The shape that a body describes

`Value.shape?` reads off a value which tree it describes, where the value makes elements, texts and comments that never
change. What is read off the value of such a node is the shape of the node as it is written (`shape?_of_renders`).
-/

namespace TemplateCompiler.Render

open TemplateCompiler.Template TemplateCompiler.Binding
open Markup (lowerName writtenPairs writtenShapes soundRules)

/-! ## Reading shapes -/

namespace Value

/-- An attribute with a text as its value. -/
def attribute? : String × Value → Option (String × String)
  | (name, .string text) => some (lowerName name, text)
  | _ => none

/-- A class. -/
def className? : String × Value → Option String
  | (name, .bool true) => some name
  | _ => none

/-- A style declaration. -/
def declaration? : Value → Option StyleDeclaration
  | .array [.string property, .string value, .bool important] => some ⟨property, value, important⟩
  | _ => none

/-- The attributes among options. -/
def attributes? (options : List (String × Value)) : Option (List (String × String)) :=
  match options.lookup "attrs" with
  | none => some []
  | some (.object entries) => entries.mapM attribute?
  | some _ => none

/-- The classes among options. -/
def classNames? (options : List (String × Value)) : Option (List String) :=
  match options.lookup "classMap" with
  | none => some []
  | some (.object entries) => entries.mapM className?
  | some _ => none

/-- The style among options. -/
def declarations? (options : List (String × Value)) : Option (List StyleDeclaration) :=
  match options.lookup "styleDecls" with
  | none => some []
  | some (.array items) => items.mapM declaration?
  | some _ => none

/-- Whether an option is one of an element that never changes. -/
def isStaticOption (name : String) : Bool :=
  ["attrs", "classMap", "styleDecls", "svg", "key"].contains name

/-- A string. -/
def string? : Value → Option String
  | .string text => some text
  | _ => none

/-- A text that never changes. -/
def content? : Value → Option String
  | .string text => some text
  | .concat parts => (parts.mapM string?).map String.join
  | _ => none

mutual

/-- The shape that a value describes. -/
def shape? : Value → Option Shape
  | .call callee arguments =>
    match Helper.named? callee, arguments with
    | some .element, [.string tag, .object options, .array items, .number _] => do
      guard (options.all fun option => isStaticOption option.1)
      return .element (lowerName tag) (← attributes? options) (← classNames? options) (← declarations? options)
        (← shapesOf? items)
    | some .text, [content] => content.content?.map .text
    | some .comment, [.string text] => some (.comment text)
    | _, _ => none
  | _ => none

/-- The shapes that values describe. -/
def shapesOf? : List Value → Option (List Shape)
  | [] => some []
  | v :: vs => do return (← v.shape?).before (← shapesOf? vs)

end

end Value

/-! ## The shapes of options -/

theorem mapM_eq_some_map {α β : Type} {f : α → Option β} {g : α → β} {xs : List α} (h : ∀ x ∈ xs, f x = some (g x)) :
    xs.mapM f = some (xs.map g) := by
  induction xs with
  | nil => rfl
  | cons x xs ih =>
    rw [List.mapM_cons, h x (by simp), ih fun y hy => h y (by simp [hy])]
    rfl

/-- What is read of an attribute that can be written and never changes. -/
theorem attribute?_of_isWritable (locals : List String) {a : Attribute} (hvalue : a.value.IsWritable)
    (hscoping : a.scoping = none) (hliteral : a.value.isExpression = false) :
    ∃ text, a.written? = some text ∧
      Value.attribute? (a.name, scopedValue locals false a) = some (lowerName a.name, text.2.getD "") := by
  have hscoped : scopedValue locals false a = plainValue locals false a.value := by rw [scopedValue, hscoping]
  rw [hscoped]
  unfold Attribute.written?
  cases hv : a.value with
  | literal text => exact ⟨(a.name, some text), rfl, rfl⟩
  | boolean value =>
    rw [hv] at hvalue
    obtain rfl : value = true := hvalue
    exact ⟨(a.name, none), rfl, rfl⟩
  | expression expr =>
    rw [hv] at hliteral
    cases hliteral

theorem mapM_attribute? (locals : List String) {attributes : List Attribute}
    (hvalues : ∀ a ∈ attributes, a.value.IsWritable) (hscoping : ∀ a ∈ attributes, a.scoping = none)
    (hliteral : ∀ a ∈ attributes, a.value.isExpression = false) :
    (attributes.map fun a => (a.name, scopedValue locals false a)).mapM Value.attribute? =
      some (namedAttributes attributes) := by
  induction attributes with
  | nil => rfl
  | cons a attributes ih =>
    have hrest := ih (fun b hb => hvalues b (by simp [hb])) (fun b hb => hscoping b (by simp [hb]))
      fun b hb => hliteral b (by simp [hb])
    obtain ⟨w, hw, hread⟩ := attribute?_of_isWritable locals (hvalues a (by simp)) (hscoping a (by simp))
      (hliteral a (by simp))
    rw [List.map_cons, List.mapM_cons, hread, hrest]
    simp [namedAttributes, List.filterMap_cons_some hw, writtenPairs, Attribute.written?_name hw]

theorem name_attributesOption (locals : List String) (name : String) (asProperty : Bool) (attributes : List Attribute) :
    ∀ option ∈ attributesOption locals name asProperty attributes, option.1 = name := by
  unfold attributesOption
  split <;> simp

theorem name_classOption (locals : List String) {classes : Option ClassBinding}
    (h : classes.any ClassBinding.isDynamic = false) : ∀ option ∈ classOption locals classes, option.1 = "classMap" := by
  rcases classes with _ | names | expr
  · simp [classOption]
  · simp [classOption]
  · cases h

theorem name_styleEntry (locals : List String) {style : Option StyleBinding}
    (h : style.any StyleBinding.isDynamic = false) : ∀ option ∈ styleEntry locals style, option.1 = "styleDecls" := by
  rcases style with _ | declarations | expr
  · simp [styleEntry]
  · simp [styleEntry]
  · cases h

/-- The option for elements of SVG. -/
def svgOption («namespace» : ElementNamespace) : List (String × Value) :=
  if «namespace» = .svg then [("svg", .bool true)] else []

theorem name_svgOption («namespace» : ElementNamespace) : ∀ option ∈ svgOption «namespace», option.1 = "svg" := by
  unfold svgOption
  split <;> simp

/-- The options of an element without properties. -/
theorem elementOptions_eq (locals : List String) {data : ElementData} (number : Nat) (h : data.properties = []) :
    elementOptions locals data number = attributesOption locals "attrs" false data.attributes ++
      classOption locals data.classes ++ styleEntry locals data.style ++ svgOption data.namespace ++
      [("key", keyOption locals number data.key)] := by
  rw [elementOptions, h, show attributesOption locals "props" true [] = [] from rfl, List.append_nil, svgOption]

theorem classNames?_classOption (locals : List String) {classes : Option ClassBinding}
    (h : classes.any ClassBinding.isDynamic = false) :
    Value.classNames? (classOption locals classes) = some (classNames classes) := by
  rcases classes with _ | names | expr
  · rfl
  · change (names.map fun name => (name, Value.bool true)).mapM Value.className? = some names
    rw [List.mapM_map]
    exact (mapM_eq_some_map fun name _ => rfl).trans (by rw [List.map_id'])
  · cases h

theorem declarations?_styleEntry (locals : List String) {style : Option StyleBinding}
    (h : style.any StyleBinding.isDynamic = false) :
    Value.declarations? (styleEntry locals style) = some (declarationsOf style) := by
  rcases style with _ | declarations | expr
  · rfl
  · change (declarations.map declarationValue).mapM Value.declaration? = some declarations
    rw [List.mapM_map]
    exact (mapM_eq_some_map fun d _ => rfl).trans (by rw [List.map_id'])
  · cases h

theorem attributes?_attributesOption (locals : List String) {attributes : List Attribute}
    (hvalues : ∀ a ∈ attributes, a.value.IsWritable) (hscoping : ∀ a ∈ attributes, a.scoping = none)
    (hliteral : ∀ a ∈ attributes, a.value.isExpression = false) :
    Value.attributes? (attributesOption locals "attrs" false attributes) = some (namedAttributes attributes) := by
  unfold attributesOption
  by_cases hempty : attributes.isEmpty = true
  · rw [if_pos hempty, List.isEmpty_iff.1 hempty]
    rfl
  · rw [if_neg hempty]
    exact mapM_attribute? locals hvalues hscoping hliteral

/-- What is read of the options of an element that can be written and never changes. -/
theorem read_elementOptions (locals : List String) {data : ElementData} (h : data.Writable []) (number : Nat)
    (hbound : data.isBound = false) (hproperties : data.properties = []) :
    (elementOptions locals data number).all (fun option => Value.isStaticOption option.1) = true ∧
      Value.attributes? (elementOptions locals data number) = some (namedAttributes data.attributes) ∧
      Value.classNames? (elementOptions locals data number) = some (classNames data.classes) ∧
      Value.declarations? (elementOptions locals data number) = some (declarationsOf data.style) ∧
      (elementOptions locals data number).lookup "key" = some (.number number) := by
  simp only [ElementData.isBound, Bool.or_eq_false_iff, List.any_eq_false, Bool.not_eq_true] at hbound
  obtain ⟨⟨⟨⟨⟨hliteral, -⟩, hclasses⟩, hstyle⟩, -⟩, hnoKey⟩ := hbound
  have hattrs := name_attributesOption locals "attrs" false data.attributes
  have hclassMap := name_classOption locals hclasses
  have hstyleDecls := name_styleEntry locals hstyle
  have hsvg := name_svgOption data.namespace
  have hkey : ∀ option ∈ [("key", keyOption locals number data.key)], option.1 = "key" := by simp
  -- Every reader looks up one of the names, and the other options have other names.
  have hother {name : String} {options : List (String × Value)} (hname : ∀ option ∈ options, option.1 = name)
      {other : String} (hne : name ≠ other) : options.lookup other = none :=
    lookup_eq_none_of_ne fun option ho => (hname option ho).trans_ne hne
  rw [← attributes?_attributesOption locals h.values h.unscoped hliteral, ← classNames?_classOption locals hclasses,
    ← declarations?_styleEntry locals hstyle, elementOptions_eq locals number hproperties]
  refine ⟨?_, ?_, ?_, ?_, ?_⟩
  · simp only [List.all_append, Bool.and_eq_true, List.all_eq_true]
    refine ⟨⟨⟨⟨fun option ho => ?_, fun option ho => ?_⟩, fun option ho => ?_⟩, fun option ho => ?_⟩, fun option ho => ?_⟩
    · rw [hattrs option ho]
      decide
    · rw [hclassMap option ho]
      decide
    · rw [hstyleDecls option ho]
      decide
    · rw [hsvg option ho]
      decide
    · rw [hkey option ho]
      decide
  · simp [Value.attributes?, List.lookup_append, hother hclassMap, hother hstyleDecls, hother hsvg, hother hkey]
  · simp [Value.classNames?, List.lookup_append, hother hattrs, hother hstyleDecls, hother hsvg, hother hkey]
  · simp [Value.declarations?, List.lookup_append, hother hattrs, hother hclassMap, hother hsvg, hother hkey]
  · have hnumber : keyOption locals number data.key = .number number := by
      cases hdata : data.key with
      | none => rfl
      | some expr => simp [hdata] at hnoKey
    simp [List.lookup_append, hother hattrs, hother hclassMap, hother hstyleDecls, hother hsvg, hnumber]

theorem listenersOption_of_unbound (locals : List String) {data : ElementData} (h : data.isBound = false) :
    listenersOption locals data.listeners = [] := by
  rw [ElementData.isBound, Bool.or_eq_false_iff, Bool.or_eq_false_iff, Bool.not_eq_false'] at h
  exact if_pos h.1.2

/-! ## The shapes of nodes -/

/-- What is read of a text that never changes. -/
theorem content?_joined (locals : List String) {parts : List TextPart}
    (h : parts.any TextPart.isExpression = false) :
    (joined (parts.map (pieceValue locals))).content? = some (String.join (parts.map literalText)) := by
  have hpiece : ∀ part ∈ parts, pieceValue locals part = .string (literalText part) := by
    intro part hpart
    cases part with
    | literal text => rfl
    | expression expr => exact absurd rfl (List.any_eq_false.1 h _ hpart)
  rw [List.map_congr_left hpiece]
  have hstrings : (parts.map fun part => Value.string (literalText part)).mapM Value.string? =
      some (parts.map literalText) := by
    rw [List.mapM_map]
    exact mapM_eq_some_map fun part _ => rfl
  cases parts with
  | nil => rfl
  | cons part parts =>
    cases parts with
    | nil => simp [joined, Value.content?]
    | cons part' parts => exact congrArg (Option.map String.join) hstrings

theorem isDirective_of_areStatic {mode : RenderMode} {nodes : List Node} (h : areStatic mode nodes = true) :
    nodes.any Node.isDirective = false := by
  induction nodes with
  | nil => rfl
  | cons n ns ih =>
    obtain ⟨hn, hns⟩ := Bool.and_eq_true_iff.1 h
    rw [List.any_cons, ih hns, Bool.or_false]
    cases n with
    | conditional id p chain => cases hn
    | iteration id p loop children => cases hn
    | _ => rfl

/-- No node is rendered as a fragment. -/
def Sources.NoFragments (sources : Sources) : Prop :=
  ∀ id facts, sources.analysis.get? id = some facts → facts.isFragment = false

section Static

variable {sources : Sources} {table : HoistTable}

theorem Sources.NoFragments.isFragment (hnone : sources.NoFragments) (n : Node) : sources.isFragment n = false := by
  rw [Sources.isFragment, Option.any_eq_false]
  exact hnone n.id

mutual

/-- What is read off the value of a node that never changes, if no node is rendered as a fragment. -/
theorem shape?_of_renders (hs : table.Sound) (hnone : sources.NoFragments) (mode : RenderMode) (locals : List String) :
    ∀ (n : Node) (v : Value), NodeRenders sources table locals n v → n.isStatic mode = true →
      HaveOrigins soundRules n.all → (v.inlined table).shape? = some n.written.shape
  | .element id p role data children, v, h, hstatic, horigins => by
    cases role with
    | component => cases hstatic
    | dynamic constructor => cases hstatic
    | native =>
      obtain ⟨⟨e, content, hrule, hof, -⟩, hbelow⟩ := haveOrigins_cons.1 horigins
      simp only [Node.isStatic, Bool.and_eq_true, Bool.not_eq_true', ElementData.isPlain, List.isEmpty_iff] at hstatic
      obtain ⟨⟨hbound, hproperties, -⟩, hchildren⟩ := hstatic
      have hwritable := hof.writable hrule.1
      rw [NodeRenders] at h
      obtain ⟨facts, -, options, hoptions, values, hvalues, rfl⟩ := h.inner (hnone.isFragment _)
      obtain ⟨number, -, hinlined⟩ := inlined_elementOptions hs hoptions
      rw [listenersOption_of_unbound locals hbound, List.append_nil] at hinlined
      obtain ⟨hall, hattributes, hclasses, hstyle, -⟩ := read_elementOptions locals hwritable number hbound hproperties
      have hcontent := shapesOf?_of_renders hs hnone mode locals children values hvalues hchildren hbelow
      have harray : (arrayOf children values).inlined table = .array (values.map (Value.inlined table)) := by
        rw [inlined_arrayOf hs, arrayOf, isDirective_of_areStatic hchildren, if_neg Bool.false_ne_true]
      rw [inlined_call hs]
      simp only [List.map_cons, List.map_nil, hinlined, harray, Value.inlined]
      simp [Value.shape?, Helper.named?_localName, hall, hattributes, hclasses, hstyle, hcontent, Node.written,
        Markup.WrittenNode.shape, hwritable.shape]
  | .slot .., v, h, hstatic, horigins => by cases hstatic
  | .text id p parts, v, h, hstatic, horigins => by
    rw [NodeRenders] at h
    obtain ⟨facts, -, rfl⟩ := h.inner (hnone.isFragment _)
    have hliteral : parts.any TextPart.isExpression = false := by simpa [Node.isStatic] using hstatic
    rw [inlined_call hs, List.map_singleton, inlined_joined hs]
    simp [Value.shape?, Helper.named?_localName, content?_joined locals hliteral, Node.written, Markup.WrittenNode.shape]
  | .comment id p content, v, h, hstatic, horigins => by
    rw [NodeRenders] at h
    obtain ⟨facts, -, rfl⟩ := h.inner (hnone.isFragment _)
    rw [inlined_call hs]
    simp [Value.shape?, Value.inlined, Helper.named?_localName, Node.written, Markup.WrittenNode.shape]
  | .conditional .., v, h, hstatic, horigins => by cases hstatic
  | .iteration .., v, h, hstatic, horigins => by cases hstatic

theorem shapesOf?_of_renders (hs : table.Sound) (hnone : sources.NoFragments) (mode : RenderMode) (locals : List String) :
    ∀ (nodes : List Node) (values : List Value), NodesRender sources table locals (fun _ => true) nodes values →
      areStatic mode nodes = true → HaveOrigins soundRules (allNodes nodes) →
      Value.shapesOf? (values.map (Value.inlined table)) = some (writtenShapes (writtenOf nodes))
  | [], values, h, hstatic, horigins => by
    rw [NodesRender] at h
    rw [h]
    rfl
  | n :: ns, values, h, hstatic, horigins => by
    rw [areStatic, Bool.and_eq_true] at hstatic
    obtain ⟨hn, hns⟩ := haveOrigins_append.1 horigins
    rw [NodesRender, if_pos rfl] at h
    obtain ⟨v, rest, hv, hrest, rfl⟩ := h
    rw [List.map_cons, Value.shapesOf?, shape?_of_renders hs hnone mode locals n v hv hstatic.1 hn,
      shapesOf?_of_renders hs hnone mode locals ns rest hrest hstatic.2 hns]
    rfl

end

end Static

end TemplateCompiler.Render

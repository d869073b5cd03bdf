import TemplateCompiler.Proofs.Markup.KeptValues
import TemplateCompiler.Proofs.Markup.SoundDocument
import TemplateCompiler.Proofs.Render.FragmentMarkup
import TemplateCompiler.Proofs.Template.Facts
import TemplateCompiler.Proofs.Template.Style
/-!
# The markup of a node as a tree

The markup of a node that never changes is that of a written tree (`markup_written`). Where the node is made of a
document that can be written again, so can the tree be (`sound_written`).
-/

namespace TemplateCompiler.Template

open TemplateCompiler.Text TemplateCompiler.Binding
open Markup (WrittenNode writtenPairs Piece isPlain isPlainText isAttributeName lowerName attributeText piecesOf
  isVoidElement svgAttributeNames soundRules)
open Render (markup markupOfList startTag attributeMarkup classMarkup styleMarkup valueMarkup partMarkup escapeText
  escapeTextChar escapeValueChar append_eq_ok_iff)

/-! ## Written trees -/

/-- An attribute as it is written. One that is off is not written. -/
def Attribute.written? (a : Attribute) : Option (String × Option String) :=
  match a.value with
  | .literal text => some (a.name, some text)
  | .boolean true => some (a.name, none)
  | _ => none

/-- The attribute for the classes of an element. -/
def writtenClasses : Option ClassBinding → List (String × Option String)
  | some (.static names) => [("class", some (" ".intercalate names))]
  | _ => []

/-- The attribute for the style of an element. -/
def writtenStyle : Option StyleBinding → List (String × Option String)
  | some (.static declarations) => [("style", some (styleText declarations))]
  | _ => []

/-- The attributes of an element as they are written, with its classes and its style behind them. -/
def ElementData.written (data : ElementData) : List (String × Option String) :=
  data.attributes.filterMap Attribute.written? ++ writtenClasses data.classes ++ writtenStyle data.style

/-- A literal piece of text. -/
def literalText : TextPart → String
  | .literal text => text
  | .expression _ => ""

mutual

/-- A node as it is written, if it is an element, a text or a comment. -/
def Node.written : Node → WrittenNode
  | .element _ _ _ data children => .element data.tag data.written (writtenOf children)
  | .text _ _ parts => .text (String.join (parts.map literalText))
  | .comment _ _ content => .comment content
  | _ => .text ""

/-- Some nodes as they are written. -/
def writtenOf : List Node → List WrittenNode
  | [] => []
  | n :: ns => n.written :: writtenOf ns

end

/-! ## Markup -/

theorem toList_valueMarkup (name value : String) : (valueMarkup name value).toList = attributeText (name, some value) := by
  simp [valueMarkup, attributeText]

theorem toList_classMarkup (classes : Option ClassBinding) :
    (classMarkup classes).toList = (writtenClasses classes).flatMap attributeText := by
  rcases classes with _ | names | expr
  · rfl
  · simp [classMarkup, writtenClasses, toList_valueMarkup]
  · rfl

theorem toList_styleMarkup (style : Option StyleBinding) :
    (styleMarkup style).toList = (writtenStyle style).flatMap attributeText := by
  rcases style with _ | declarations | expr
  · rfl
  · simp [styleMarkup, writtenStyle, toList_valueMarkup]
  · rfl

theorem toList_attributeMarkup {a : Attribute} {text : String} (h : attributeMarkup a = .ok text) :
    text.toList = a.written?.toList.flatMap attributeText := by
  unfold attributeMarkup at h
  split at h
  · rename_i hvalue
    obtain rfl := Except.ok.inj h
    simp [Attribute.written?, hvalue, toList_valueMarkup]
  · rename_i hvalue
    obtain rfl := Except.ok.inj h
    simp [Attribute.written?, hvalue, attributeText]
  · rename_i hvalue
    obtain rfl := Except.ok.inj h
    simp [Attribute.written?, hvalue]
  · cases h

/-- The texts that the members of a list give, put together. -/
theorem toList_of_mapM {α ε : Type} {f : α → Except ε String} {g : α → List Char} {xs : List α} {texts : List String}
    (h : xs.mapM f = .ok texts) (hf : ∀ x ∈ xs, ∀ text, f x = .ok text → text.toList = g x) :
    ("".intercalate texts).toList = xs.flatMap g := by
  induction xs generalizing texts with
  | nil =>
    rw [List.mapM_nil] at h
    obtain rfl := Except.ok.inj h
    simp
  | cons x xs ih =>
    rw [List.mapM_cons] at h
    cases hx : f x with
    | error e => simp [hx, bind, Except.bind] at h
    | ok text =>
      cases hxs : xs.mapM f with
      | error e => simp [hx, hxs, bind, Except.bind] at h
      | ok rest =>
        obtain rfl : text :: rest = texts := by simpa [hx, hxs, bind, Except.bind, pure, Except.pure] using h
        rw [toList_intercalate, List.flatMap_cons, hf x (by simp) text hx, ← ih hxs fun y hy => hf y (by simp [hy])]
        cases rest with
        | nil => simp
        | cons t ts => rw [toList_intercalate]; simp

theorem toList_startTag {data : ElementData} {text : String} (h : startTag data = .ok text) :
    text.toList = (Piece.opening data.tag data.written).text := by
  unfold startTag at h
  cases hattributes : data.attributes.mapM attributeMarkup with
  | error e => simp [hattributes, bind, Except.bind] at h
  | ok texts =>
    have hmarkup := toList_of_mapM hattributes fun a _ text ha => toList_attributeMarkup ha
    have hkept : (data.attributes.flatMap fun a => a.written?.toList.flatMap attributeText) =
        (data.attributes.filterMap Attribute.written?).flatMap attributeText := by
      rw [← List.flatMap_assoc]
      simp [List.filterMap_eq_flatMap_toList]
    simp only [hattributes, bind, Except.bind, pure, Except.pure] at h
    rw [← Except.ok.inj h]
    simp [hmarkup, hkept, Piece.text, ElementData.written, toList_classMarkup, toList_styleMarkup]

theorem toList_partMarkup {part : TextPart} {text : String} (h : partMarkup part = .ok text) :
    text.toList = (literalText part).toList.flatMap escapeTextChar := by
  cases part with
  | literal content =>
    obtain rfl := Except.ok.inj h
    simp [escapeText, literalText]
  | expression expr => cases h

mutual

/-- The markup of a node is that of the written tree. -/
theorem markup_written : ∀ (n : Node) (html : String), markup n = .ok html → html.toList = n.written.markup
  | .element id p role data children, html, h => by
    cases role with
    | component => cases h
    | dynamic constructor => cases h
    | native =>
      unfold markup at h
      cases hstart : startTag data with
      | error e => simp [hstart, bind, Except.bind] at h
      | ok start =>
        by_cases hvoid : isVoidElement data.tag = true
        · obtain rfl : start = html := by simpa [hstart, hvoid, bind, Except.bind, pure, Except.pure] using h
          simp [toList_startTag hstart, Node.written, WrittenNode.markup, WrittenNode.pieces, hvoid]
        · cases hcontent : markupOfList children with
          | error e => simp [hstart, hvoid, hcontent, bind, Except.bind] at h
          | ok content =>
            have hhtml : start ++ content ++ "</" ++ data.tag ++ ">" = html := by
              simpa [hstart, hvoid, hcontent, bind, Except.bind, pure, Except.pure] using h
            rw [← hhtml]
            simp [toList_startTag hstart, markupOfList_written children content hcontent, Node.written,
              WrittenNode.markup, WrittenNode.pieces, hvoid, Piece.text]
  | .slot .., html, h => by cases h
  | .text id p parts, html, h => by
    unfold markup at h
    cases hparts : parts.mapM partMarkup with
    | error e => simp [hparts, bind, Except.bind] at h
    | ok texts =>
      obtain rfl : "".intercalate texts = html := by simpa [hparts, bind, Except.bind, pure, Except.pure] using h
      rw [toList_of_mapM hparts fun part _ text hpart => toList_partMarkup hpart]
      simp [Node.written, WrittenNode.markup, WrittenNode.pieces, Piece.text, List.flatMap_map, List.flatMap_assoc]
  | .comment id p content, html, h => by
    obtain rfl := Except.ok.inj h
    simp [Node.written, WrittenNode.markup, WrittenNode.pieces, Piece.text]
  | .conditional .., html, h => by cases h
  | .iteration .., html, h => by cases h

theorem markupOfList_written : ∀ (nodes : List Node) (html : String), markupOfList nodes = .ok html →
    html.toList = (piecesOf (writtenOf nodes)).flatMap Piece.text
  | [], html, h => by
    obtain rfl := Except.ok.inj h
    rfl
  | n :: ns, html, h => by
    rw [markupOfList] at h
    obtain ⟨first, rest, hfirst, hrest, rfl⟩ := append_eq_ok_iff.1 h
    rw [String.toList_append, markup_written n first hfirst, markupOfList_written ns rest hrest, writtenOf, piecesOf,
      List.flatMap_append, WrittenNode.markup]

end

/-! ## Attributes that can be written -/

/-- A value that can be written again: it is not off, and its text is plain. -/
def AttributeValue.IsWritable : AttributeValue → Prop
  | .literal text => isPlainText text = true
  | .boolean value => value = true
  | .expression _ => True

/-- The attributes of an element, none of them scoped, its classes and its style can be written side by side, and
attributes with the names `later`, in small letters, beside them. -/
structure ElementData.Writable (data : ElementData) (later : List String) : Prop where
  names : ∀ a ∈ data.attributes, isAttributeName a.name = true ∧ lowerName a.name ≠ "class" ∧ lowerName a.name ≠ "style"
  values : ∀ a ∈ data.attributes, a.value.IsWritable
  unscoped : ∀ a ∈ data.attributes, a.scoping = none
  distinct : ((data.attributes.map fun a => lowerName a.name) ++ later).Nodup
  classes : ∀ names, data.classes = some (.static names) →
    ∃ text, isPlainText text = true ∧ names = (words text).eraseDups
  style : ∀ declarations, data.style = some (.static declarations) →
    declarations ≠ [] ∧ ∃ text, isPlainText text = true ∧ declarations = styleDeclarations text

theorem isWritable_attributeValue {a : Markup.Attribute} {value : AttributeValue} (h : attributeValue a = .ok value)
    (hplain : isPlainText a.value = true) : value.IsWritable := by
  unfold attributeValue at h
  split at h
  · split at h
    · cases h
    · rename_i code _ _
      cases hread : readAttribute a code with
      | error problem =>
        rw [hread] at h
        cases h
      | ok expr =>
        rw [hread] at h
        obtain rfl := Except.ok.inj h
        trivial
  · obtain rfl := Except.ok.inj h
    split
    · exact hplain
    · rfl

/-- The name of an attribute is that of classes or of a style in small letters only if it is so as it is spelled. -/
theorem lowerName_ne {name : String} (hspelling : lowerName name = name ∨ name ∈ svgAttributeNames) :
    (name ≠ "class" → lowerName name ≠ "class") ∧ (name ≠ "style" → lowerName name ≠ "style") := by
  rcases hspelling with heq | hmem
  · rw [heq]
    exact ⟨id, id⟩
  · have hsvg : ∀ name ∈ svgAttributeNames, lowerName name ≠ "class" ∧ lowerName name ≠ "style" := by decide
    exact ⟨fun _ => (hsvg name hmem).1, fun _ => (hsvg name hmem).2⟩

namespace ElementData.Writable

variable {data : ElementData}

theorem start {tag : String} {«namespace» : ElementNamespace} {key : Option Expr} {later : List String}
    (h : later.Nodup) : ElementData.Writable ⟨tag, «namespace», [], [], none, none, [], key⟩ later :=
  ⟨by simp, by simp, by simp, by simpa using h, by simp, by simp⟩

/-- With what is not written, too. -/
theorem unwritten {later : List String} (h : data.Writable later) (properties : List Attribute)
    (listeners : List Listener) : { data with properties, listeners }.Writable later :=
  ⟨h.names, h.values, h.unscoped, h.distinct, h.classes, h.style⟩

theorem skip {name : String} {later : List String} (h : data.Writable (name :: later)) : data.Writable later :=
  ⟨h.names, h.values, h.unscoped, h.distinct.sublist ((List.sublist_cons_self name later).append_left _), h.classes, h.style⟩

theorem setClasses {later : List String} {value : AttributeValue} (h : data.Writable later) (hvalue : value.IsWritable) :
    (data.setClasses value).Writable later := by
  unfold ElementData.setClasses
  split
  · rename_i text
    split
    · exact h
    · refine ⟨h.names, h.values, h.unscoped, h.distinct, fun names hnames => ⟨text, hvalue, ?_⟩, h.style⟩
      injection hnames with hnames
      injection hnames with hnames
      exact hnames.symm
  · exact ⟨h.names, h.values, h.unscoped, h.distinct, by simp, h.style⟩
  · exact h

theorem setStyle {later : List String} {value : AttributeValue} (h : data.Writable later) (hvalue : value.IsWritable) :
    (data.setStyle value).Writable later := by
  unfold ElementData.setStyle
  split
  · rename_i text
    split
    · exact h
    · rename_i hne
      refine ⟨h.names, h.values, h.unscoped, h.distinct, h.classes, fun declarations hdeclarations => ?_⟩
      injection hdeclarations with hdeclarations
      injection hdeclarations with hdeclarations
      rw [← hdeclarations]
      exact ⟨hne, text, hvalue, rfl⟩
  · exact ⟨h.names, h.values, h.unscoped, h.distinct, h.classes, by simp⟩
  · exact h

theorem set {later : List String} {custom : Bool} {name : String} {value : AttributeValue} {position : Position}
    (h : data.Writable (lowerName name :: later)) (hname : isAttributeName name = true)
    (hspelling : lowerName name = name ∨ name ∈ svgAttributeNames) (hvalue : value.IsWritable) :
    (data.set custom name value position).Writable later := by
  obtain ⟨hclass, hstyle⟩ := lowerName_ne hspelling
  unfold ElementData.set
  split_ifs with h₁ h₂ h₃ h₄
  · exact h.skip.setClasses hvalue
  · exact h.skip.setStyle hvalue
  · exact h.skip.unwritten _ _
  · exact h.skip.unwritten _ _
  · refine ⟨?_, ?_, ?_, ?_, h.classes, h.style⟩
    · exact List.forall_mem_append.2 ⟨h.names, by simpa using ⟨hname, hclass h₁, hstyle h₂⟩⟩
    · exact List.forall_mem_append.2 ⟨h.values, by simpa using hvalue⟩
    · exact List.forall_mem_append.2 ⟨h.unscoped, by simp⟩
    · simpa using h.distinct

theorem add {later : List String} {custom : Bool} {a : Markup.Attribute} {data' : ElementData}
    (h : data.Writable (lowerName a.name :: later)) (hname : isAttributeName a.name = true)
    (hspelling : lowerName a.name = a.name ∨ a.name ∈ svgAttributeNames) (hvalue : isPlainText a.value = true)
    (hadd : data.add custom a = .ok data') : data'.Writable later := by
  rcases add_cases hadd with ⟨listener, rfl⟩ | ⟨value, hread, rfl⟩
  · exact h.skip.unwritten _ _
  · exact h.set hname hspelling (isWritable_attributeValue hread hvalue)

theorem addAll {custom : Bool} {attributes : List Markup.Attribute}
    (h : data.Writable (attributes.map fun a => lowerName a.name))
    (hattributes : ∀ a ∈ attributes, isAttributeName a.name = true ∧
      (lowerName a.name = a.name ∨ a.name ∈ svgAttributeNames) ∧ isPlainText a.value = true) :
    (data.addAll custom attributes).1.Writable [] := by
  induction attributes generalizing data with
  | nil => exact h
  | cons a attributes ih =>
    obtain ⟨⟨hname, hspelling, hvalue⟩, hrest⟩ := List.forall_mem_cons.1 hattributes
    rw [ElementData.addAll]
    cases hadd : data.add custom a with
    | ok data' => exact ih (h.add hname hspelling hvalue hadd) hrest
    | error problem => exact ih h.skip hrest

end ElementData.Writable

/-- What is made of an element that can be written again can be written again. -/
theorem ElementData.IsOf.writable {data : ElementData} {e : Markup.Element} (h : data.IsOf e) (hsound : e.Sound) :
    data.Writable [] := by
  obtain ⟨_, _, attributes, hsublist, rfl⟩ := h
  refine ElementData.Writable.addAll (.start (hsound.distinct.sublist (hsublist.map _))) fun a ha => ?_
  have ha := hsublist.subset ha
  exact ⟨hsound.names a ha, hsound.spellings a ha, hsound.values a ha⟩

/-! ## Start tags that are read back -/

theorem mem_writtenClasses {classes : Option ClassBinding} {a : String × Option String}
    (h : a ∈ writtenClasses classes) :
    ∃ names, classes = some (.static names) ∧ a = ("class", some (" ".intercalate names)) := by
  rcases classes with _ | names | expr
  · cases h
  · exact ⟨names, rfl, List.mem_singleton.1 h⟩
  · cases h

theorem mem_writtenStyle {style : Option StyleBinding} {a : String × Option String} (h : a ∈ writtenStyle style) :
    ∃ declarations, style = some (.static declarations) ∧ a = ("style", some (styleText declarations)) := by
  rcases style with _ | declarations | expr
  · cases h
  · exact ⟨declarations, rfl, List.mem_singleton.1 h⟩
  · cases h

theorem map_name_writtenClasses (classes : Option ClassBinding) :
    ((writtenClasses classes).map fun a => lowerName a.1).Sublist ["class"] := by
  rcases classes with _ | names | expr
  · exact List.nil_sublist _
  · simp [writtenClasses, show lowerName "class" = "class" by decide]
  · exact List.nil_sublist _

theorem map_name_writtenStyle (style : Option StyleBinding) :
    ((writtenStyle style).map fun a => lowerName a.1).Sublist ["style"] := by
  rcases style with _ | declarations | expr
  · exact List.nil_sublist _
  · simp [writtenStyle, show lowerName "style" = "style" by decide]
  · exact List.nil_sublist _

theorem Attribute.written?_name {a : Attribute} {w : String × Option String} (h : a.written? = some w) :
    w.1 = a.name := by
  unfold Attribute.written? at h
  split at h
  · rw [← Option.some.inj h]
  · rw [← Option.some.inj h]
  · cases h

theorem map_name_written (attributes : List Attribute) :
    ((attributes.filterMap Attribute.written?).map fun a => lowerName a.1).Sublist
      (attributes.map fun a => lowerName a.name) := by
  induction attributes with
  | nil => exact .refl _
  | cons a attributes ih =>
    rw [List.filterMap_cons]
    cases hw : a.written? with
    | none => exact ih.cons _
    | some w =>
      rw [List.map_cons, List.map_cons, Attribute.written?_name hw]
      exact ih.cons_cons _

theorem isPlainText_classes {text : String} (h : isPlainText text = true) :
    isPlainText (" ".intercalate (words text).eraseDups) = true := by
  refine List.all_eq_true.2 fun c hc => ?_
  rcases mem_intercalate hc with ⟨word, hword, hc⟩ | hc
  · exact List.all_eq_true.1 h c ((isWord_of_mem_words (List.mem_eraseDups.1 hword)).2 c hc)
  · obtain rfl : c = ' ' := by simpa using hc
    decide

theorem isPlainText_styleText {text : String} (h : isPlainText text = true) :
    isPlainText (styleText (styleDeclarations text)) = true := by
  refine List.all_eq_true.2 fun c hc => ?_
  rcases mem_styleText hc with ⟨d, hd, hc⟩ | hc
  · obtain ⟨-, hvalue, hproperty⟩ := sound_of_mem_styleDeclarations hd
    rcases hc with hc | hc
    · obtain ⟨e, he, rfl⟩ := hproperty c hc
      exact Markup.isPlain_toLower (List.all_eq_true.1 h e he)
    · exact List.all_eq_true.1 h c (hvalue c hc)
  · have hall : isPlainText ": !important;" = true := by decide
    exact List.all_eq_true.1 hall c hc

namespace ElementData.Writable

variable {data : ElementData}

/-- The start tag of an element that can be written is read back. -/
theorem sound_opening (h : data.Writable []) (htag : Markup.isTagName data.tag = true) :
    (Piece.opening data.tag data.written).Sound := by
  refine ⟨htag, fun w hw => ?_, ?_⟩
  · rcases List.mem_append.1 hw with hw | hw
    · rcases List.mem_append.1 hw with hw | hw
      · obtain ⟨a, ha, hw⟩ := List.mem_filterMap.1 hw
        refine ⟨Attribute.written?_name hw ▸ (h.names a ha).1, fun value hvalue => ?_⟩
        have hplain := h.values a ha
        unfold Attribute.written? at hw
        split at hw
        · rename_i text htext
          rw [htext] at hplain
          obtain rfl := Option.some.inj hw
          obtain rfl := Option.some.inj hvalue
          exact hplain
        · obtain rfl := Option.some.inj hw
          cases hvalue
        · cases hw
      · obtain ⟨names, hnames, rfl⟩ := mem_writtenClasses hw
        obtain ⟨text, htext, rfl⟩ := h.classes names hnames
        refine ⟨(by decide : isAttributeName "class" = true), fun value hvalue => ?_⟩
        rw [← Option.some.inj hvalue]
        exact isPlainText_classes htext
    · obtain ⟨declarations, hdeclarations, rfl⟩ := mem_writtenStyle hw
      obtain ⟨-, text, htext, rfl⟩ := h.style declarations hdeclarations
      refine ⟨(by decide : isAttributeName "style" = true), fun value hvalue => ?_⟩
      rw [← Option.some.inj hvalue]
      exact isPlainText_styleText htext
  · -- The names of the attributes are no names of classes or styles, of which there is one each.
    have hsublist := ((map_name_written data.attributes).append (map_name_writtenClasses data.classes)).append
      (map_name_writtenStyle data.style)
    have hnodup : (((data.attributes.map fun a => lowerName a.name) ++ ["class"]) ++ ["style"]).Nodup := by
      have hdistinct := h.distinct
      rw [List.append_nil] at hdistinct
      rw [List.append_assoc]
      refine List.nodup_append.2 ⟨hdistinct, by decide, fun x hx y hy => ?_⟩
      obtain ⟨a, ha, rfl⟩ := List.mem_map.1 hx
      have hnames := (h.names a ha).2
      simp only [List.cons_append, List.nil_append, List.mem_cons, List.not_mem_nil, or_false] at hy
      rcases hy with rfl | rfl
      · exact hnames.1
      · exact hnames.2
    rw [ElementData.written, List.map_append, List.map_append]
    exact hnodup.sublist hsublist

/-- No style that is written ends in a slash. -/
theorem style_noSlash (h : data.Writable []) : ∀ w ∈ data.written, lowerName w.1 = "style" →
    Markup.Assembly.endsInSlash false (w.2.getD "") = false := by
  intro w hw hstyle
  rcases List.mem_append.1 hw with hw | hw
  · rcases List.mem_append.1 hw with hw | hw
    · obtain ⟨a, ha, hw⟩ := List.mem_filterMap.1 hw
      rw [Attribute.written?_name hw] at hstyle
      exact absurd hstyle (h.names a ha).2.2
    · obtain ⟨names, -, rfl⟩ := mem_writtenClasses hw
      exact absurd hstyle (by decide : lowerName "class" ≠ "style")
  · obtain ⟨declarations, hdeclarations, rfl⟩ := mem_writtenStyle hw
    have hlast := getLast?_styleText (h.style declarations hdeclarations).1
    have hslash : "\x7d/".toList.isSuffixOf (styleText declarations).toList = false := by
      rw [Bool.eq_false_iff, ne_eq, List.isSuffixOf_iff_suffix]
      rintro ⟨front, hfront⟩
      rw [← hfront, show "\x7d/".toList = ['}', '/'] from rfl, List.getLast?_append_of_ne_nil _ (by simp)] at hlast
      cases hlast
    exact Bool.and_eq_false_iff.2 (.inr hslash)

end ElementData.Writable

/-! ## Shapes of written elements -/

/-- The classes of an element, those that are bound aside. -/
def classNames : Option ClassBinding → List String
  | some (.static names) => names
  | _ => []

/-- The style of an element, unless it is bound. -/
def declarationsOf : Option StyleBinding → List StyleDeclaration
  | some (.static declarations) => declarations
  | _ => []

theorem words_classNames {classes : Option ClassBinding} (h : ∀ names, classes = some (.static names) →
    ∃ text, isPlainText text = true ∧ names = (words text).eraseDups) :
    words (((writtenPairs (writtenClasses classes)).lookup "class").getD "") = classNames classes := by
  rcases classes with _ | names | expr
  · rfl
  · obtain ⟨text, -, rfl⟩ := h names rfl
    have hwords : ∀ word ∈ (words text).eraseDups, isWord word = true := fun word hword =>
      (isWord_of_mem_words (List.mem_eraseDups.1 hword)).1
    simpa [writtenClasses, writtenPairs, classNames] using words_intercalate hwords
  · rfl

theorem styleDeclarations_declarationsOf {style : Option StyleBinding} (h : ∀ declarations,
    style = some (.static declarations) →
      declarations ≠ [] ∧ ∃ text, isPlainText text = true ∧ declarations = styleDeclarations text) :
    styleDeclarations (((writtenPairs (writtenStyle style)).lookup "style").getD "") = declarationsOf style := by
  rcases style with _ | declarations | expr
  · rfl
  · obtain ⟨-, text, -, rfl⟩ := h declarations rfl
    have hsound : ∀ d ∈ styleDeclarations text, d.Sound := fun d hd => (sound_of_mem_styleDeclarations hd).1
    simpa [writtenStyle, writtenPairs, declarationsOf] using styleDeclarations_styleText hsound
  · rfl

/-- The attributes of an element, without its classes and its style, as they are compared. -/
def namedAttributes (attributes : List Attribute) : List (String × String) :=
  (writtenPairs (attributes.filterMap Attribute.written?)).map fun a => (lowerName a.1, a.2)

theorem map_lowerName_of_name {name : String} (hname : lowerName name = name) {pairs : List (String × String)}
    (h : ∀ a ∈ pairs, a.1 = name) : pairs.map (fun a => (lowerName a.1, a.2)) = pairs := by
  conv_rhs => rw [← List.map_id pairs]
  refine List.map_congr_left fun a ha => ?_
  rw [h a ha, hname, ← h a ha]
  rfl

theorem lookup_eq_none_of_ne {β : Type} {name : String} {pairs : List (String × β)} (h : ∀ a ∈ pairs, a.1 ≠ name) :
    pairs.lookup name = none :=
  List.lookup_eq_none_iff.2 fun a ha => by simpa using Ne.symm (h a ha)

/-- The shape of an element that can be written. -/
theorem ElementData.Writable.shape {data : ElementData} (h : data.Writable []) (children : List Shape) :
    Shape.ofElement data.tag (writtenPairs data.written) children =
      .element (lowerName data.tag) (namedAttributes data.attributes) (classNames data.classes)
        (declarationsOf data.style) children := by
  have hattributes : ∀ a ∈ namedAttributes data.attributes, a.1 ≠ "class" ∧ a.1 ≠ "style" := by
    intro a ha
    obtain ⟨pair, hpair, rfl⟩ := List.mem_map.1 ha
    obtain ⟨w, hw, rfl⟩ := List.mem_map.1 hpair
    obtain ⟨b, hb, hw⟩ := List.mem_filterMap.1 hw
    simpa [Attribute.written?_name hw] using (h.names b hb).2
  have hclasses : ∀ a ∈ writtenPairs (writtenClasses data.classes), a.1 = "class" := by
    intro a ha
    obtain ⟨w, hw, rfl⟩ := List.mem_map.1 ha
    obtain ⟨names, -, rfl⟩ := mem_writtenClasses hw
    rfl
  have hstyle : ∀ a ∈ writtenPairs (writtenStyle data.style), a.1 = "style" := by
    intro a ha
    obtain ⟨w, hw, rfl⟩ := List.mem_map.1 ha
    obtain ⟨declarations, -, rfl⟩ := mem_writtenStyle hw
    rfl
  have hnamed : (writtenPairs data.written).map (fun a => (lowerName a.1, a.2)) = namedAttributes data.attributes ++
      writtenPairs (writtenClasses data.classes) ++ writtenPairs (writtenStyle data.style) := by
    have hsplit : writtenPairs data.written = writtenPairs (data.attributes.filterMap Attribute.written?) ++
        writtenPairs (writtenClasses data.classes) ++ writtenPairs (writtenStyle data.style) := by
      rw [ElementData.written, writtenPairs, List.map_append, List.map_append]
      rfl
    rw [hsplit, List.map_append, List.map_append, map_lowerName_of_name (by decide) hclasses,
      map_lowerName_of_name (by decide) hstyle]
    rfl
  rw [Shape.ofElement, hnamed, ← words_classNames h.classes, ← styleDeclarations_declarationsOf h.style]
  generalize namedAttributes data.attributes = named at *
  generalize writtenPairs (writtenClasses data.classes) = classes at *
  generalize writtenPairs (writtenStyle data.style) = style at *
  have hkept : (named.filter fun a => a.1 != "class" && a.1 != "style") = named :=
    List.filter_eq_self.2 fun a ha => by simpa using hattributes a ha
  have hnoClasses : (classes.filter fun a => a.1 != "class" && a.1 != "style") = [] :=
    List.filter_eq_nil_iff.2 fun a ha => by simp [hclasses a ha]
  have hnoStyle : (style.filter fun a => a.1 != "class" && a.1 != "style") = [] :=
    List.filter_eq_nil_iff.2 fun a ha => by simp [hstyle a ha]
  have hnamedClass : named.lookup "class" = none := lookup_eq_none_of_ne fun a ha => (hattributes a ha).1
  have hnamedStyle : named.lookup "style" = none := lookup_eq_none_of_ne fun a ha => (hattributes a ha).2
  have hclassesStyle : classes.lookup "style" = none := lookup_eq_none_of_ne fun a ha => by simp [hclasses a ha]
  have hstyleClass : style.lookup "class" = none := lookup_eq_none_of_ne fun a ha => by simp [hstyle a ha]
  simp only [List.filter_append, hkept, hnoClasses, hnoStyle, List.append_nil, List.lookup_append, hnamedClass,
    hnamedStyle, hclassesStyle, hstyleClass, Option.none_or, Option.or_none]

/-! ## Nodes that are read back -/

/-- The pieces of a text without expressions are the text. -/
theorem join_literals {text : List Char} {parts : List TextPart} (h : splitText text = .ok parts)
    (hstatic : parts.any TextPart.isExpression = false) : (String.join (parts.map literalText)).toList = text := by
  unfold splitText splitFrom at h
  split at h
  · rename_i hrest
    have hrun : text.takeWhile (· != '{') = text := by
      have happend := List.takeWhile_append_dropWhile (p := (· != '{')) (l := text)
      rwa [hrest, List.append_nil] at happend
    obtain rfl := Except.ok.inj h
    rw [hrun, literalParts]
    cases text with
    | nil => rfl
    | cons c cs => simp [literalText]
  · -- A brace starts an expression.
    split at h
    · cases h
    · split at h
      · cases h
      · dsimp only at h
        split at h
        · cases h
        · obtain rfl := Except.ok.inj h
          simp [TextPart.isExpression] at hstatic

theorem isPlain_shown {keepBlanks : Bool} {source visible : String} (h : Text.shown keepBlanks source = some visible)
    (hplain : ∀ c ∈ source.toList, isPlain c = true) : ∀ c ∈ visible.toList, isPlain c = true := by
  intro c hc
  rcases mem_shown h hc with hc | rfl
  · exact hplain c hc
  · decide

theorem isVoidElement_lowerName {tag : String} (h : lowerName tag = tag ∨ tag ∈ Markup.svgElementNames) :
    isVoidElement (lowerName tag) = isVoidElement tag := by
  rcases h with heq | hmem
  · rw [heq]
  · exact (by decide : ∀ tag ∈ Markup.svgElementNames, isVoidElement (lowerName tag) = isVoidElement tag) tag hmem

mutual

/-- A node that never changes can be read back, if it is made of a document that can be written again. -/
theorem sound_written (mode : RenderMode) : ∀ n : Node, n.isStatic mode = true → HaveOrigins soundRules n.all →
    n.written.Sound
  | .element id p role data children, hstatic, horigins => by
    cases role with
    | component => cases hstatic
    | dynamic constructor => cases hstatic
    | native =>
      obtain ⟨⟨e, content, ⟨hsound, hvoid⟩, hof, hempty⟩, hbelow⟩ := haveOrigins_cons.1 horigins
      rw [Node.isStatic, Bool.and_eq_true] at hstatic
      have htag := hof.tag
      refine .element ?_ ?_ ?_ (sound_writtenOf mode children hstatic.2 hbelow)
      · exact (hof.writable hsound).sound_opening (htag ▸ hsound.tag)
      · exact isVoidElement_lowerName (htag ▸ hsound.tagSpelling)
      · intro hv
        rw [hempty (hvoid (htag ▸ hv)), writtenOf]
  | .slot .., hstatic, horigins => by cases hstatic
  | .text id p parts, hstatic, horigins => by
    obtain ⟨source, keepBlanks, visible, hplain, hshown, hparts⟩ := (haveOrigins_cons.1 horigins).1
    have hliteral : parts.any TextPart.isExpression = false := by simpa [Node.isStatic] using hstatic
    refine .text (List.all_eq_true.2 ?_)
    rw [join_literals hparts hliteral]
    exact isPlain_shown hshown hplain
  | .comment id p content, hstatic, horigins => .comment (haveOrigins_cons.1 horigins).1
  | .conditional .., hstatic, horigins => by cases hstatic
  | .iteration .., hstatic, horigins => by cases hstatic

theorem sound_writtenOf (mode : RenderMode) : ∀ nodes : List Node, areStatic mode nodes = true →
    HaveOrigins soundRules (allNodes nodes) → ∀ w ∈ writtenOf nodes, w.Sound
  | [], hstatic, horigins => by
    intro w hw
    cases hw
  | n :: ns, hstatic, horigins => by
    rw [areStatic, Bool.and_eq_true] at hstatic
    obtain ⟨hn, hns⟩ := haveOrigins_append.1 horigins
    intro w hw
    rcases List.mem_cons.1 hw with rfl | hw
    · exact sound_written mode n hstatic.1 hn
    · exact sound_writtenOf mode ns hstatic.2 hns w hw

end

mutual

/-- The start tags of a written node are those of the elements in it. -/
theorem mem_openings_written {o : String × List (String × Option String)} : ∀ n : Node, o ∈ n.written.openings →
    ∃ id p role data children, .element id p role data children ∈ n.all ∧ o = (data.tag, data.written)
  | .element id p role data children, ho => by
    rw [Node.written, WrittenNode.openings, WrittenNode.pieces, List.filterMap_cons] at ho
    rcases List.mem_cons.1 ho with rfl | ho
    · exact ⟨id, p, role, data, children, by simp [Node.all], rfl⟩
    · have hbelow : o ∈ (piecesOf (writtenOf children)).filterMap Piece.opening? := by
        split at ho
        · cases ho
        · simpa [List.filterMap_append, Piece.opening?] using ho
      obtain ⟨id', p', role', data', children', hmem, heq⟩ := mem_openings_writtenOf children hbelow
      exact ⟨id', p', role', data', children', List.mem_cons_of_mem _ hmem, heq⟩
  | .slot .., ho => by cases ho
  | .text id p parts, ho => by
    obtain ⟨piece, hpiece, ho⟩ := List.mem_filterMap.1 ho
    obtain ⟨c, -, rfl⟩ := List.mem_map.1 hpiece
    cases ho
  | .comment .., ho => by cases ho
  | .conditional .., ho => by cases ho
  | .iteration .., ho => by cases ho

theorem mem_openings_writtenOf {o : String × List (String × Option String)} : ∀ nodes : List Node,
    o ∈ (piecesOf (writtenOf nodes)).filterMap Piece.opening? →
    ∃ id p role data children, .element id p role data children ∈ allNodes nodes ∧ o = (data.tag, data.written)
  | [], ho => by cases ho
  | n :: ns, ho => by
    rw [writtenOf, piecesOf, List.filterMap_append] at ho
    rcases List.mem_append.1 ho with ho | ho
    · obtain ⟨id, p, role, data, children, hmem, heq⟩ := mem_openings_written n ho
      exact ⟨id, p, role, data, children, List.mem_append_left _ hmem, heq⟩
    · obtain ⟨id, p, role, data, children, hmem, heq⟩ := mem_openings_writtenOf ns ho
      exact ⟨id, p, role, data, children, List.mem_append_right _ hmem, heq⟩

end

theorem style_noSlash_written {n : Node} (h : HaveOrigins soundRules n.all) : ∀ o ∈ n.written.openings, ∀ w ∈ o.2,
    lowerName w.1 = "style" → Markup.Assembly.endsInSlash false (w.2.getD "") = false := by
  intro o ho
  obtain ⟨id, p, role, data, children, hmem, rfl⟩ := mem_openings_written n ho
  obtain ⟨e, content, hrule, hof, -⟩ := h _ hmem
  exact (hof.writable hrule.1).style_noSlash

/-- The start tags in the markup of a node show their quotes. -/
def Node.ShowsQuotes (n : Node) : Prop :=
  ∀ o ∈ n.written.openings, Markup.showsQuotes o.2 = true

instance (n : Node) : Decidable n.ShowsQuotes :=
  inferInstanceAs (Decidable (∀ o ∈ n.written.openings, Markup.showsQuotes o.2 = true))

/-- The markup of an element that never changes is read back as it was written exactly if its start tags show their
quotes. -/
theorem reread_markup {mode : RenderMode} {n : Node} (hcan : n.canBeFragment mode = true)
    (horigins : HaveOrigins soundRules n.all) {html : String} (hmarkup : markup n = .ok html) :
    (∃ document, Markup.parse html.toList = .ok document ∧ Markup.shapesOf document = [n.written.shape]) ↔
      n.ShowsQuotes := by
  have hsound := sound_written mode n (isStatic_of_canBeFragment hcan).1 horigins
  rw [markup_written n html hmarkup]
  unfold Node.canBeFragment at hcan
  split at hcan
  · exact Markup.reread_iff hsound (style_noSlash_written horigins)
  · cases hcan

end TemplateCompiler.Template

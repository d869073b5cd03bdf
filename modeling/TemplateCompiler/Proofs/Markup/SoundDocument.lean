import TemplateCompiler.Proofs.Markup.Reread
import TemplateCompiler.Proofs.Markup.Rules
import TemplateCompiler.Proofs.Markup.Sound
/-!
# Documents can be written again

What the tokens of a source are made of, the nodes of its document are made of too. So a document can be written as
markup that is read back, as far as its tags have no quotes in their names (`parse_sound`).
-/

namespace TemplateCompiler.Markup

open TemplateCompiler.Text

/-- An element that can be written again. Its names are in small letters, or spelled as in SVG. -/
structure Element.Sound (e : Element) : Prop where
  tag : isTagName e.tag = true
  tagSpelling : lowerName e.tag = e.tag ∨ e.tag ∈ svgElementNames
  names : ∀ a ∈ e.attributes, isAttributeName a.name = true
  spellings : ∀ a ∈ e.attributes, lowerName a.name = a.name ∨ a.name ∈ svgAttributeNames
  values : ∀ a ∈ e.attributes, isPlainText a.value = true
  distinct : (e.attributes.map fun a => lowerName a.name).Nodup

/-- A document can be written again, and its void elements have no content. -/
def soundRules : Rules where
  element e children := e.Sound ∧ (isVoidElement e.tag = true → children = [])
  character c := isPlain c = true
  comment text := isCommentText text = true

/-! ## Elements -/

theorem spelling_cases (names : List String) (name : String) :
    spelling names name = name ∨ spelling names name ∈ names := by
  unfold spelling
  cases hfind : names.find? (sameName · name) with
  | none => exact .inl rfl
  | some s => exact .inr (List.mem_of_find?_eq_some hfind)

/-- The name that an element or an attribute has in a document. -/
theorem spelled_cases (svg : Bool) (names : List String) (name : String) :
    (if svg then spelling names name else name) = name ∨ (if svg then spelling names name else name) ∈ names := by
  split
  · exact spelling_cases names name
  · exact .inl rfl

theorem attributes_names (source : List Char) (svg : Bool) (start : Nat) (ts : List TagAttribute)
    (raws : List RawAttribute) :
    (Assembly.attributes source svg start ts raws).1.map Attribute.name =
      ts.map fun t => if svg then spelling svgAttributeNames t.name else t.name := by
  induction ts generalizing raws with
  | nil => rfl
  | cons t ts ih =>
    rw [List.map_cons, ← ih (Assembly.takeRaw t.name raws).2, Assembly.attributes]
    obtain ⟨raw?, others⟩ := Assembly.takeRaw t.name raws
    cases raw? <;> rfl

theorem isPlainText_valueIn {t : TagAttribute} (h : isPlainText t.value = true) (raws : List RawAttribute) :
    isPlainText (valueIn raws t) = true := by
  unfold valueIn
  split
  · refine List.all_eq_true.2 fun c hc => List.all_eq_true.1 h c ?_
    rw [String.toList_ofList] at hc
    exact (List.dropLast_sublist _).subset hc
  · exact h

/-- The attributes of an element differ in their names as those of its tag do. -/
theorem distinct_elementOf {t : Tag} (h : t.Sound) (hnodup : (t.attributes.map TagAttribute.name).Nodup)
    (source : List Char) (svg : Bool) (start : Cursor) (raws : List RawAttribute) :
    ((Assembly.elementOf source svg start t raws).attributes.map fun a => lowerName a.name).Nodup := by
  have hlower := congrArg (List.map Prod.fst) (attributes_eq source svg start.offset raws hnodup).1
  have hsmall : (t.attributes.map fun u => lowerName u.name) = t.attributes.map TagAttribute.name :=
    List.map_congr_left fun u hu => (h.attributes u hu).small
  rw [List.map_map, List.map_map] at hlower
  have helement : (Assembly.elementOf source svg start t raws).attributes =
      (Assembly.attributes source svg start.offset t.attributes raws).1 := rfl
  rw [helement, show List.map (fun a => lowerName a.name) (Assembly.attributes source svg start.offset t.attributes
    raws).1 = t.attributes.map TagAttribute.name from hlower.trans hsmall]
  exact hnodup

theorem sound_elementOf {t : Tag} (h : t.Sound) (hnodup : (t.attributes.map TagAttribute.name).Nodup)
    (hquote : t.hasQuotedName = false) (source : List Char) (svg : Bool) (start : Cursor) (raws : List RawAttribute) :
    (Assembly.elementOf source svg start t raws).Sound := by
  have hnames := attributes_names source svg start.offset t.attributes raws
  obtain ⟨hpairs, -⟩ := attributes_eq source svg start.offset raws hnodup
  have hsvgTags : ∀ name ∈ svgElementNames, isTagName name = true := by decide
  have hsvgNames : ∀ name ∈ svgAttributeNames, isAttributeName name = true := by decide
  have hname : ∀ a ∈ (Assembly.attributes source svg start.offset t.attributes raws).1, ∃ u ∈ t.attributes,
      a.name = if svg then spelling svgAttributeNames u.name else u.name := by
    intro a ha
    have hmem := List.mem_map_of_mem (f := Attribute.name) ha
    rw [hnames] at hmem
    obtain ⟨u, hu, heq⟩ := List.mem_map.1 hmem
    exact ⟨u, hu, heq.symm⟩
  constructor
  case tag =>
    change isTagName (if svg then spelling svgElementNames t.name else t.name) = true
    rcases spelled_cases svg svgElementNames t.name with heq | hmem
    · rw [heq]
      refine Bool.and_eq_true_iff.2 ⟨h.start, List.all_eq_true.2 fun c hc => ?_⟩
      have hc' := List.any_eq_false.1 hquote c hc
      simp [h.name c hc, hc']
    · exact hsvgTags _ hmem
  case tagSpelling =>
    change lowerName (if svg then spelling svgElementNames t.name else t.name) = _ ∨
      (if svg then spelling svgElementNames t.name else t.name) ∈ _
    rcases spelled_cases svg svgElementNames t.name with heq | hmem
    · exact .inl (by rw [heq]; exact h.small.trans heq.symm)
    · exact .inr hmem
  case names =>
    intro a ha
    obtain ⟨u, hu, heq⟩ := hname a ha
    rw [heq]
    rcases spelled_cases svg svgAttributeNames u.name with hsame | hmem
    · rw [hsame]
      exact (h.attributes u hu).name
    · exact hsvgNames _ hmem
  case spellings =>
    intro a ha
    obtain ⟨u, hu, heq⟩ := hname a ha
    rw [heq]
    rcases spelled_cases svg svgAttributeNames u.name with hsame | hmem
    · exact .inl (by rw [hsame]; exact (h.attributes u hu).small)
    · exact .inr hmem
  case values =>
    intro a ha
    have hmem : (lowerName a.name, a.value) ∈ t.attributes.map fun u => (lowerName u.name, valueIn raws u) := by
      rw [← hpairs]
      exact List.mem_map_of_mem ha
    obtain ⟨u, hu, heq⟩ := List.mem_map.1 hmem
    rw [← (Prod.mk.inj heq).2]
    exact isPlainText_valueIn (h.attributes u hu).value raws
  case distinct => exact distinct_elementOf h hnodup source svg start raws

/-! ## Documents -/

theorem gives_soundRules {token : Token} (h : token.Sound) (hquote : ∀ t, token = .tag t → t.hasQuotedName = false) :
    token.Gives soundRules := by
  cases token with
  | character c => exact h
  | comment text => exact h
  | doctype => trivial
  | tag t =>
    refine fun source svg start raws => ?_
    have hsound := sound_elementOf h.1 h.2 (hquote t rfl) source svg start raws
    obtain ⟨-, hopen⟩ := gives_voidsEmpty (.tag t) source svg start raws
    exact ⟨⟨hsound, fun _ => rfl⟩, fun hv children => ⟨hsound, hopen hv children⟩⟩

/-- The tag that a token is. -/
def Token.tag? : Token → Option Tag
  | .tag t => some t
  | _ => none

/-- No tag of a source has a quote in its name. -/
def NoQuotedTags (source : List Char) : Prop :=
  ∀ t : Tag, .tag t ∈ (tokenize source).tokens → t.hasQuotedName = false

theorem noQuotedTags_iff {source : List Char} :
    NoQuotedTags source ↔ ∀ t ∈ (tokenize source).tokens.filterMap Token.tag?, t.hasQuotedName = false := by
  have htag : ∀ token t, Token.tag? token = some t ↔ token = .tag t := by
    intro token t
    cases token <;> simp [Token.tag?]
  simp [NoQuotedTags, htag]

instance (source : List Char) : Decidable (NoQuotedTags source) :=
  decidable_of_iff _ noQuotedTags_iff.symm

/-- The document of a source without quotes in the names of its tags can be written again. -/
theorem parse_sound {source : List Char} {document : List Node} (h : parse source = .ok document)
    (hquote : NoQuotedTags source) : AllObey soundRules document :=
  parse_obeys h fun token htoken =>
    gives_soundRules (sound_of_mem_tokenize token htoken) fun t ht => hquote t (ht ▸ htoken)

end TemplateCompiler.Markup

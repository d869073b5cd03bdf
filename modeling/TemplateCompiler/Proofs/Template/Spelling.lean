import TemplateCompiler.Proofs.Markup.SvgNames
import TemplateCompiler.Proofs.Template.Authored
/-!
# Spellings and namespaces

Names that mix cases in SVG are spelled so where markup is read, and the namespace of an element is decided where a template
is built. The two agree on an element with such a name exactly if it is an `svg` element, or stands in no `foreignObject`
and, if the template is to be the content of an `svg` element, in an `svg` element of its own (`ofDocument_namesAgree`).
-/

namespace TemplateCompiler

open Template

namespace Markup

/-! ## Names that mix cases -/

/-- Names that differ up to case, and are not in small letters. -/
structure MixedNames (names : List String) : Prop where
  distinct : ∀ s ∈ names, ∀ s' ∈ names, sameName s s' = true → s = s'
  mixed : ∀ s ∈ names, lowerName s ≠ s

theorem mixedNames_of_nodup {names : List String} (hnodup : (names.map lowerName).Nodup)
    (hmixed : ∀ s ∈ names, lowerName s ≠ s) : MixedNames names where
  distinct _ hs _ hs' hsame := List.inj_on_of_nodup_map hnodup hs hs' (by simpa [sameName] using hsame)
  mixed := hmixed

theorem mixedNames_elements : MixedNames svgElementNames :=
  mixedNames_of_nodup (by decide +kernel) (by decide +kernel)

theorem mixedNames_attributes : MixedNames svgAttributeNames :=
  mixedNames_of_nodup (by decide +kernel) (by decide +kernel)

/-- A name is one of `names` up to case. -/
def IsAmong (names : List String) (name : String) : Prop :=
  ∃ s ∈ names, sameName s name = true

/-- In SVG, a name that is one of `names` up to case is one of them, and in HTML none is. -/
def NameAgrees (names : List String) (place : ElementNamespace) (name : String) : Prop :=
  match place with
  | .svg => ∀ s ∈ names, sameName s name = true → name = s
  | .html => name ∉ names

theorem sameName_lowerName (s name : String) : sameName s (lowerName name) = sameName s name := by
  simp [sameName]

theorem spelling_mem {names : List String} {name : String} (h : IsAmong names name) :
    spelling names (lowerName name) ∈ names := by
  obtain ⟨s, hs, hsame⟩ := h
  unfold spelling
  cases hfind : names.find? (sameName · (lowerName name)) with
  | some found => exact List.mem_of_find?_eq_some hfind
  | none =>
    rw [List.find?_eq_none] at hfind
    exact absurd ((sameName_lowerName s name).trans hsame) (by simpa using hfind s hs)

theorem isAmong_of_mem {names : List String} {name : String} (h : name ∈ names) : IsAmong names name :=
  ⟨name, h, sameName_refl name⟩

/-- A name that is spelled as in SVG, or in small letters, agrees with the namespace of SVG, or of HTML, or is not among the
names. -/
theorem Spelled.nameAgrees_iff {svg : Bool} {names : List String} {place : ElementNamespace} {name : String}
    (hnames : MixedNames names) (h : Spelled svg names name) :
    NameAgrees names place name ↔ (IsAmong names name → (place = .svg ↔ svg = true)) := by
  cases svg with
  | true =>
    rw [Spelled, if_pos rfl] at h
    have hmem (hamong : IsAmong names name) : name ∈ names := h ▸ spelling_mem hamong
    cases place with
    | svg =>
      have hsame : ∀ s ∈ names, sameName s name = true → name = s := fun s hs hsame =>
        (hnames.distinct s hs name (hmem ⟨s, hs, hsame⟩) hsame).symm
      simpa [NameAgrees] using hsame
    | html =>
      have hiff : IsAmong names name ↔ name ∈ names := ⟨hmem, isAmong_of_mem⟩
      simp [NameAgrees, hiff]
  | false =>
    rw [Spelled, if_neg (by decide)] at h
    have hnot : name ∉ names := fun hin => hnames.mixed name hin h.symm
    cases place with
    | svg =>
      simp only [NameAgrees, Bool.false_eq_true, iff_false, not_true_eq_false, imp_false]
      constructor
      case mp =>
        rintro hall ⟨s, hs, hsame⟩
        exact hnot (hall s hs hsame ▸ hs)
      case mpr => exact fun hnone s hs hsame => absurd ⟨s, hs, hsame⟩ hnone
    | html => simpa [NameAgrees] using hnot

/-! ## Elements around an element -/

/-- Whether, of the `svg` and `foreignObject` elements among those with the given tags, the innermost first, the innermost is
a `foreignObject`. -/
def standsInForeign : List String → Bool
  | [] => false
  | tag :: around => tag == "foreignObject" || (tag != "svg" && standsInForeign around)

theorem mem_of_standsInForeign {around : List String} (h : standsInForeign around = true) :
    "foreignObject" ∈ around := by
  induction around with
  | nil => cases h
  | cons tag around ih =>
    simp only [standsInForeign, Bool.or_eq_true, beq_iff_eq, Bool.and_eq_true] at h
    rcases h with rfl | ⟨-, h⟩
    · exact List.mem_cons_self
    · exact List.mem_cons_of_mem _ (ih h)

theorem standsInSvg_eq (svg : Bool) (around : List String) :
    standsInSvg svg around = (!standsInForeign around && (around.contains "svg" || svg)) := by
  induction around with
  | nil => rfl
  | cons tag around ih =>
    have hstands : standsInSvg svg (tag :: around) = opensSvg (standsInSvg svg around) tag := rfl
    rw [hstands, opensSvg, namespaceIn, ih, standsInForeign, List.contains_cons]
    by_cases hsvg : tag = "svg"
    · simp [hsvg]
    · by_cases hforeign : tag = "foreignObject"
      · simp [hforeign]
      · have hcomm : ("svg" == tag) = false := by simpa using Ne.symm hsvg
        have hsvg' : (tag == "svg") = false := by simpa using hsvg
        have hforeign' : (tag == "foreignObject") = false := by simpa using hforeign
        simp [hcomm, hsvg', hforeign', bne]

end Markup

namespace Template

open Markup

/-! ## Names of elements -/

/-- The names of the attributes and properties of a node. -/
def Node.attributeNames (n : Node) : List String :=
  (n.bag false ++ n.bag true).map Attribute.name

/-- The names of an element of the platform agree with its namespace. -/
def Node.NamesAgree : Node → Prop
  | .element id position .native data children =>
    NameAgrees svgElementNames data.namespace data.tag ∧
      ∀ name ∈ (Node.element id position .native data children).attributeNames,
        NameAgrees svgAttributeNames data.namespace name
  | _ => True

instance (names : List String) (place : ElementNamespace) (name : String) : Decidable (NameAgrees names place name) :=
  match place with
  | .svg => inferInstanceAs (Decidable (∀ s ∈ names, sameName s name = true → name = s))
  | .html => inferInstanceAs (Decidable (name ∉ names))

instance : DecidablePred Node.NamesAgree
  | .element _ _ .native _ _ => inferInstanceAs (Decidable (_ ∧ _))
  | .element _ _ .component _ _ => .isTrue trivial
  | .element _ _ (.dynamic _) _ _ => .isTrue trivial
  | .slot .. => .isTrue trivial
  | .text .. => .isTrue trivial
  | .comment .. => .isTrue trivial
  | .conditional .. => .isTrue trivial
  | .iteration .. => .isTrue trivial

/-- A name of an element of the platform is, up to case, one that mixes cases in SVG. -/
def Node.HasMixedName : Node → Prop
  | .element id position .native data children =>
    IsAmong svgElementNames data.tag ∨
      ∃ name ∈ (Node.element id position .native data children).attributeNames, IsAmong svgAttributeNames name
  | _ => False

/-- The names of an element of the platform are those that are written at it. -/
theorem mem_own_of_attributeNames {svg : Bool} {e : Markup.Element} {n : Node} (h : n.IsMadeOf svg e)
    (hcustom : isCustomName e.tag = false) {name : String} (hname : name ∈ n.attributeNames) :
    ∃ a ∈ e.attributes, a.name = name := by
  obtain ⟨made, hmade, rfl⟩ := List.mem_map.1 hname
  obtain ⟨asProperty, hbag⟩ : ∃ asProperty, made ∈ n.bag asProperty :=
    (List.mem_append.1 hmade).elim (fun h => ⟨false, h⟩) fun h => ⟨true, h⟩
  rw [h.bag] at hbag
  obtain ⟨a, ha, hmade⟩ := List.mem_filterMap.1 hbag
  refine ⟨a, (List.mem_filter.1 ha).1, ?_⟩
  unfold made? at hmade
  split at hmade
  · obtain ⟨value, -, rfl⟩ := Option.map_eq_some_iff.1 hmade
    simp [hcustom]
  · cases hmade

/-- The names of an element agree with its namespace if they are spelled as in the namespace, or none of them mixes cases in
SVG. -/
theorem namesAgree_iff {svg spelledAsSvg : Bool} {e : Markup.Element} {n : Node} (hmade : n.IsMadeOf svg e)
    (hspelled : e.IsSpelled spelledAsSvg) :
    n.NamesAgree ↔ (n.HasMixedName → (namespaceIn svg e.tag = .svg ↔ spelledAsSvg = true)) := by
  cases hmade with
  | slot => simp [Node.NamesAgree, Node.HasMixedName]
  | @element id role data children key tag custom added =>
    cases role with
    | component => simp [Node.NamesAgree, Node.HasMixedName]
    | dynamic constructor => simp [Node.NamesAgree, Node.HasMixedName]
    | native =>
      have htag : data.tag = e.tag := by
        have := ElementData.tag_addAll ⟨e.tag, namespaceIn svg e.tag, [], [], none, none, [], key⟩ (isCustomName e.tag) e.own
        rwa [added] at this
      have hnamespace : data.namespace = namespaceIn svg e.tag := by
        have := ElementData.namespace_addAll ⟨e.tag, namespaceIn svg e.tag, [], [], none, none, [], key⟩
          (isCustomName e.tag) e.own
        rwa [added] at this
      have hnames : ∀ name ∈ (Node.element id e.position .native data children).attributeNames,
          Spelled spelledAsSvg svgAttributeNames name := by
        intro name hname
        obtain ⟨a, ha, rfl⟩ := mem_own_of_attributeNames (.element key tag custom added) (custom.1 rfl) hname
        exact hspelled.attributes a ha
      rw [Node.NamesAgree, Node.HasMixedName, htag, hnamespace, hspelled.tag.nameAgrees_iff mixedNames_elements]
      constructor
      case mp =>
        rintro ⟨hagrees, hall⟩ (hamong | ⟨name, hname, hamong⟩)
        · exact hagrees hamong
        · exact ((hnames name hname).nameAgrees_iff mixedNames_attributes).1 (hall name hname) hamong
      case mpr =>
        refine fun h => ⟨fun hamong => h (.inl hamong), fun name hname => ?_⟩
        exact ((hnames name hname).nameAgrees_iff mixedNames_attributes).2 fun hamong => h (.inr ⟨name, hname, hamong⟩)

end Template

/-! ## Elements of a template -/

open Template Markup

/-- Where an element of a document stands, its names are spelled as in its namespace. -/
def Markup.Seat.Agrees (svg : Bool) (seat : Seat) : Prop :=
  seat.element.tag = "svg" ∨ standsInForeign seat.around = false ∧ (svg = true → "svg" ∈ seat.around)

theorem Markup.Seat.agrees_iff {svg : Bool} {seat : Seat}
    (hforeign : "foreignObject" ∈ seat.around → "svg" ∈ seat.around) :
    seat.Agrees svg ↔ (namespaceIn (standsInSvg svg seat.around) seat.element.tag = .svg ↔ seat.isSpelledAsSvg = true) := by
  rw [Agrees, namespaceIn, standsInSvg_eq, isSpelledAsSvg]
  by_cases htag : seat.element.tag = "svg"
  · simp [htag]
  · cases hstands : standsInForeign seat.around with
    | true =>
      have hsvg := hforeign (mem_of_standsInForeign hstands)
      simp [htag, hsvg]
    | false =>
      by_cases hsvg : "svg" ∈ seat.around <;> cases svg <;> simp [htag, hsvg]

theorem namespace_rootAttributes (config : Config) (attributes : List Markup.Attribute) :
    (rootAttributes config attributes).1.namespace = config.namespace := by
  induction attributes generalizing config with
  | nil => rfl
  | cons a rest ih =>
    rw [rootAttributes]
    cases hroot : rootAttribute config a with
    | error problem => exact ih config
    | ok later =>
      refine (ih later).trans ?_
      unfold rootAttribute at hroot
      split at hroot
      · split at hroot <;> cases hroot
        rfl
      · split at hroot <;> cases hroot
        rfl
      · cases hroot

/-- A root element says nothing of the namespace. -/
theorem namespace_ofDocument (config : Config) (document : List Markup.Node) :
    (ofDocument config document).config.namespace = config.namespace := by
  unfold ofDocument
  cases root document with
  | error position => rfl
  | ok found => exact namespace_rootAttributes config found.1.attributes

/-- Of a template without errors, the names of an element agree with its namespace exactly if they are spelled as where the
element stands, or none of them mixes cases in SVG. -/
theorem ofDocument_namesAgree {config : Config} {source : List Char} {document : List Markup.Node}
    (hparse : Markup.parse source = .ok document) (hclean : (ofDocument config document).hasErrors = false) :
    List.Forall₂ (fun n seat => n.NamesAgree ↔ (n.HasMixedName → seat.Agrees (config.namespace = .svgHint)))
      ((allNodes (ofDocument config document).nodes).filter Node.isKeyed)
      ((seatsOf [] document).filter (·.element.tag != "template")) := by
  have hmade := (ofDocument_areMadeOf config document hclean).nodes
  rw [rootPlace, namespace_ofDocument] at hmade
  have hseats : ∀ seat ∈ (seatsOf [] document).filter (·.element.tag != "template"), seat ∈ seatsOf [] document :=
    fun seat hseat => (List.mem_filter.1 hseat).1
  refine ((List.forall₂_and_left _ _).2 ⟨hseats, hmade.flip⟩).flip.imp fun n seat h => ?_
  obtain ⟨hseat, hn⟩ : seat ∈ seatsOf [] document ∧ n.IsMadeOf (standsInSvg _ seat.around) seat.element := h
  rw [namesAgree_iff hn (parse_isSpelled hparse hseat), Seat.agrees_iff (svg_mem_around hparse hseat)]

/-- Names that mix cases in an `svg` element. -/
theorem ofDocument_namesAgree_view :
    ∃ document, Markup.parse "<template><svg viewBox='0'><foreignObject></foreignObject></svg></template>".toList =
        .ok document ∧ (ofDocument {} document).hasErrors = false ∧
      (∀ n ∈ allNodes (ofDocument {} document).nodes, n.NamesAgree) ∧
      List.Forall₂ (fun n seat => n.NamesAgree ↔ (n.HasMixedName → seat.Agrees false))
        ((allNodes (ofDocument {} document).nodes).filter Node.isKeyed)
        ((seatsOf [] document).filter (·.element.tag != "template")) := by
  obtain ⟨document, hparse, hclean, hagree⟩ := @Markup.exists_parse
    "<template><svg viewBox='0'><foreignObject></foreignObject></svg></template>".toList
    (fun document => (ofDocument {} document).hasErrors = false ∧
      ∀ n ∈ allNodes (ofDocument {} document).nodes, n.NamesAgree) _ (by decide +kernel)
  exact ⟨document, hparse, hclean, hagree, ofDocument_namesAgree hparse hclean⟩

/-- A `foreignObject` that is not spelled so in a template that is the content of an `svg` element, and an element of HTML with
an attribute that is spelled as in SVG. -/
theorem exists_namesDisagree :
    (∃ document, Markup.parse "<template><foreignObject></foreignObject></template>".toList = .ok document ∧
      (ofDocument { «namespace» := .svgHint } document).hasErrors = false ∧
      ∃ n ∈ allNodes (ofDocument { «namespace» := .svgHint } document).nodes, ¬ n.NamesAgree) ∧
    ∃ document, Markup.parse "<template><svg><foreignObject><p viewBox='0'></p></foreignObject></svg></template>".toList =
        .ok document ∧
      (ofDocument {} document).hasErrors = false ∧ ∃ n ∈ allNodes (ofDocument {} document).nodes, ¬ n.NamesAgree :=
  ⟨Markup.exists_parse (by decide +kernel), Markup.exists_parse (by decide +kernel)⟩

end TemplateCompiler

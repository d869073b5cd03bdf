import TemplateCompiler.Proofs.Markup.SoundDocument
/-!
# Names that mix cases

The names of an element are spelled as in SVG if it is an `svg` element or stands in one, and in small letters otherwise
(`parse_isSpelled`): when its start tag is read, the open elements are those around it. So a `foreignObject` stands in an
`svg` element, as it would not be spelled so anywhere else.
-/

namespace TemplateCompiler.Markup

/-! ## Spellings -/

/-- A name is spelled as among `names` if `svg` says so and it is one of them up to case, and in small letters otherwise. -/
def Spelled (svg : Bool) (names : List String) (name : String) : Prop :=
  name = if svg then spelling names (lowerName name) else lowerName name

/-- The names of an element are spelled as in SVG, or in small letters. -/
structure Element.IsSpelled (svg : Bool) (e : Element) : Prop where
  tag : Spelled svg svgElementNames e.tag
  attributes : ∀ a ∈ e.attributes, Spelled svg svgAttributeNames a.name

/-- Whether the names of an element are spelled as in SVG: it is an `svg` element or stands in one. -/
def Seat.isSpelledAsSvg (seat : Seat) : Bool :=
  seat.element.tag == "svg" || seat.around.contains "svg"

theorem spelled_of_small {name : String} (h : lowerName name = name) (svg : Bool) (names : List String) :
    Spelled svg names (if svg then spelling names name else name) := by
  unfold Spelled
  cases svg with
  | true => simp [lowerName_spelling, h]
  | false => simp [h]

theorem isSpelled_elementOf {t : Tag} (h : t.Sound) (source : List Char) (svg : Bool) (start : Cursor)
    (raws : List RawAttribute) : (Assembly.elementOf source svg start t raws).IsSpelled svg := by
  constructor
  case tag => exact spelled_of_small h.small svg svgElementNames
  case attributes =>
    intro a ha
    have hname := List.mem_map_of_mem (f := Attribute.name) ha
    change a.name ∈ (Assembly.attributes source svg start.offset t.attributes raws).1.map Attribute.name at hname
    rw [attributes_names] at hname
    obtain ⟨u, hu, heq⟩ := List.mem_map.1 hname
    rw [← heq]
    exact spelled_of_small (h.attributes u hu).small svg svgAttributeNames

theorem isSvg_elementOf {t : Tag} (h : t.Sound) (source : List Char) (svg : Bool) (start : Cursor)
    (raws : List RawAttribute) : ((Assembly.elementOf source svg start t raws).tag == "svg") = (t.name == "svg") := by
  have htag : (Assembly.elementOf source svg start t raws).tag =
      if svg then spelling svgElementNames t.name else t.name := rfl
  have hsvg : spelling svgElementNames "svg" = "svg" := by decide
  have hlower : lowerName (if svg then spelling svgElementNames t.name else t.name) = t.name := by
    split
    · rw [lowerName_spelling, h.small]
    · exact h.small
  rw [htag, Bool.eq_iff_iff, beq_iff_eq, beq_iff_eq]
  constructor
  case mp =>
    intro heq
    rw [heq] at hlower
    exact hlower.symm.trans (by decide)
  case mpr =>
    intro heq
    rw [heq, hsvg, ite_self]

section Documents

variable {source : List Char} {document : List Node} {seat : Seat}

/-- An element of a document is spelled as in SVG exactly if it is an `svg` element or stands in one. -/
theorem parse_isSpelled (h : parse source = .ok document) (hseat : seat ∈ seatsOf [] document) :
    seat.element.IsSpelled seat.isSpelledAsSvg := by
  obtain ⟨call, hcall, hmakes⟩ := exists_of_mem_right (parse_seats h).1 hseat
  obtain ⟨raws, -, helement⟩ := hmakes.element
  have hsound := (sound_of_mem_tokenize _ (mem_tokens_of_mem_calls hcall)).1
  rw [Seat.isSpelledAsSvg, hmakes.around, ← Assembly.inSvg_eq, helement, isSvg_elementOf hsound]
  exact isSpelled_elementOf hsound source _ _ raws

/-- A `foreignObject` element stands in an `svg` element, as its name is spelled in small letters anywhere else. -/
theorem svg_mem_around (h : parse source = .ok document) (hseat : seat ∈ seatsOf [] document)
    (hforeign : "foreignObject" ∈ seat.around) : "svg" ∈ seat.around := by
  generalize hn : seat.around.length = n
  induction n generalizing seat with
  | zero =>
    rw [List.length_eq_zero_iff] at hn
    rw [hn] at hforeign
    cases hforeign
  | succ n ih =>
    rcases around_of_mem_seatsOf document [] hseat with hnil | ⟨e, rest, hcons, hmem⟩
    · rw [hnil] at hn
      cases hn
    rw [hcons] at hforeign hn ⊢
    refine List.mem_cons_of_mem _ ?_
    -- A `foreignObject` has a seat itself, and would be spelled in small letters if no `svg` element were around it.
    rcases List.mem_cons.1 hforeign with htag | hforeign
    · have hspelled := (parse_isSpelled h hmem).tag
      by_contra hsvg
      rw [Seat.isSpelledAsSvg, ← htag, show rest.contains "svg" = false by simpa using hsvg, Spelled] at hspelled
      exact absurd hspelled (by decide)
    · exact ih hmem hforeign (Nat.succ.inj hn)

end Documents

end TemplateCompiler.Markup

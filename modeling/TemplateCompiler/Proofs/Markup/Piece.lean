import TemplateCompiler.Proofs.Markup.Calls
import TemplateCompiler.Proofs.Markup.RawAttributes
import TemplateCompiler.Render.Fragment
/-!
# Markup piece by piece

Markup as a fragment is written: characters, start tags whose values are in double quotes, end tags and comments. A
scan reads each piece back as one token (`Piece.scans`), and no quote in a name with it.
-/

namespace TemplateCompiler.Markup

open TemplateCompiler.Text
open Render (escapeTextChar escapeValueChar)

/-! ## Scans of known text -/

/-- A scan that stands in `state` at the byte `pos` hands out `tokens` while it reads `cs`, whatever follows, and stands
in `next` behind it. It reads no quote in a name there. -/
structure Scans (state : State) (pos : Nat) (cs : List Char) (tokens : List Token) (next : State) : Prop where
  scan : ∀ rest, scanFrom state pos (cs ++ rest) = .after tokens (scanFrom next (pos + byteLength cs) rest)
  readings : ∃ read : List Reading, (∀ r ∈ read, r.isNameQuote = false) ∧
    ∀ rest, readingsFrom state pos (cs ++ rest) = read ++ readingsFrom next (pos + byteLength cs) rest

/-- A character that is read as itself, wherever it may stand. -/
def isPlain (c : Char) : Bool :=
  !isForbiddenCode c.toNat && c != '\r' && c.toNat != 0

namespace Scans

theorem nil (state : State) (pos : Nat) : Scans state pos [] [] state :=
  ⟨fun _ => rfl, [], nofun, fun _ => rfl⟩

theorem append {state mid next : State} {pos : Nat} {xs ys : List Char} {tokens tokens' : List Token}
    (hx : Scans state pos xs tokens mid) (hy : Scans mid (pos + byteLength xs) ys tokens' next) :
    Scans state pos (xs ++ ys) (tokens ++ tokens') next := by
  obtain ⟨read, hread, hreadings⟩ := hx.readings
  obtain ⟨read', hread', hreadings'⟩ := hy.readings
  refine ⟨fun rest => ?_, read ++ read', List.forall_mem_append.2 ⟨hread, hread'⟩, fun rest => ?_⟩
  · rw [List.append_assoc, hx.scan, hy.scan, byteLength_append, Nat.add_assoc]
    simp [Scan.after]
  · rw [List.append_assoc, hreadings, hreadings', byteLength_append, Nat.add_assoc, List.append_assoc]

/-- One step, in which the characters behind the first one are skipped. -/
theorem step {state next : State} {pos : Nat} {c : Char} (skipped : List Char) {tokens : List Token}
    (hc : isPlain c = true) (hquote : Reading.isNameQuote ⟨state, pos, c⟩ = false)
    (h : ∀ rest, state.step pos c (skipped ++ rest) = .go next tokens skipped.length) :
    Scans state pos (c :: skipped) tokens next := by
  simp only [isPlain, Bool.and_eq_true, Bool.not_eq_true', bne_iff_ne] at hc
  obtain ⟨⟨hforbidden, hreturn⟩, -⟩ := hc
  refine ⟨fun rest => ?_, [⟨state, pos, c⟩], by simpa using hquote, fun rest => ?_⟩
  · rw [List.cons_append]
    conv => lhs; unfold scanFrom
    simp [hreturn, hforbidden, h]
  · rw [List.cons_append]
    conv => lhs; unfold readingsFrom
    simp [hreturn, hforbidden, h]

/-- One step over one character, in a state whose characters are in no name. -/
theorem one {state next : State} {pos : Nat} {c : Char} {tokens : List Token} (hc : isPlain c = true)
    (hquote : Reading.isNameQuote ⟨state, pos, c⟩ = false)
    (h : ∀ rest, state.step pos c rest = .go next tokens 0) : Scans state pos [c] tokens next :=
  step [] hc hquote h

end Scans

theorem isNameQuote_of_not_quote {state : State} {pos : Nat} {c : Char} (h : isQuote c = false) :
    Reading.isNameQuote ⟨state, pos, c⟩ = false := by
  simp [Reading.isNameQuote, h]

/-! ## Characters -/

theorem reference_named {name : List Char} {codes : List Nat} (hname : name.all Char.isAlphanum = true)
    (hlookup : namedCharacters.lookup (String.ofList name) = some codes) (inAttribute : Bool) (rest : List Char) :
    reference inAttribute (name ++ ';' :: rest) = .characters (codes.map Char.ofNat) (name.length + 1) := by
  have hrun : (name ++ ';' :: rest).takeWhile Char.isAlphanum = name :=
    takeWhile_append_stop (List.all_eq_true.1 hname) (by simp [show ';'.isAlphanum = false by decide])
  have hnamed : reference inAttribute (name ++ ';' :: rest) = namedReference inAttribute (name ++ ';' :: rest) := by
    cases name with
    | nil => rfl
    | cons c cs =>
      have hc : c ≠ '#' := by
        rintro rfl
        revert hname
        simp [show '#'.isAlphanum = false by decide]
      unfold reference
      split <;> simp_all
  rw [hnamed]
  unfold namedReference
  simp only [hrun, List.drop_left, hlookup]

theorem lookup_escapes : namedCharacters.lookup "amp" = some ['&'.toNat] ∧ namedCharacters.lookup "lt" = some ['<'.toNat] ∧
    namedCharacters.lookup "gt" = some ['>'.toNat] ∧ namedCharacters.lookup "quot" = some ['"'.toNat] := by
  decide +kernel

/-- A character of a text is read back. -/
theorem scans_textChar {c : Char} (hc : isPlain c = true) (pos : Nat) :
    Scans .data pos (escapeTextChar c) [.character c] .data := by
  obtain ⟨hamp, hlt, hgt, -⟩ := lookup_escapes
  have hreference (name : List Char) {d : Char} (hname : name.all Char.isAlphanum = true)
      (hlookup : namedCharacters.lookup (String.ofList name) = some [d.toNat]) :
      Scans .data pos ('&' :: (name ++ [';'])) [.character d] .data := by
    refine .step _ (by decide) (isNameQuote_of_not_quote (by decide)) fun rest => ?_
    have href := reference_named hname hlookup false rest
    simp only [State.step, dataStep, List.append_assoc, List.singleton_append, href]
    simp
  unfold escapeTextChar
  split
  · rename_i h
    subst h
    exact hreference "amp".toList (by decide) hamp
  · split
    · rename_i h
      subst h
      exact hreference "lt".toList (by decide) hlt
    · split
      · rename_i h
        subst h
        exact hreference "gt".toList (by decide) hgt
      · rename_i hamp hlt _
        refine .one hc (by simp [Reading.isNameQuote]) fun rest => ?_
        have hzero : c.toNat ≠ 0 := by
          simp only [isPlain, Bool.and_eq_true, bne_iff_ne] at hc
          exact hc.2
        simp [State.step, dataStep, hamp, hlt, hzero]

/-! ## Attributes -/

/-- The text of an attribute, with a space before it. -/
def attributeText (a : String × Option String) : List Char :=
  ' ' :: (a.1.toList ++ match a.2 with
    | some value => '=' :: '"' :: (value.toList.flatMap escapeValueChar ++ ['"'])
    | none => [])

/-- The attributes that are read where `attributes` are written from the byte `pos` on. -/
def attributesAt (pos : Nat) : List (String × Option String) → List TagAttribute
  | [] => []
  | a :: rest =>
    ⟨lowerName a.1, a.2.getD "", pos + 1, a.2.isSome, a.2.isSome⟩ ::
      attributesAt (pos + byteLength (attributeText a)) rest

/-- A name that an attribute can be read with. -/
def isAttributeName (name : String) : Bool :=
  !name.isEmpty && name.toList.all fun c => isNameChar c && isPlain c

/-- A text that is read as itself. -/
def isPlainText (text : String) : Bool :=
  text.toList.all isPlain

/-- The state behind what has been read of a tag, before a further attribute. -/
def Tag.behind (tag : Tag) : State :=
  match tag.attributes with
  | [] => .tagName tag
  | a :: _ => if a.hasValue then .afterAttributeValueQuoted tag else .attributeName tag

theorem isPlain_ne_zero {c : Char} (h : isPlain c = true) : c.toNat ≠ 0 := by
  simp only [isPlain, Bool.and_eq_true, bne_iff_ne] at h
  exact h.2

theorem mapNewest_id {tag : Tag} {f : TagAttribute → TagAttribute} (h : ∀ a, f a = a) : tag.mapNewest f = tag := by
  obtain ⟨closing, name, attributes, selfClosing, start, stop⟩ := tag
  cases attributes <;> simp [Tag.mapNewest, h]

/-- The newest attribute of a tag with more characters in its name. -/
def Tag.pushNames (tag : Tag) (cs : List Char) : Tag :=
  tag.mapNewest fun a => { a with name := a.name ++ lowerName (String.ofList cs) }

theorem isNameChar_not {c : Char} (h : isNameChar c = true) :
    isTagBlank c = false ∧ c ≠ '/' ∧ c ≠ '=' ∧ c ≠ '>' ∧ c ≠ '"' ∧ c ≠ '\'' ∧ c ≠ '<' := by
  simp only [isNameChar, isSourceBlank, Bool.not_eq_true', Bool.or_eq_false_iff, beq_eq_false_iff_ne] at h
  exact ⟨h.1.1.1.1.1.1.1, h.1.1.1.1.1.2, h.1.1.1.1.2, h.1.1.1.2, h.1.1.2, h.1.2, h.2⟩

theorem scans_nameChars {cs : List Char} (h : ∀ c ∈ cs, isNameChar c = true ∧ isPlain c = true) (tag : Tag) (pos : Nat) :
    Scans (.attributeName tag) pos cs [] (.attributeName (tag.pushNames cs)) := by
  induction cs generalizing tag pos with
  | nil =>
    rw [show tag.pushNames [] = tag from mapNewest_id fun a => by simp [lowerName]]
    exact .nil _ _
  | cons c cs ih =>
    obtain ⟨hc, hplain⟩ := h c (by simp)
    obtain ⟨hblank, hslash, hsign, hbracket, hdouble, hsingle, hless⟩ := isNameChar_not hc
    have hone : Scans (.attributeName tag) pos [c] [] (.attributeName (tag.pushName c)) := by
      refine .one hplain (isNameQuote_of_not_quote (by simp [isQuote, hdouble, hsingle])) fun rest => ?_
      simp [State.step, attributeNameStep, hblank, hslash, hsign, hbracket, hdouble, hsingle, hless,
        isPlain_ne_zero hplain, Step.to]
    have htag : (tag.pushName c).pushNames cs = tag.pushNames (c :: cs) := by
      have hname : ∀ name : String, name.push c.toLower ++ lowerName (String.ofList cs) =
          name ++ lowerName (String.ofList (c :: cs)) := fun name => String.ext (by simp [lowerName])
      simp [Tag.pushName, Tag.pushNames, mapNewest_mapNewest, Function.comp_def, hname]
    rw [← htag]
    exact hone.append (ih (fun d hd => h d (by simp [hd])) _ _)

/-- A character of a value is read back. -/
theorem scans_valueChar {c : Char} (hc : isPlain c = true) (tag : Tag) (pos : Nat) :
    Scans (.attributeValue .double tag) pos (escapeValueChar c) [] (.attributeValue .double (tag.pushValue [c])) := by
  obtain ⟨hamp, -, -, hquot⟩ := lookup_escapes
  have hreference (name : List Char) {d : Char} (hname : name.all Char.isAlphanum = true)
      (hlookup : namedCharacters.lookup (String.ofList name) = some [d.toNat]) :
      Scans (.attributeValue .double tag) pos ('&' :: (name ++ [';'])) []
        (.attributeValue .double (tag.pushValue [d])) := by
    refine .step _ (by decide) (isNameQuote_of_not_quote (by decide)) fun rest => ?_
    have href := reference_named hname hlookup true rest
    simp only [State.step, attributeValueStep, valueCharacter, List.append_assoc, List.singleton_append, href]
    simp
  unfold escapeValueChar
  split
  · rename_i h
    subst h
    exact hreference "amp".toList (by decide) hamp
  · split
    · rename_i h
      subst h
      exact hreference "quot".toList (by decide) hquot
    · rename_i hamp hquote
      refine .one hc (by simp [Reading.isNameQuote]) fun rest => ?_
      simp [State.step, attributeValueStep, valueCharacter, hamp, hquote, isPlain_ne_zero hc, Step.to]

theorem scans_valueChars {cs : List Char} (h : ∀ c ∈ cs, isPlain c = true) (tag : Tag) (pos : Nat) :
    Scans (.attributeValue .double tag) pos (cs.flatMap escapeValueChar) []
      (.attributeValue .double (tag.pushValue cs)) := by
  induction cs generalizing tag pos with
  | nil =>
    rw [show tag.pushValue [] = tag from mapNewest_id fun a => by simp]
    exact .nil _ _
  | cons c cs ih =>
    have htag : (tag.pushValue [c]).pushValue cs = tag.pushValue (c :: cs) := by
      have hvalue : ∀ value : String, value ++ String.ofList [c] ++ String.ofList cs = value ++ String.ofList (c :: cs) :=
        fun value => String.ext (by simp)
      simp only [Tag.pushValue, mapNewest_mapNewest, Function.comp_def, hvalue]
    rw [← htag, List.flatMap_cons]
    exact (scans_valueChar (h c (by simp)) tag pos).append (ih (fun d hd => h d (by simp [hd])) _ _)

/-- A tag with a further attribute, which starts at the byte `pos`. -/
def Tag.addAttribute (tag : Tag) (pos : Nat) (a : String × Option String) : Tag :=
  { tag with attributes := ⟨lowerName a.1, a.2.getD "", pos, a.2.isSome, a.2.isSome⟩ :: tag.attributes }

/-- A name is read where an attribute may start. -/
theorem scans_name {c : Char} {cs : List Char} (hc : isNameChar c = true ∧ isPlain c = true)
    (hcs : ∀ c ∈ cs, isNameChar c = true ∧ isPlain c = true) {tag : Tag} (hrepeat : tag.repeatsAttribute = false)
    {state : State} (hstate : state = .beforeAttributeName tag ∨ state = .afterAttributeName tag) (pos : Nat) :
    Scans state pos (c :: cs) [] (.attributeName (tag.addAttribute pos (String.ofList (c :: cs), none))) := by
  obtain ⟨hblank, hslash, hsign, hbracket, hdouble, hsingle, hless⟩ := isNameChar_not hc.1
  have hquote : isQuote c = false := by simp [isQuote, hdouble, hsingle]
  generalize hstarted : ({ tag with attributes := ⟨c.toLower.toString, "", pos, false, false⟩ :: tag.attributes } : Tag) =
    started
  have hstart : Scans state pos [c] [] (.attributeName started) := by
    refine .one hc.2 (isNameQuote_of_not_quote hquote) fun rest => ?_
    rcases hstate with rfl | rfl <;>
      simp [State.step, beforeAttributeNameStep, afterAttributeNameStep, startAttribute, hblank, hslash, hsign, hbracket,
        hdouble, hsingle, hless, isPlain_ne_zero hc.2, hrepeat, Step.to, ← hstarted]
  have hadded : started.pushNames cs = tag.addAttribute pos (String.ofList (c :: cs), none) := by
    have hname : String.singleton c.toLower ++ lowerName (String.ofList cs) = lowerName (String.ofList (c :: cs)) :=
      String.ext (by simp [lowerName])
    simp [← hstarted, Tag.pushNames, Tag.mapNewest, Tag.addAttribute, hname]
  rw [← hadded]
  exact hstart.append (scans_nameChars hcs _ _)

theorem scans_attributeName {c : Char} {cs : List Char} (hc : isNameChar c = true ∧ isPlain c = true)
    (hcs : ∀ c ∈ cs, isNameChar c = true ∧ isPlain c = true) {tag : Tag} (hrepeat : tag.repeatsAttribute = false)
    (pos : Nat) :
    Scans tag.behind pos (' ' :: c :: cs) []
      (.attributeName (tag.addAttribute (pos + 1) (String.ofList (c :: cs), none))) := by
  have hspace {state : State} (h : ∀ rest, tag.behind.step pos ' ' rest = .go state [] 0)
      (hstate : state = .beforeAttributeName tag ∨ state = .afterAttributeName tag) :
      Scans tag.behind pos (' ' :: c :: cs) []
        (.attributeName (tag.addAttribute (pos + 1) (String.ofList (c :: cs), none))) :=
    (Scans.one (by decide) (isNameQuote_of_not_quote (by decide)) h).append (scans_name hc hcs hrepeat hstate _)
  have hblank : isTagBlank ' ' = true := by decide
  unfold Tag.behind at hspace ⊢
  split at hspace
  · exact hspace (by simp [State.step, tagNameStep, hblank, Step.to]) (.inl rfl)
  · split at hspace
    · rename_i hvalue
      rw [if_pos hvalue]
      exact hspace (by simp [State.step, afterAttributeValueQuotedStep, hblank, Step.to]) (.inl rfl)
    · rename_i hvalue
      rw [if_neg hvalue]
      exact hspace (by simp [State.step, attributeNameStep, hblank, Step.to]) (.inr rfl)

/-- An attribute is read back. -/
theorem scans_attribute {a : String × Option String} (hname : isAttributeName a.1 = true)
    (hvalue : ∀ value, a.2 = some value → isPlainText value = true) {tag : Tag} (hrepeat : tag.repeatsAttribute = false)
    (pos : Nat) : Scans tag.behind pos (attributeText a) [] (tag.addAttribute (pos + 1) a).behind := by
  obtain ⟨name, value⟩ := a
  simp only [isAttributeName, Bool.and_eq_true, Bool.not_eq_true', List.all_eq_true] at hname
  obtain ⟨hne, hall⟩ := hname
  obtain ⟨c, cs, hcs⟩ : ∃ c cs, name.toList = c :: cs := by
    cases h : name.toList with
    | nil => simp [String.toList_eq_nil_iff.1 h] at hne
    | cons c cs => exact ⟨c, cs, rfl⟩
  obtain rfl : name = String.ofList (c :: cs) := by rw [← hcs, String.ofList_toList]
  rw [hcs] at hall
  have hread := scans_attributeName (hall c (by simp)) (fun d (hd : d ∈ cs) => hall d (by simp [hd])) hrepeat pos
  cases value with
  | none =>
    simpa [attributeText, Tag.behind, Tag.addAttribute] using hread
  | some value =>
    have hplain : ∀ c ∈ value.toList, isPlain c = true := List.all_eq_true.1 (hvalue value rfl)
    generalize hbare : tag.addAttribute (pos + 1) (String.ofList (c :: cs), none) = bare at hread
    have hsign (pos : Nat) : Scans (.attributeName bare) pos ['='] [] (.beforeAttributeValue bare) :=
      .one (by decide) (isNameQuote_of_not_quote (by decide)) fun _ => rfl
    have hopen (pos : Nat) : Scans (.beforeAttributeValue bare) pos ['"'] [] (.attributeValue .double (bare.openValue true)) :=
      .one (by decide) (by simp [Reading.isNameQuote]) fun _ => rfl
    have hclose (tag : Tag) (pos : Nat) : Scans (.attributeValue .double tag) pos ['"'] [] (.afterAttributeValueQuoted tag) :=
      .one (by decide) (by simp [Reading.isNameQuote]) fun _ => rfl
    have hwhole := hread.append ((hsign _).append ((hopen _).append
      ((scans_valueChars hplain _ _).append (hclose _ (pos + byteLength (' ' :: c :: cs) + byteLength ['='] +
        byteLength ['"'] + byteLength (value.toList.flatMap escapeValueChar))))))
    have hvalued : (bare.openValue true).pushValue value.toList =
        tag.addAttribute (pos + 1) (String.ofList (c :: cs), some value) := by
      simp [← hbare, Tag.openValue, Tag.pushValue, Tag.mapNewest, Tag.addAttribute]
    rw [hvalued] at hwhole
    simpa [attributeText, Tag.behind, Tag.addAttribute] using hwhole

theorem repeatsAttribute_of_nodup {tag : Tag} (h : (tag.attributes.map TagAttribute.name).Nodup) :
    tag.repeatsAttribute = false := by
  unfold Tag.repeatsAttribute
  split
  · rename_i a older hattributes
    rw [hattributes, List.map_cons, List.nodup_cons] at h
    refine List.any_eq_false.2 fun b hb => ?_
    simpa using fun heq => h.1 (List.mem_map.2 ⟨b, hb, heq⟩)
  · rfl

/-- What attributes are read as does not depend on where they stand, their offsets aside. -/
theorem map_name_attributesAt (pos : Nat) (as : List (String × Option String)) :
    (attributesAt pos as).map TagAttribute.name = as.map fun a => lowerName a.1 := by
  induction as generalizing pos with
  | nil => rfl
  | cons a as ih => simp [attributesAt, ih]

/-- Attributes are read back. -/
theorem scans_attributes {as : List (String × Option String)}
    (has : ∀ a ∈ as, isAttributeName a.1 = true ∧ ∀ value, a.2 = some value → isPlainText value = true) (tag : Tag)
    (hnodup : (tag.attributes.reverse.map TagAttribute.name ++ as.map fun a => lowerName a.1).Nodup) (pos : Nat) :
    Scans tag.behind pos (as.flatMap attributeText) []
      ({ tag with attributes := (attributesAt pos as).reverse ++ tag.attributes } : Tag).behind := by
  induction as generalizing tag pos with
  | nil => exact .nil _ _
  | cons a as ih =>
    obtain ⟨hname, hvalue⟩ := has a (by simp)
    have hrepeat : tag.repeatsAttribute = false := by
      refine repeatsAttribute_of_nodup ?_
      have := (List.nodup_append.1 hnodup).1
      rwa [List.map_reverse, List.nodup_reverse] at this
    have hlater := ih (fun b hb => has b (by simp [hb])) (tag.addAttribute (pos + 1) a)
      (by simpa [Tag.addAttribute] using hnodup) (pos + byteLength (attributeText a))
    have hsame : (attributesAt (pos + byteLength (attributeText a)) as).reverse ++ (tag.addAttribute (pos + 1) a).attributes =
        (attributesAt pos (a :: as)).reverse ++ tag.attributes := by
      simp [attributesAt, Tag.addAttribute]
    rw [hsame] at hlater
    exact (scans_attribute hname hvalue hrepeat pos).append hlater

/-! ## Tags -/

/-- A name that a tag can be read with, without quotes. -/
def isTagName (name : String) : Bool :=
  (name.toList.head?.any Char.isAlpha) && name.toList.all fun c => isTagNameChar c && isPlain c && !isQuote c

theorem scans_tagNameChars {cs : List Char} (h : ∀ c ∈ cs, (isTagNameChar c && isPlain c && !isQuote c) = true)
    (tag : Tag) (pos : Nat) :
    Scans (.tagName tag) pos cs [] (.tagName { tag with name := tag.name ++ lowerName (String.ofList cs) }) := by
  induction cs generalizing tag pos with
  | nil =>
    rw [show tag.name ++ lowerName (String.ofList []) = tag.name by simp [lowerName]]
    exact .nil _ _
  | cons c cs ih =>
    obtain ⟨⟨hc, hplain⟩, hquote⟩ : (isTagNameChar c = true ∧ isPlain c = true) ∧ isQuote c = false := by
      simpa using h c (by simp)
    obtain ⟨hblank, hslash, hbracket⟩ : isTagBlank c = false ∧ c ≠ '/' ∧ c ≠ '>' := by
      simp only [isTagNameChar, isSourceBlank, Bool.not_eq_true', Bool.or_eq_false_iff, beq_eq_false_iff_ne] at hc
      exact ⟨hc.1.1.1, hc.1.2, hc.2⟩
    have hone : Scans (.tagName tag) pos [c] [] (.tagName { tag with name := tag.name.push c.toLower }) := by
      refine .one hplain (isNameQuote_of_not_quote hquote) fun rest => ?_
      simp [State.step, tagNameStep, hblank, hslash, hbracket, isPlain_ne_zero hplain, Step.to]
    have hname : tag.name.push c.toLower ++ lowerName (String.ofList cs) =
        tag.name ++ lowerName (String.ofList (c :: cs)) := String.ext (by simp [lowerName])
    rw [← hname]
    exact hone.append (ih (fun d hd => h d (by simp [hd])) { tag with name := tag.name.push c.toLower } _)

/-- The start of a tag is read back. -/
theorem scans_tagStart {name : String} (hname : isTagName name = true) (closing : Bool) (pos : Nat) :
    Scans .data pos (opening closing ++ name.toList) [] (.tagName ⟨closing, lowerName name, [], false, pos, 0⟩) := by
  obtain ⟨hhead, hall⟩ := Bool.and_eq_true_iff.1 hname
  rw [List.all_eq_true] at hall
  obtain ⟨c, cs, hcs, halpha⟩ : ∃ c cs, name.toList = c :: cs ∧ c.isAlpha = true := by
    cases h : name.toList with
    | nil => simp [h] at hhead
    | cons c cs => exact ⟨c, cs, rfl, by simpa [h] using hhead⟩
  obtain rfl : name = String.ofList (c :: cs) := by rw [← hcs, String.ofList_toList]
  rw [hcs] at hall ⊢
  have hc := hall c (by simp)
  simp only [Bool.and_eq_true, Bool.not_eq_true'] at hc
  have hbang : c ≠ '!' := by
    rintro rfl
    exact absurd halpha (by decide)
  have hslash : c ≠ '/' := by
    rintro rfl
    exact absurd halpha (by decide)
  have hless (pos : Nat) : Scans .data pos ['<'] [] .tagOpen :=
    .one (by decide) (isNameQuote_of_not_quote (by decide)) fun _ => rfl
  have hfirst : Scans .data pos (opening closing ++ [c]) []
      (.tagName ⟨closing, c.toLower.toString, [], false, pos, 0⟩) := by
    cases closing with
    | false =>
      refine (hless pos).append (.one hc.1.2 (isNameQuote_of_not_quote hc.2) fun rest => ?_)
      simp [State.step, tagOpenStep, hbang, hslash, halpha, Step.to, show '<'.utf8Size = 1 from rfl]
    | true =>
      have hend (pos : Nat) : Scans .tagOpen pos ['/'] [] .endTagOpen :=
        .one (by decide) (isNameQuote_of_not_quote (by decide)) fun _ => rfl
      refine (hless pos).append ((hend _).append (.one hc.1.2 (isNameQuote_of_not_quote hc.2) fun rest => ?_))
      simp [State.step, endTagOpenStep, halpha, Step.to, show '<'.utf8Size = 1 from rfl, show '/'.utf8Size = 1 from rfl]
  have hlower : c.toLower.toString ++ lowerName (String.ofList cs) = lowerName (String.ofList (c :: cs)) :=
    String.ext (by simp [lowerName, Char.toString_eq_singleton])
  have hrest := scans_tagNameChars (fun d (hd : d ∈ cs) => hall d (by simp [hd]))
    ⟨closing, c.toLower.toString, [], false, pos, 0⟩ (pos + byteLength (opening closing ++ [c]))
  rw [hlower] at hrest
  simpa using hfirst.append hrest

/-- The end of a tag is read back. -/
theorem scans_tagEnd (tag : Tag) (hnodup : (tag.attributes.map TagAttribute.name).Nodup)
    (hclosing : tag.closing = true → tag.attributes = []) (hself : tag.selfClosing = false) (pos : Nat) :
    Scans tag.behind pos ['>'] [.tag { tag with attributes := tag.attributes.reverse, stop := pos + 1 }] .data := by
  have hend : endTag tag pos = .go .data [.tag { tag with attributes := tag.attributes.reverse, stop := pos + 1 }] 0 := by
    have hempty : (tag.closing && !tag.attributes.isEmpty) = false := by
      cases hc : tag.closing
      · rfl
      · simp [hclosing hc]
    simp [endTag, repeatsAttribute_of_nodup hnodup, hempty, hself]
  have hblank : isTagBlank '>' = false := by decide
  refine .one (by decide) (isNameQuote_of_not_quote (by decide)) fun rest => ?_
  unfold Tag.behind
  split
  · simp [State.step, tagNameStep, hblank, hend]
  · split
    · simp [State.step, afterAttributeValueQuotedStep, hblank, hend]
    · simp [State.step, attributeNameStep, hblank, hend]

/-! ## Comments -/

/-- Whether a scan stands in a comment. -/
def State.isComment : State → Bool
  | .commentStart | .commentStartDash | .comment _ | .commentLessThan _ | .commentLessThanBang _
  | .commentLessThanBangDash _ | .commentLessThanBangDashDash _ | .commentEndDash _ | .commentEnd _
  | .commentEndBang _ => true
  | _ => false

/-- The text of the comment that ends with `cs`, where a scan of it stands in `state`. -/
def readComment (state : State) : List Char → Option String
  | [] => none
  | c :: cs =>
    match state.step 0 c [] with
    | .go next [] _ => readComment next cs
    | .go _ [.comment text] _ => if cs.isEmpty then some text else none
    | _ => none

/-- A text that is read back where it is written as a comment. -/
def isCommentText (text : String) : Bool :=
  isPlainText text && readComment .commentStart (text.toList ++ ['-', '-', '>']) == some text

/-- A step in a comment depends on nothing but the character that is read. It goes on in the comment, or hands it out. -/
theorem step_comment {state : State} (h : state.isComment = true) (pos : Nat) (c : Char) (rest : List Char) :
    state.step pos c rest = state.step 0 c [] ∧
      ∀ next tokens size, state.step 0 c [] = .go next tokens size →
        size = 0 ∧ ((next.isComment = true ∧ tokens = []) ∨ (next = .data ∧ ∃ text, tokens = [.comment text])) := by
  cases state with
  | commentStart => exact ⟨rfl, by grind [State.step, commentStartStep, Step.to, State.isComment]⟩
  | commentStartDash => exact ⟨rfl, by grind [State.step, commentStartDashStep, Step.to, State.isComment]⟩
  | comment text => exact ⟨rfl, by grind [State.step, commentStep, Step.to, State.isComment]⟩
  | commentLessThan text => exact ⟨rfl, by grind [State.step, commentStep, Step.to, State.isComment]⟩
  | commentLessThanBang text => exact ⟨rfl, by grind [State.step, commentStep, Step.to, State.isComment]⟩
  | commentLessThanBangDash text => exact ⟨rfl, by grind [State.step, commentEndDashStep, Step.to, State.isComment]⟩
  | commentLessThanBangDashDash text => exact ⟨rfl, by grind [State.step, commentEndStep, Step.to, State.isComment]⟩
  | commentEndDash text => exact ⟨rfl, by grind [State.step, commentEndDashStep, Step.to, State.isComment]⟩
  | commentEnd text => exact ⟨rfl, by grind [State.step, commentEndStep, Step.to, State.isComment]⟩
  | commentEndBang text => exact ⟨rfl, by grind [State.step, commentEndBangStep, Step.to, State.isComment]⟩
  | _ => cases h

theorem scans_commentText {cs : List Char} {state : State} {text : String} (hstate : state.isComment = true)
    (hplain : ∀ c ∈ cs, isPlain c = true) (h : readComment state cs = some text) (pos : Nat) :
    Scans state pos cs [.comment text] .data := by
  induction cs generalizing state pos with
  | nil => cases h
  | cons c cs ih =>
    have hquote : Reading.isNameQuote ⟨state, pos, c⟩ = false := by
      cases state <;> first | cases hstate; done | simp [Reading.isNameQuote]
    rw [readComment] at h
    cases hstep : state.step 0 c [] with
    | fault fault => simp [hstep] at h
    | go next tokens size =>
      have hsteps : ∀ rest, state.step pos c rest = .go next tokens size := fun rest =>
        (step_comment hstate pos c rest).1.trans hstep
      obtain ⟨rfl, ⟨hnext, rfl⟩ | ⟨rfl, text', rfl⟩⟩ := (step_comment hstate 0 c []).2 _ _ _ hstep
      · simp only [hstep] at h
        exact (Scans.one (hplain c (by simp)) hquote hsteps).append
          (ih hnext (fun d hd => hplain d (by simp [hd])) h _)
      · simp only [hstep] at h
        split at h
        · rename_i hempty
          obtain rfl := Option.some.inj h
          obtain rfl := List.isEmpty_iff.1 hempty
          exact .one (hplain c (by simp)) hquote hsteps
        · cases h

/-! ## Pieces -/

/-- A piece of markup. -/
inductive Piece where
  | character (c : Char)
  /-- A start tag with attributes, which are bare or have a value. -/
  | opening (tag : String) (attributes : List (String × Option String))
  | closing (tag : String)
  | comment (text : String)

namespace Piece

/-- A piece as it is written. -/
def text : Piece → List Char
  | .character c => escapeTextChar c
  | .opening tag attributes => '<' :: (tag.toList ++ attributes.flatMap attributeText ++ ['>'])
  | .closing tag => '<' :: '/' :: (tag.toList ++ ['>'])
  | .comment text => '<' :: '!' :: '-' :: '-' :: (text.toList ++ ['-', '-', '>'])

/-- What a piece is read as where it stands at the byte `pos`. -/
def token (pos : Nat) : Piece → Token
  | .character c => .character c
  | .opening tag attributes =>
    .tag ⟨false, lowerName tag, attributesAt (pos + 1 + byteLength tag.toList) attributes, false, pos,
      pos + byteLength (Piece.opening tag attributes).text⟩
  | .closing tag => .tag ⟨true, lowerName tag, [], false, pos, pos + byteLength (Piece.closing tag).text⟩
  | .comment text => .comment text

/-- A piece that is read back. -/
def Sound : Piece → Prop
  | .character c => isPlain c = true
  | .opening tag attributes => isTagName tag = true ∧
    (∀ a ∈ attributes, isAttributeName a.1 = true ∧ ∀ value, a.2 = some value → isPlainText value = true) ∧
    (attributes.map fun a => lowerName a.1).Nodup
  | .closing tag => isTagName tag = true
  | .comment text => isCommentText text = true

theorem scans {p : Piece} (h : p.Sound) (pos : Nat) : Scans .data pos p.text [p.token pos] .data := by
  have hbracket : '<'.utf8Size = 1 := rfl
  have hslash : '/'.utf8Size = 1 := rfl
  have hend : '>'.utf8Size = 1 := rfl
  cases p with
  | character c => exact scans_textChar h pos
  | opening tag attributes =>
    obtain ⟨htag, hattributes, hnodup⟩ := h
    have hstart := scans_tagStart htag false pos
    have hread := hstart.append (scans_attributes hattributes ⟨false, lowerName tag, [], false, pos, 0⟩
      (by simpa using hnodup) _)
    have hclose := hread.append (scans_tagEnd _ (by
      simpa [List.map_reverse, map_name_attributesAt] using hnodup) (by simp) rfl _)
    simpa [Piece.text, Piece.token, Markup.opening, hbracket, hend, Nat.add_assoc] using hclose
  | closing tag =>
    have hread := (scans_tagStart h true pos).append
      (scans_tagEnd ⟨true, lowerName tag, [], false, pos, 0⟩ (by simp) (by simp) rfl _)
    simpa [Piece.text, Piece.token, Markup.opening, hbracket, hslash, hend, Nat.add_assoc] using hread
  | comment text =>
    obtain ⟨hplain, hread⟩ := Bool.and_eq_true_iff.1 h
    have hless : Scans .data pos ['<'] [] .tagOpen :=
      .one (by decide) (isNameQuote_of_not_quote (by decide)) fun _ => rfl
    have hopen : Scans .tagOpen (pos + byteLength ['<']) ('!' :: ['-', '-']) [] .commentStart :=
      .step _ (by decide) (isNameQuote_of_not_quote (by decide)) fun rest => by
        simp [State.step, tagOpenStep, List.isPrefixOf]
    have hall : ∀ c ∈ text.toList ++ ['-', '-', '>'], isPlain c = true := by
      intro c hc
      rcases List.mem_append.1 hc with hc | hc
      · exact List.all_eq_true.1 hplain c hc
      · exact List.all_eq_true.1 (show ['-', '-', '>'].all isPlain = true by decide) c hc
    exact hless.append (hopen.append (scans_commentText rfl hall (by simpa using hread) _))

end Piece

/-- What pieces are read as where they stand from the byte `pos` on. -/
def tokensAt (pos : Nat) : List Piece → List Token
  | [] => []
  | p :: ps => p.token pos :: tokensAt (pos + byteLength p.text) ps

/-- Pieces are read back. -/
theorem scans_pieces {ps : List Piece} (h : ∀ p ∈ ps, p.Sound) (pos : Nat) :
    Scans .data pos (ps.flatMap Piece.text) (tokensAt pos ps) .data := by
  induction ps generalizing pos with
  | nil => exact .nil _ _
  | cons p ps ih => exact (Piece.scans (h p (by simp)) pos).append (ih (fun q hq => h q (by simp [hq])) _)

end TemplateCompiler.Markup

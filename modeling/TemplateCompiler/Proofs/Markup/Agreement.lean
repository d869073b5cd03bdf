import TemplateCompiler.Proofs.Markup.Elements
import TemplateCompiler.Proofs.Markup.Rescan
import TemplateCompiler.Proofs.Text.Position
/-!
# What a document says of its source

The elements of a document stand where their tags do, and their attributes stand where they have been read, with a value
if they have one and in quotes if they are in quotes (`elements_agree`). Two things stand against this: a quote in the
name of a tag or of a document type, and a character that only the scan of raw text takes for a blank.
-/

namespace TemplateCompiler.Markup

open TemplateCompiler.Text

/-! ## Places -/

theorem isBoundary_iff {source : List Char} {offset : Nat} :
    isBoundary source offset = true ↔ ∃ front back, source = front ++ back ∧ offset = byteLength front := by
  constructor
  · intro h
    obtain ⟨⟨front, back⟩, hsplit⟩ := Option.isSome_iff_exists.1 h
    obtain ⟨hsource, hlength⟩ := splitBytes?_eq_some hsplit
    exact ⟨front, back, hsource, hlength.symm⟩
  · rintro ⟨front, back, rfl, rfl⟩
    exact isBoundary_append front back

theorem locate_ne_of_lt {source : List Char} {m n : Nat} (hm : isBoundary source m = true)
    (hn : isBoundary source n = true) (hlt : m < n) : locate source m ≠ locate source n := by
  obtain ⟨front, back, hsource, rfl⟩ := isBoundary_iff.1 hm
  obtain ⟨front', back', hsource', rfl⟩ := isBoundary_iff.1 hn
  obtain ⟨middle, rfl⟩ := exists_eq_append (hsource.symm.trans hsource') (Nat.le_of_lt hlt)
  have hne : middle ≠ [] := by
    rintro rfl
    simp at hlt
  rw [hsource', byteLength_append, List.append_assoc]
  exact locate_ne hne

/-- Places at characters have the same position only if they are the same. -/
theorem locate_inj {source : List Char} {m n : Nat} (hm : isBoundary source m = true)
    (hn : isBoundary source n = true) (h : locate source m = locate source n) : m = n := by
  rcases Nat.lt_trichotomy m n with hlt | heq | hlt
  · exact absurd h (locate_ne_of_lt hm hn hlt)
  · exact heq
  · exact absurd h.symm (locate_ne_of_lt hn hm hlt)

/-! ## Attributes -/

/-- An attribute of a document says where its tag has it and how it is written. -/
structure AttributeAgrees (source : List Char) (a : Attribute) (t : TagAttribute) : Prop where
  name : sameName a.name t.name = true
  position : a.position = locate source t.start
  hasValue : a.hasValue = t.hasValue
  quoted : a.quoted = t.quoted

instance (source : List Char) (a : Attribute) (t : TagAttribute) : Decidable (AttributeAgrees source a t) :=
  decidable_of_iff (sameName a.name t.name = true ∧ a.position = locate source t.start ∧ a.hasValue = t.hasValue ∧
    a.quoted = t.quoted) ⟨fun ⟨hn, hp, hh, hq⟩ => ⟨hn, hp, hh, hq⟩, fun ⟨hn, hp, hh, hq⟩ => ⟨hn, hp, hh, hq⟩⟩

namespace Assembly

theorem takeRaw_fst (name : String) (raws : List RawAttribute) :
    (takeRaw name raws).1 = raws.find? (·.name == name) := by
  induction raws with
  | nil => rfl
  | cons raw raws ih =>
    by_cases h : raw.name = name
    · simp [takeRaw, h]
    · simp [takeRaw, h, ih]

theorem takeRaw_snd {name other : String} (hne : other ≠ name) (raws : List RawAttribute) :
    (takeRaw name raws).2.find? (·.name == other) = raws.find? (·.name == other) := by
  induction raws with
  | nil => rfl
  | cons raw raws ih =>
    by_cases h : raw.name = name
    · simp [takeRaw, h, Ne.symm hne]
    · simp [takeRaw, h, List.find?_cons, ih]

theorem mem_takeRaw {name : String} {raws : List RawAttribute} {raw : RawAttribute} (h : raw ∈ (takeRaw name raws).2) :
    raw ∈ raws := by
  induction raws with
  | nil => cases h
  | cons raw' raws ih =>
    by_cases hname : raw'.name = name
    · simp only [takeRaw, hname, if_true] at h
      exact List.mem_cons_of_mem _ h
    · simp only [takeRaw, hname, if_false] at h
      rcases List.mem_cons.1 h with rfl | h
      · simp
      · exact List.mem_cons_of_mem _ (ih h)

end Assembly

theorem sameName_refl (name : String) : sameName name name = true := by
  simp [sameName]

theorem sameName_spelling (names : List String) (name : String) : sameName (spelling names name) name = true := by
  unfold spelling
  cases h : names.find? (sameName · name) with
  | none => simp [sameName_refl]
  | some found => simpa using List.find?_some h

/-- The attributes of a document agree with those of the tag exactly if each is found as it has been read. -/
theorem attributes_agree_iff {source : List Char} (svg : Bool) {start : Nat} {ts : List TagAttribute}
    {raws : List RawAttribute} (hnodup : (ts.map TagAttribute.name).Nodup)
    (hraws : ∀ raw ∈ raws, ∀ t ∈ ts, locate source raw.offset = locate source t.start → raw.offset = t.start)
    (hstart : ∀ t ∈ ts, locate source start ≠ locate source t.start) :
    List.Forall₂ (AttributeAgrees source) (Assembly.attributes source svg start ts raws).1 ts ↔
      ∀ t ∈ ts, raws.find? (·.name == t.name) = some t.raw := by
  induction ts generalizing raws with
  | nil => simp [Assembly.attributes]
  | cons t ts ih =>
    obtain ⟨hdistinct, hnodup'⟩ := List.nodup_cons.1 hnodup
    have hlater := ih hnodup'
      (fun raw (hraw : raw ∈ (Assembly.takeRaw t.name raws).2) u hu =>
        hraws raw (Assembly.mem_takeRaw hraw) u (by simp [hu]))
      (fun u hu => hstart u (by simp [hu]))
    have hothers : (∀ u ∈ ts, (Assembly.takeRaw t.name raws).2.find? (·.name == u.name) = some u.raw) ↔
        ∀ u ∈ ts, raws.find? (·.name == u.name) = some u.raw := by
      refine forall₂_congr fun u hu => ?_
      have hne : u.name ≠ t.name := fun heq => hdistinct (heq ▸ List.mem_map_of_mem hu)
      rw [Assembly.takeRaw_snd hne]
    have hname : sameName (if svg then spelling svgAttributeNames t.name else t.name) t.name = true := by
      split
      · exact sameName_spelling _ _
      · exact sameName_refl _
    rw [Assembly.attributes, List.forall_mem_cons, ← hothers, ← hlater, ← Assembly.takeRaw_fst]
    dsimp only
    rw [List.forall₂_cons]
    refine and_congr_left fun _ => ?_
    cases hfound : (Assembly.takeRaw t.name raws).1 with
    | none =>
      refine ⟨fun hagrees => absurd hagrees.position (hstart t (by simp)), nofun⟩
    | some raw =>
      rw [Assembly.takeRaw_fst] at hfound
      have hmem := List.mem_of_find?_eq_some hfound
      have hrawName : raw.name = t.name := by simpa using List.find?_some hfound
      constructor
      · intro hagrees
        have hoffset := hraws raw hmem t (by simp) hagrees.position
        obtain ⟨name, hasValue, quoted, offset⟩ := raw
        have hhas : hasValue = t.hasValue := hagrees.hasValue
        have hquoted : quoted = t.quoted := hagrees.quoted
        simp only [TagAttribute.raw]
        rw [hhas, hquoted, ← hrawName, ← hoffset]
      · intro heq
        obtain rfl := Option.some.inj heq
        exact ⟨hname, rfl, rfl, rfl⟩

/-! ## Tags -/

/-- A tag whose attributes are readable, and whose values have no names inside them that later attributes have. -/
structure Tag.Readable (source : List Char) (tag : Tag) : Prop where
  attributes : ∀ t ∈ tag.attributes, t.Readable source tag.stop
  strays : tag.attributes.Pairwise fun t u => u.name ∉ t.strayNames source tag.stop

/-- A start tag without quotes in its name, found where it stands, shows its attributes as raw text. -/
theorem TagSource.Closes.scanTag {s : TagSource} {offset : Nat} {tag : Tag} (h : s.Closes offset tag)
    (hclosing : tag.closing = false) (rest : List Char) :
    scanTag ⟨tag.start, s.inner false ++ '>' :: rest⟩ ⟨tag.stop, rest⟩ tag.name.utf8ByteSize =
      some (rawAttributes (tag.start + 1 + byteLength s.name) (onward s.attributes.reverse s.tail)) := by
  have hsize : tag.name.utf8ByteSize = byteLength s.name := by
    rw [← byteLength_toList, ← h.spells.name, byteLength_map_toLower]
  have hbody : onward s.attributes.reverse s.tail = s.body ++ ['>'] := by
    rw [onward, ← sources_eq_flatMap, TagSource.body, List.append_assoc]
  have hstart : tag.start = offset + byteLength s.text := h.spells.start
  have hstop : tag.stop = tag.start + (1 + byteLength s.name + byteLength (s.body ++ ['>'])) := by
    rw [h.stop, hstart, hclosing]
    simp [TagSource.source, TagSource.inner, opening, show '<'.utf8Size = 1 from rfl, show '>'.utf8Size = 1 from rfl]
    omega
  have hstartBody : bodyStart tag.start tag.stop (byteLength s.name) = tag.start + 1 + byteLength s.name := by
    unfold bodyStart
    omega
  have hslice : slice? (('<' :: s.name) ++ ((s.body ++ ['>']) ++ rest)) (tag.start + 1 + byteLength s.name - tag.start)
      (tag.stop - tag.start) = some (s.body ++ ['>']) :=
    slice?_append _ _ _ (by rw [byteLength_cons, show '<'.utf8Size = 1 from rfl]; omega)
      (by rw [hstop, byteLength_cons, show '<'.utf8Size = 1 from rfl]; omega)
  unfold Markup.scanTag
  dsimp only
  rw [hsize, hstartBody, hbody]
  have htext : s.inner false ++ '>' :: rest = ('<' :: s.name) ++ ((s.body ++ ['>']) ++ rest) := by
    simp [TagSource.inner, opening]
  rw [htext, hslice, Option.map_some]

theorem Follows.start_inside {start : Nat} {ws : List WrittenAttribute} {ts : List TagAttribute}
    (h : Follows start ws ts) {t : TagAttribute} (ht : t ∈ ts) :
    ∃ front back, ws.flatMap WrittenAttribute.source = front ++ back ∧ t.start = start + byteLength front := by
  induction h with
  | nil => cases ht
  | @cons start w t' ws ts valid denotes _ ih =>
    rcases List.mem_cons.1 ht with rfl | ht
    · exact ⟨w.gap, w.name ++ (w.value.map WrittenValue.source).getD [] ++ ws.flatMap WrittenAttribute.source,
        by simp [WrittenAttribute.source], denotes.start⟩
    · obtain ⟨front, back, heq, hstart⟩ := ih ht
      exact ⟨w.source ++ front, back, by simp [heq], by simp [hstart, Nat.add_assoc]⟩

/-- The element that is made of a start tag where it stands has its attributes as they have been read exactly if the tag
is readable. -/
theorem Placed.attributes_agree {source : List Char} {call : Assembly × Tag} {e : Element}
    (h : Placed source call.1 call.2) (hclosing : call.2.closing = false) (hname : call.2.hasQuotedName = false)
    (hmakes : Makes source call e) :
    List.Forall₂ (AttributeAgrees source) e.attributes call.2.attributes ↔ call.2.Readable source := by
  obtain ⟨a, tag⟩ := call
  obtain ⟨front, s, rest, hsource, hcursor, hcloses⟩ := h
  obtain ⟨raws, hraws, rfl⟩ := hmakes
  dsimp only at *
  have hplace : (a.tagPlace tag).1 = ⟨tag.start, s.inner tag.closing ++ '>' :: rest⟩ := by
    rw [Assembly.tagPlace, hcursor]
    exact hcloses.find (by simp [hclosing, opening]) _
  have hstop : (a.tagPlace tag).2 = ⟨tag.stop, rest⟩ := by
    rw [← hcloses.closeTag hname, ← hplace]
    rfl
  rw [hplace, hstop, hclosing, hcloses.scanTag hclosing] at hraws
  obtain rfl := Option.some.inj hraws
  -- the source, cut where the attributes are
  have hstart : tag.start = byteLength front + byteLength s.text := hcloses.spells.start
  obtain ⟨before, hwhole, hbefore, hend, hfollows⟩ := hcloses.behind_name hclosing hsource
  rw [← hbefore] at hend hfollows
  have honward : onward s.attributes.reverse s.tail = s.body ++ ['>'] := by
    rw [onward, ← sources_eq_flatMap, TagSource.body, List.append_assoc]
  have hstartBoundary : ∀ t ∈ tag.attributes, isBoundary source t.start = true := by
    intro t ht
    obtain ⟨inside, back, heq, hoffset⟩ := hfollows.start_inside ht
    refine isBoundary_iff.2 ⟨before ++ inside, back ++ (s.tail ++ ['>'] ++ rest), ?_, by simp [hoffset, hbefore]⟩
    simp [hwhole, onward, heq]
  have hrawBoundary : ∀ raw ∈ rawAttributes (tag.start + 1 + byteLength s.name) (onward s.attributes.reverse s.tail),
      isBoundary source raw.offset = true := by
    intro raw hraw
    obtain ⟨inside, back, heq, -, hoffset, -⟩ := mem_rawAttributes hraw
    refine isBoundary_iff.2 ⟨before ++ inside, back ++ rest, ?_, by simp [hoffset, hbefore]⟩
    simp [hwhole, heq]
  have hagrees := attributes_agree_iff (tag.name == "svg" || a.inSvg) hcloses.distinct
    (fun raw hraw t ht => locate_inj (hrawBoundary raw hraw) (hstartBoundary t ht))
    (fun t ht => locate_ne_of_lt
      (isBoundary_iff.2 ⟨front ++ s.text, s.inner false ++ '>' :: rest,
        by simp [hsource, TagSource.source, hclosing], by simp [hstart]⟩)
      (hstartBoundary t ht) (show tag.start < t.start by have := hfollows.le_start ht; omega))
  have hfound (hnames : ∀ t ∈ tag.attributes, ∀ c ∈ t.name.toList, isBlank c = false) :=
    hfollows.found_iff hcloses.closable.ends hnames hcloses.distinct hwhole hbefore hend
  rw [hplace]
  refine hagrees.trans ⟨fun hall => ?_, fun hread => ?_⟩
  · have hnames : ∀ t ∈ tag.attributes, ∀ c ∈ t.name.toList, isBlank c = false := fun t ht =>
      not_isBlank_of_mem_rawAttributes (List.mem_of_find?_eq_some (hall t ht))
    obtain ⟨hreads, hstrays⟩ := (hfound hnames).1 hall
    exact ⟨hreads, hstrays⟩
  · exact (hfound fun t ht => (hread.attributes t ht).name).2 ⟨hread.attributes, hread.strays⟩

theorem exists_parse {source : List Char} {P : List Node → Prop} [DecidablePred P]
    (h : (match parse source with
      | .ok document => decide (P document)
      | .error _ => false) = true) : ∃ document, parse source = .ok document ∧ P document := by
  split at h
  · rename_i document heq
    exact ⟨document, heq, of_decide_eq_true h⟩
  · cases h

/-- An element of a document stands where its start tag does, unless a quote stands before the tag in the name of a tag
or of a document type. Where it does, and the tag has no quote in its own name either, its attributes agree with those of
the tag exactly if the tag is readable. -/
theorem elements_agree {source : List Char} {document : List Node} (h : parse source = .ok document) :
    List.Forall₂ (fun e tag => (∀ r ∈ readings source, r.offset < tag.start → r.isNameQuote = false) →
        e.position = locate source tag.start ∧ (tag.hasQuotedName = false →
          (List.Forall₂ (AttributeAgrees source) e.attributes tag.attributes ↔ tag.Readable source)))
      (elementsOf document) (startTags source) := by
  obtain ⟨hmakes, htags⟩ := parse_elements h
  rw [← htags, List.forall₂_map_right_iff]
  refine List.Forall₂.flip ?_
  refine List.forall₂_iff_get.2 ⟨hmakes.length_eq, fun i hi hi' hquotes => ?_⟩
  have hmake := (List.forall₂_iff_get.1 hmakes).2 i hi hi'
  have hmem := (startCalls source).get_mem ⟨i, hi⟩
  have hplaced := startCall_placed hmem hquotes
  have hclosing := closing_of_mem_calls hmem
  refine ⟨?_, fun hname => hplaced.attributes_agree hclosing hname hmake⟩
  obtain ⟨raws, -, heq⟩ := hmake
  rw [heq]
  exact congrArg (locate source) (hplaced.cut hclosing).1

/-- A tag with a value without quotes, an attribute without a value, and a value in quotes. -/
theorem elements_agree_form : ∃ document, parse "<p a=x disabled b='{y}'>hi</p>".toList = .ok document ∧
    List.Forall₂ (fun e tag => e.position = locate "<p a=x disabled b='{y}'>hi</p>".toList tag.start ∧
        (tag.hasQuotedName = false →
          (List.Forall₂ (AttributeAgrees "<p a=x disabled b='{y}'>hi</p>".toList) e.attributes tag.attributes ↔
            tag.Readable "<p a=x disabled b='{y}'>hi</p>".toList)))
      (elementsOf document) (startTags "<p a=x disabled b='{y}'>hi</p>".toList) := by
  obtain ⟨document, hparse, -⟩ : ∃ document, parse "<p a=x disabled b='{y}'>hi</p>".toList = .ok document ∧ True :=
    exists_parse (by decide +kernel)
  have hquotes : ∀ r ∈ readings "<p a=x disabled b='{y}'>hi</p>".toList, r.isNameQuote = false := by
    decide +kernel
  exact ⟨document, hparse, (elements_agree hparse).imp fun e tag h => h fun r hr _ => hquotes r hr⟩

/-- A no-break space in a value without quotes hides the sign and the quotes of a later attribute, and a quote in the name
of a tag moves the elements behind it. -/
theorem elements_disagree :
    (∃ document, parse "<p a=x\u00a0c c=\"{x}\"></p>".toList = .ok document ∧
      ¬ List.Forall₂ (fun e tag =>
          List.Forall₂ (AttributeAgrees "<p a=x\u00a0c c=\"{x}\"></p>".toList) e.attributes tag.attributes)
        (elementsOf document) (startTags "<p a=x\u00a0c c=\"{x}\"></p>".toList)) ∧
    ∃ document, parse "<p'>€</p'><b></b>".toList = .ok document ∧
      ¬ List.Forall₂ (fun e tag => e.position = locate "<p'>€</p'><b></b>".toList tag.start)
        (elementsOf document) (startTags "<p'>€</p'><b></b>".toList) :=
  ⟨exists_parse (by decide +kernel), exists_parse (by decide +kernel)⟩

end TemplateCompiler.Markup

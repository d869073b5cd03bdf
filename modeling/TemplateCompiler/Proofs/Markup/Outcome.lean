import Mathlib.Data.List.Nodup
import TemplateCompiler.Proofs.Markup.Since
/-!
# Steps keep the invariant of a scan

One lemma for each kind of state, and `step_outcome` for all of them.
-/

namespace TemplateCompiler.Markup

open TemplateCompiler.Text
open Cursor (Passes passes_all passes_outside passes_inside passes_open passes_close)

theorem to_eq_go {state next : State} {tokens : List Token} {size : Nat} :
    Step.to state = .go next tokens size ↔ state = next ∧ [] = tokens ∧ 0 = size := by
  simp [Step.to]

/-! ## Tags -/

/-- If the newest attribute of a tag repeats no older one, and these differ, all differ. -/
theorem names_nodup {tag : Tag} (hrepeat : tag.repeatsAttribute = false)
    (hdistinct : (tag.attributes.tail.map TagAttribute.name).Nodup) :
    (tag.attributes.map TagAttribute.name).Nodup := by
  unfold Tag.repeatsAttribute at hrepeat
  cases hts : tag.attributes with
  | nil => exact .nil
  | cons t ts =>
    simp only [hts, List.tail_cons] at hrepeat hdistinct
    refine List.nodup_cons.2 ⟨fun hm => ?_, hdistinct⟩
    obtain ⟨u, hu, hname⟩ := List.mem_map.1 hm
    have := List.any_eq_false.1 hrepeat u hu
    simp [hname] at this

namespace TagSource.Spells

variable {s : TagSource} {offset : Nat} {tag : Tag}

/-- Another tail does not change the tag. -/
theorem withTail (h : s.Spells offset tag) (tail : List Char) : { s with tail }.Spells offset tag :=
  ⟨h.text, h.name, h.nameChars, h.start, h.attributes, h.distinct, h.selfClosing⟩

theorem pushTagName (h : s.Spells offset tag) (ha : s.attributes = []) {c : Char} (hc : isTagNameChar c = true) :
    { s with name := s.name ++ [c] }.Spells offset { tag with name := tag.name.push c.toLower } := by
  have htag : tag.attributes = [] := by
    have := h.attributes
    rw [ha] at this
    cases hts : tag.attributes with
    | nil => rfl
    | cons t ts =>
      rw [hts] at this
      cases this
  refine ⟨h.text, by simp [h.name], ?_, h.start, ?_, h.distinct, h.selfClosing⟩
  · intro d hd
    rcases List.mem_append.1 hd with hd | hd
    · exact h.nameChars d hd
    · rw [List.mem_singleton.1 hd]
      exact hc
  · show Attributed _ s.attributes tag.attributes
    rw [ha, htag]
    exact .nil

theorem mapNewest (h : s.Spells offset tag) {w : WrittenAttribute} {older : List WrittenAttribute}
    (ha : s.attributes = w :: older) (w' : WrittenAttribute) (f : TagAttribute → TagAttribute) (hvalid : w.Valid → w'.Valid)
    (hdenotes : ∀ start t, w.Denotes start t → w'.Denotes start (f t)) :
    { s with attributes := w' :: older }.Spells offset (tag.mapNewest f) := by
  have hattributes := h.attributes
  rw [ha] at hattributes
  have hdistinct := h.distinct
  unfold Tag.mapNewest
  generalize hts : tag.attributes = ts at hattributes hdistinct
  cases hattributes with
  | cons valid denotes rest =>
    exact ⟨h.text, h.name, h.nameChars, h.start, .cons (hvalid valid) (hdenotes _ _ denotes) rest, hdistinct,
      h.selfClosing⟩

theorem startAttribute (h : s.Spells offset tag) (hrepeat : tag.repeatsAttribute = false) (hgap : s.tail ≠ [])
    (hblank : ∀ c ∈ s.tail, isSourceBlank c = true) {c : Char} (hc : isNameChar c = true) {pos : Nat}
    (hpos : pos = offset + byteLength (s.source tag.closing)) :
    { s with attributes := ⟨s.tail, [c], none⟩ :: s.attributes, tail := [] }.Spells offset
      { tag with attributes := ⟨c.toLower.toString, "", pos, false, false⟩ :: tag.attributes } := by
  refine ⟨h.text, h.name, h.nameChars, h.start, .cons ⟨hgap, hblank, by simp, by simpa using hc, by simp⟩ ?_ h.attributes,
    ?_, h.selfClosing⟩
  · refine ⟨by simp [Char.toString], ?_, rfl, rfl⟩
    rw [hpos, h.start]
    simp [source, inner, body]
    omega
  · exact names_nodup hrepeat h.distinct

end TagSource.Spells

namespace TagSource

theorem source_withTail (s : TagSource) (closing : Bool) (cs : List Char) :
    { s with tail := s.tail ++ cs }.source closing = s.source closing ++ cs := by
  simp [source, inner, body]

theorem Closable.ofBlanks {s : TagSource} (h : ∀ c ∈ s.tail, isSourceBlank c = true) : s.Closable := by
  refine ⟨⟨s.tail, [], by simp, h, .inl rfl⟩, fun hslash => ?_⟩
  exact absurd (h '/' (List.mem_of_mem_head? hslash)) (by decide)

/-- A slash behind the attributes, and blanks between that keep it apart from a value without quotes. -/
theorem Closable.slash {s : TagSource} (h : ∀ c ∈ s.tail, isSourceBlank c = true)
    (hapart : s.tail = [] → ¬ s.LastValued .unquoted) : { s with tail := s.tail ++ ['/'] }.Closable := by
  refine ⟨⟨s.tail, ['/'], rfl, h, .inr rfl⟩, fun hslash => ?_⟩
  cases ht : s.tail with
  | nil => exact hapart ht
  | cons c cs =>
    have hslash : c = '/' := by simpa [ht] using hslash
    subst hslash
    exact absurd (h '/' (by simp [ht])) (by decide)

theorem not_slashed {s : TagSource} (h : ∀ c ∈ s.tail, isSourceBlank c = true) : ¬ s.Slashed :=
  fun hslash => absurd (h '/' (List.mem_of_getLast? hslash)) (by decide)

theorem LastBare.not_valued {s : TagSource} (h : s.LastBare) (quoting : Quoting) : ¬ s.LastValued quoting := by
  rintro ⟨w, older, v, ha, hv, -⟩
  obtain ⟨w', older', ha', hw'⟩ := h
  obtain ⟨rfl, -⟩ := List.cons.inj (ha'.symm.trans ha)
  rw [hw'] at hv
  cases hv

end TagSource

section Tag

variable {offset pos size : Nat} {mid eaten rest : List Char} {c : Char} {tag : Tag} {next : State}
  {tokens : List Token} (hpos : pos = offset + byteLength mid)

/-- A character other than a line feed, with which nothing is skipped, is taken alone. -/
theorem eaten_eq (heats : Eats c (rest.take 0) eaten) (hc : c ≠ '\n') : eaten = [c] :=
  heats.exact hc

theorem not_newline (hc : isTagBlank c ≠ true) : c ≠ '\n' := by
  rintro rfl
  exact hc rfl

theorem not_sourceBlank {skipped : List Char} (heats : Eats c skipped eaten) (hc : isTagBlank c ≠ true) :
    isSourceBlank c = false := by
  have hreturn : c ≠ '\r' := by
    rcases heats with ⟨h, -⟩ | ⟨rfl, -⟩
    · exact h
    · decide
  simp [isSourceBlank, hc, hreturn]

theorem outcome_slash {s : TagSource} (hs : s.Spells offset tag) (hmid : mid = s.source tag.closing)
    (hblank : ∀ c ∈ s.tail, isSourceBlank c = true) (hapart : s.tail = [] → ¬ s.LastValued .unquoted) (hc : c = '/')
    (hstep : Step.to (.selfClosingStartTag tag) = .go next tokens size) (heats : Eats c (rest.take size) eaten) :
    Outcome offset mid eaten next tokens := by
  subst hc
  obtain ⟨rfl, rfl, rfl⟩ := to_eq_go.1 hstep
  rw [eaten_eq heats (by decide)]
  refine .goes ⟨{ s with tail := s.tail ++ ['/'] }, hs.withTail _, ?_, .slash hblank hapart, by simp [TagSource.Slashed]⟩
  rw [TagSource.source_withTail, hmid]

theorem isNameChar_of_not {skipped : List Char} (heats : Eats c skipped eaten) (hblank : isTagBlank c ≠ true)
    (hslash : c ≠ '/') (hsign : c ≠ '=') (hbracket : c ≠ '>') (hquote : c ≠ '"' ∧ c ≠ '\'' ∧ c ≠ '<') :
    isNameChar c = true := by
  simp [isNameChar, not_sourceBlank heats hblank, hslash, hsign, hbracket, hquote]

theorem since_pushName {s : TagSource} (hs : s.Spells offset tag) (hmid : mid = s.source tag.closing)
    (hbare : s.LastBare) (ht : s.tail = []) (hc : isNameChar c = true) :
    Outcome offset mid [c] (.attributeName (tag.pushName c)) [] := by
  obtain ⟨w, older, ha, hw⟩ := hbare
  have hspells := hs.mapNewest ha { w with name := w.name ++ [c] } (fun t => { t with name := t.name.push c.toLower })
    (fun hv => ⟨hv.gap, hv.blank, by simp, fun d hd => by
      rcases List.mem_append.1 hd with hd | hd
      · exact hv.nameChars d hd
      · rwa [List.mem_singleton.1 hd], hv.value⟩)
    (fun start t hd => ⟨by simp [hd.name], hd.start, hd.hasValue, hd.quoted⟩)
  have hclosing : (tag.pushName c).closing = tag.closing := by
    unfold Tag.pushName Tag.mapNewest
    split <;> rfl
  refine .goes ⟨_, hspells, ?_, ⟨_, _, rfl, hw⟩, ht⟩
  rw [hclosing, hmid]
  simp [TagSource.source, TagSource.inner, TagSource.body, sources, WrittenAttribute.source, ha, hw, ht]

include hpos

theorem outcome_endTag {s : TagSource} (hs : s.Spells offset tag) (hmid : mid = s.source tag.closing)
    (hclosable : s.Closable) {selfClosing : Bool} (hslashed : selfClosing = true ↔ s.Slashed) (hc : c = '>')
    (hstep : endTag { tag with selfClosing } pos = .go next tokens size)
    (heats : Eats c (rest.take size) eaten) : Outcome offset mid eaten next tokens := by
  subst hc
  unfold endTag at hstep
  split at hstep
  · cases hstep
  · rename_i hrepeat
    split at hstep
    · cases hstep
    · split at hstep
      · cases hstep
      · obtain ⟨rfl, rfl, rfl⟩ := Step.go.inj hstep
        refine .tag s ⟨?_, hclosable, hslashed, ?_, by rw [hpos, hmid]⟩ hmid (eaten_eq heats (by decide))
        · simp only [List.reverse_reverse]
          exact ⟨hs.text, hs.name, hs.nameChars, hs.start, hs.attributes, hs.distinct, rfl⟩
        · rw [List.map_reverse, List.nodup_reverse]
          exact names_nodup (by simpa using hrepeat) hs.distinct

/-- A bracket that ends a tag behind blanks, without a slash. -/
theorem outcome_bracket {s : TagSource} (hs : s.Spells offset tag) (hmid : mid = s.source tag.closing)
    (hblank : ∀ c ∈ s.tail, isSourceBlank c = true) (hc : c = '>') (hstep : endTag tag pos = .go next tokens size)
    (heats : Eats c (rest.take size) eaten) : Outcome offset mid eaten next tokens :=
  outcome_endTag hpos hs hmid (.ofBlanks hblank) (by simp [hs.selfClosing, TagSource.not_slashed hblank]) hc hstep heats

theorem outcome_tagName (h : Since offset mid (.tagName tag)) (hstep : tagNameStep tag pos c = .go next tokens size)
    (heats : Eats c (rest.take size) eaten) : Outcome offset mid eaten next tokens := by
  obtain ⟨s, hs, hmid, ha, ht⟩ := h
  unfold tagNameStep at hstep
  split at hstep
  · rename_i hblank
    obtain ⟨rfl, rfl, rfl⟩ := to_eq_go.1 hstep
    refine .goes ⟨{ s with tail := s.tail ++ eaten }, hs.withTail _, ?_, ?_, ?_⟩
    · rw [TagSource.source_withTail, hmid]
    · simpa [ht] using heats.ne_nil
    · simpa [ht] using heats.blank hblank
  · rename_i hblank
    split at hstep
    · rename_i hc
      refine outcome_slash hs hmid (by simp [ht]) ?_ hc hstep heats
      rintro - ⟨w, older, v, ha', -⟩
      rw [ha] at ha'
      cases ha'
    · rename_i hslash
      split at hstep
      · rename_i hc
        exact outcome_bracket hpos hs hmid (by simp [ht]) hc hstep heats
      · rename_i hbracket
        split at hstep
        · cases hstep
        · obtain ⟨rfl, rfl, rfl⟩ := to_eq_go.1 hstep
          rw [eaten_eq heats (not_newline hblank)]
          have hc : isTagNameChar c = true := by
            simp [isTagNameChar, not_sourceBlank heats hblank, hslash, hbracket]
          refine .goes ⟨{ s with name := s.name ++ [c] }, hs.pushTagName ha hc, ?_, ha, ht⟩
          simp [hmid, TagSource.source, TagSource.inner, TagSource.body, ha, ht, sources]

theorem outcome_startAttribute {s : TagSource} (hs : s.Spells offset tag) (hmid : mid = s.source tag.closing)
    (hgap : s.tail ≠ []) (hblank : ∀ c ∈ s.tail, isSourceBlank c = true) (hc : isNameChar c = true)
    (hstep : startAttribute tag pos c = .go next tokens size) (heats : Eats c (rest.take size) eaten) :
    Outcome offset mid eaten next tokens := by
  unfold startAttribute at hstep
  split at hstep
  · cases hstep
  · rename_i hrepeat
    obtain ⟨rfl, rfl, rfl⟩ := to_eq_go.1 hstep
    have hnewline : c ≠ '\n' := by
      rintro rfl
      exact absurd hc (by decide)
    rw [eaten_eq heats hnewline]
    refine .goes ⟨_, hs.startAttribute (by simpa using hrepeat) hgap hblank hc (by rw [hpos, hmid]), ?_,
      ⟨_, _, rfl, rfl⟩, rfl⟩
    simp [hmid, TagSource.source, TagSource.inner, TagSource.body, sources, WrittenAttribute.source]

theorem outcome_beforeAttributeName (h : Since offset mid (.beforeAttributeName tag))
    (hstep : beforeAttributeNameStep tag pos c = .go next tokens size) (heats : Eats c (rest.take size) eaten) :
    Outcome offset mid eaten next tokens := by
  obtain ⟨s, hs, hmid, hgap, hall⟩ := h
  unfold beforeAttributeNameStep at hstep
  split at hstep
  · rename_i hblank
    obtain ⟨rfl, rfl, rfl⟩ := to_eq_go.1 hstep
    refine .goes ⟨{ s with tail := s.tail ++ eaten }, hs.withTail _, ?_, by simp [hgap], ?_⟩
    · rw [TagSource.source_withTail, hmid]
    · intro d hd
      exact (List.mem_append.1 hd).elim (hall d) (heats.blank hblank d)
  · rename_i hblank
    split at hstep
    · rename_i hc
      exact outcome_slash hs hmid hall (fun ht => absurd ht hgap) hc hstep heats
    · rename_i hslash
      split at hstep
      · rename_i hc
        exact outcome_bracket hpos hs hmid hall hc hstep heats
      · rename_i hbracket
        split at hstep
        · cases hstep
        · rename_i hother
          simp only [Bool.or_eq_true, decide_eq_true_eq, not_or] at hother
          exact outcome_startAttribute hpos hs hmid hgap hall
            (isNameChar_of_not heats hblank hslash hother.2 hbracket ⟨hother.1.1.1.2, hother.1.1.2, hother.1.2⟩)
            hstep heats

theorem outcome_attributeName (h : Since offset mid (.attributeName tag))
    (hstep : attributeNameStep tag pos c = .go next tokens size) (heats : Eats c (rest.take size) eaten) :
    Outcome offset mid eaten next tokens := by
  obtain ⟨s, hs, hmid, hbare, ht⟩ := h
  unfold attributeNameStep at hstep
  split at hstep
  · rename_i hblank
    obtain ⟨rfl, rfl, rfl⟩ := to_eq_go.1 hstep
    refine .goes ⟨{ s with tail := s.tail ++ eaten }, hs.withTail _, ?_, hbare, ?_, ?_⟩
    · rw [TagSource.source_withTail, hmid]
    · simpa [ht] using heats.ne_nil
    · simpa [ht] using heats.blank hblank
  · rename_i hblank
    split at hstep
    · rename_i hc
      exact outcome_slash hs hmid (by simp [ht]) (fun _ => hbare.not_valued _) hc hstep heats
    · rename_i hslash
      split at hstep
      · rename_i hc
        subst hc
        obtain ⟨rfl, rfl, rfl⟩ := to_eq_go.1 hstep
        rw [eaten_eq heats (by decide)]
        refine .goes ⟨{ s with tail := s.tail ++ ['='] }, hs.withTail _, ?_, hbare, [], [], by simp [ht], by simp, by simp⟩
        rw [TagSource.source_withTail, hmid]
      · rename_i hsign
        split at hstep
        · rename_i hc
          exact outcome_bracket hpos hs hmid (by simp [ht]) hc hstep heats
        · rename_i hbracket
          split at hstep
          · cases hstep
          · rename_i hother
            simp only [Bool.or_eq_true, decide_eq_true_eq, not_or] at hother
            obtain ⟨rfl, rfl, rfl⟩ := to_eq_go.1 hstep
            have hc := isNameChar_of_not heats hblank hslash hsign hbracket ⟨hother.1.1.2, hother.1.2, hother.2⟩
            rw [eaten_eq heats (not_newline hblank)]
            exact since_pushName hs hmid hbare ht hc

theorem outcome_afterAttributeName (h : Since offset mid (.afterAttributeName tag))
    (hstep : afterAttributeNameStep tag pos c = .go next tokens size) (heats : Eats c (rest.take size) eaten) :
    Outcome offset mid eaten next tokens := by
  obtain ⟨s, hs, hmid, hbare, hgap, hall⟩ := h
  unfold afterAttributeNameStep at hstep
  split at hstep
  · rename_i hblank
    obtain ⟨rfl, rfl, rfl⟩ := to_eq_go.1 hstep
    refine .goes ⟨{ s with tail := s.tail ++ eaten }, hs.withTail _, ?_, hbare, by simp [hgap], ?_⟩
    · rw [TagSource.source_withTail, hmid]
    · intro d hd
      exact (List.mem_append.1 hd).elim (hall d) (heats.blank hblank d)
  · rename_i hblank
    split at hstep
    · rename_i hc
      exact outcome_slash hs hmid hall (fun ht => absurd ht hgap) hc hstep heats
    · rename_i hslash
      split at hstep
      · rename_i hc
        subst hc
        obtain ⟨rfl, rfl, rfl⟩ := to_eq_go.1 hstep
        rw [eaten_eq heats (by decide)]
        refine .goes ⟨{ s with tail := s.tail ++ ['='] }, hs.withTail _, ?_, hbare, s.tail, [], rfl, hall, by simp⟩
        rw [TagSource.source_withTail, hmid]
      · rename_i hsign
        split at hstep
        · rename_i hc
          exact outcome_bracket hpos hs hmid hall hc hstep heats
        · rename_i hbracket
          split at hstep
          · cases hstep
          · rename_i hother
            simp only [Bool.or_eq_true, decide_eq_true_eq, not_or] at hother
            exact outcome_startAttribute hpos hs hmid hgap hall
              (isNameChar_of_not heats hblank hslash hsign hbracket ⟨hother.1.1.2, hother.1.2, hother.2⟩)
              hstep heats

omit hpos

/-! ### Values -/

theorem allows_reference (quoting : Quoting) {d : Char} (h : isReferenceChar d = true) : quoting.allows d = true := by
  have hn := isReferenceChar_toNat h
  have hne : ∀ e : Char, (e.toNat < 48 ∧ e.toNat ≠ 35 ∨ 59 < e.toNat ∧ e.toNat < 65 ∨ e.toNat = 96) → d ≠ e := by
    rintro e he rfl
    omega
  have hform : (d.toNat == 12) = false := by
    simp
    omega
  cases quoting <;> simp [Quoting.allows, isSourceBlank, isTagBlank, hne, hform]

theorem mapNewest_closing (tag : Tag) (f : TagAttribute → TagAttribute) : (tag.mapNewest f).closing = tag.closing := by
  unfold Tag.mapNewest
  split <;> rfl

theorem mapNewest_mapNewest (tag : Tag) (f g : TagAttribute → TagAttribute) :
    (tag.mapNewest f).mapNewest g = tag.mapNewest (g ∘ f) := by
  unfold Tag.mapNewest
  cases h : tag.attributes <;> simp [h]

theorem valueCharacter_go {quoting : Quoting} (hstep : valueCharacter quoting tag c rest = .go next tokens size) :
    ∃ chars, next = .attributeValue quoting (tag.pushValue chars) ∧ tokens = [] ∧
      ∀ d ∈ rest.take size, quoting.allows d = true := by
  unfold valueCharacter at hstep
  split at hstep
  · split at hstep
    · obtain ⟨rfl, rfl, rfl⟩ := to_eq_go.1 hstep
      exact ⟨_, rfl, rfl, by simp⟩
    · rename_i hreference
      obtain ⟨rfl, rfl, rfl⟩ := Step.go.inj hstep
      exact ⟨_, rfl, rfl, fun d hd => allows_reference quoting (reference_take hreference d hd)⟩
    · cases hstep
  · split at hstep
    · cases hstep
    · obtain ⟨rfl, rfl, rfl⟩ := to_eq_go.1 hstep
      exact ⟨_, rfl, rfl, by simp⟩

/-- Behind a name and a sign a value starts, of which `text` has been read. -/
theorem since_openValue {s : TagSource} (hs : s.Spells offset tag) (hmid : mid = s.source tag.closing)
    (hbare : s.LastBare) {before after : List Char} (ht : s.tail = before ++ '=' :: after)
    (hbefore : ∀ c ∈ before, isSourceBlank c = true) (hafter : ∀ c ∈ after, isSourceBlank c = true)
    (quoting : Quoting) {text : List Char} (htext : ∀ c ∈ text, quoting.allows c = true)
    (hwritten : quoting = .unquoted → text ≠ []) {f : TagAttribute → TagAttribute}
    (hf : ∀ t, (f t).name = t.name ∧ (f t).start = t.start ∧ (f t).hasValue = true ∧
      (f t).quoted = (quoting != .unquoted)) :
    Since offset (mid ++ (quoting.marks ++ text)) (.attributeValue quoting (tag.mapNewest f)) := by
  obtain ⟨w, older, ha, hw⟩ := hbare
  have hspells := hs.mapNewest ha { w with value := some ⟨before, after, quoting, text⟩ } f
    (fun hv => ⟨hv.gap, hv.blank, hv.name, hv.nameChars, fun v hv => by
      obtain rfl := Option.some.inj hv
      exact ⟨hbefore, hafter, htext, hwritten⟩⟩)
    (fun start t hd => ⟨by rw [(hf t).1, hd.name], by rw [(hf t).2.1, hd.start], (hf t).2.2.1, (hf t).2.2.2⟩)
  refine ⟨_, hspells.withTail [], ?_, ⟨_, _, _, rfl, rfl, rfl⟩, rfl⟩
  rw [mapNewest_closing, hmid]
  simp [TagSource.source, TagSource.inner, TagSource.body, sources, WrittenAttribute.source, WrittenValue.source, ha,
    hw, ht]

theorem since_pushValue {quoting : Quoting} (h : Since offset mid (.attributeValue quoting tag))
    (hallows : ∀ d ∈ eaten, quoting.allows d = true) (chars : List Char) :
    Since offset (mid ++ eaten) (.attributeValue quoting (tag.pushValue chars)) := by
  obtain ⟨s, hs, hmid, ⟨w, older, v, ha, hw, rfl⟩, ht⟩ := h
  have hspells := hs.mapNewest ha { w with value := some { v with text := v.text ++ eaten } }
    (fun t => { t with value := t.value ++ String.ofList chars })
    (fun hv => ⟨hv.gap, hv.blank, hv.name, hv.nameChars, fun v' hv' => by
      obtain rfl := Option.some.inj hv'
      have hvalid := hv.value v hw
      refine ⟨hvalid.before, hvalid.after, fun d hd => ?_, fun hq => by simp [hvalid.written hq]⟩
      exact (List.mem_append.1 hd).elim (hvalid.text d) (hallows d)⟩)
    (fun start t hd => ⟨hd.name, hd.start, by simp [hd.hasValue, hw], by
      simp [hd.quoted, WrittenAttribute.isQuoted, hw]⟩)
  refine ⟨_, hspells, ?_, ⟨_, _, _, rfl, rfl, rfl⟩, ht⟩
  have hsource : mid = s.text ++ (opening tag.closing ++ (s.name ++ (sources older ++ (w.gap ++ (w.name ++
      (v.before ++ '=' :: (v.after ++ (v.quoting.marks ++ v.text)))))))) := by
    have hsplit : mid ++ v.quoting.marks = (s.text ++ (opening tag.closing ++ (s.name ++ (sources older ++ (w.gap ++
        (w.name ++ (v.before ++ '=' :: (v.after ++ (v.quoting.marks ++ v.text))))))))) ++ v.quoting.marks := by
      rw [hmid]
      simp [TagSource.source, TagSource.inner, TagSource.body, sources, WrittenAttribute.source, WrittenValue.source,
        ha, hw, ht]
    exact List.append_cancel_right hsplit
  unfold Tag.pushValue
  rw [mapNewest_closing, hsource]
  simp [TagSource.source, TagSource.inner, TagSource.body, sources, WrittenAttribute.source, WrittenValue.source, ht]

theorem since_closeValue {quoting : Quoting} (hq : quoting ≠ .unquoted)
    (h : Since offset mid (.attributeValue quoting tag)) :
    Since offset (mid ++ quoting.marks) (.afterAttributeValueQuoted tag) := by
  obtain ⟨s, hs, hmid, hvalued, ht⟩ := h
  exact ⟨s, hs, hmid, ⟨quoting, hq, hvalued⟩, ht⟩

theorem outcome_beforeAttributeValue (h : Since offset mid (.beforeAttributeValue tag))
    (hstep : beforeAttributeValueStep tag pos c rest = .go next tokens size)
    (heats : Eats c (rest.take size) eaten) : Outcome offset mid eaten next tokens := by
  obtain ⟨s, hs, hmid, hbare, before, after, ht, hbefore, hafter⟩ := h
  unfold beforeAttributeValueStep at hstep
  split at hstep
  · rename_i hblank
    obtain ⟨rfl, rfl, rfl⟩ := to_eq_go.1 hstep
    refine .goes ⟨{ s with tail := s.tail ++ eaten }, hs.withTail _, ?_, hbare, before, after ++ eaten, by simp [ht],
      hbefore, ?_⟩
    · rw [TagSource.source_withTail, hmid]
    · intro d hd
      exact (List.mem_append.1 hd).elim (hafter d) (heats.blank hblank d)
  · rename_i hblank
    split at hstep
    · rename_i hc
      subst hc
      obtain ⟨rfl, rfl, rfl⟩ := to_eq_go.1 hstep
      rw [eaten_eq heats (by decide)]
      exact .goes (since_openValue hs hmid hbare ht hbefore hafter .double (List.forall_mem_nil _)
        (by simp) fun t => ⟨rfl, rfl, rfl, rfl⟩)
    · split at hstep
      · rename_i hc
        subst hc
        obtain ⟨rfl, rfl, rfl⟩ := to_eq_go.1 hstep
        rw [eaten_eq heats (by decide)]
        exact .goes (since_openValue hs hmid hbare ht hbefore hafter .single (List.forall_mem_nil _)
          (by simp) fun t => ⟨rfl, rfl, rfl, rfl⟩)
      · split at hstep
        · cases hstep
        · rename_i hdouble hsingle hbracket
          unfold attributeValueStep at hstep
          dsimp only at hstep
          rw [if_neg hblank, if_neg hbracket] at hstep
          split at hstep
          · cases hstep
          · rename_i hother
            simp only [Bool.or_eq_true, decide_eq_true_eq, not_or] at hother
            obtain ⟨chars, rfl, rfl, hskipped⟩ := valueCharacter_go hstep
            have hallows : Quoting.unquoted.allows c = true := by
              simp [Quoting.allows, not_sourceBlank heats hblank, hbracket, hother]
            have heaten := heats.forall_mem hallows (fun hn => absurd hn (not_newline hblank)) hskipped
            unfold Tag.openValue Tag.pushValue
            rw [mapNewest_mapNewest]
            exact .goes (since_openValue hs hmid hbare ht hbefore hafter .unquoted heaten
              (fun _ => heats.ne_nil) fun t => ⟨rfl, rfl, rfl, rfl⟩)

include hpos

theorem outcome_attributeValue {quoting : Quoting} (h : Since offset mid (.attributeValue quoting tag))
    (hstep : attributeValueStep quoting tag pos c rest = .go next tokens size)
    (heats : Eats c (rest.take size) eaten) : Outcome offset mid eaten next tokens := by
  have hvalue : ∀ hallows : quoting.allows c = true, (c = '\n' → quoting.allows '\r' = true) →
      valueCharacter quoting tag c rest = .go next tokens size → Outcome offset mid eaten next tokens := by
    intro hallows hreturn hstep
    obtain ⟨chars, rfl, rfl, hskipped⟩ := valueCharacter_go hstep
    exact .goes (since_pushValue h (heats.forall_mem hallows hreturn hskipped) chars)
  unfold attributeValueStep at hstep
  cases quoting with
  | double =>
    dsimp only at hstep
    split at hstep
    · rename_i hc
      subst hc
      obtain ⟨rfl, rfl, rfl⟩ := to_eq_go.1 hstep
      rw [eaten_eq heats (by decide)]
      exact .goes (since_closeValue (by decide) h)
    · rename_i hc
      exact hvalue (by simpa [Quoting.allows] using hc) (fun _ => rfl) hstep
  | single =>
    dsimp only at hstep
    split at hstep
    · rename_i hc
      subst hc
      obtain ⟨rfl, rfl, rfl⟩ := to_eq_go.1 hstep
      rw [eaten_eq heats (by decide)]
      exact .goes (since_closeValue (by decide) h)
    · rename_i hc
      exact hvalue (by simpa [Quoting.allows] using hc) (fun _ => rfl) hstep
  | unquoted =>
    dsimp only at hstep
    obtain ⟨s, hs, hmid, hvalued, ht⟩ := id h
    rw [show Quoting.unquoted.marks = [] from rfl, List.append_nil] at hmid
    split at hstep
    · rename_i hblank
      obtain ⟨rfl, rfl, rfl⟩ := to_eq_go.1 hstep
      refine .goes ⟨{ s with tail := s.tail ++ eaten }, hs.withTail _, ?_, ?_, ?_⟩
      · rw [TagSource.source_withTail, hmid]
      · simpa [ht] using heats.ne_nil
      · simpa [ht] using heats.blank hblank
    · rename_i hblank
      split at hstep
      · rename_i hc
        exact outcome_bracket hpos hs hmid (by simp [ht]) hc hstep heats
      · rename_i hbracket
        split at hstep
        · cases hstep
        · rename_i hother
          simp only [Bool.or_eq_true, decide_eq_true_eq, not_or] at hother
          refine hvalue ?_ (fun hn => absurd hn (not_newline hblank)) hstep
          simp [Quoting.allows, not_sourceBlank heats hblank, hbracket, hother]

theorem outcome_afterAttributeValueQuoted (h : Since offset mid (.afterAttributeValueQuoted tag))
    (hstep : afterAttributeValueQuotedStep tag pos c = .go next tokens size)
    (heats : Eats c (rest.take size) eaten) : Outcome offset mid eaten next tokens := by
  obtain ⟨s, hs, hmid, ⟨quoting, hq, w, older, v, ha, hv, rfl⟩, ht⟩ := h
  unfold afterAttributeValueQuotedStep at hstep
  split at hstep
  · rename_i hblank
    obtain ⟨rfl, rfl, rfl⟩ := to_eq_go.1 hstep
    refine .goes ⟨{ s with tail := s.tail ++ eaten }, hs.withTail _, ?_, ?_, ?_⟩
    · rw [TagSource.source_withTail, hmid]
    · simpa [ht] using heats.ne_nil
    · simpa [ht] using heats.blank hblank
  · split at hstep
    · rename_i hc
      refine outcome_slash hs hmid (by simp [ht]) (fun _ => ?_) hc hstep heats
      rintro ⟨w', older', v', ha', hv', hq'⟩
      obtain ⟨rfl, -⟩ := List.cons.inj (ha.symm.trans ha')
      obtain rfl := Option.some.inj (hv.symm.trans hv')
      exact hq hq'
    · split at hstep
      · rename_i hc
        exact outcome_bracket hpos hs hmid (by simp [ht]) hc hstep heats
      · cases hstep

theorem outcome_selfClosingStartTag (h : Since offset mid (.selfClosingStartTag tag))
    (hstep : selfClosingStartTagStep tag pos c = .go next tokens size) (heats : Eats c (rest.take size) eaten) :
    Outcome offset mid eaten next tokens := by
  obtain ⟨s, hs, hmid, hclosable, hslashed⟩ := h
  unfold selfClosingStartTagStep at hstep
  split at hstep
  · rename_i hc
    exact outcome_endTag hpos hs hmid hclosable (by simpa using hslashed) hc hstep heats
  · cases hstep

end Tag

/-! ## Text -/

section Markup

variable {offset pos size : Nat} {mid eaten rest : List Char} {c : Char} {next : State} {tokens : List Token}

theorem outcome_data (h : Since offset mid .data) (hstep : dataStep c rest = .go next tokens size)
    (heats : Eats c (rest.take size) eaten) : Outcome offset mid eaten next tokens := by
  have hsince : c ≠ '<' → (∀ d ∈ rest.take size, isReferenceChar d = true) → Since offset (mid ++ eaten) .data := by
    intro hc hskipped
    have hall := heats.forall_mem (p := (· ≠ '<')) hc (fun _ => by decide) fun d hd => by
      rintro rfl
      exact absurd (hskipped _ hd) (by decide)
    intro hm
    rcases List.mem_append.1 hm with hm | hm
    · exact h hm
    · exact hall '<' hm rfl
  unfold dataStep at hstep
  split at hstep
  · rename_i hc
    subst hc
    obtain ⟨rfl, rfl, rfl⟩ := to_eq_go.1 hstep
    exact .goes ⟨mid, ['<'], by rw [eaten_eq heats (by decide)], h, rfl⟩
  · rename_i hc
    split at hstep
    · split at hstep
      · obtain ⟨rfl, rfl, rfl⟩ := Step.go.inj hstep
        exact .characters ['&'] (hsince hc (by simp))
      · rename_i chars size' hreference
        obtain ⟨rfl, rfl, rfl⟩ := Step.go.inj hstep
        exact .characters chars (hsince hc (reference_take hreference))
      · cases hstep
    · split at hstep
      · cases hstep
      · obtain ⟨rfl, rfl, rfl⟩ := Step.go.inj hstep
        exact .characters [c] (hsince hc (by simp))

/-! ## Starts of tags -/

theorem isTagNameChar_of_isAlpha (h : c.isAlpha = true) : isTagNameChar c = true := by
  have hreference : isReferenceChar c = true := by simp [isReferenceChar, Char.isAlphanum, h]
  have hallows := allows_reference .unquoted hreference
  have hslash : c ≠ '/' := by
    rintro rfl
    exact absurd h (by decide)
  simp only [Quoting.allows, Bool.not_eq_true', Bool.or_eq_false_iff] at hallows
  simp [isTagNameChar, hallows, hslash]

theorem since_tagName {text whole : List Char} {closing : Bool} {start : Nat} (htext : '<' ∉ text)
    (hwhole : whole = opening closing) (hc : c.isAlpha = true) (hstart : start = offset + byteLength text) :
    Since offset ((text ++ whole) ++ [c]) (.tagName ⟨closing, c.toLower.toString, [], false, start, 0⟩) := by
  refine ⟨⟨text, [c], [], []⟩, ⟨htext, by simp [Char.toString], ?_, hstart, .nil, .nil, rfl⟩, ?_, rfl, rfl⟩
  · simpa using isTagNameChar_of_isAlpha hc
  · simp [TagSource.source, TagSource.inner, TagSource.body, sources, hwhole]

theorem isPrefixOf_eq_take {word cs : List Char} (h : word.isPrefixOf (cs.map Char.toLower) = true) :
    (cs.take word.length).map Char.toLower = word := by
  rw [List.map_take]
  exact (List.prefix_iff_eq_take.1 (List.isPrefixOf_iff_prefix.1 h)).symm

theorem passes_of_lower {cs word : List Char} (h : cs.map Char.toLower = word)
    (hword : word.all (fun d => d != '"' && d != '\'' && d != '>') = true) : Passes none cs none := by
  refine passes_all fun c hc => passes_outside ?_
  have hlower : c.toLower ≠ '"' ∧ c.toLower ≠ '\'' ∧ c.toLower ≠ '>' := by
    simpa [and_assoc] using List.all_eq_true.1 hword c.toLower (h ▸ List.mem_map_of_mem hc)
  refine ⟨?_, ?_, ?_⟩ <;> rintro rfl
  · exact hlower.1 (by decide)
  · exact hlower.2.1 (by decide)
  · exact hlower.2.2 (by decide)

theorem outcome_tagOpen (hpos : pos = offset + byteLength mid) (h : Since offset mid .tagOpen)
    (hstep : tagOpenStep pos c rest = .go next tokens size) (heats : Eats c (rest.take size) eaten) :
    Outcome offset mid eaten next tokens := by
  obtain ⟨text, whole, rfl, htext, rfl⟩ := h
  unfold tagOpenStep at hstep
  split at hstep
  · rename_i hc
    subst hc
    have heaten := heats.exact (by decide)
    split at hstep
    · rename_i hdashes
      obtain ⟨rfl, rfl, rfl⟩ := Step.go.inj hstep
      have htake : rest.take 2 = ['-', '-'] :=
        (List.prefix_iff_eq_take.1 (List.isPrefixOf_iff_prefix.1 hdashes)).symm
      refine .goes ⟨text, ['<', '!', '-', '-'], by simp [heaten, htake], htext, ⟨⟨[], rfl⟩, ?_, by decide⟩⟩
      have hunclosed : Unclosed ([] ++ ['<', '!', '-', '-']) := .append (by simp [Unclosed]) (by decide)
      exact hunclosed
    · split at hstep
      · rename_i hword
        obtain ⟨rfl, rfl, rfl⟩ := Step.go.inj hstep
        have hlower := isPrefixOf_eq_take hword
        refine .goes ⟨text, ['<', '!'] ++ rest.take 7, by simp [heaten], htext, ⟨_, rfl⟩, ?_⟩
        exact .append (passes_of_lower (show ['<', '!'].map Char.toLower = ['<', '!'] by decide) (by decide))
          (passes_of_lower hlower (by decide))
      · cases hstep
  · split at hstep
    · rename_i hc
      subst hc
      obtain ⟨rfl, rfl, rfl⟩ := to_eq_go.1 hstep
      exact .goes ⟨text, ['<', '/'], by simp [eaten_eq heats (by decide)], htext, rfl⟩
    · split at hstep
      · rename_i hc
        obtain ⟨rfl, rfl, rfl⟩ := to_eq_go.1 hstep
        have hnewline : c ≠ '\n' := by
          rintro rfl
          exact absurd hc (by decide)
        rw [eaten_eq heats hnewline]
        refine .goes (since_tagName htext rfl hc ?_)
        simp only [hpos, byteLength_append, byteLength_cons, byteLength_nil, show '<'.utf8Size = 1 from rfl]
        omega
      · cases hstep

theorem outcome_endTagOpen (hpos : pos = offset + byteLength mid) (h : Since offset mid .endTagOpen)
    (hstep : endTagOpenStep pos c = .go next tokens size) (heats : Eats c (rest.take size) eaten) :
    Outcome offset mid eaten next tokens := by
  obtain ⟨text, whole, rfl, htext, rfl⟩ := h
  unfold endTagOpenStep at hstep
  split at hstep
  · rename_i hc
    obtain ⟨rfl, rfl, rfl⟩ := to_eq_go.1 hstep
    have hnewline : c ≠ '\n' := by
      rintro rfl
      exact absurd hc (by decide)
    rw [eaten_eq heats hnewline]
    refine .goes (since_tagName htext rfl hc ?_)
    simp only [hpos, byteLength_append, byteLength_cons, byteLength_nil, show '<'.utf8Size = 1 from rfl,
      show '/'.utf8Size = 1 from rfl]
    omega
  · cases hstep

/-! ## Comments -/

namespace CommentSource

variable {whole : List Char} {enough enough' : Nat → Prop}

theorem starts_append (h : CommentSource whole enough) (eaten : List Char) :
    ∃ body, whole ++ eaten = ['<', '!', '-', '-'] ++ body := by
  obtain ⟨body, rfl⟩ := h.starts
  exact ⟨body ++ eaten, by simp⟩

theorem dash (h : CommentSource whole enough) (hdashes : ∀ n, enough n → enough' (n + 1)) :
    CommentSource (whole ++ ['-']) enough' :=
  ⟨h.starts_append _, h.unclosed.push (fun hc => absurd hc (by decide)), by rw [dashes_append_dash]; exact hdashes _ h.dashes⟩

/-- A character other than a dash, which may be a closing bracket behind less than two dashes. -/
theorem other (h : CommentSource whole enough) (hc : c ≠ '-') (hbracket : c = '>' → ∀ n, enough n → n < 2)
    (heats : Eats c (rest.take 0) eaten) : CommentSource (whole ++ eaten) (· = 0) := by
  have hdash : '-' ∉ eaten := fun hm =>
    heats.forall_mem (p := (· ≠ '-')) hc (fun _ => by decide) (by simp) '-' hm rfl
  refine ⟨h.starts_append _, ?_, dashes_append heats.ne_nil hdash⟩
  by_cases hb : c = '>'
  · have heaten := heats.exact (by rw [hb]; decide)
    rw [heaten]
    exact h.unclosed.push fun _ => hbracket hb _ h.dashes
  · refine h.unclosed.append fun hm => ?_
    exact heats.forall_mem (p := (· ≠ '>')) hb (fun _ => by decide) (by simp) '>' hm rfl

end CommentSource

theorem markSince_append {P Q : List Char → Prop} (h : MarkSince mid P) (hPQ : ∀ whole, P whole → Q (whole ++ eaten)) :
    MarkSince (mid ++ eaten) Q := by
  obtain ⟨text, whole, rfl, htext, hwhole⟩ := h
  exact ⟨text, whole ++ eaten, by simp, htext, hPQ whole hwhole⟩

theorem since_dash {enough enough' : Nat → Prop} (h : MarkSince mid (CommentSource · enough))
    (hdashes : ∀ n, enough n → enough' (n + 1)) (hc : c = '-') (heats : Eats c (rest.take 0) eaten) :
    MarkSince (mid ++ eaten) (CommentSource · enough') := by
  subst hc
  rw [eaten_eq heats (by decide)]
  exact markSince_append h fun _ hwhole => hwhole.dash hdashes

theorem since_other {enough : Nat → Prop} (h : MarkSince mid (CommentSource · enough)) (hc : c ≠ '-')
    (hbracket : c = '>' → ∀ n, enough n → n < 2) (heats : Eats c (rest.take 0) eaten) :
    MarkSince (mid ++ eaten) (CommentSource · (· = 0)) :=
  markSince_append h fun _ hwhole => hwhole.other hc hbracket heats

theorem outcome_commentStep {text : String} (h : MarkSince mid (CommentSource · (· = 0)))
    (hstep : commentStep text c = .go next tokens size) (heats : Eats c (rest.take size) eaten) :
    Outcome offset mid eaten next tokens := by
  unfold commentStep at hstep
  split at hstep
  · rename_i hc
    obtain ⟨rfl, rfl, rfl⟩ := to_eq_go.1 hstep
    exact .goes (since_other h (by rw [hc]; decide) (by omega) heats)
  · split at hstep
    · rename_i hc
      obtain ⟨rfl, rfl, rfl⟩ := to_eq_go.1 hstep
      exact .goes (since_dash h (by omega) hc heats)
    · rename_i hc
      split at hstep
      · cases hstep
      · obtain ⟨rfl, rfl, rfl⟩ := to_eq_go.1 hstep
        exact .goes (since_other h hc (by omega) heats)

theorem outcome_commentStartStep (h : MarkSince mid (CommentSource · (2 ≤ ·)))
    (hstep : commentStartStep c = .go next tokens size) (heats : Eats c (rest.take size) eaten) :
    Outcome offset mid eaten next tokens := by
  unfold commentStartStep at hstep
  split at hstep
  · rename_i hc
    obtain ⟨rfl, rfl, rfl⟩ := to_eq_go.1 hstep
    exact .goes (since_dash h (by omega) hc heats)
  · rename_i hc
    split at hstep
    · cases hstep
    · rename_i hother
      simp only [Bool.or_eq_true, decide_eq_true_eq, not_or] at hother
      obtain ⟨rfl, rfl, rfl⟩ := to_eq_go.1 hstep
      exact .goes (since_other h hc (fun hb => absurd hb hother.2) heats)

theorem outcome_commentStartDashStep (h : MarkSince mid (CommentSource · (2 ≤ ·)))
    (hstep : commentStartDashStep c = .go next tokens size) (heats : Eats c (rest.take size) eaten) :
    Outcome offset mid eaten next tokens := by
  unfold commentStartDashStep at hstep
  split at hstep
  · rename_i hc
    obtain ⟨rfl, rfl, rfl⟩ := to_eq_go.1 hstep
    exact .goes (since_dash h (by omega) hc heats)
  · rename_i hc
    split at hstep
    · cases hstep
    · rename_i hother
      simp only [Bool.or_eq_true, decide_eq_true_eq, not_or] at hother
      obtain ⟨rfl, rfl, rfl⟩ := to_eq_go.1 hstep
      exact .goes (since_other h hc (fun hb => absurd hb hother.2) heats)

theorem outcome_commentEndDashStep {text : String} (h : MarkSince mid (CommentSource · (· = 1)))
    (hstep : commentEndDashStep text c = .go next tokens size) (heats : Eats c (rest.take size) eaten) :
    Outcome offset mid eaten next tokens := by
  unfold commentEndDashStep at hstep
  split at hstep
  · rename_i hc
    obtain ⟨rfl, rfl, rfl⟩ := to_eq_go.1 hstep
    exact .goes (since_dash h (by omega) hc heats)
  · rename_i hc
    split at hstep
    · cases hstep
    · obtain ⟨rfl, rfl, rfl⟩ := to_eq_go.1 hstep
      exact .goes (since_other h hc (by omega) heats)

theorem outcome_commentEndStep {text : String} (h : MarkSince mid (CommentSource · (2 ≤ ·)))
    (hstep : commentEndStep text c = .go next tokens size) (heats : Eats c (rest.take size) eaten) :
    Outcome offset mid eaten next tokens := by
  unfold commentEndStep at hstep
  split at hstep
  · rename_i hc
    subst hc
    obtain ⟨rfl, rfl, rfl⟩ := Step.go.inj hstep
    exact .comment h (eaten_eq heats (by decide))
  · rename_i hbracket
    split at hstep
    · rename_i hc
      obtain ⟨rfl, rfl, rfl⟩ := to_eq_go.1 hstep
      exact .goes (since_other h (by rw [hc]; decide) (fun hb => absurd hb hbracket) heats)
    · split at hstep
      · rename_i hc
        obtain ⟨rfl, rfl, rfl⟩ := to_eq_go.1 hstep
        exact .goes (since_dash h (by omega) hc heats)
      · rename_i hc
        split at hstep
        · cases hstep
        · obtain ⟨rfl, rfl, rfl⟩ := to_eq_go.1 hstep
          exact .goes (since_other h hc (fun hb => absurd hb hbracket) heats)

theorem outcome_commentEndBangStep {text : String} (h : MarkSince mid (CommentSource · (· = 0)))
    (hstep : commentEndBangStep text c = .go next tokens size) (heats : Eats c (rest.take size) eaten) :
    Outcome offset mid eaten next tokens := by
  unfold commentEndBangStep at hstep
  split at hstep
  · rename_i hc
    obtain ⟨rfl, rfl, rfl⟩ := to_eq_go.1 hstep
    exact .goes (since_dash h (by omega) hc heats)
  · rename_i hc
    split at hstep
    · cases hstep
    · obtain ⟨rfl, rfl, rfl⟩ := to_eq_go.1 hstep
      exact .goes (since_other h hc (by omega) heats)

/-! ## Document types -/

theorem since_doctype {quote quote' : Option Char} (h : MarkSince mid (DoctypeSource quote))
    (hpasses : Passes quote eaten quote') : MarkSince (mid ++ eaten) (DoctypeSource quote') := by
  refine markSince_append h ?_
  rintro whole ⟨⟨body, rfl⟩, hwhole⟩
  exact ⟨⟨body ++ eaten, by simp⟩, hwhole.append hpasses⟩

theorem passes_tagBlank (hc : isTagBlank c = true) (heats : Eats c (rest.take 0) eaten) : Passes none eaten none :=
  passes_all fun _ hd => passes_blank (heats.blank hc _ hd)

theorem outcome_startIdentifier {identifier : Identifier} {state : State}
    (h : MarkSince mid (DoctypeSource none)) (hstep : startIdentifier identifier c state = .go next tokens size)
    (heats : Eats c (rest.take size) eaten) : Outcome offset mid eaten next tokens := by
  unfold startIdentifier at hstep
  split at hstep
  · rename_i hc
    subst hc
    obtain ⟨rfl, rfl, rfl⟩ := to_eq_go.1 hstep
    rw [eaten_eq heats (by decide)]
    exact .goes (since_doctype h (passes_open (.inl rfl)))
  · split at hstep
    · rename_i hc
      subst hc
      obtain ⟨rfl, rfl, rfl⟩ := to_eq_go.1 hstep
      rw [eaten_eq heats (by decide)]
      exact .goes (since_doctype h (passes_open (.inr rfl)))
    · cases hstep

theorem outcome_doctypeIdentifier {quoting : Quoting} {identifier : Identifier}
    (h : Since offset mid (.doctypeIdentifier quoting identifier))
    (hstep : doctypeIdentifierStep quoting identifier c = .go next tokens size)
    (heats : Eats c (rest.take size) eaten) : Outcome offset mid eaten next tokens := by
  have hmark : (if quoting = .double then '"' else '\'') = quoting.mark := by cases quoting <;> rfl
  unfold doctypeIdentifierStep at hstep
  rw [hmark] at hstep
  split at hstep
  · rename_i hc
    subst hc
    obtain ⟨rfl, rfl, rfl⟩ := to_eq_go.1 hstep
    rw [eaten_eq heats (by cases quoting <;> decide)]
    exact .goes (since_doctype h (passes_close _))
  · rename_i hc
    split at hstep
    · cases hstep
    · obtain ⟨rfl, rfl, rfl⟩ := to_eq_go.1 hstep
      refine .goes (since_doctype h (passes_all ?_))
      refine heats.forall_mem (passes_inside hc) (fun _ => passes_inside ?_) (by simp)
      cases quoting <;> decide

theorem outcome_close (h : MarkSince mid (DoctypeSource none)) (hc : c = '>')
    (hstep : Step.go .data [.doctype] 0 = .go next tokens size) (heats : Eats c (rest.take size) eaten) :
    Outcome offset mid eaten next tokens := by
  subst hc
  obtain ⟨rfl, rfl, rfl⟩ := Step.go.inj hstep
  exact .doctype h (eaten_eq heats (by decide))

/-- A character of the name of a document type, which is no quote. -/
theorem since_doctypeName (h : MarkSince mid (DoctypeSource none)) (hquote : isQuote c = false) (hbracket : c ≠ '>')
    (heats : Eats c (rest.take 0) eaten) : MarkSince (mid ++ eaten) (DoctypeSource none) := by
  simp only [isQuote, Bool.or_eq_false_iff, beq_eq_false_iff_ne] at hquote
  refine since_doctype h (passes_all ?_)
  exact heats.forall_mem (passes_outside ⟨hquote.1, hquote.2, hbracket⟩) (fun _ => passes_outside (by decide)) (by simp)

theorem outcome_afterDoctypeName (h : MarkSince mid (DoctypeSource none))
    (hstep : State.step .afterDoctypeName pos c rest = .go next tokens size) (heats : Eats c (rest.take size) eaten) :
    Outcome offset mid eaten next tokens := by
  have hkeyword : ∀ word : String, startsWithWord word (c :: rest.take 5) = true → word.toList.length = 6 →
      word.toList.all (fun d => d != '"' && d != '\'' && d != '>') = true → Eats c (rest.take 5) eaten → c ≠ '\n' →
      MarkSince (mid ++ eaten) (DoctypeSource none) := by
    intro word hword hlength hall heats hnewline
    rw [heats.exact hnewline]
    have hlower := isPrefixOf_eq_take hword
    rw [hlength, show (c :: rest.take 5).take 6 = c :: rest.take 5 by simp [List.take_take]] at hlower
    exact since_doctype h (passes_of_lower hlower hall)
  have hletter : ∀ word : String, startsWithWord word (c :: rest.take 5) = true →
      startsWithWord word ('\n' :: rest.take 5) = false → c ≠ '\n' := by
    rintro word hword hnewline rfl
    rw [hword] at hnewline
    cases hnewline
  simp only [State.step] at hstep
  split at hstep
  · rename_i hword
    obtain ⟨rfl, rfl, rfl⟩ := Step.go.inj hstep
    exact .goes (hkeyword "public" hword rfl (by decide) heats (hletter _ hword (by simp [startsWithWord, List.isPrefixOf])))
  · split at hstep
    · rename_i hword
      obtain ⟨rfl, rfl, rfl⟩ := Step.go.inj hstep
      exact .goes (hkeyword "system" hword rfl (by decide) heats (hletter _ hword (by simp [startsWithWord, List.isPrefixOf])))
    · split at hstep
      · rename_i hblank
        obtain ⟨rfl, rfl, rfl⟩ := to_eq_go.1 hstep
        exact .goes (since_doctype h (passes_tagBlank hblank heats))
      · split at hstep
        · rename_i hc
          exact outcome_close h hc hstep heats
        · cases hstep

/-! ## All steps -/

/-- A step keeps the invariant of a scan, unless it reads a quote in the name of a document type. -/
theorem step_outcome {state : State} (hpos : pos = offset + byteLength mid) (h : Since offset mid state)
    (hstep : state.step pos c rest = .go next tokens size) (heats : Eats c (rest.take size) eaten)
    (hquote : state = .beforeDoctypeName ∨ state = .doctypeName → isQuote c = false) :
    Outcome offset mid eaten next tokens := by
  cases state with
  | data => exact outcome_data h hstep heats
  | tagOpen => exact outcome_tagOpen hpos h hstep heats
  | endTagOpen => exact outcome_endTagOpen hpos h hstep heats
  | tagName tag => exact outcome_tagName hpos h hstep heats
  | beforeAttributeName tag => exact outcome_beforeAttributeName hpos h hstep heats
  | attributeName tag => exact outcome_attributeName hpos h hstep heats
  | afterAttributeName tag => exact outcome_afterAttributeName hpos h hstep heats
  | beforeAttributeValue tag => exact outcome_beforeAttributeValue h hstep heats
  | attributeValue quoting tag => exact outcome_attributeValue hpos h hstep heats
  | afterAttributeValueQuoted tag => exact outcome_afterAttributeValueQuoted hpos h hstep heats
  | selfClosingStartTag tag => exact outcome_selfClosingStartTag hpos h hstep heats
  | markupDeclarationOpen => exact absurd h id
  | commentStart => exact outcome_commentStartStep h hstep heats
  | commentStartDash => exact outcome_commentStartDashStep h hstep heats
  | comment text => exact outcome_commentStep h hstep heats
  | commentLessThan text =>
    simp only [State.step] at hstep
    split at hstep
    · rename_i hc
      obtain ⟨rfl, rfl, rfl⟩ := to_eq_go.1 hstep
      exact .goes (since_other h (by rw [hc]; decide) (by omega) heats)
    · split at hstep
      · rename_i hc
        obtain ⟨rfl, rfl, rfl⟩ := to_eq_go.1 hstep
        exact .goes (since_other h (by rw [hc]; decide) (by omega) heats)
      · exact outcome_commentStep h hstep heats
  | commentLessThanBang text =>
    simp only [State.step] at hstep
    split at hstep
    · rename_i hc
      obtain ⟨rfl, rfl, rfl⟩ := to_eq_go.1 hstep
      exact .goes (since_dash h (by omega) hc heats)
    · exact outcome_commentStep h hstep heats
  | commentLessThanBangDash text =>
    simp only [State.step] at hstep
    split at hstep
    · rename_i hc
      obtain ⟨rfl, rfl, rfl⟩ := to_eq_go.1 hstep
      exact .goes (since_dash h (by omega) hc heats)
    · exact outcome_commentEndDashStep h hstep heats
  | commentLessThanBangDashDash text =>
    simp only [State.step] at hstep
    split at hstep
    · exact outcome_commentEndStep h hstep heats
    · cases hstep
  | commentEndDash text => exact outcome_commentEndDashStep h hstep heats
  | commentEnd text => exact outcome_commentEndStep h hstep heats
  | commentEndBang text => exact outcome_commentEndBangStep h hstep heats
  | doctype =>
    simp only [State.step] at hstep
    split at hstep
    · rename_i hblank
      obtain ⟨rfl, rfl, rfl⟩ := to_eq_go.1 hstep
      exact .goes (since_doctype h (passes_tagBlank hblank heats))
    · cases hstep
  | beforeDoctypeName =>
    simp only [State.step] at hstep
    split at hstep
    · rename_i hblank
      obtain ⟨rfl, rfl, rfl⟩ := to_eq_go.1 hstep
      exact .goes (since_doctype h (passes_tagBlank hblank heats))
    · split at hstep
      · cases hstep
      · rename_i hother
        simp only [Bool.or_eq_true, decide_eq_true_eq, not_or] at hother
        obtain ⟨rfl, rfl, rfl⟩ := to_eq_go.1 hstep
        exact .goes (since_doctypeName h (hquote (.inl rfl)) hother.2 heats)
  | doctypeName =>
    simp only [State.step] at hstep
    split at hstep
    · rename_i hblank
      obtain ⟨rfl, rfl, rfl⟩ := to_eq_go.1 hstep
      exact .goes (since_doctype h (passes_tagBlank hblank heats))
    · split at hstep
      · rename_i hc
        exact outcome_close h hc hstep heats
      · rename_i hbracket
        split at hstep
        · cases hstep
        · obtain ⟨rfl, rfl, rfl⟩ := to_eq_go.1 hstep
          exact .goes (since_doctypeName h (hquote (.inr rfl)) hbracket heats)
  | afterDoctypeName => exact outcome_afterDoctypeName h hstep heats
  | afterDoctypeKeyword identifier =>
    simp only [State.step] at hstep
    split at hstep
    · rename_i hblank
      obtain ⟨rfl, rfl, rfl⟩ := to_eq_go.1 hstep
      exact .goes (since_doctype h (passes_tagBlank hblank heats))
    · cases hstep
  | beforeDoctypeIdentifier identifier =>
    simp only [State.step] at hstep
    split at hstep
    · rename_i hblank
      obtain ⟨rfl, rfl, rfl⟩ := to_eq_go.1 hstep
      exact .goes (since_doctype h (passes_tagBlank hblank heats))
    · exact outcome_startIdentifier h hstep heats
  | doctypeIdentifier quoting identifier => exact outcome_doctypeIdentifier h hstep heats
  | afterDoctypeIdentifier identifier =>
    cases identifier with
    | publicId =>
      simp only [State.step] at hstep
      split at hstep
      · rename_i hblank
        obtain ⟨rfl, rfl, rfl⟩ := to_eq_go.1 hstep
        exact .goes (since_doctype h (passes_tagBlank hblank heats))
      · split at hstep
        · rename_i hc
          exact outcome_close h hc hstep heats
        · cases hstep
    | systemId =>
      simp only [State.step] at hstep
      split at hstep
      · rename_i hblank
        obtain ⟨rfl, rfl, rfl⟩ := to_eq_go.1 hstep
        exact .goes (since_doctype h (passes_tagBlank hblank heats))
      · split at hstep
        · rename_i hc
          exact outcome_close h hc hstep heats
        · cases hstep
  | betweenDoctypeIdentifiers =>
    simp only [State.step] at hstep
    split at hstep
    · rename_i hblank
      obtain ⟨rfl, rfl, rfl⟩ := to_eq_go.1 hstep
      exact .goes (since_doctype h (passes_tagBlank hblank heats))
    · split at hstep
      · rename_i hc
        exact outcome_close h hc hstep heats
      · exact outcome_startIdentifier h hstep heats

end Markup

end TemplateCompiler.Markup

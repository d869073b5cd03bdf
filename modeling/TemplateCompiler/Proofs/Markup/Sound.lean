import TemplateCompiler.Proofs.Markup.Piece
/-!
# Tokens can be written again

Whatever a scan hands out is made of plain characters, and the names in it are names that can be read
(`sound_of_mem_tokenize`). Each step of the scan keeps this of the tag or the comment that it stands in.
-/

namespace TemplateCompiler.Markup

open TemplateCompiler.Text

/-! ## Characters -/

theorem isPlain_toLower {c : Char} (h : isPlain c = true) : isPlain c.toLower = true := by
  rcases toLower_cases c with hc | ⟨hlow, hhigh, hlower⟩
  · rwa [hc]
  · have hreturn : c.toLower ≠ '\r' := by
      intro heq
      rw [heq] at hlower
      have : '\r'.toNat = 13 := rfl
      omega
    simp only [isPlain, isForbiddenCode, Bool.and_eq_true, Bool.not_eq_true', bne_iff_ne, Bool.or_eq_false_iff,
      Bool.and_eq_false_iff, decide_eq_false_iff_not, beq_eq_false_iff_ne, Nat.not_le]
    refine ⟨⟨?_, hreturn⟩, by omega⟩
    omega

theorem isAlpha_toLower (c : Char) : c.toLower.isAlpha = c.isAlpha := by
  have hcode (d : Char) : d.isAlpha = true ↔ (65 ≤ d.toNat ∧ d.toNat ≤ 90) ∨ (97 ≤ d.toNat ∧ d.toNat ≤ 122) := by
    unfold Char.isAlpha Char.isUpper Char.isLower
    simp only [Bool.or_eq_true, Bool.and_eq_true, decide_eq_true_eq]
    rfl
  rw [Bool.eq_iff_iff, hcode, hcode]
  rcases toLower_cases c with h | ⟨hlow, hhigh, hlower⟩
  · rw [h]
  · omega

theorem isPlain_of_allowed {c : Char} (hallowed : isForbiddenCode c.toNat = false) (hreturn : c ≠ '\r')
    (hzero : c.toNat ≠ 0) : isPlain c = true := by
  simp [isPlain, hallowed, hreturn, hzero]

theorem isSourceBlank_toLower (c : Char) : isSourceBlank c.toLower = isSourceBlank c := by
  have hsame : ∀ d : Char, (d.toNat < 97 ∨ 122 < d.toNat) → (d.toNat < 65 ∨ 90 < d.toNat) → (c.toLower = d ↔ c = d) :=
    fun d => toLower_eq_iff
  have htab := hsame '\t' (by decide) (by decide)
  have hline := hsame '\n' (by decide) (by decide)
  have hspace := hsame ' ' (by decide) (by decide)
  have hreturn := hsame '\r' (by decide) (by decide)
  have hfeed : c.toLower.toNat = 12 ↔ c.toNat = 12 := by
    rcases toLower_cases c with hc | ⟨hlow, hhigh, hlower⟩
    · rw [hc]
    · omega
  rw [Bool.eq_iff_iff]
  simp [isSourceBlank, isTagBlank, htab, hline, hspace, hreturn, hfeed]

theorem isTagNameChar_toLower (c : Char) : isTagNameChar c.toLower = isTagNameChar c := by
  have hslash : c.toLower = '/' ↔ c = '/' := toLower_eq_iff (by decide) (by decide)
  have hbracket : c.toLower = '>' ↔ c = '>' := toLower_eq_iff (by decide) (by decide)
  rw [Bool.eq_iff_iff]
  simp [isTagNameChar, isSourceBlank_toLower, hslash, hbracket]

theorem isNameChar_toLower (c : Char) : isNameChar c.toLower = isNameChar c := by
  have hsame : ∀ d : Char, (d.toNat < 97 ∨ 122 < d.toNat) → (d.toNat < 65 ∨ 90 < d.toNat) → (c.toLower = d ↔ c = d) :=
    fun d => toLower_eq_iff
  have hslash := hsame '/' (by decide) (by decide)
  have hsign := hsame '=' (by decide) (by decide)
  have hbracket := hsame '>' (by decide) (by decide)
  have hquote := hsame '"' (by decide) (by decide)
  have hsingle := hsame '\'' (by decide) (by decide)
  have hless := hsame '<' (by decide) (by decide)
  rw [Bool.eq_iff_iff]
  simp [isNameChar, isSourceBlank_toLower, hslash, hsign, hbracket, hquote, hsingle, hless]

/-- The characters with names are plain. -/
theorem isPlain_of_named {name : String} {codes : List Nat} (h : namedCharacters.lookup name = some codes) :
    ∀ c ∈ codes.map Char.ofNat, isPlain c = true := by
  have hall : (namedCharacters.all fun entry => entry.2.all fun n => isPlain (Char.ofNat n)) = true := by
    decide +kernel
  obtain ⟨before, after, hsplit, -⟩ := List.lookup_eq_some_iff.1 h
  have hmem : (name, codes) ∈ namedCharacters := by
    rw [hsplit]
    simp
  intro c hc
  obtain ⟨n, hn, rfl⟩ := List.mem_map.1 hc
  exact List.all_eq_true.1 (List.all_eq_true.1 hall _ hmem) n hn

theorem isPlain_of_code {code : Nat} (hlarge : code ≤ 0x10FFFF) (hsurrogate : isSurrogate code = false)
    (hallowed : isForbiddenCode code = false) (hreturn : code ≠ 0xD) (hzero : code ≠ 0) :
    isPlain (Char.ofNat code) = true := by
  have hvalid : code.isValidChar := by
    simp only [isSurrogate, Bool.and_eq_false_iff, decide_eq_false_iff_not, Nat.not_le] at hsurrogate
    simp only [Nat.isValidChar]
    omega
  have hcode : (Char.ofNat code).toNat = code := by
    rw [Char.ofNat, dif_pos hvalid]
    rfl
  refine isPlain_of_allowed (by rwa [hcode]) ?_ (by rwa [hcode])
  intro heq
  rw [heq] at hcode
  exact hreturn hcode.symm

/-- A reference stands for plain characters. -/
theorem isPlain_of_reference {inAttribute : Bool} {cs chars : List Char} {size : Nat}
    (h : reference inAttribute cs = .characters chars size) : ∀ c ∈ chars, isPlain c = true := by
  have hnumeric : ∀ {base front cs}, numericReference base front cs = .characters chars size →
      ∀ c ∈ chars, isPlain c = true := by
    intro base front cs h
    unfold numericReference at h
    dsimp only at h
    split at h
    · cases h
    · split at h
      · cases h
      · split at h
        · cases h
        · rename_i hcode
          simp only [Bool.or_eq_true, decide_eq_true_eq, not_or, Bool.not_eq_true, Nat.not_lt] at hcode
          injection h with hchars _
          subst hchars
          simp only [List.mem_singleton, forall_eq]
          exact isPlain_of_code hcode.1.1.1.1.2 hcode.1.2 hcode.2 hcode.1.1.2 hcode.1.1.1.2
      · cases h
  unfold reference at h
  split at h
  · cases h
  · exact hnumeric h
  · exact hnumeric h
  · exact hnumeric h
  · unfold namedReference at h
    dsimp only at h
    split at h
    · rename_i rest codes hrest hlookup
      injection h with hchars _
      subst hchars
      exact isPlain_of_named hlookup
    · split at h
      · split at h <;> cases h
      · split at h
        · split at h <;> cases h
        · cases h

/-! ## Tags -/

/-- An attribute that is made of plain characters and has a small name. -/
structure TagAttribute.Sound (a : TagAttribute) : Prop where
  name : isAttributeName a.name = true
  small : lowerName a.name = a.name
  value : isPlainText a.value = true

/-- A tag with a small name and with sound attributes, of which all but the newest one differ. -/
structure Tag.Sound (tag : Tag) : Prop where
  start : tag.name.toList.head?.any Char.isAlpha = true
  name : ∀ c ∈ tag.name.toList, isTagNameChar c = true ∧ isPlain c = true
  small : lowerName tag.name = tag.name
  attributes : ∀ a ∈ tag.attributes, a.Sound
  older : (tag.attributes.tail.map TagAttribute.name).Nodup

theorem lowerName_push (name : String) (c : Char) : lowerName (name.push c) = (lowerName name).push c.toLower :=
  String.ext (by simp [lowerName])

namespace Tag.Sound

variable {tag : Tag}

/-- A change of the newest attribute that keeps it sound. -/
theorem mapNewest (h : tag.Sound) {f : TagAttribute → TagAttribute} (hf : ∀ a : TagAttribute, a.Sound → (f a).Sound) :
    (tag.mapNewest f).Sound := by
  unfold Tag.mapNewest
  split
  · rename_i a older heq
    have hattributes := h.attributes
    have holder := h.older
    rw [heq] at hattributes holder
    refine ⟨h.start, h.name, h.small, fun b hb => ?_, holder⟩
    rcases List.mem_cons.1 hb with rfl | hb
    · exact hf a (hattributes a (by simp))
    · exact hattributes b (by simp [hb])
  · exact h

theorem pushName (h : tag.Sound) {c : Char} (hc : isNameChar c = true) (hplain : isPlain c = true) :
    (tag.pushName c).Sound := by
  refine h.mapNewest fun a ha => ⟨?_, ?_, ha.value⟩
  · have hname := ha.name
    simp only [isAttributeName, Bool.and_eq_true, Bool.not_eq_true', List.all_eq_true] at hname ⊢
    refine ⟨?_, fun d hd => ?_⟩
    · rw [Bool.eq_false_iff]
      simp
    · rw [String.toList_push, List.mem_append, List.mem_singleton] at hd
      rcases hd with hd | rfl
      · exact hname.2 d hd
      · exact ⟨by rw [isNameChar_toLower, hc], isPlain_toLower hplain⟩
  · rw [lowerName_push, ha.small, toLower_toLower]

theorem pushValue (h : tag.Sound) {cs : List Char} (hplain : ∀ c ∈ cs, isPlain c = true) : (tag.pushValue cs).Sound := by
  refine h.mapNewest fun a ha => ⟨ha.name, ha.small, ?_⟩
  have hvalue := List.all_eq_true.1 ha.value
  refine List.all_eq_true.2 fun c hc => ?_
  rw [String.toList_append, String.toList_ofList, List.mem_append] at hc
  exact hc.elim (hvalue c) (hplain c)

theorem openValue (h : tag.Sound) (quoted : Bool) : (tag.openValue quoted).Sound :=
  h.mapNewest fun _ ha => ⟨ha.name, ha.small, ha.value⟩

theorem pushTagName (h : tag.Sound) {c : Char} (hc : isTagNameChar c = true) (hplain : isPlain c = true) :
    ({ tag with name := tag.name.push c.toLower } : Tag).Sound := by
  refine ⟨?_, fun d hd => ?_, ?_, h.attributes, h.older⟩
  · have hstart := h.start
    rw [String.toList_push]
    cases hname : tag.name.toList with
    | nil => simp [hname] at hstart
    | cons d ds => simpa [hname] using hstart
  · rw [String.toList_push, List.mem_append, List.mem_singleton] at hd
    rcases hd with hd | rfl
    · exact h.name d hd
    · exact ⟨by rw [isTagNameChar_toLower, hc], isPlain_toLower hplain⟩
  · rw [lowerName_push, h.small, toLower_toLower]

theorem opened {closing : Bool} {start : Nat} {c : Char} (hc : c.isAlpha = true) (hplain : isPlain c = true) :
    Tag.Sound ⟨closing, c.toLower.toString, [], false, start, 0⟩ := by
  have halpha : c.toLower.isAlpha = true := by rw [isAlpha_toLower, hc]
  refine ⟨?_, fun d hd => ?_, ?_, by simp, .nil⟩
  · simpa [Char.toString] using halpha
  · obtain rfl : d = c.toLower := by simpa [Char.toString] using hd
    exact ⟨isTagNameChar_of_isAlpha halpha, isPlain_toLower hplain⟩
  · exact String.ext (by simp [lowerName, Char.toString])

theorem withSelfClosing (h : tag.Sound) : ({ tag with selfClosing := true } : Tag).Sound :=
  ⟨h.start, h.name, h.small, h.attributes, h.older⟩

theorem startAttribute (h : tag.Sound) {pos size : Nat} {c : Char} {next : State} {tokens : List Token}
    (hc : isNameChar c = true) (hplain : isPlain c = true) (hstep : Markup.startAttribute tag pos c = .go next tokens size) :
    ∃ t, next = .attributeName t ∧ tokens = [] ∧ t.Sound := by
  unfold Markup.startAttribute at hstep
  split at hstep
  · cases hstep
  · rename_i hrepeat
    obtain ⟨rfl, rfl, rfl⟩ := to_eq_go.1 hstep
    refine ⟨_, rfl, rfl, h.start, h.name, h.small, fun a ha => ?_, names_nodup (by simpa using hrepeat) h.older⟩
    rcases List.mem_cons.1 ha with rfl | ha
    · refine ⟨?_, String.ext (by simp [lowerName, Char.toString]), rfl⟩
      simp [isAttributeName, Char.toString, isNameChar_toLower, hc, isPlain_toLower hplain]
    · exact h.attributes a ha

/-- A tag that is handed out has no two attributes of one name. -/
theorem endTag (h : tag.Sound) {pos size : Nat} {next : State} {tokens : List Token}
    (hstep : Markup.endTag tag pos = .go next tokens size) :
    next = .data ∧ ∃ t, tokens = [.tag t] ∧ t.Sound ∧ (t.attributes.map TagAttribute.name).Nodup := by
  unfold Markup.endTag at hstep
  split at hstep
  · cases hstep
  · rename_i hrepeat
    split at hstep
    · cases hstep
    · split at hstep
      · cases hstep
      · obtain ⟨rfl, rfl, rfl⟩ := Step.go.inj hstep
        have hnodup : ((tag.attributes.reverse).map TagAttribute.name).Nodup := by
          rw [List.map_reverse, List.nodup_reverse]
          exact names_nodup (by simpa using hrepeat) h.older
        refine ⟨rfl, _, rfl, ⟨h.start, h.name, h.small, by simpa using h.attributes, ?_⟩, hnodup⟩
        exact hnodup.sublist ((List.tail_sublist _).map _)

end Tag.Sound

/-! ## Steps in a tag -/

/-- A character that a scan may read: it is allowed, and no carriage return. -/
structure InputChar (c : Char) : Prop where
  allowed : isForbiddenCode c.toNat = false
  noReturn : c ≠ '\r'

theorem InputChar.isPlain {c : Char} (h : InputChar c) (hzero : c.toNat ≠ 0) : isPlain c = true :=
  isPlain_of_allowed h.allowed h.noReturn hzero

/-- A scan goes on in a sound tag, or hands one out. -/
def GoesOn (next : State) (tokens : List Token) : Prop :=
  (∃ t, next.tag? = some t ∧ t.Sound ∧ tokens = []) ∨
    next = .data ∧ ∃ t, tokens = [.tag t] ∧ t.Sound ∧ (t.attributes.map TagAttribute.name).Nodup

theorem InputChar.isNameChar {c : Char} (h : InputChar c) (hblank : ¬isTagBlank c = true) (hslash : c ≠ '/') (hsign : c ≠ '=')
    (hbracket : c ≠ '>') (hquotes : c ≠ '"' ∧ c ≠ '\'' ∧ c ≠ '<') : isNameChar c = true := by
  simp [Markup.isNameChar, isSourceBlank, hblank, h.noReturn, hslash, hsign, hbracket, hquotes]

theorem InputChar.isTagNameChar {c : Char} (h : InputChar c) (hblank : ¬isTagBlank c = true) (hslash : c ≠ '/')
    (hbracket : c ≠ '>') : isTagNameChar c = true := by
  simp [Markup.isTagNameChar, isSourceBlank, hblank, h.noReturn, hslash, hbracket]

namespace Tag.Sound

variable {tag : Tag} {pos size : Nat} {c : Char} {rest : List Char} {next : State} {tokens : List Token}

theorem goesOn_endTag (h : tag.Sound) (hstep : Markup.endTag tag pos = .go next tokens size) : GoesOn next tokens :=
  .inr (h.endTag hstep)

theorem goesOn_startAttribute (h : tag.Sound) (hc : InputChar c) (hzero : c.toNat ≠ 0) (hname : isNameChar c = true)
    (hstep : Markup.startAttribute tag pos c = .go next tokens size) : GoesOn next tokens := by
  obtain ⟨t, rfl, rfl, ht⟩ := h.startAttribute hname (hc.isPlain hzero) hstep
  exact .inl ⟨t, rfl, ht, rfl⟩

theorem goesOn_valueCharacter (h : tag.Sound) (hc : InputChar c) {quoting : Quoting}
    (hstep : valueCharacter quoting tag c rest = .go next tokens size) : GoesOn next tokens := by
  unfold valueCharacter at hstep
  split at hstep
  · split at hstep
    · obtain ⟨rfl, rfl, -⟩ := to_eq_go.1 hstep
      exact .inl ⟨_, rfl, h.pushValue (by simpa using (by decide : isPlain '&' = true)), rfl⟩
    · rename_i hreference
      obtain ⟨rfl, rfl, -⟩ := Step.go.inj hstep
      exact .inl ⟨_, rfl, h.pushValue (isPlain_of_reference hreference), rfl⟩
    · cases hstep
  · split at hstep
    · cases hstep
    · rename_i hzero
      obtain ⟨rfl, rfl, -⟩ := to_eq_go.1 hstep
      exact .inl ⟨_, rfl, h.pushValue (by simpa using hc.isPlain hzero), rfl⟩

theorem goesOn_attributeValueStep (h : tag.Sound) (hc : InputChar c) {quoting : Quoting}
    (hstep : attributeValueStep quoting tag pos c rest = .go next tokens size) : GoesOn next tokens := by
  cases quoting <;>
    grind [attributeValueStep, Step.to, GoesOn, State.tag?, goesOn_endTag, goesOn_valueCharacter]

end Tag.Sound

/-- A step in a sound tag. -/
theorem goesOn_of_step {state next : State} {pos size : Nat} {c : Char} {rest : List Char} {tokens : List Token}
    {tag : Tag} (htag : state.tag? = some tag) (h : tag.Sound) (hc : InputChar c)
    (hstep : state.step pos c rest = .go next tokens size) : GoesOn next tokens := by
  have hto {state next : State} {tokens : List Token} {size : Nat} {t : Tag} (ht : t.Sound) (hstate : state.tag? = some t)
      (hstep : Step.to state = .go next tokens size) : GoesOn next tokens := by
    obtain ⟨rfl, rfl, -⟩ := to_eq_go.1 hstep
    exact .inl ⟨t, hstate, ht, rfl⟩
  cases state with
  | tagName tag =>
    obtain rfl := Option.some.inj htag
    simp only [State.step, tagNameStep] at hstep
    split at hstep
    · exact hto h rfl hstep
    · split at hstep
      · exact hto h rfl hstep
      · split at hstep
        · exact h.goesOn_endTag hstep
        · split at hstep
          · cases hstep
          · rename_i hblank hslash hbracket hzero
            exact hto (h.pushTagName (hc.isTagNameChar hblank hslash hbracket) (hc.isPlain hzero)) rfl hstep
  | beforeAttributeName tag =>
    obtain rfl := Option.some.inj htag
    simp only [State.step, beforeAttributeNameStep] at hstep
    split at hstep
    · exact hto h rfl hstep
    · split at hstep
      · exact hto h rfl hstep
      · split at hstep
        · exact h.goesOn_endTag hstep
        · split at hstep
          · cases hstep
          · rename_i hblank hslash hbracket hother
            simp only [Bool.or_eq_true, decide_eq_true_eq, not_or] at hother
            exact h.goesOn_startAttribute hc hother.1.1.1.1
              (hc.isNameChar hblank hslash hother.2 hbracket ⟨hother.1.1.1.2, hother.1.1.2, hother.1.2⟩) hstep
  | attributeName tag =>
    obtain rfl := Option.some.inj htag
    simp only [State.step, attributeNameStep] at hstep
    split at hstep
    · exact hto h rfl hstep
    · split at hstep
      · exact hto h rfl hstep
      · split at hstep
        · exact hto h rfl hstep
        · split at hstep
          · exact h.goesOn_endTag hstep
          · split at hstep
            · cases hstep
            · rename_i hblank hslash hsign hbracket hother
              simp only [Bool.or_eq_true, decide_eq_true_eq, not_or] at hother
              exact hto (h.pushName (hc.isNameChar hblank hslash hsign hbracket
                ⟨hother.1.1.2, hother.1.2, hother.2⟩) (hc.isPlain hother.1.1.1)) rfl hstep
  | afterAttributeName tag =>
    obtain rfl := Option.some.inj htag
    simp only [State.step, afterAttributeNameStep] at hstep
    split at hstep
    · exact hto h rfl hstep
    · split at hstep
      · exact hto h rfl hstep
      · split at hstep
        · exact hto h rfl hstep
        · split at hstep
          · exact h.goesOn_endTag hstep
          · split at hstep
            · cases hstep
            · rename_i hblank hslash hsign hbracket hother
              simp only [Bool.or_eq_true, decide_eq_true_eq, not_or] at hother
              exact h.goesOn_startAttribute hc hother.1.1.1
                (hc.isNameChar hblank hslash hsign hbracket ⟨hother.1.1.2, hother.1.2, hother.2⟩) hstep
  | beforeAttributeValue tag =>
    obtain rfl := Option.some.inj htag
    simp only [State.step, beforeAttributeValueStep] at hstep
    split at hstep
    · exact hto h rfl hstep
    · split at hstep
      · exact hto (h.openValue true) rfl hstep
      · split at hstep
        · exact hto (h.openValue true) rfl hstep
        · split at hstep
          · cases hstep
          · exact (h.openValue false).goesOn_attributeValueStep hc hstep
  | attributeValue quoting tag =>
    obtain rfl := Option.some.inj htag
    exact h.goesOn_attributeValueStep hc hstep
  | afterAttributeValueQuoted tag =>
    obtain rfl := Option.some.inj htag
    simp only [State.step, afterAttributeValueQuotedStep] at hstep
    split at hstep
    · exact hto h rfl hstep
    · split at hstep
      · exact hto h rfl hstep
      · split at hstep
        · exact h.goesOn_endTag hstep
        · cases hstep
  | selfClosingStartTag tag =>
    obtain rfl := Option.some.inj htag
    simp only [State.step, selfClosingStartTagStep] at hstep
    split at hstep
    · exact h.withSelfClosing.goesOn_endTag hstep
    · cases hstep
  | _ => cases htag

/-! ## Steps in a comment -/

/-- What has been read of a comment that a scan stands in. -/
def State.commentText? : State → Option (List Char)
  | .commentStart => some []
  | .commentStartDash => some ['-']
  | .comment text | .commentLessThan text | .commentLessThanBang text => some text.toList
  | .commentEndDash text | .commentLessThanBangDash text => some (text.toList ++ ['-'])
  | .commentEnd text | .commentLessThanBangDashDash text => some (text.toList ++ ['-', '-'])
  | .commentEndBang text => some (text.toList ++ ['-', '-', '!'])
  | _ => none

section CommentSteps

variable {next : State} {c : Char} {tokens : List Token} {cs : List Char} {size : Nat}

/-- A character is read into the text of a comment, or the comment ends. -/
def ReadsOn (cs : List Char) (c : Char) (next : State) (tokens : List Token) : Prop :=
  (next.commentText? = some (cs ++ [c]) ∧ tokens = [] ∧ c.toNat ≠ 0) ∨
    ∃ text, next = .data ∧ tokens = [.comment text] ∧ c = '>' ∧ cs = text.toList ++ ['-', '-']

theorem readsOn_to {state : State} (hzero : c.toNat ≠ 0) (hread : state.commentText? = some (cs ++ [c]))
    (hstep : Step.to state = .go next tokens size) : ReadsOn cs c next tokens := by
  obtain ⟨rfl, rfl, -⟩ := to_eq_go.1 hstep
  exact .inl ⟨hread, rfl, hzero⟩

theorem readsOn_comment {text : String} (hcs : text.toList = cs) (hstep : commentStep text c = .go next tokens size) :
    ReadsOn cs c next tokens := by
  subst hcs
  unfold commentStep at hstep
  split at hstep
  · rename_i hc
    exact readsOn_to (by rw [hc]; decide) (by simp [State.commentText?]) hstep
  · split at hstep
    · rename_i hc
      exact readsOn_to (by rw [hc]; decide) (by simp [State.commentText?, hc]) hstep
    · split at hstep
      · cases hstep
      · exact readsOn_to ‹_› (by simp [State.commentText?]) hstep

theorem readsOn_commentEndDash {text : String} (hcs : text.toList ++ ['-'] = cs)
    (hstep : commentEndDashStep text c = .go next tokens size) : ReadsOn cs c next tokens := by
  subst hcs
  unfold commentEndDashStep at hstep
  split at hstep
  · rename_i hc
    exact readsOn_to (by rw [hc]; decide) (by simp [State.commentText?, hc]) hstep
  · split at hstep
    · cases hstep
    · exact readsOn_to ‹_› (by simp [State.commentText?]) hstep

theorem readsOn_commentEnd {text : String} (hcs : text.toList ++ ['-', '-'] = cs)
    (hstep : commentEndStep text c = .go next tokens size) : ReadsOn cs c next tokens := by
  subst hcs
  unfold commentEndStep at hstep
  split at hstep
  · rename_i hc
    obtain ⟨rfl, rfl, -⟩ := Step.go.inj hstep
    exact .inr ⟨text, rfl, rfl, hc, rfl⟩
  · split at hstep
    · rename_i hc
      exact readsOn_to (by rw [hc]; decide) (by simp [State.commentText?, hc]) hstep
    · split at hstep
      · rename_i hc
        exact readsOn_to (by rw [hc]; decide) (by simp [State.commentText?, hc]) hstep
      · split at hstep
        · cases hstep
        · exact readsOn_to ‹_› (by simp [State.commentText?]) hstep

/-- A step in a comment reads its character into the text, or ends the comment. -/
theorem readsOn_of_step {state : State} (htext : state.commentText? = some cs)
    (hstep : state.step 0 c [] = .go next tokens size) : ReadsOn cs c next tokens := by
  cases state with
  | commentStart =>
    obtain rfl := Option.some.inj htext
    simp only [State.step, commentStartStep, Bool.or_eq_true, decide_eq_true_eq] at hstep
    split at hstep
    · rename_i hc
      exact readsOn_to (by rw [hc]; decide) (by simp [State.commentText?, hc]) hstep
    · split at hstep
      · cases hstep
      · rename_i hc
        exact readsOn_to (not_or.1 hc).1 (by simp [State.commentText?]) hstep
  | commentStartDash =>
    obtain rfl := Option.some.inj htext
    simp only [State.step, commentStartDashStep, Bool.or_eq_true, decide_eq_true_eq] at hstep
    split at hstep
    · rename_i hc
      exact readsOn_to (by rw [hc]; decide) (by simp [State.commentText?, hc]) hstep
    · split at hstep
      · cases hstep
      · rename_i hc
        exact readsOn_to (not_or.1 hc).1 (by simp [State.commentText?]) hstep
  | comment text => exact readsOn_comment (Option.some.inj htext) hstep
  | commentLessThan text =>
    obtain rfl := Option.some.inj htext
    simp only [State.step] at hstep
    split at hstep
    · rename_i hc
      exact readsOn_to (by rw [hc]; decide) (by simp [State.commentText?]) hstep
    · split at hstep
      · rename_i hc
        exact readsOn_to (by rw [hc]; decide) (by simp [State.commentText?]) hstep
      · exact readsOn_comment rfl hstep
  | commentLessThanBang text =>
    obtain rfl := Option.some.inj htext
    simp only [State.step] at hstep
    split at hstep
    · rename_i hc
      exact readsOn_to (by rw [hc]; decide) (by simp [State.commentText?, hc]) hstep
    · exact readsOn_comment rfl hstep
  | commentLessThanBangDash text =>
    obtain rfl := Option.some.inj htext
    simp only [State.step] at hstep
    split at hstep
    · rename_i hc
      exact readsOn_to (by rw [hc]; decide) (by simp [State.commentText?, hc]) hstep
    · exact readsOn_commentEndDash rfl hstep
  | commentLessThanBangDashDash text =>
    simp only [State.step] at hstep
    split at hstep
    · exact readsOn_commentEnd (Option.some.inj htext) hstep
    · cases hstep
  | commentEndDash text => exact readsOn_commentEndDash (Option.some.inj htext) hstep
  | commentEnd text => exact readsOn_commentEnd (Option.some.inj htext) hstep
  | commentEndBang text =>
    obtain rfl := Option.some.inj htext
    simp only [State.step, commentEndBangStep, Bool.or_eq_true, decide_eq_true_eq] at hstep
    split at hstep
    · rename_i hc
      exact readsOn_to (by rw [hc]; decide) (by simp [State.commentText?, hc]) hstep
    · split at hstep
      · cases hstep
      · rename_i hc
        exact readsOn_to (not_or.1 hc).1 (by simp [State.commentText?]) hstep
  | _ => cases htext

end CommentSteps

/-- A comment that starts with `cs` is read on from the state. -/
structure CommentRead (cs : List Char) (state : State) : Prop where
  plain : ∀ c ∈ cs, isPlain c = true
  read : ∀ rest, readComment .commentStart (cs ++ rest) = readComment state rest

theorem isComment_of_commentText? {state : State} {cs : List Char} (h : state.commentText? = some cs) :
    state.isComment = true := by
  cases state <;> first | rfl | cases h

/-- A step in a comment goes on in it, or hands out a text that can be written as a comment again. -/
theorem CommentRead.step {state next : State} {pos size : Nat} {c : Char} {cs rest : List Char} {tokens : List Token}
    (h : CommentRead cs state) (htext : state.commentText? = some cs) (hc : InputChar c)
    (hstep : state.step pos c rest = .go next tokens size) :
    (next.commentText? = some (cs ++ [c]) ∧ tokens = [] ∧ CommentRead (cs ++ [c]) next) ∨
      ∃ text, next = .data ∧ tokens = [.comment text] ∧ isCommentText text = true := by
  have hstate := isComment_of_commentText? htext
  rw [(step_comment hstate pos c rest).1] at hstep
  rcases readsOn_of_step htext hstep with ⟨hnext, rfl, hzero⟩ | ⟨text, rfl, rfl, rfl, rfl⟩
  · refine .inl ⟨hnext, rfl, ?_, fun rest => ?_⟩
    · simpa [or_imp, forall_and] using ⟨h.plain, hc.isPlain hzero⟩
    · rw [List.append_assoc, List.singleton_append, h.read, readComment]
      simp only [hstep]
  · refine .inr ⟨text, rfl, rfl, ?_⟩
    have hread := h.read ['>']
    rw [readComment] at hread
    simp only [hstep] at hread
    have hplain : isPlainText text = true := List.all_eq_true.2 fun c hc => h.plain c (by simp [hc])
    simpa [isCommentText, hplain] using hread

/-! ## Scans -/

/-- What a scan that stands in a state has read of a tag or of a comment can be written again. -/
structure State.Sound (state : State) : Prop where
  tag : ∀ tag, state.tag? = some tag → tag.Sound
  comment : ∀ cs, state.commentText? = some cs → CommentRead cs state

/-- A token that can be written again. -/
def Token.Sound : Token → Prop
  | .character c => isPlain c = true
  | .tag t => t.Sound ∧ (t.attributes.map TagAttribute.name).Nodup
  | .comment text => isCommentText text = true
  | .doctype => True

theorem State.Sound.of_outside {state : State} (htag : state.tag? = none) (htext : state.commentText? = none) :
    state.Sound :=
  ⟨by simp [htag], by simp [htext]⟩

theorem sound_data : State.Sound .data :=
  .of_outside rfl rfl

/-- The characters that a step in text hands out are plain. -/
theorem dataStep_sound {c : Char} {rest : List Char} {next : State} {tokens : List Token} {size : Nat} (hc : InputChar c)
    (hstep : dataStep c rest = .go next tokens size) : next.Sound ∧ ∀ token ∈ tokens, token.Sound := by
  unfold dataStep at hstep
  split at hstep
  · obtain ⟨rfl, rfl, -⟩ := to_eq_go.1 hstep
    exact ⟨.of_outside rfl rfl, by simp⟩
  · split at hstep
    · split at hstep
      · obtain ⟨rfl, rfl, -⟩ := Step.go.inj hstep
        exact ⟨sound_data, by simpa [Token.Sound] using (by decide : isPlain '&' = true)⟩
      · rename_i hreference
        obtain ⟨rfl, rfl, -⟩ := Step.go.inj hstep
        refine ⟨sound_data, fun token htoken => ?_⟩
        obtain ⟨d, hd, rfl⟩ := List.mem_map.1 htoken
        exact isPlain_of_reference hreference d hd
      · cases hstep
    · split at hstep
      · cases hstep
      · rename_i hzero
        obtain ⟨rfl, rfl, -⟩ := Step.go.inj hstep
        exact ⟨sound_data, by simpa [Token.Sound] using hc.isPlain hzero⟩

/-- A step from outside of tags and comments enters neither, or a tag of one letter or an empty comment. -/
theorem outside_sound {state next : State} {pos size : Nat} {c : Char} {rest : List Char} {tokens : List Token}
    (htag : state.tag? = none) (htext : state.commentText? = none) (hc : InputChar c)
    (hstep : state.step pos c rest = .go next tokens size) : next.Sound ∧ ∀ token ∈ tokens, token.Sound := by
  have hopened (closing : Bool) (start : Nat) (halpha : c.isAlpha = true) :
      State.Sound (.tagName ⟨closing, c.toLower.toString, [], false, start, 0⟩) := by
    refine ⟨fun tag h => ?_, by simp [State.commentText?]⟩
    obtain rfl := Option.some.inj h
    refine Tag.Sound.opened halpha (hc.isPlain fun hzero => ?_)
    obtain rfl : c = Char.ofNat 0 := by rw [← hzero, Char.ofNat_toNat]
    cases halpha
  have hdoctype (h : next.tag? = none ∧ next.commentText? = none ∧ ∀ token ∈ tokens, token = .doctype) :
      next.Sound ∧ ∀ token ∈ tokens, token.Sound :=
    ⟨.of_outside h.1 h.2.1, fun token htoken => by rw [h.2.2 token htoken]; trivial⟩
  cases state with
  | data => exact dataStep_sound hc hstep
  | tagOpen =>
    simp only [State.step, tagOpenStep] at hstep
    split at hstep
    · split at hstep
      · obtain ⟨rfl, rfl, -⟩ := Step.go.inj hstep
        refine ⟨⟨by simp [State.tag?], fun cs h => ?_⟩, by simp⟩
        obtain rfl := Option.some.inj h
        exact ⟨by simp, fun _ => rfl⟩
      · split at hstep
        · obtain ⟨rfl, rfl, -⟩ := Step.go.inj hstep
          exact ⟨.of_outside rfl rfl, by simp⟩
        · cases hstep
    · split at hstep
      · obtain ⟨rfl, rfl, -⟩ := to_eq_go.1 hstep
        exact ⟨.of_outside rfl rfl, by simp⟩
      · split at hstep
        · rename_i halpha
          obtain ⟨rfl, rfl, -⟩ := to_eq_go.1 hstep
          exact ⟨hopened _ _ halpha, by simp⟩
        · cases hstep
  | endTagOpen =>
    simp only [State.step, endTagOpenStep] at hstep
    split at hstep
    · rename_i halpha
      obtain ⟨rfl, rfl, -⟩ := to_eq_go.1 hstep
      exact ⟨hopened _ _ halpha, by simp⟩
    · cases hstep
  | doctypeIdentifier quoting identifier =>
    exact hdoctype (by grind [State.step, doctypeIdentifierStep, Step.to, State.tag?, State.commentText?])
  | afterDoctypeIdentifier identifier =>
    exact hdoctype (by cases identifier <;> grind [State.step, Step.to, State.tag?, State.commentText?])
  | _ =>
    first
    | cases htag; done
    | cases htext; done
    | exact hdoctype (by grind [State.step, startIdentifier, Step.to, State.tag?, State.commentText?])

theorem commentText?_of_tag? {state : State} {tag : Tag} (h : state.tag? = some tag) : state.commentText? = none := by
  cases state <;> first | rfl | cases h

theorem tag?_of_commentText? {state : State} {cs : List Char} (h : state.commentText? = some cs) : state.tag? = none := by
  cases state <;> first | rfl | cases h

/-- A step keeps what has been read sound, and hands out sound tokens. -/
theorem State.Sound.step {state next : State} {pos size : Nat} {c : Char} {rest : List Char} {tokens : List Token}
    (h : state.Sound) (hc : InputChar c) (hstep : state.step pos c rest = .go next tokens size) :
    next.Sound ∧ ∀ token ∈ tokens, token.Sound := by
  cases htag : state.tag? with
  | some tag =>
    rcases goesOn_of_step htag (h.tag tag htag) hc hstep with ⟨t, ht, hsound, rfl⟩ | ⟨rfl, t, rfl, hsound⟩
    · refine ⟨⟨fun t' ht' => ?_, by simp [commentText?_of_tag? ht]⟩, by simp⟩
      obtain rfl := Option.some.inj (ht.symm.trans ht')
      exact hsound
    · exact ⟨sound_data, by simpa [Token.Sound] using hsound⟩
  | none =>
    cases htext : state.commentText? with
    | some cs =>
      rcases (h.comment cs htext).step htext hc hstep with ⟨hnext, rfl, hread⟩ | ⟨text, rfl, rfl, hsound⟩
      · refine ⟨⟨by simp [tag?_of_commentText? hnext], fun cs' hcs' => ?_⟩, by simp⟩
        obtain rfl := Option.some.inj (hnext.symm.trans hcs')
        exact hread
      · exact ⟨sound_data, by simpa [Token.Sound] using hsound⟩
    | none => exact outside_sound htag htext hc hstep

theorem sound_of_mem_scanFrom {state : State} {pos : Nat} {cs : List Char} (h : state.Sound) :
    ∀ token ∈ (scanFrom state pos cs).tokens, token.Sound := by
  refine forall_mem_scanFrom (R := fun state _ _ => state.Sound) (fun h hsteps => ?_) h
  obtain ⟨rest, size, hstep, heats, -, -⟩ := hsteps.step
  refine h.step ⟨hsteps.allowed, ?_⟩ hstep
  rcases heats with ⟨hc, -⟩ | ⟨rfl, -⟩
  · exact hc
  · decide

/-- Whatever is read from a source can be written again. -/
theorem sound_of_mem_tokenize {source : List Char} : ∀ token ∈ (tokenize source).tokens, token.Sound := by
  unfold tokenize
  split
  · split <;> exact sound_of_mem_scanFrom sound_data
  · simp

end TemplateCompiler.Markup

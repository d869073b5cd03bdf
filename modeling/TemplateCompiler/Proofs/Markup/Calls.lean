import TemplateCompiler.Markup.Tree
import TemplateCompiler.Proofs.Markup.Outcome
/-!
# Start tags are found where they stand

A cursor that looks for each tag in the source finds it where the scan has read it, as long as no quote has been read in
the name of a tag or of a document type (`startCall_placed`). Where it does, the raw text of the tag is cut at
characters, and so reading a source without such quotes never fails by splitting a character.
-/

namespace TemplateCompiler.Markup

open TemplateCompiler.Text
open Cursor (Passes)

/-! ## Calls -/

/-- The start tag that a token is. -/
def Token.startTag? : Token → Option Tag
  | .tag t => if t.closing then none else some t
  | _ => none

theorem Token.startTag?_eq_some {token : Token} {t : Tag} (h : token.startTag? = some t) :
    token = .tag t ∧ t.closing = false := by
  cases token with
  | tag t' =>
    simp only [startTag?] at h
    split at h
    · cases h
    · rename_i hclosing
      obtain rfl := Option.some.inj h
      exact ⟨rfl, by simpa using hclosing⟩
  | _ => cases h

/-- The start tags among `tokens`, each with the assembly that it is added to. -/
def startCallsFrom (source : List Char) (a : Assembly) : List Token → List (Assembly × Tag)
  | [] => []
  | token :: tokens =>
    token.startTag?.toList.map (a.flush, ·) ++
    match a.step source token with
    | .ok a => startCallsFrom source a tokens
    | .error _ => []

/-- The start tags that are added while a source is read. -/
def startCalls (source : List Char) : List (Assembly × Tag) :=
  startCallsFrom source (.initial source) (tokenize source).tokens

/-- A quote that is read in the name of a tag or of a document type. -/
def Reading.isNameQuote (r : Reading) : Bool :=
  isQuote r.char &&
    match r.state with
    | .tagName _ => true
    | .beforeDoctypeName => true
    | .doctypeName => true
    | _ => false

/-! ## Positions of tags -/

/-- The tag that a scan stands in. -/
def State.tag? : State → Option Tag
  | .tagName tag | .beforeAttributeName tag | .attributeName tag | .afterAttributeName tag | .beforeAttributeValue tag
  | .attributeValue _ tag | .afterAttributeValueQuoted tag | .selfClosingStartTag tag => some tag
  | _ => none

/-- Where the next tag can start at the earliest, when a scan stands in a state at the byte `pos`. -/
def State.floor (pos : Nat) (state : State) : Nat :=
  match state with
  | .tagOpen => pos - 1
  | .endTagOpen => pos - 2
  | state => (state.tag?.map Tag.start).getD pos

theorem mapNewest_start (tag : Tag) (f : TagAttribute → TagAttribute) : (tag.mapNewest f).start = tag.start := by
  unfold Tag.mapNewest
  split <;> rfl

theorem endTag_go {tag : Tag} {pos size : Nat} {next : State} {tokens : List Token}
    (h : endTag tag pos = .go next tokens size) :
    next = .data ∧ ∃ t : Tag, t.start = tag.start ∧ tokens = [.tag t] := by
  unfold endTag at h
  split at h
  · cases h
  · split at h
    · cases h
    · split at h
      · cases h
      · obtain ⟨rfl, rfl, -⟩ := Step.go.inj h
        exact ⟨rfl, { tag with attributes := tag.attributes.reverse, stop := pos + 1 }, rfl, rfl⟩

/-- A step in a tag goes on in that tag, or hands it out. -/
theorem step_tag {state next : State} {pos size : Nat} {c : Char} {rest : List Char} {tokens : List Token} {tag : Tag}
    (htag : state.tag? = some tag) (h : state.step pos c rest = .go next tokens size) :
    (∃ t, next.tag? = some t ∧ t.start = tag.start ∧ tokens = []) ∨
      next = .data ∧ ∃ t : Tag, t.start = tag.start ∧ tokens = [.tag t] := by
  cases state with
  | tagName tag => grind [State.step, State.tag?, tagNameStep, Step.to, endTag_go]
  | beforeAttributeName tag => grind [State.step, State.tag?, beforeAttributeNameStep, startAttribute, Step.to, endTag_go]
  | attributeName tag =>
    grind [State.step, State.tag?, attributeNameStep, Step.to, endTag_go, Tag.pushName, mapNewest_start]
  | afterAttributeName tag => grind [State.step, State.tag?, afterAttributeNameStep, startAttribute, Step.to, endTag_go]
  | beforeAttributeValue tag =>
    grind [State.step, State.tag?, beforeAttributeValueStep, attributeValueStep, valueCharacter, Step.to, endTag_go,
      Tag.openValue, Tag.pushValue, mapNewest_start]
  | attributeValue quoting tag =>
    cases quoting <;> grind [State.step, State.tag?, attributeValueStep, valueCharacter, Step.to, endTag_go, Tag.pushValue, mapNewest_start]
  | afterAttributeValueQuoted tag => grind [State.step, State.tag?, afterAttributeValueQuotedStep, Step.to, endTag_go]
  | selfClosingStartTag tag => grind [State.step, State.tag?, selfClosingStartTagStep, endTag_go]
  | _ => simp [State.tag?] at htag

theorem floor_le_of_noTag {state next : State} {pos size width : Nat} {c : Char} {rest : List Char}
    {tokens : List Token} (htag : state.tag? = none) (hwidth : 1 ≤ width)
    (h : state.step pos c rest = .go next tokens size) :
    state.floor pos ≤ next.floor (pos + width) ∧ next.floor (pos + width) ≤ pos + width ∧
      ∀ t : Tag, .tag t ∉ tokens := by
  cases state with
  | data => grind [State.step, dataStep, Step.to, State.floor, State.tag?]
  | tagOpen => grind [State.step, tagOpenStep, Step.to, State.floor, State.tag?]
  | endTagOpen => grind [State.step, endTagOpenStep, Step.to, State.floor, State.tag?]
  | doctypeIdentifier quoting identifier =>
    grind [State.step, doctypeIdentifierStep, Step.to, State.floor, State.tag?]
  | afterDoctypeIdentifier identifier =>
    cases identifier <;> grind [State.step, Step.to, State.floor, State.tag?]
  | _ =>
    first
    | simp [State.tag?] at htag; done
    | grind [State.step, commentStep, commentStartStep, commentStartDashStep, commentEndDashStep, commentEndStep,
      commentEndBangStep, startIdentifier, Step.to, State.floor, State.tag?]

/-- The next tag starts no earlier than the floor of the state, which a step never lowers. -/
theorem floor_le {state next : State} {pos size width : Nat} {c : Char} {rest : List Char} {tokens : List Token}
    (hfloor : state.floor pos ≤ pos) (hwidth : 1 ≤ width) (h : state.step pos c rest = .go next tokens size) :
    state.floor pos ≤ next.floor (pos + width) ∧ next.floor (pos + width) ≤ pos + width ∧
      ∀ t : Tag, .tag t ∈ tokens → state.floor pos ≤ t.start := by
  have hof : ∀ (state : State) (pos : Nat) (t : Tag), state.tag? = some t → state.floor pos = t.start := by
    intro state pos t ht
    cases state <;> simp_all [State.floor, State.tag?]
  cases htag : state.tag? with
  | none =>
    obtain ⟨hle, hnext, hnone⟩ := floor_le_of_noTag htag hwidth h
    exact ⟨hle, hnext, fun t ht => absurd ht (hnone t)⟩
  | some tag =>
    rw [hof state pos tag htag] at hfloor ⊢
    rcases step_tag htag h with ⟨t, ht, hstart, rfl⟩ | ⟨rfl, t, hstart, rfl⟩
    · rw [hof next _ t ht, hstart]
      exact ⟨Nat.le_refl _, by omega, by simp⟩
    · refine ⟨?_, ?_, fun t' ht' => ?_⟩
      · simp only [State.floor, State.tag?, Option.map_none, Option.getD_none]
        omega
      · simp [State.floor, State.tag?]
      · obtain rfl : t' = t := by simpa using ht'
        omega

theorem isQuote_toLower (c : Char) : isQuote c.toLower = isQuote c := by
  have hdouble : c.toLower = '"' ↔ c = '"' := toLower_eq_iff (.inl (by decide)) (.inl (by decide))
  have hsingle : c.toLower = '\'' ↔ c = '\'' := toLower_eq_iff (.inl (by decide)) (.inl (by decide))
  rw [Bool.eq_iff_iff]
  simp [isQuote, hdouble, hsingle]

/-- Whether the name of a tag has a quote in it. -/
def Tag.hasQuotedName (tag : Tag) : Bool :=
  tag.name.toList.any isQuote

theorem hasQuotedName_mapNewest (tag : Tag) (f : TagAttribute → TagAttribute) :
    (tag.mapNewest f).hasQuotedName = tag.hasQuotedName := by
  unfold Tag.mapNewest
  split <;> rfl

theorem hasQuotedName_push (tag : Tag) (c : Char) :
    { tag with name := tag.name.push c.toLower }.hasQuotedName = (tag.hasQuotedName || isQuote c) := by
  simp [Tag.hasQuotedName, isQuote_toLower]

theorem hasQuotedName_start (closing : Bool) (c : Char) (start : Nat) (h : c.isAlpha = true) :
    Tag.hasQuotedName ⟨closing, c.toLower.toString, [], false, start, 0⟩ = false := by
  have hquote : isQuote c = false := by
    simp only [isQuote, Bool.or_eq_false_iff, beq_eq_false_iff_ne]
    refine ⟨?_, ?_⟩ <;> rintro rfl <;> exact absurd h (by decide)
  simp [Tag.hasQuotedName, Char.toString, isQuote_toLower, hquote]

theorem endTag_hasQuotedName {tag : Tag} {pos size : Nat} {next : State} {tokens : List Token}
    (h : endTag tag pos = .go next tokens size) : ∀ t : Tag, .tag t ∈ tokens → t.hasQuotedName = tag.hasQuotedName := by
  unfold endTag at h
  split at h
  · cases h
  · split at h
    · cases h
    · split at h
      · cases h
      · obtain ⟨rfl, rfl, -⟩ := Step.go.inj h
        intro t ht
        obtain rfl : t = { tag with attributes := tag.attributes.reverse, stop := pos + 1 } := by simpa using ht
        rfl

/-- A quote comes into the name of a tag where it is read there. -/
theorem step_hasQuotedName {state next : State} {pos size : Nat} {c : Char} {rest : List Char} {tokens : List Token}
    (h : state.step pos c rest = .go next tokens size) {t : Tag} (ht : next.tag? = some t ∨ .tag t ∈ tokens)
    (hquote : t.hasQuotedName = true) :
    (∃ tag, state.tag? = some tag ∧ tag.hasQuotedName = true) ∨
      ∃ tag, state = .tagName tag ∧ next.tag? = some t ∧ isQuote c = true := by
  cases state with
  | tagOpen =>
    grind [State.step, State.tag?, tagOpenStep, Step.to, hasQuotedName_start]
  | endTagOpen =>
    grind [State.step, State.tag?, endTagOpenStep, Step.to, hasQuotedName_start]
  | tagName tag =>
    grind [State.step, State.tag?, tagNameStep, Step.to, endTag_go, endTag_hasQuotedName, hasQuotedName_push]
  | beforeAttributeName tag =>
    grind [State.step, State.tag?, beforeAttributeNameStep, startAttribute, Step.to, endTag_go, endTag_hasQuotedName,
      Tag.hasQuotedName]
  | attributeName tag =>
    grind [State.step, State.tag?, attributeNameStep, Step.to, endTag_go, endTag_hasQuotedName, Tag.pushName,
      hasQuotedName_mapNewest]
  | afterAttributeName tag =>
    grind [State.step, State.tag?, afterAttributeNameStep, startAttribute, Step.to, endTag_go, endTag_hasQuotedName,
      Tag.hasQuotedName]
  | beforeAttributeValue tag =>
    grind [State.step, State.tag?, beforeAttributeValueStep, attributeValueStep, valueCharacter, Step.to, endTag_go,
      endTag_hasQuotedName, Tag.openValue, Tag.pushValue, hasQuotedName_mapNewest]
  | attributeValue quoting tag =>
    cases quoting <;> grind [State.step, State.tag?, attributeValueStep, valueCharacter, Step.to, endTag_go,
      endTag_hasQuotedName, Tag.pushValue, hasQuotedName_mapNewest]
  | afterAttributeValueQuoted tag =>
    grind [State.step, State.tag?, afterAttributeValueQuotedStep, Step.to, endTag_go, endTag_hasQuotedName]
  | selfClosingStartTag tag =>
    have hself : { tag with selfClosing := true }.hasQuotedName = tag.hasQuotedName := rfl
    grind [State.step, State.tag?, selfClosingStartTagStep, endTag_go, endTag_hasQuotedName]
  | data => grind [State.step, State.tag?, dataStep, Step.to]
  | doctypeIdentifier quoting identifier => grind [State.step, doctypeIdentifierStep, Step.to, State.tag?]
  | afterDoctypeIdentifier identifier => cases identifier <;> grind [State.step, Step.to, State.tag?]
  | _ =>
    grind [State.step, commentStep, commentStartStep, commentStartDashStep, commentEndDashStep, commentEndStep,
      commentEndBangStep, startIdentifier, Step.to, State.tag?]

theorem floor_le_start {state : State} {pos : Nat} {cs : List Char} (hfloor : state.floor pos ≤ pos) {t : Tag}
    (ht : .tag t ∈ (scanFrom state pos cs).tokens) : state.floor pos ≤ t.start := by
  refine forall_mem_scanFrom (R := fun next pos' _ => state.floor pos ≤ next.floor pos' ∧ next.floor pos' ≤ pos')
    (P := fun token => ∀ t : Tag, token = .tag t → state.floor pos ≤ t.start) (fun hreached hsteps => ?_)
    ⟨Nat.le_refl _, hfloor⟩ _ ht t rfl
  obtain ⟨hlow, hhigh⟩ := hreached
  obtain ⟨rest, size, hstep, heats, -, -⟩ := hsteps.step
  obtain ⟨hle, hnext, hhere⟩ := floor_le hhigh (byteLength_pos heats.ne_nil) hstep
  refine ⟨⟨Nat.le_trans hlow hle, hnext⟩, ?_⟩
  rintro _ htoken t rfl
  exact Nat.le_trans hlow (hhere t htoken)

/-! ## Cursors -/

namespace Assembly

@[simp] theorem attach_cursor (a : Assembly) (n : Node) : (a.attach n).cursor = a.cursor := by
  unfold attach
  split <;> rfl

@[simp] theorem flush_cursor (a : Assembly) : a.flush.cursor = a.cursor := by
  unfold flush
  split <;> simp

@[simp] theorem enter_cursor (a : Assembly) (name : String) (e : Element) : (a.enter name e).cursor = a.cursor := by
  unfold enter
  split <;> simp

@[simp] theorem character_cursor (source : List Char) (a : Assembly) (c : Char) :
    (a.character source c).cursor = a.cursor := by
  unfold character
  split <;> rfl

theorem startTag_cursor {source : List Char} {a a' : Assembly} {tag : Tag} (h : a.startTag source tag = .ok a') :
    a'.cursor = (a.tagPlace tag).2 := by
  unfold startTag at h
  dsimp only at h
  split at h
  · cases h
  · injection h with h
    subst h
    simp

theorem endTag_cursor {source : List Char} {a a' : Assembly} {tag : Tag} (h : a.endTag source tag = .ok a') :
    a'.cursor = (a.cursor.find ("</" ++ tag.name)).closeTag := by
  unfold endTag at h
  dsimp only at h
  split at h
  · cases h
  · split at h
    · cases h
    · split at h
      · injection h with h
        subst h
        simp
      · split at h <;> cases h

end Assembly

/-- The cursor of an assembly stands where the last tag has ended, and a scan stands behind it. -/
def Synced (source : List Char) (a : Assembly) (state : State) (pos : Nat) (cs : List Char) : Prop :=
  ∃ front mid, source = front ++ (mid ++ cs) ∧ a.cursor = ⟨byteLength front, mid ++ cs⟩ ∧
    pos = byteLength front + byteLength mid ∧ Since (byteLength front) mid state

/-- The tag `tag` is the next one behind the cursor of an assembly. -/
def Placed (source : List Char) (a : Assembly) (tag : Tag) : Prop :=
  ∃ front s rest, source = front ++ (TagSource.source s tag.closing ++ '>' :: rest) ∧
    a.cursor = ⟨byteLength front, TagSource.source s tag.closing ++ '>' :: rest⟩ ∧
    TagSource.Closes s (byteLength front) tag

theorem toLower_opening (closing : Bool) : (opening closing).map Char.toLower = opening closing := by
  cases closing <;> decide

theorem TagSource.Closes.find {s : TagSource} {offset : Nat} {tag : Tag} (h : s.Closes offset tag) {needle : String}
    (hneedle : needle.toList = opening tag.closing ++ tag.name.toList) (rest : List Char) :
    Cursor.find ⟨offset, s.source tag.closing ++ rest⟩ needle = ⟨tag.start, s.inner tag.closing ++ rest⟩ := by
  have hwritten : (opening tag.closing ++ s.name).map Char.toLower = needle.toList := by
    rw [List.map_append, toLower_opening, h.spells.name, hneedle]
  have hhead : needle.toList.head? = some '<' := by
    rw [hneedle]
    cases tag.closing <;> rfl
  have hfind := Cursor.find_append hhead hwritten h.spells.text (s.body ++ rest) offset
  have hstart : tag.start = offset + byteLength s.text := h.spells.start
  rw [hstart]
  simpa [TagSource.source, TagSource.inner, TagSource.body] using hfind

/-- Looking for the end of a tag without quotes in its name finds that end. -/
theorem TagSource.Closes.closeTag {s : TagSource} {offset : Nat} {tag : Tag} (h : s.Closes offset tag)
    (hname : tag.hasQuotedName = false) (rest : List Char) :
    Cursor.closeTag ⟨tag.start, s.inner tag.closing ++ '>' :: rest⟩ = ⟨tag.stop, rest⟩ := by
  obtain ⟨blanks, slash, htail, hblanks, hslash⟩ := h.closable.tail
  have hinner : Passes none (s.inner tag.closing) none := by
    refine (passes_opening _).append (.append (Cursor.passes_all fun c hc => Cursor.passes_outside ?_) ?_)
    · have hchar := h.spells.nameChars c hc
      have hquote : isQuote c.toLower = false := by
        simpa using List.any_eq_false.1 hname c.toLower
          (show c.toLower ∈ tag.name.toList from h.spells.name ▸ List.mem_map_of_mem hc)
      refine ⟨?_, ?_, ?_⟩ <;> rintro rfl
      · exact absurd hquote (by decide)
      · exact absurd hquote (by decide)
      · exact absurd hchar (by decide)
    · have hattributes := h.spells.attributes.passes
      refine hattributes.append ?_
      rw [htail]
      refine .append (Cursor.passes_all fun c hc => passes_blank (hblanks c hc)) ?_
      rcases hslash with rfl | rfl
      · exact .nil none
      · exact Cursor.passes_outside (by decide)
  have hstart : tag.start = offset + byteLength s.text := h.spells.start
  rw [Cursor.closeTag_append hinner, h.stop, hstart, TagSource.source, byteLength_append, Nat.add_assoc offset]

/-! ## Runs -/

/-- Behind the closing bracket of a tag, a comment or a document type, the scan and the cursor meet. -/
theorem synced_behind {source front mid rest : List Char} {a : Assembly} {pos : Nat}
    (hsource : source = front ++ (mid ++ '>' :: rest)) (hcursor : a.cursor = ⟨pos, rest⟩)
    (hpos : pos = byteLength front + byteLength mid + 1) : Synced source a .data pos rest := by
  have hlength : byteLength (front ++ (mid ++ ['>'])) = pos := by
    simp only [byteLength_append, byteLength_cons, byteLength_nil, show '>'.utf8Size = 1 from rfl, hpos]
    omega
  exact ⟨front ++ (mid ++ ['>']), [], by simp [hsource], by simp [hcursor, hlength], by simp [hlength], by simp [Since]⟩

theorem tag_synced {source : List Char} {a a' : Assembly} {tag : Tag} {front rest : List Char} {s : TagSource}
    (hsource : source = front ++ (s.source tag.closing ++ '>' :: rest))
    (hcursor : a.cursor = ⟨byteLength front, s.source tag.closing ++ '>' :: rest⟩)
    (hcloses : s.Closes (byteLength front) tag) (hname : tag.hasQuotedName = false)
    (hstep : a.step source (.tag tag) = .ok a') : Synced source a' .data tag.stop rest := by
  refine synced_behind hsource ?_ hcloses.stop
  have hopen : ∀ (needle : String), needle.toList = opening tag.closing ++ tag.name.toList →
      (a.cursor.find needle).closeTag = ⟨tag.stop, rest⟩ := by
    intro needle hneedle
    rw [hcursor, hcloses.find hneedle, hcloses.closeTag hname]
  simp only [Assembly.step] at hstep
  split at hstep
  · rename_i hclosing
    cases hend : a.flush.endTag source tag with
    | error e =>
      rw [hend] at hstep
      cases hstep
    | ok a'' =>
      rw [hend] at hstep
      obtain rfl : a'' = a' := Except.ok.inj hstep
      rw [Assembly.endTag_cursor hend, Assembly.flush_cursor]
      exact hopen _ (by simp [hclosing, opening])
  · rename_i hclosing
    rw [Assembly.startTag_cursor hstep, Assembly.tagPlace, Assembly.flush_cursor]
    exact hopen _ (by simp [hclosing, opening])

theorem comment_synced {source : List Char} {a : Assembly} {front mid rest : List Char} (text : String)
    (hsource : source = front ++ (mid ++ '>' :: rest)) (hcursor : a.cursor = ⟨byteLength front, mid ++ '>' :: rest⟩)
    (hsince : MarkSince mid (CommentSource · (2 ≤ ·))) :
    Synced source (a.flush.comment source text) .data (byteLength front + byteLength mid + 1) rest := by
  refine synced_behind hsource ?_ rfl
  obtain ⟨before, whole, rfl, hbefore, ⟨body, hwhole⟩, hunclosed, hdashes⟩ := hsince
  obtain ⟨comment, rfl⟩ := dashes_ge_two hdashes
  have hfind : Cursor.find ⟨byteLength front, before ++ (comment ++ ['-', '-']) ++ '>' :: rest⟩ "<!--" =
      ⟨byteLength front + byteLength before, comment ++ ['-', '-'] ++ '>' :: rest⟩ := by
    have hwritten : ['<', '!', '-', '-'].map Char.toLower = "<!--".toList := by decide
    have := Cursor.find_append (by decide) hwritten hbefore (body ++ '>' :: rest) (byteLength front)
    rw [hwhole]
    simpa using this
  have hclose := Cursor.closeCommentFrom_append hunclosed rest (byteLength front + byteLength before)
  simp only [Assembly.comment, Assembly.attach_cursor, Assembly.flush_cursor, hcursor, hfind, Cursor.closeComment]
  rw [show comment ++ ['-', '-'] ++ '>' :: rest = comment ++ '-' :: '-' :: '>' :: rest by simp, hclose]
  simp [show '-'.utf8Size = 1 from rfl]
  omega

theorem doctype_synced {source : List Char} {a : Assembly} {front mid rest : List Char}
    (hsource : source = front ++ (mid ++ '>' :: rest)) (hcursor : a.cursor = ⟨byteLength front, mid ++ '>' :: rest⟩)
    (hsince : MarkSince mid (DoctypeSource none)) :
    Synced source { a with cursor := (a.cursor.find "<!").closeTag } .data
      (byteLength front + byteLength mid + 1) rest := by
  refine synced_behind hsource ?_ rfl
  obtain ⟨before, whole, rfl, hbefore, ⟨body, hwhole⟩, hpasses⟩ := hsince
  have hfind : Cursor.find ⟨byteLength front, before ++ whole ++ '>' :: rest⟩ "<!" =
      ⟨byteLength front + byteLength before, whole ++ '>' :: rest⟩ := by
    have hwritten : ['<', '!'].map Char.toLower = "<!".toList := by decide
    have := Cursor.find_append (by decide) hwritten hbefore (body ++ '>' :: rest) (byteLength front)
    rw [hwhole]
    simpa using this
  show (a.cursor.find "<!").closeTag = _
  rw [hcursor, hfind, Cursor.closeTag_append hpasses]
  simp [Nat.add_assoc]

theorem mem_calls_cons {source : List Char} {a : Assembly} {token : Token} {tokens : List Token}
    {call : Assembly × Tag} (h : call ∈ startCallsFrom source a (token :: tokens)) :
    (∃ tag, token = .tag tag ∧ call = (a.flush, tag) ∧ tag.closing = false) ∨
      ∃ a', a.step source token = .ok a' ∧ call ∈ startCallsFrom source a' tokens := by
  unfold startCallsFrom at h
  rcases List.mem_append.1 h with h | h
  · obtain ⟨tag, htag, rfl⟩ := List.mem_map.1 h
    obtain ⟨rfl, hclosing⟩ := Token.startTag?_eq_some (Option.mem_toList.1 htag)
    exact .inl ⟨tag, rfl, rfl, hclosing⟩
  · right
    cases hstep : a.step source token with
    | error e =>
      rw [hstep] at h
      cases h
    | ok a' =>
      rw [hstep] at h
      exact ⟨a', rfl, h⟩

theorem mem_tokens_of_mem_calls {source : List Char} {a : Assembly} {tokens : List Token} {call : Assembly × Tag}
    (h : call ∈ startCallsFrom source a tokens) : .tag call.2 ∈ tokens := by
  induction tokens generalizing a with
  | nil => cases h
  | cons token tokens ih =>
    rcases mem_calls_cons h with ⟨tag, rfl, rfl, -⟩ | ⟨a', -, h⟩
    · simp
    · exact List.mem_cons_of_mem _ (ih h)

theorem startCallsFrom_characters (source : List Char) (a : Assembly) (cs : List Char) (tokens : List Token) :
    ∃ a', a'.cursor = a.cursor ∧ startCallsFrom source a (cs.map .character ++ tokens) =
      startCallsFrom source a' tokens := by
  induction cs generalizing a with
  | nil => exact ⟨a, rfl, rfl⟩
  | cons c cs ih =>
    obtain ⟨a', hcursor, ha'⟩ := ih (a.character source c)
    exact ⟨a', by simpa using hcursor, by simpa [startCallsFrom, Token.startTag?, Assembly.step] using ha'⟩

/-- Wherever a scan and a cursor are in step, the start tags that follow are found where they stand, up to and with the
next one that has a quote in its name. -/
theorem calls_placed {source : List Char} {state : State} {pos : Nat} {cs : List Char} {a : Assembly}
    (hsynced : Synced source a state pos cs) (hfloor : state.floor pos ≤ pos) {call : Assembly × Tag}
    (hcall : call ∈ startCallsFrom source a (scanFrom state pos cs).tokens)
    (hquotes : ∀ r ∈ readingsFrom state pos cs, r.offset < call.2.start → r.isNameQuote = false)
    (hcurrent : ∀ tag, state.tag? = some tag → tag.hasQuotedName = true → call.2.start < pos) :
    Placed source call.1 call.2 := by
  induction hn : cs.length using Nat.strongRecOn generalizing state pos cs a with
  | _ n ih =>
  rcases scanFrom_cases state pos cs with hnone | ⟨c, eaten, back, next, tokens, hsteps⟩
  · rw [hnone] at hcall
    cases hcall
  obtain ⟨rest, size, hstep, heats, -, -⟩ := hsteps.step
  have hwidth := byteLength_pos heats.ne_nil
  obtain ⟨-, hfloor', -⟩ := floor_le hfloor hwidth hstep
  have hlength : back.length < n := hn ▸ hsteps.length_lt
  have hhere : pos < call.2.start → Reading.isNameQuote ⟨state, pos, c⟩ = false :=
    hquotes ⟨state, pos, c⟩ (by rw [hsteps.readings]; simp)
  have hrest : ∀ r ∈ readingsFrom next (pos + byteLength eaten) back, r.offset < call.2.start →
      r.isNameQuote = false := fun r hr => hquotes r (by rw [hsteps.readings]; simp [hr])
  -- a quote that comes into the name of the tag being read stands before no later tag
  have hcurrent' : ∀ tag, next.tag? = some tag → tag.hasQuotedName = true →
      call.2.start < pos + byteLength eaten := by
    intro tag htag hquote
    rcases step_hasQuotedName hstep (.inl htag) hquote with ⟨tag', htag', hquote'⟩ | ⟨tag', rfl, -, hc⟩
    · have := hcurrent tag' htag' hquote'
      omega
    · by_contra hlt
      have := hhere (by omega)
      simp [Reading.isNameQuote, hc] at this
  have hdata : ∀ pos' : Nat, State.floor pos' .data ≤ pos' := fun _ => Nat.le_refl _
  obtain ⟨front, mid, hsource, hcursor, hpos, hsince⟩ := hsynced
  rw [hsteps.source] at hsource hcursor
  rw [hsteps.scan] at hcall
  replace hcall : call ∈ startCallsFrom source a (tokens ++ (scanFrom next (pos + byteLength eaten) back).tokens) := hcall
  by_cases hdoctype : (state = .beforeDoctypeName ∨ state = .doctypeName) ∧ isQuote c = true
  · -- the tags that follow stand behind the quote
    exfalso
    have hquote : Reading.isNameQuote ⟨state, pos, c⟩ = true := by
      rcases hdoctype with ⟨rfl | rfl, hc⟩ <;> simp [Reading.isNameQuote, hc]
    have hle : call.2.start ≤ pos := by
      by_contra hlt
      rw [hhere (by omega)] at hquote
      cases hquote
    have htokens : tokens = [] ∧ next.floor (pos + byteLength eaten) = pos + byteLength eaten := by
      rcases hdoctype with ⟨rfl | rfl, hc⟩ <;> grind [State.step, Step.to, State.floor, State.tag?, isQuote, isTagBlank]
    rw [htokens.1] at hcall
    have := floor_le_start hfloor' (mem_tokens_of_mem_calls hcall)
    omega
  have hquote : state = .beforeDoctypeName ∨ state = .doctypeName → isQuote c = false := by
    intro hstate
    by_contra hc
    exact hdoctype ⟨hstate, by simpa using hc⟩
  have houtcome := step_outcome hpos hsince hstep heats hquote
  have hpos' : pos + byteLength eaten = byteLength front + byteLength (mid ++ eaten) := by
    rw [hpos, byteLength_append, Nat.add_assoc]
  have hbracket : eaten = ['>'] → pos + byteLength eaten = byteLength front + byteLength mid + 1 := by
    rintro rfl
    rw [hpos]
    rfl
  cases houtcome with
  | goes since =>
    exact ih _ hlength ⟨front, mid ++ eaten, by simp [hsource], by simp [hcursor], hpos', since⟩ hfloor' hcall hrest
      hcurrent' rfl
  | characters cs since =>
    obtain ⟨a', ha', hcalls⟩ := startCallsFrom_characters source a cs
      (scanFrom .data (pos + byteLength eaten) back).tokens
    rw [hcalls] at hcall
    exact ih _ hlength ⟨front, mid ++ eaten, by simp [hsource], by simp [ha', hcursor], hpos', since⟩ hfloor' hcall
      hrest hcurrent' rfl
  | tag s closes source' bracket =>
    rename_i tag
    subst bracket source'
    rcases mem_calls_cons hcall with ⟨tag', heq, rfl, -⟩ | ⟨a', hstep', hcall⟩
    · obtain rfl : tag = tag' := by simpa using heq
      exact ⟨front, s, back, hsource, by simpa using hcursor, closes⟩
    · have hname : tag.hasQuotedName = false := by
        by_contra hquoted
        rcases step_hasQuotedName hstep (.inr (List.mem_singleton_self (Token.tag tag))) (by simpa using hquoted) with
          ⟨tag', htag, hquoted'⟩ | ⟨_, _, hnext, _⟩
        · have hlt := hcurrent tag' htag hquoted'
          have hge := floor_le_start (hdata _) (mem_tokens_of_mem_calls hcall)
          simp only [State.floor, State.tag?, Option.map_none, Option.getD_none] at hge
          omega
        · cases hnext
      have hsynced' := tag_synced hsource hcursor closes hname hstep'
      rw [closes.stop, ← hbracket rfl] at hsynced'
      exact ih _ hlength hsynced' hfloor' hcall hrest hcurrent' rfl
  | @comment text since bracket =>
    subst bracket
    obtain ⟨_, hnone, _⟩ | ⟨a', hstep', hcall⟩ := mem_calls_cons hcall
    · cases hnone
    obtain rfl := Except.ok.inj hstep'
    have hsynced' := comment_synced text hsource hcursor since
    rw [← hbracket rfl] at hsynced'
    exact ih _ hlength hsynced' hfloor' hcall hrest hcurrent' rfl
  | doctype since bracket =>
    subst bracket
    obtain ⟨_, hnone, _⟩ | ⟨a', hstep', hcall⟩ := mem_calls_cons hcall
    · cases hnone
    obtain rfl := Except.ok.inj hstep'
    have hsynced' := doctype_synced hsource hcursor since
    rw [← hbracket rfl] at hsynced'
    exact ih _ hlength hsynced' hfloor' hcall hrest hcurrent' rfl

theorem startCall_placed {source : List Char} {call : Assembly × Tag} (hcall : call ∈ startCalls source)
    (hquotes : ∀ r ∈ readings source, r.offset < call.2.start → r.isNameQuote = false) :
    Placed source call.1 call.2 := by
  unfold startCalls tokenize at hcall
  unfold readings at hquotes
  cases source with
  | nil => cases hcall
  | cons c rest =>
    dsimp only at hcall hquotes
    split at hcall
    · rename_i hmark
      rw [if_pos hmark] at hquotes
      have hc : '<' ≠ c := by
        rintro rfl
        exact absurd hmark (by decide)
      exact calls_placed ⟨[], [c], rfl, rfl, by simp, by simp [Since, hc]⟩ (Nat.le_refl _) hcall hquotes nofun
    · rename_i hmark
      rw [if_neg hmark] at hquotes
      exact calls_placed ⟨[], [], rfl, rfl, rfl, by simp [Since]⟩ (Nat.le_refl _) hcall hquotes nofun

/-! ## Cuts -/

/-- Where the raw text of a start tag is cut off its name. -/
def callBody (call : Assembly × Tag) : Nat :=
  bodyStart (call.1.tagPlace call.2).1.offset (call.1.tagPlace call.2).2.offset call.2.name.utf8ByteSize

/-- Whether a character of the source ends at the byte `offset`, or the source starts there. -/
def isBoundary (source : List Char) (offset : Nat) : Bool :=
  (splitBytes? offset source).isSome

theorem isBoundary_append (front back : List Char) : isBoundary (front ++ back) (byteLength front) = true := by
  simp [isBoundary, splitBytes?_byteLength]

/-- Of two fronts of a text, the one that takes fewer bytes is a front of the other. -/
theorem exists_eq_append {xs ys xs' ys' : List Char} (h : xs ++ ys = xs' ++ ys')
    (hle : byteLength xs ≤ byteLength xs') : ∃ middle, xs' = xs ++ middle := by
  rcases List.append_eq_append_iff.1 h with ⟨middle, h, -⟩ | ⟨middle, h, -⟩
  · exact ⟨middle, h⟩
  · have hnil : middle = [] := by
      by_contra hne
      have := byteLength_pos hne
      rw [h, byteLength_append] at hle
      omega
    exact ⟨[], by simp [h, hnil]⟩

/-- A start tag that is found where it stands is cut at a character, before its end. -/
theorem Placed.cut {source : List Char} {call : Assembly × Tag} (h : Placed source call.1 call.2)
    (hclosing : call.2.closing = false) :
    (call.1.tagPlace call.2).1.offset = call.2.start ∧ isBoundary source (callBody call) = true ∧
      callBody call ≤ (call.1.tagPlace call.2).2.offset ∧
      (scanTag (call.1.tagPlace call.2).1 (call.1.tagPlace call.2).2 call.2.name.utf8ByteSize).isSome = true := by
  obtain ⟨a, tag⟩ := call
  obtain ⟨front, s, rest, hsource, hcursor, hcloses⟩ := h
  have hplace : (a.tagPlace tag).1 = ⟨tag.start, s.inner tag.closing ++ '>' :: rest⟩ := by
    rw [Assembly.tagPlace, hcursor]
    exact hcloses.find (by simp [show tag.closing = false from hclosing, opening]) _
  have hstop : (a.tagPlace tag).2 = (a.tagPlace tag).1.closeTag := rfl
  have hsize : tag.name.utf8ByteSize = byteLength s.name := by
    rw [← byteLength_toList, ← hcloses.spells.name, byteLength_map_toLower]
  have hstart : tag.start = byteLength front + byteLength s.text := hcloses.spells.start
  obtain ⟨passed, hpassed, hoffset⟩ := Cursor.closeTagFrom_place none tag.start (s.inner tag.closing ++ '>' :: rest)
  generalize hstopped : Cursor.closeTagFrom none tag.start (s.inner tag.closing ++ '>' :: rest) = stop at hpassed hoffset
  have hstop : (a.tagPlace tag).2 = stop := by
    rw [hstop, hplace, Cursor.closeTag, hstopped]
  have hinner : s.inner tag.closing ++ '>' :: rest = ('<' :: s.name) ++ (s.body ++ '>' :: rest) := by
    simp [TagSource.inner, opening, show tag.closing = false from hclosing]
  have hwhole : source = (front ++ s.text) ++ (s.inner tag.closing ++ '>' :: rest) := by
    simp [hsource, TagSource.source]
  -- the raw text is cut where `cut` ends, and goes on to where `passed` ends
  obtain ⟨cut, middle, hcut, hbody⟩ : ∃ cut middle, passed = cut ++ middle ∧
      callBody (a, tag) = tag.start + byteLength cut := by
    unfold callBody bodyStart
    simp only [hplace, hstop, hsize, hoffset]
    have hname : byteLength ('<' :: s.name) = 1 + byteLength s.name := rfl
    by_cases hle : byteLength ('<' :: s.name) ≤ byteLength passed
    · obtain ⟨middle, hm⟩ := exists_eq_append (hinner.symm.trans hpassed) hle
      exact ⟨_, middle, hm, by omega⟩
    · exact ⟨passed, [], by simp, by omega⟩
  have hlength : byteLength passed = byteLength cut + byteLength middle := by rw [hcut, byteLength_append]
  refine ⟨by rw [hplace], ?_, ?_, ?_⟩
  · rw [hbody, hwhole, hpassed, hcut, hstart]
    have := isBoundary_append (front ++ s.text ++ cut) (middle ++ stop.rest)
    simpa [Nat.add_assoc] using this
  · rw [hbody, hstop, hoffset]
    omega
  · have hslice := slice?_append cut middle stop.rest rfl rfl
    unfold scanTag
    have hb : bodyStart (a.tagPlace tag).1.offset (a.tagPlace tag).2.offset tag.name.utf8ByteSize =
        tag.start + byteLength cut := hbody
    dsimp only
    rw [hb, hplace, hstop, hoffset, hpassed, hcut]
    simp only [List.append_assoc, Nat.add_sub_cancel_left, byteLength_append]
    simp [hslice]

theorem closing_of_mem_calls {source : List Char} {a : Assembly} {tokens : List Token} {call : Assembly × Tag}
    (h : call ∈ startCallsFrom source a tokens) : call.2.closing = false := by
  induction tokens generalizing a with
  | nil => cases h
  | cons token tokens ih =>
    rcases mem_calls_cons h with ⟨tag, rfl, rfl, hclosing⟩ | ⟨a', -, h⟩
    · exact hclosing
    · exact ih h

/-- Where reading splits a character, a start tag is not cut at one. -/
theorem exists_call_of_split {source : List Char} {a : Assembly} {tokens : List Token} {offset : Nat}
    (h : tokens.foldlM (Assembly.step source) a = .error (.splitCharacter offset)) :
    ∃ call ∈ startCallsFrom source a tokens,
      scanTag (call.1.tagPlace call.2).1 (call.1.tagPlace call.2).2 call.2.name.utf8ByteSize = none := by
  induction tokens generalizing a with
  | nil => cases h
  | cons token tokens ih =>
    rw [List.foldlM_cons] at h
    cases hstep : a.step source token with
    | ok a' =>
      rw [hstep] at h
      obtain ⟨call, hcall, hnone⟩ := ih h
      refine ⟨call, ?_, hnone⟩
      unfold startCallsFrom
      rw [hstep]
      exact List.mem_append_right _ hcall
    | error e =>
      rw [hstep] at h
      obtain rfl : e = .splitCharacter offset := by injection h
      cases token with
      | tag tag =>
        simp only [Assembly.step] at hstep
        split at hstep
        · cases hend : a.flush.endTag source tag <;> rw [hend] at hstep <;> cases hstep
        · rename_i hclosing
          refine ⟨(a.flush, tag), ?_, ?_⟩
          · unfold startCallsFrom
            exact List.mem_append_left _ (by simp [Token.startTag?, hclosing])
          · unfold Assembly.startTag at hstep
            dsimp only at hstep
            split at hstep
            · assumption
            · cases hstep
      | character c => cases hstep
      | comment text => cases hstep
      | doctype => cases hstep

/-- Without a quote in a name before a start tag, reading never fails by splitting a character. -/
theorem parse_ne_split {source : List Char}
    (hquotes : ∀ call ∈ startCalls source, ∀ r ∈ readings source, r.offset < call.2.start → r.isNameQuote = false)
    (offset : Nat) : parse source ≠ .error (.splitCharacter offset) := by
  intro hparse
  unfold parse at hparse
  dsimp only at hparse
  cases hfold : (tokenize source).tokens.foldlM (Assembly.step source) (.initial source) with
  | ok a =>
    rw [hfold] at hparse
    change (a.finish source (tokenize source).fault).mapError ReadError.malformed = .error (.splitCharacter offset) at hparse
    cases hfinish : a.finish source (tokenize source).fault <;> (rw [hfinish] at hparse; cases hparse)
  | error e =>
    rw [hfold] at hparse
    obtain rfl : e = .splitCharacter offset := Except.error.inj hparse
    obtain ⟨call, hcall, hnone⟩ := exists_call_of_split hfold
    obtain ⟨-, -, -, hsome⟩ := (startCall_placed hcall (hquotes call hcall)).cut (closing_of_mem_calls hcall)
    rw [hnone] at hsome
    cases hsome

/-- Reading a source cuts the raw text of a start tag off its name at a character, and no further than at the end of
the tag, unless a quote stands before the tag in the name of a tag or of a document type. Where no start tag has such
a quote before it, reading never fails by splitting a character. -/
theorem startTags_cut (source : List Char) :
    (∀ call ∈ startCalls source,
      (∀ r ∈ readings source, r.offset < call.2.start → r.isNameQuote = false) →
      isBoundary source (callBody call) = true ∧ callBody call ≤ (call.1.tagPlace call.2).2.offset) ∧
    ((∀ call ∈ startCalls source, ∀ r ∈ readings source, r.offset < call.2.start → r.isNameQuote = false) →
      ∀ offset, parse source ≠ .error (.splitCharacter offset)) := by
  refine ⟨fun call hcall hquotes => ?_, parse_ne_split⟩
  obtain ⟨-, hboundary, hle, -⟩ := (startCall_placed hcall hquotes).cut (closing_of_mem_calls hcall)
  exact ⟨hboundary, hle⟩

/-- A quote in the name of the last start tag does no harm. -/
theorem startTags_cut_last :
    (∀ call ∈ startCalls "<b>€</b><p'>€</p'>".toList, ∀ r ∈ readings "<b>€</b><p'>€</p'>".toList,
      r.offset < call.2.start → r.isNameQuote = false) ∧
    ∀ offset, parse "<b>€</b><p'>€</p'>".toList ≠ .error (.splitCharacter offset) := by
  have hquotes : ∀ call ∈ startCalls "<b>€</b><p'>€</p'>".toList, ∀ r ∈ readings "<b>€</b><p'>€</p'>".toList,
      r.offset < call.2.start → r.isNameQuote = false := by decide +kernel
  exact ⟨hquotes, (startTags_cut "<b>€</b><p'>€</p'>".toList).2 hquotes⟩

/-- Behind a quote in the name of a tag the cursor leaves the scan, and the raw text of the next tag is cut inside a
character. -/
theorem startTags_split :
    (∃ call ∈ startCalls "<p'><b>'>€</b></p'>".toList,
      isBoundary "<p'><b>'>€</b></p'>".toList (callBody call) = false) ∧
    ∃ offset, parse "<p'><b>'>€</b></p'>".toList = .error (.splitCharacter offset) := by
  constructor
  · decide +kernel
  · have h : (match parse "<p'><b>'>€</b></p'>".toList with
        | .error (.splitCharacter _) => true
        | _ => false) = true := by decide +kernel
    split at h
    · rename_i offset heq
      exact ⟨offset, heq⟩
    · cases h

end TemplateCompiler.Markup

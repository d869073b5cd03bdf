import TemplateCompiler.Proofs.Markup.Rescan
import TemplateCompiler.Proofs.Markup.Seats
/-!
# Tags that close themselves

A tag ends in `/>` if it has a slash of its own, or a last value without quotes that the slash has run into
(`Tag.isSlashed_iff`). The element of a start tag closes itself also where the slash of a value stands elsewhere
(`startTag_selfCloses`).
-/

namespace TemplateCompiler.Markup

open TemplateCompiler.Text

/-! ## Where tags stand -/

/-- Whether a scan stands in a document type. -/
def State.inDoctype : State → Bool
  | .doctype | .beforeDoctypeName | .doctypeName | .afterDoctypeName | .afterDoctypeKeyword _
  | .beforeDoctypeIdentifier _ | .doctypeIdentifier .. | .afterDoctypeIdentifier _ | .betweenDoctypeIdentifiers => true
  | _ => false

/-- What a scan has read since the last tag, comment or document type. Inside a document type nothing is said of it: a
name there may have a quote, which `Since` takes for the start of an identifier. -/
def Reached (source : List Char) (state : State) (pos : Nat) (cs : List Char) : Prop :=
  ∃ front mid, source = front ++ (mid ++ cs) ∧ pos = byteLength front + byteLength mid ∧
    (state.inDoctype = true ∨ Since (byteLength front) mid state)

/-- The tag stands in the source where it says. -/
def Tag.StandsIn (source : List Char) (tag : Tag) : Prop :=
  ∃ front s rest, source = front ++ (TagSource.source s tag.closing ++ '>' :: rest) ∧
    TagSource.Closes s (byteLength front) tag

theorem step_inDoctype {state next : State} {pos size : Nat} {c : Char} {rest : List Char} {tokens : List Token}
    (hstate : state.inDoctype = true) (h : state.step pos c rest = .go next tokens size) :
    (next.inDoctype = true ∨ next = .data) ∧ ∀ t : Tag, .tag t ∉ tokens := by
  cases state with
  | doctypeIdentifier quoting identifier => grind [State.step, doctypeIdentifierStep, Step.to, State.inDoctype]
  | afterDoctypeIdentifier identifier => cases identifier <;> grind [State.step, Step.to, State.inDoctype]
  | doctype | beforeDoctypeName | doctypeName | afterDoctypeName | afterDoctypeKeyword | beforeDoctypeIdentifier
  | betweenDoctypeIdentifiers => grind [State.step, startIdentifier, Step.to, State.inDoctype]
  | _ => cases hstate

/-- A step of a scan hands out only tags that stand where they say. -/
theorem Reached.step {source cs eaten back : List Char} {state next : State} {pos : Nat} {c : Char}
    {tokens : List Token} (h : Reached source state pos cs) (hsteps : StepsTo state pos cs c eaten back next tokens) :
    Reached source next (pos + byteLength eaten) back ∧ ∀ t : Tag, .tag t ∈ tokens → t.StandsIn source := by
  obtain ⟨front, mid, hsource, hpos, hstate⟩ := h
  obtain ⟨rest, size, hstep, heats, -, -⟩ := hsteps.step
  rw [hsteps.source] at hsource
  have hpos' : pos + byteLength eaten = byteLength front + byteLength (mid ++ eaten) := by
    rw [hpos, byteLength_append, Nat.add_assoc]
  have hgoes : next.inDoctype = true ∨ Since (byteLength front) (mid ++ eaten) next →
      Reached source next (pos + byteLength eaten) back :=
    fun hnext => ⟨front, mid ++ eaten, by simp [hsource], hpos', hnext⟩
  -- behind a token the scan starts anew
  have hanew : Reached source .data (pos + byteLength eaten) back :=
    ⟨front ++ (mid ++ eaten), [], by simp [hsource], by simp [hpos'], .inr (by simp [Since])⟩
  by_cases hdoctype : state.inDoctype = true
  · obtain ⟨hnext, hnone⟩ := step_inDoctype hdoctype hstep
    refine ⟨?_, fun t ht => absurd ht (hnone t)⟩
    rcases hnext with hnext | rfl
    · exact hgoes (.inl hnext)
    · exact hanew
  have hquote : state = .beforeDoctypeName ∨ state = .doctypeName → isQuote c = false := by
    rintro (rfl | rfl) <;> exact absurd rfl hdoctype
  cases step_outcome hpos (hstate.resolve_left hdoctype) hstep heats hquote with
  | goes since => exact ⟨hgoes (.inr since), by simp⟩
  | characters cs since => exact ⟨hgoes (.inr since), by simp⟩
  | @tag t s closes source' bracket =>
    refine ⟨hanew, fun t' ht' => ?_⟩
    obtain rfl : t' = t := by simpa using ht'
    exact ⟨front, s, back, by rw [hsource, source', bracket]; simp, closes⟩
  | comment _ _ => exact ⟨hanew, by simp⟩
  | doctype _ _ => exact ⟨hanew, by simp⟩

/-- Every tag of a source stands where it says. -/
theorem tags_standIn {source : List Char} {t : Tag} (ht : .tag t ∈ (tokenize source).tokens) : t.StandsIn source := by
  have hscan {state : State} {pos : Nat} {cs : List Char} (h : Reached source state pos cs)
      (ht : .tag t ∈ (scanFrom state pos cs).tokens) : t.StandsIn source := by
    refine forall_mem_scanFrom (P := fun token => ∀ t : Tag, token = .tag t → t.StandsIn source)
      (fun hreached hsteps => ?_) h _ ht t rfl
    obtain ⟨hnext, htags⟩ := hreached.step hsteps
    refine ⟨hnext, ?_⟩
    rintro _ htoken t rfl
    exact htags t htoken
  unfold tokenize at ht
  cases source with
  | nil => cases ht
  | cons c rest =>
    dsimp only at ht
    split at ht
    · rename_i hmark
      have hc : '<' ≠ c := by
        rintro rfl
        exact absurd hmark (by decide)
      exact hscan ⟨[], [c], rfl, by simp, .inr (by simp [Since, hc])⟩ ht
    · exact hscan ⟨[], [], rfl, rfl, .inr (by simp [Since])⟩ ht

/-! ## How tags end -/

namespace Tag

/-- The text of a tag, with its brackets. -/
def text (source : List Char) (tag : Tag) : List Char :=
  (slice? source tag.start tag.stop).getD []

/-- Whether a tag is written with a slash before its closing bracket. -/
def isSlashed (source : List Char) (tag : Tag) : Bool :=
  "/>".toList.isSuffixOf (tag.text source)

/-- The last attribute has a value without quotes that ends in a slash, and the closing bracket stands behind it. -/
def EndsInValue (source : List Char) (tag : Tag) : Prop :=
  ∃ t, tag.attributes.getLast? = some t ∧ t.isBare = true ∧ (t.bareValue source tag.stop).1.getLast? = some '/' ∧
    (t.bareValue source tag.stop).2 = ['>']

end Tag

theorem slash_isSuffixOf {cs : List Char} : "/>".toList.isSuffixOf (cs ++ ['>']) = true ↔ cs.getLast? = some '/' := by
  rw [List.isSuffixOf_iff_suffix, show "/>".toList = ['/'] ++ ['>'] from rfl, List.suffix_append_inj_of_length_eq rfl,
    and_iff_left rfl, List.getLast?_eq_some_iff]
  exact exists_congr fun _ => eq_comm

/-- An attribute ends in a slash if it has a value without quotes that does. -/
theorem WrittenAttribute.Valid.getLast?_source {w : WrittenAttribute} (h : w.Valid) :
    w.source.getLast? = some '/' ↔
      ∃ v, w.value = some v ∧ v.quoting = .unquoted ∧ v.text.getLast? = some '/' := by
  cases hv : w.value with
  | none =>
    have hname : w.name.getLast? ≠ some '/' := by
      intro hslash
      exact absurd (h.nameChars '/' (List.mem_of_getLast? hslash)) (by decide)
    simp [WrittenAttribute.source, hv, List.getLast?_append_of_ne_nil _ h.name, hname]
  | some v =>
    obtain ⟨before, hsource⟩ : ∃ before, w.source = before ++ (v.text ++ v.quoting.marks) :=
      ⟨w.gap ++ (w.name ++ (v.before ++ '=' :: (v.after ++ v.quoting.marks))), by
        simp [WrittenAttribute.source_of_value hv, WrittenValue.source]⟩
    -- Behind a value in quotes stands the quote, and a value without quotes is not empty.
    cases hquoting : v.quoting with
    | double => simp [hsource, hquoting, Quoting.marks, ← List.append_assoc]
    | single => simp [hsource, hquoting, Quoting.marks, ← List.append_assoc]
    | unquoted =>
      have hwritten := (h.value v hv).written hquoting
      simp [hsource, hquoting, Quoting.marks, List.getLast?_append_of_ne_nil _ hwritten]

theorem Attributed.valid {start : Nat} {ws : List WrittenAttribute} {ts : List TagAttribute}
    (h : Attributed start ws ts) : ∀ w ∈ ws, w.Valid := by
  induction h with
  | nil => simp
  | cons valid _ _ ih =>
    intro w hw
    rcases List.mem_cons.1 hw with rfl | hw
    · exact valid
    · exact ih w hw

namespace TagSource

variable {s : TagSource} {front rest source : List Char} {tag : Tag}

theorem inner_eq_append (s : TagSource) (closing : Bool) :
    s.inner closing = (opening closing ++ (s.name ++ sources s.attributes)) ++ s.tail := by
  simp [inner, body]

/-- A tag with a slash of its own ends in it. -/
theorem Slashed.getLast?_inner (h : s.Slashed) (closing : Bool) : (s.inner closing).getLast? = some '/' := by
  have htail : s.tail ≠ [] := List.ne_nil_of_mem (List.mem_of_getLast? h)
  rw [inner_eq_append, List.getLast?_append_of_ne_nil _ htail]
  exact h

/-- A tag without a slash of its own ends in one if its last attribute does. -/
theorem getLast?_inner (hname : ∀ c ∈ s.name, isTagNameChar c = true) (hblank : ∀ c ∈ s.tail, isSourceBlank c = true)
    (hvalid : ∀ w ∈ s.attributes, w.Valid) :
    (s.inner false).getLast? = some '/' ↔
      s.tail = [] ∧ ∃ w older, s.attributes = w :: older ∧ w.source.getLast? = some '/' := by
  rw [inner_eq_append, show opening false = ['<'] from rfl]
  by_cases htail : s.tail = []
  · rw [htail, List.append_nil, and_iff_right rfl]
    cases hattributes : s.attributes with
    | nil =>
      have hlast : ('<' :: s.name).getLast? ≠ some '/' := by
        intro hslash
        rcases List.mem_cons.1 (List.mem_of_getLast? hslash) with hc | hc
        · exact absurd hc (by decide)
        · exact absurd (hname _ hc) (by decide)
      simpa [sources] using hlast
    | cons w older =>
      have hsource : w.source ≠ [] := by
        have := (hvalid w (by simp [hattributes])).gap
        simp [WrittenAttribute.source, this]
      rw [sources, ← List.append_assoc, ← List.append_assoc, List.getLast?_append_of_ne_nil _ hsource]
      simp
  · have hlast : s.tail.getLast? ≠ some '/' := not_slashed hblank
    rw [List.getLast?_append_of_ne_nil _ htail]
    simp [hlast, htail]

/-- The text of a tag stands between the places that the tag has. -/
theorem Closes.slice (h : s.Closes (byteLength front) tag) (hclosing : tag.closing = false)
    (hsource : source = front ++ (s.source tag.closing ++ '>' :: rest)) :
    slice? source tag.start tag.stop = some (s.inner false ++ ['>']) := by
  have hstart : tag.start = byteLength front + byteLength s.text := h.spells.start
  have hwhole : source = (front ++ s.text) ++ ((s.inner false ++ ['>']) ++ rest) := by
    simp [hsource, hclosing, TagSource.source]
  rw [hwhole]
  refine slice?_append _ _ _ (by simp [hstart]) ?_
  rw [h.stop, hclosing]
  simp [TagSource.source, show '>'.utf8Size = 1 from rfl]
  omega

/-- The last attribute of a tag, and the value that is found behind it if it is without quotes. -/
theorem Closes.last (h : s.Closes (byteLength front) tag) (hclosing : tag.closing = false)
    (hsource : source = front ++ (s.source tag.closing ++ '>' :: rest)) :
    (s.attributes = [] ∧ tag.attributes = []) ∨ ∃ w older t start, s.attributes = w :: older ∧
      tag.attributes.getLast? = some t ∧ w.Valid ∧ w.Denotes start t ∧
      ∀ v, w.value = some v → v.quoting = .unquoted → t.bareValue source tag.stop = (v.text, s.tail ++ ['>']) := by
  have hattributes := h.spells.attributes
  have hends := h.closable.ends
  have hstart : tag.start = byteLength front + byteLength s.text := h.spells.start
  have hstop := h.stop
  rw [hclosing] at hsource hattributes hstop
  dsimp only at hattributes
  generalize hreversed : tag.attributes.reverse = ts at hattributes
  cases hs : s.attributes with
  | nil =>
    rw [hs] at hattributes
    cases hattributes
    exact .inl ⟨rfl, List.reverse_eq_nil_iff.1 hreversed⟩
  | cons w older =>
    rw [hs] at hattributes hends
    cases hattributes with
    | @cons _ t _ ts valid denotes _ =>
    refine .inr ⟨w, older, t, _, rfl, ?_, valid, denotes, fun v hv hquoting => ?_⟩
    · rw [← List.head?_reverse, hreversed]
      rfl
    · have hlast : Ends [w] s.tail :=
        ⟨hends.shape, fun hslash u hu => hends.apart hslash u (by simpa using hu)⟩
      have hwhole : source = (front ++ (s.text ++ ('<' :: s.name ++ sources older))) ++
          (w.source ++ ((s.tail ++ ['>']) ++ rest)) := by
        simp [hsource, TagSource.source, inner, body, opening, hs, sources]
      refine denotes.bareValue valid hv hquoting hwhole ?_ ?_ ?_
      · simp [hstart, opening, Nat.add_assoc]
      · rw [hstop, hstart]
        simp [TagSource.source, inner, body, opening, hs, sources, show '>'.utf8Size = 1 from rfl]
        omega
      · exact fun c hc => (Follows.nil 0).head_behind_bare hlast hv hquoting hc

theorem Closes.endsInValue_iff (h : s.Closes (byteLength front) tag) (hclosing : tag.closing = false)
    (hsource : source = front ++ (s.source tag.closing ++ '>' :: rest)) :
    tag.EndsInValue source ↔ s.tail = [] ∧ ∃ w older, s.attributes = w :: older ∧ w.source.getLast? = some '/' := by
  rcases h.last hclosing hsource with ⟨hs, htag⟩ | ⟨w, older, t, start, hs, ht, hvalid, hdenotes, hvalue⟩
  · simp [Tag.EndsInValue, hs, htag]
  · constructor
    · rintro ⟨t', ht', hbare, hlast, hbracket⟩
      obtain rfl : t = t' := Option.some.inj (ht.symm.trans ht')
      obtain ⟨v, hv, hquoting⟩ := (isBare_iff hdenotes).1 hbare
      rw [hvalue v hv hquoting] at hlast hbracket
      exact ⟨List.append_left_eq_self.1 hbracket, w, older, hs, hvalid.getLast?_source.2 ⟨v, hv, hquoting, hlast⟩⟩
    · rintro ⟨htail, w', older', hs', hlast⟩
      obtain ⟨rfl, rfl⟩ := List.cons.inj (hs.symm.trans hs')
      obtain ⟨v, hv, hquoting, htext⟩ := hvalid.getLast?_source.1 hlast
      refine ⟨t, ht, (isBare_iff hdenotes).2 ⟨v, hv, hquoting⟩, ?_, ?_⟩
      · rw [hvalue v hv hquoting]
        exact htext
      · rw [hvalue v hv hquoting, htail]
        rfl

end TagSource

/-- A start tag ends in `/>` if it has a slash of its own, or if the slash has run into its last value. -/
theorem Tag.isSlashed_iff {source : List Char} {tag : Tag} (h : tag.StandsIn source) (hclosing : tag.closing = false) :
    tag.isSlashed source = true ↔ tag.selfClosing = true ∨ tag.EndsInValue source := by
  obtain ⟨front, s, rest, hsource, hcloses⟩ := h
  have htext : tag.text source = s.inner false ++ ['>'] := by
    rw [text, hcloses.slice hclosing hsource, Option.getD_some]
  rw [isSlashed, htext, slash_isSuffixOf, hcloses.endsInValue_iff hclosing hsource, hcloses.slashed]
  by_cases hslashed : s.Slashed
  · -- The slash of the tag stands behind everything else.
    simp [hslashed, hslashed.getLast?_inner]
  · have hblank : ∀ c ∈ s.tail, isSourceBlank c = true := by
      obtain ⟨blanks, slash, htail, hblanks, rfl | rfl⟩ := hcloses.closable.tail
      · simpa [htail] using hblanks
      · exact absurd (by simp [TagSource.Slashed, htail]) hslashed
    simp only [hslashed, false_or]
    exact TagSource.getLast?_inner hcloses.spells.nameChars hblank hcloses.spells.attributes.valid

/-- The text of a start tag goes from its opening bracket to its closing one. -/
theorem Tag.exists_text {source : List Char} {tag : Tag} (h : tag.StandsIn source) (hclosing : tag.closing = false) :
    ∃ inside, slice? source tag.start tag.stop = some ('<' :: (inside ++ ['>'])) := by
  obtain ⟨front, s, rest, hsource, hcloses⟩ := h
  refine ⟨s.name ++ s.body, ?_⟩
  rw [hcloses.slice hclosing hsource]
  rfl

/-! ## Elements -/

namespace Assembly

/-- The value of an attribute that is kept: it loses the slash that has run into it. -/
def keptValue (quoted : Bool) (value : String) : String :=
  if endsInSlash quoted value then String.ofList value.toList.dropLast else value

/-- The attributes of an element, against those of its tag. A slash that has run into any of the values is told. -/
theorem attributes_kept (source : List Char) (svg : Bool) (start : Nat) (ts : List TagAttribute)
    (raws : List RawAttribute) :
    List.Forall₂ (fun t a => a.value = keptValue a.quoted t.value) ts (attributes source svg start ts raws).1 ∧
      ((attributes source svg start ts raws).2 = true ↔
        ∃ pair ∈ ts.zip (attributes source svg start ts raws).1, endsInSlash pair.2.quoted pair.1.value = true) := by
  induction ts generalizing raws with
  | nil => simp [attributes]
  | cons t ts ih =>
    obtain ⟨hvalues, hslash⟩ := ih (takeRaw t.name raws).2
    rw [attributes]
    dsimp only
    exact ⟨.cons rfl hvalues, by simp [hslash]⟩

end Assembly

/-- A slash is dropped from one of the values of a tag. -/
def DropsSlash (tag : Tag) (e : Element) : Prop :=
  ∃ pair ∈ tag.attributes.zip e.attributes, Assembly.endsInSlash pair.2.quoted pair.1.value = true

instance (tag : Tag) (e : Element) : Decidable (DropsSlash tag e) :=
  inferInstanceAs (Decidable (∃ pair ∈ tag.attributes.zip e.attributes, _))

/-- An element that can have content is attached without any if it closes itself, and opened otherwise. -/
def Attaches (source : List Char) (call : Assembly × Tag) (e : Element) : Prop :=
  ∃ a, call.1.startTag source call.2 = .ok a ∧
    (e.selfClosing = true → a = { call.1 with cursor := a.cursor }.attach (.element e [])) ∧
    (e.selfClosing = false → a = { call.1 with cursor := a.cursor, opened := ⟨e, []⟩ :: call.1.opened })

/-- How the element of a start tag closes itself, and how the tag ends. -/
structure SelfCloses (source : List Char) (call : Assembly × Tag) (e : Element) : Prop where
  /-- The tag has a slash of its own, or one is dropped from a value. -/
  closed : e.selfClosing = true ↔ call.2.selfClosing = true ∨ DropsSlash call.2 e
  values : List.Forall₂ (fun t a => a.value = Assembly.keptValue a.quoted t.value) call.2.attributes e.attributes
  attaches : isVoidElement call.2.name = false → Attaches source call e
  text : ∃ inside, slice? source call.2.start call.2.stop = some ('<' :: (inside ++ ['>']))
  slashed : call.2.isSlashed source = true ↔ call.2.selfClosing = true ∨ call.2.EndsInValue source

theorem Makes.attaches {source : List Char} {call : Assembly × Tag} {e : Element} (h : Makes source call e)
    (hvoid : isVoidElement call.2.name = false) : Attaches source call e := by
  obtain ⟨raws, hraws, rfl⟩ := h
  have hstart : call.1.startTag source call.2 =
      .ok ({ call.1 with cursor := (call.1.tagPlace call.2).2 }.enter call.2.name
        (Assembly.elementOf source (call.2.name == "svg" || call.1.inSvg) (call.1.tagPlace call.2).1 call.2 raws)) := by
    unfold Assembly.startTag
    dsimp only
    rw [hraws]
  refine ⟨_, hstart, fun hself => ?_, fun hself => ?_⟩
  · simp [Assembly.enter, hself]
  · simp [Assembly.enter, hself, hvoid]

theorem exists_startCall {source : List Char} {P : Assembly × Tag → Element → Prop}
    [∀ call e, Decidable (P call e)]
    (h : (startCalls source).any (fun call =>
      match scanTag (call.1.tagPlace call.2).1 (call.1.tagPlace call.2).2 call.2.name.utf8ByteSize with
      | some raws => decide (P call (Assembly.elementOf source (call.2.name == "svg" || call.1.inSvg)
          (call.1.tagPlace call.2).1 call.2 raws))
      | none => false) = true) : ∃ call ∈ startCalls source, ∃ e, Makes source call e ∧ P call e := by
  obtain ⟨call, hcall, hmakes⟩ := List.any_eq_true.1 h
  split at hmakes
  · rename_i raws hraws
    exact ⟨call, hcall, _, ⟨raws, hraws, rfl⟩, of_decide_eq_true hmakes⟩
  · cases hmakes

/-- What the element of a start tag closes itself by. It does so only where the tag ends in `/>`, and a slash is dropped
from a value only there, exactly if the tag has no slash to drop, or has one of its own, or has one in its last value
before the closing bracket. -/
theorem startTag_selfCloses {source : List Char} {call : Assembly × Tag} (hcall : call ∈ startCalls source)
    {e : Element} (hmakes : Makes source call e) :
    SelfCloses source call e ∧
      ((e.selfClosing = true ∨ DropsSlash call.2 e → call.2.isSlashed source = true) ↔
        (DropsSlash call.2 e → call.2.selfClosing = true ∨ call.2.EndsInValue source)) := by
  have hstands := tags_standIn (mem_tokens_of_mem_calls hcall)
  have hclosing := closing_of_mem_calls hcall
  have hslashed := Tag.isSlashed_iff hstands hclosing
  -- The element has the mark of its tag, and that of the values, which tells whether any of them has lost a slash.
  obtain ⟨hclosed, hvalues⟩ : (e.selfClosing = true ↔ call.2.selfClosing = true ∨ DropsSlash call.2 e) ∧
      List.Forall₂ (fun t a => a.value = Assembly.keptValue a.quoted t.value) call.2.attributes e.attributes := by
    obtain ⟨raws, -, rfl⟩ := hmakes
    obtain ⟨hvalues, hslash⟩ := Assembly.attributes_kept source (call.2.name == "svg" || call.1.inSvg)
      (call.1.tagPlace call.2).1.offset call.2.attributes raws
    exact ⟨by simp [Assembly.elementOf, DropsSlash, hslash], hvalues⟩
  refine ⟨⟨hclosed, hvalues, hmakes.attaches, Tag.exists_text hstands hclosing, hslashed⟩, ?_⟩
  rw [hclosed, hslashed]
  constructor
  · exact fun h hdrops => h (.inr hdrops)
  · rintro h ((hself | hdrops) | hdrops)
    · exact .inl hself
    · exact h hdrops
    · exact h hdrops

/-- A tag with a binding without quotes right before its slash. -/
theorem startTag_selfCloses_value :
    ∃ call ∈ startCalls "<section style={customStyle}/>".toList, ∃ e,
      Makes "<section style={customStyle}/>".toList call e ∧
      (e.attributes.map Attribute.value = ["{customStyle}"] ∧
        call.2.isSlashed "<section style={customStyle}/>".toList = true) ∧
      SelfCloses "<section style={customStyle}/>".toList call e ∧
      ((e.selfClosing = true ∨ DropsSlash call.2 e →
          call.2.isSlashed "<section style={customStyle}/>".toList = true) ↔
        (DropsSlash call.2 e →
          call.2.selfClosing = true ∨ call.2.EndsInValue "<section style={customStyle}/>".toList)) := by
  obtain ⟨call, hcall, e, hmakes, hkept⟩ : ∃ call ∈ startCalls "<section style={customStyle}/>".toList, ∃ e,
      Makes "<section style={customStyle}/>".toList call e ∧ (e.attributes.map Attribute.value = ["{customStyle}"] ∧
        call.2.isSlashed "<section style={customStyle}/>".toList = true) :=
    exists_startCall (by decide +kernel)
  exact ⟨call, hcall, e, hmakes, hkept, startTag_selfCloses hcall hmakes⟩

/-- The slash of a value closes a tag also where other attributes stand between it and the closing bracket. The end tag
of the element then has nothing to close. -/
theorem exists_selfClosing_unslashed :
    (∃ call ∈ startCalls "<p a={x}/ b></p>".toList, ∃ e, Makes "<p a={x}/ b></p>".toList call e ∧
      isVoidElement call.2.name = false ∧ e.selfClosing = true ∧ DropsSlash call.2 e ∧
        call.2.isSlashed "<p a={x}/ b></p>".toList = false) ∧
    ∃ position, parse "<p a={x}/ b></p>".toList = .error (.malformed ⟨.nothingOpen "p", position⟩) := by
  constructor
  · exact exists_startCall (by decide +kernel)
  · have h : (match parse "<p a={x}/ b></p>".toList with
        | .error (.malformed error) => error.fault == .nothingOpen "p"
        | _ => false) = true := by decide +kernel
    split at h
    · rename_i error heq
      exact ⟨error.position, by rw [heq, ← eq_of_beq h]⟩
    · cases h

end TemplateCompiler.Markup

import Mathlib.Data.List.Pairwise
import TemplateCompiler.Proofs.Markup.Elements
import TemplateCompiler.Proofs.Markup.FaultlessScan
import TemplateCompiler.Proofs.Markup.Piece
import TemplateCompiler.Proofs.Markup.SelfClosing
import TemplateCompiler.Proofs.Markup.Sound
/-!
# Texts that differ in a name

Where the name of one attribute is replaced in a text, the scan goes on as before: it hands out the same tokens, in which
the attribute has its new name and what stands behind it has moved (`Renames.tokenize_text`).
-/

namespace TemplateCompiler.Markup

open TemplateCompiler.Text

/-- The state with its tag changed. -/
def State.mapTag (f : Tag → Tag) : State → State
  | .tagName tag => .tagName (f tag)
  | .beforeAttributeName tag => .beforeAttributeName (f tag)
  | .attributeName tag => .attributeName (f tag)
  | .afterAttributeName tag => .afterAttributeName (f tag)
  | .beforeAttributeValue tag => .beforeAttributeValue (f tag)
  | .attributeValue quoting tag => .attributeValue quoting (f tag)
  | .afterAttributeValueQuoted tag => .afterAttributeValueQuoted (f tag)
  | .selfClosingStartTag tag => .selfClosingStartTag (f tag)
  | state => state

@[simp] theorem Part.mapTag_state (part : Part) (f : Tag → Tag) (tag : Tag) :
    (part.state tag).mapTag f = part.state (f tag) := by
  cases part <;> rfl

/-- One name of an attribute replaced by another. -/
structure Renaming where
  /-- Where the name stands. -/
  place : Nat
  /-- How many bytes it takes. -/
  size : Nat
  /-- What it is replaced by. -/
  name : String

namespace Renaming

variable (r : Renaming)

/-- Where the byte at `n` is found behind the replacement. -/
def move (n : Nat) : Nat :=
  if n ≤ r.place then n else n - r.size + r.name.utf8ByteSize

def onAttribute (a : TagAttribute) : TagAttribute :=
  { a with name := if a.start = r.place then r.name else a.name, start := r.move a.start }

def onTag (t : Tag) : Tag :=
  { t with attributes := t.attributes.map r.onAttribute, start := r.move t.start, stop := r.move t.stop }

def onToken : Token → Token
  | .tag t => .tag (r.onTag t)
  | token => token

def onScan (s : Scan) : Scan :=
  { s with tokens := s.tokens.map r.onToken }

def onReading (x : Reading) : Reading :=
  { x with state := x.state.mapTag r.onTag, offset := r.move x.offset }

/-- The text with the name replaced. -/
def text (source : List Char) : List Char :=
  match splitBytes? r.place source with
  | some (front, back) => front ++ (r.name.toList ++ (dropBytes? r.size back).getD back)
  | none => source

variable {r : Renaming} {tag : Tag} {state next : State} {pos size : Nat} {c : Char} {rest cs : List Char}
  {tokens : List Token}

/-! ## Places -/

theorem move_of_le {n : Nat} (h : n ≤ r.place) : r.move n = n :=
  if_pos h

theorem move_add {n : Nat} (hsize : 0 < r.size) (h : r.place + r.size ≤ n) (width : Nat) :
    r.move (n + width) = r.move n + width := by
  unfold move
  rw [if_neg (by omega), if_neg (by omega)]
  omega

theorem move_stop (hsize : 0 < r.size) : r.move (r.place + r.size) = r.place + r.name.utf8ByteSize := by
  unfold move
  rw [if_neg (by omega)]
  omega

theorem onAttribute_of_lt {a : TagAttribute} (h : a.start < r.place) : r.onAttribute a = a := by
  unfold onAttribute
  rw [if_neg (Nat.ne_of_lt h), move_of_le (Nat.le_of_lt h)]

theorem onTag_of_before (h : tag.Before r.place) : r.onTag tag = tag := by
  unfold onTag
  rw [move_of_le (Nat.le_of_lt h.start), move_of_le h.stop,
    List.map_congr_left fun a ha => onAttribute_of_lt (h.attributes a ha), List.map_id']

theorem onToken_of_before (h : ∀ t, .tag t ∈ tokens → t.Before r.place) : tokens.map r.onToken = tokens := by
  rw [List.map_congr_left fun token htoken => ?_, List.map_id']
  cases token with
  | tag t => rw [onToken, onTag_of_before (h t htoken)]
  | _ => rfl

/-! ## Steps in a tag -/

/-- The newest attribute of a tag is not the one that is renamed. -/
def LeavesNewest (r : Renaming) (tag : Tag) : Prop :=
  ∀ a ∈ tag.attributes.head?, a.start ≠ r.place

theorem leavesNewest_pushName : r.LeavesNewest (tag.pushName c) ↔ r.LeavesNewest tag := by
  obtain ⟨closing, name, attributes, selfClosing, start, stop⟩ := tag
  cases attributes <;> simp [LeavesNewest, Tag.pushName, Tag.mapNewest]

theorem onTag_mapNewest {f : TagAttribute → TagAttribute}
    (h : ∀ a ∈ tag.attributes.head?, r.onAttribute (f a) = f (r.onAttribute a)) :
    r.onTag (tag.mapNewest f) = (r.onTag tag).mapNewest f := by
  obtain ⟨closing, name, attributes, selfClosing, start, stop⟩ := tag
  cases attributes with
  | nil => rfl
  | cons a older =>
    have := h a rfl
    simp [Tag.mapNewest, onTag, this]

theorem onTag_edit {edit : Edit} (h : (∃ c, edit = .pushName c) → r.LeavesNewest tag) :
    r.onTag (edit.apply tag) = edit.apply (r.onTag tag) := by
  have hopen (quoted : Bool) (t : Tag) : r.onTag (t.openValue quoted) = (r.onTag t).openValue quoted :=
    onTag_mapNewest fun _ _ => rfl
  have hpush (chars : List Char) (t : Tag) : r.onTag (t.pushValue chars) = (r.onTag t).pushValue chars :=
    onTag_mapNewest fun _ _ => rfl
  cases edit with
  | keep => rfl
  | pushTagName c => rfl
  | pushName c =>
    refine onTag_mapNewest fun a ha => ?_
    have hne := h ⟨c, rfl⟩ a ha
    simp [onAttribute, hne]
  | openValue quoted => exact hopen quoted tag
  | pushValue chars => exact hpush chars tag
  | startValue chars => exact (hpush chars _).trans (congrArg (Tag.pushValue · chars) (hopen false tag))

/-- A move that can be made is made in the tag with the name replaced. -/
theorem run_onTag {m : Move} (hsize : 0 < r.size) (hpos : r.place + r.size ≤ pos)
    (hedit : ∀ edit behind, m = .goOn edit behind → (∃ c, edit = .pushName c) → r.LeavesNewest tag)
    (happart : (∀ edit behind, m ≠ .goOn edit behind) → (r.onTag tag).repeatsAttribute = false)
    (h : m.run tag pos size = .go next tokens size) :
    m.run (r.onTag tag) (r.move pos) size = .go (next.mapTag r.onTag) (tokens.map r.onToken) size := by
  cases m with
  | goOn edit behind =>
    obtain ⟨rfl, rfl, -⟩ := Step.go.inj h
    rw [Part.mapTag_state, onTag_edit (hedit edit behind rfl)]
    rfl
  | start c =>
    simp only [Move.run, startAttribute, happart (fun _ _ h => by cases h), Bool.false_eq_true, if_false] at h ⊢
    split_ifs at h
    obtain ⟨rfl, rfl, rfl⟩ := to_eq_go.1 h
    simp only [State.mapTag, onTag, List.map_cons, onAttribute]
    rw [if_neg (by omega)]
    rfl
  | finish selfClosing =>
    have happart : ({ r.onTag tag with selfClosing := tag.selfClosing || selfClosing } : Tag).repeatsAttribute = false :=
      happart (fun _ _ h => by cases h)
    simp only [Move.run, endTag] at h ⊢
    split_ifs at h with hrepeats hattributes hslash
    obtain ⟨rfl, rfl, rfl⟩ := Step.go.inj h
    have hstop : r.move (pos + 1) = r.move pos + 1 := move_add hsize hpos 1
    simp only [onTag] at happart
    simp [onTag, onToken, State.mapTag, happart, hattributes, hslash, hstop]

/-! ## Names that stay apart -/

/-- The name behind the replacement of an attribute of which name and place are given. -/
def nameOf (r : Renaming) (mark : String × Nat) : String :=
  if mark.2 = r.place then r.name else mark.1

theorem names_onTag (r : Renaming) (tag : Tag) :
    (r.onTag tag).attributes.map TagAttribute.name = tag.marks.map r.nameOf := by
  rw [Tag.marks, onTag, List.map_map, List.map_map]
  rfl

theorem apart_onTag {T : Tag} (hmarked : tag.marks.reverse <+: T.marks)
    (hT : ((r.onTag T).attributes.map TagAttribute.name).Nodup) : (r.onTag tag).repeatsAttribute = false := by
  rw [names_onTag] at hT
  have hnodup := hT.sublist (hmarked.sublist.map r.nameOf)
  rw [List.map_reverse, List.nodup_reverse, ← names_onTag] at hnodup
  exact repeatsAttribute_of_nodup hnodup

/-! ## Scans -/

theorem mapTag_of_outside (htag : state.tag? = none) (f : Tag → Tag) : state.mapTag f = state := by
  cases state <;> first | rfl | cases htag

/-- A step outside of tags starts one behind `<` or `</` only, and elsewhere it does not depend on the place. -/
theorem step_elsewhere (htag : state.tag? = none) (hopen : state ≠ .tagOpen) (hclose : state ≠ .endTagOpen)
    (h : state.step pos c rest = .go next tokens size) :
    next.tag? = none ∧ ∀ p, state.step p c rest = .go next tokens size := by
  cases state with
  | data => exact ⟨by grind [State.step, dataStep, Step.to, State.tag?], fun _ => h⟩
  | tagOpen => exact absurd rfl hopen
  | endTagOpen => exact absurd rfl hclose
  | doctypeIdentifier quoting identifier =>
    exact ⟨by grind [State.step, doctypeIdentifierStep, Step.to, State.tag?], fun _ => h⟩
  | afterDoctypeIdentifier identifier =>
    cases identifier <;> exact ⟨by grind [State.step, Step.to, State.tag?], fun _ => h⟩
  | _ =>
    first
    | cases htag; done
    | exact ⟨by grind [State.step, commentStep, commentStartStep, commentStartDashStep, commentEndDashStep, commentEndStep,
        commentEndBangStep, startIdentifier, Step.to, State.tag?], fun _ => h⟩

/-- A step outside of tags is made behind the replacement. -/
theorem step_moved (htag : state.tag? = none) (hsize : 0 < r.size) (hfloor : r.place + r.size ≤ state.floor pos)
    (h : state.step pos c rest = .go next tokens size) :
    state.step (r.move pos) c rest = .go (next.mapTag r.onTag) (tokens.map r.onToken) size := by
  have hnone := (step_outside htag h).2
  rw [onToken_of_before fun t ht => absurd ht (hnone t)]
  -- the tag that is started has no attributes, and stands where its bracket does
  have hstart (n : Nat) (hfloor : r.place + r.size ≤ pos - n) : r.move (pos - n) = r.move pos - n := by
    have := move_add hsize hfloor n
    rw [Nat.sub_add_cancel (by omega)] at this
    omega
  have hstop : r.move 0 = 0 := move_of_le (Nat.zero_le _)
  by_cases hopen : state = .tagOpen
  · subst hopen
    have := hstart 1 hfloor
    simp only [State.step, tagOpenStep] at h ⊢
    split_ifs at h ⊢ <;> obtain ⟨rfl, rfl, rfl⟩ := Step.go.inj h <;> simp [State.mapTag, onTag, Step.to, this, hstop]
  by_cases hclose : state = .endTagOpen
  · subst hclose
    have := hstart 2 hfloor
    simp only [State.step, endTagOpenStep] at h ⊢
    split_ifs at h ⊢
    obtain ⟨rfl, rfl, rfl⟩ := Step.go.inj h
    simp [State.mapTag, onTag, Step.to, this, hstop]
  obtain ⟨hnext, hstep⟩ := step_elsewhere htag hopen hclose h
  rw [mapTag_of_outside hnext, hstep]

/-- A scan stands in the name that is replaced. -/
def Names (r : Renaming) (state : State) : Prop :=
  ∃ tag, state = .attributeName tag ∧ ¬ r.LeavesNewest tag

/-- A scan behind the name that is replaced. -/
structure Follows (r : Renaming) (state : State) (pos : Nat) (cs : List Char) : Prop where
  behind : r.place + r.size ≤ pos
  floor : state.tag? = none → r.place + r.size ≤ state.floor pos
  ended : r.Names state → ∀ c ∈ cs.head?, endsName (readAs c) = true
  apart : ∀ t, .tag t ∈ (scanFrom state pos cs).tokens → ((r.onTag t).attributes.map TagAttribute.name).Nodup

section Follows

variable (hfollows : r.Follows state pos (c :: rest)) (h : state.step pos (readAs c) rest = .go next tokens size)
include hfollows h

/-- Where a name starts or the tag ends, the names of its attributes stay apart. -/
theorem Follows.apart_of_run (hallowed : isForbiddenCode (readAs c).toNat = false) {part : Part} {m : Move} {d : Char} (hstate : state = part.state tag)
    (hfault : (scanFrom state pos (c :: rest)).fault = none) (hfrom : m.FollowsFrom part d)
    (hrun : m.run tag pos size = .go next tokens size) (hm : ∀ edit behind, m ≠ .goOn edit behind) :
    (r.onTag tag).repeatsAttribute = false := by
  cases m with
  | goOn edit behind => exact absurd rfl (hm edit behind)
  | start c =>
    obtain ⟨T, tokens', htokens, hmarked⟩ := exists_tag (hstate ▸ Part.tag?_state part tag) hfault
    rw [hstate, Part.settled_eq (by rintro rfl; simp [Move.FollowsFrom] at hfrom)] at hmarked
    exact apart_onTag hmarked (hfollows.apart T (htokens ▸ List.mem_cons_self))
  | finish selfClosing =>
    simp only [Move.run, endTag] at hrun
    split_ifs at hrun
    obtain ⟨rfl, rfl, -⟩ := Step.go.inj hrun
    refine apart_onTag ?_ (hfollows.apart _ (by rw [scanFrom_go hallowed h]; exact List.mem_cons_self))
    exact ⟨[], by rw [List.append_nil, marks_finish]⟩

/-- A step is made behind the replacement. -/
theorem Follows.step_eq (hsize : 0 < r.size) (hallowed : isForbiddenCode (readAs c).toNat = false)
    (hfault : (scanFrom state pos (c :: rest)).fault = none) :
    (state.mapTag r.onTag).step (r.move pos) (readAs c) rest = .go (next.mapTag r.onTag) (tokens.map r.onToken) size := by
  cases htag : state.tag? with
  | none =>
    rw [mapTag_of_outside htag]
    exact step_moved htag hsize (hfollows.floor htag) h
  | some tag =>
    obtain ⟨part, rfl⟩ := exists_part htag
    obtain ⟨m, hfrom, hrun⟩ := part.exists_move h
    have hmove := (hrun tag pos).symm.trans h
    rw [Part.mapTag_state, hrun]
    refine run_onTag hsize hfollows.behind ?_ (hfollows.apart_of_run h hallowed rfl hfault hfrom hmove) hmove
    rintro edit behind rfl ⟨c, rfl⟩
    obtain ⟨rfl, rfl, hends⟩ := hfrom
    by_contra hnames
    have := hfollows.ended ⟨tag, rfl, hnames⟩ _ rfl
    rw [hends] at this
    cases this

/-- Behind a step no scan stands in the name that is replaced. -/
theorem Follows.not_names (hsize : 0 < r.size) : ¬ r.Names next := by
  rintro ⟨t, rfl, hnames⟩
  have hbehind := hfollows.behind
  cases htag : state.tag? with
  | none => simp [LeavesNewest, ((step_outside htag h).1 t rfl).1] at hnames
  | some tag =>
    obtain ⟨part, rfl, hstep⟩ := exists_tagStep htag h
    generalize hnext : State.attributeName t = next at hstep
    cases hstep with
    | @goOn edit behind follows =>
      obtain ⟨rfl, rfl⟩ : behind = .attributeName ∧ t = edit.apply tag := by
        cases behind <;> simp_all [Part.state]
      cases edit with
      | pushName d =>
        obtain ⟨rfl, -, hends⟩ := follows
        have hnames' : ¬ r.LeavesNewest tag := fun hleaves => hnames (leavesNewest_pushName.2 hleaves)
        have := hfollows.ended ⟨tag, rfl, hnames'⟩ c rfl
        rw [hends] at this
        cases this
      | _ => exact absurd rfl follows
    | start c between apart =>
      obtain rfl := State.attributeName.inj hnext
      exact hnames fun a ha => by obtain rfl := Option.some.inj ha; exact fun heq => by dsimp only at heq; omega
    | finish selfClosing apart => cases hnext

theorem Follows.behind_step (hsize : 0 < r.size) (hallowed : isForbiddenCode (readAs c).toNat = false) :
    r.Follows next (pos + byteLength (c :: rest.take (takenWith c rest size)))
    (rest.drop (takenWith c rest size)) where
  behind := by
    have := hfollows.behind
    omega
  floor := fun hnext => by
    have hwidth := byteLength_pos (List.cons_ne_nil c (rest.take (takenWith c rest size)))
    cases htag : state.tag? with
    | none => exact (hfollows.floor htag).trans (floor_le_of_noTag htag hwidth h).1
    | some tag =>
      obtain ⟨part, rfl, hstep⟩ := exists_tagStep htag h
      cases hstep with
      | goOn follows => rw [Part.tag?_state] at hnext; cases hnext
      | start c between apart => cases hnext
      | finish selfClosing apart => exact hfollows.behind.trans (Nat.le_add_right _ _)
  ended := fun hnames => absurd hnames (hfollows.not_names h hsize)
  apart := fun t ht => hfollows.apart t (by rw [scanFrom_go hallowed h]; exact List.mem_append_right _ ht)

end Follows

/-- A scan goes on as before behind the name that is replaced. -/
theorem scanFrom_renamed (hsize : 0 < r.size) (hfollows : r.Follows state pos cs) (h : (scanFrom state pos cs).fault = none) :
    scanFrom (state.mapTag r.onTag) (r.move pos) cs = r.onScan (scanFrom state pos cs) ∧
      readingsFrom (state.mapTag r.onTag) (r.move pos) cs = (readingsFrom state pos cs).map r.onReading := by
  refine scan_induction (motive := fun state pos cs => r.Follows state pos cs → (scanFrom state pos cs).fault = none →
    scanFrom (state.mapTag r.onTag) (r.move pos) cs = r.onScan (scanFrom state pos cs) ∧
      readingsFrom (state.mapTag r.onTag) (r.move pos) cs = (readingsFrom state pos cs).map r.onReading) ?_ ?_ h hfollows h
  · intro state pos hend _ _
    have hend' : (state.mapTag r.onTag).openAtEnd = none := by
      cases state <;> cases hend
      rfl
    unfold scanFrom readingsFrom
    rw [hend, hend']
    exact ⟨rfl, rfl⟩
  · intro state pos c rest next tokens size hallowed hstep hrest ih hfollows hfault
    obtain ⟨hscan, hreadings⟩ := ih (hfollows.behind_step hstep hsize hallowed) hrest
    have hstep' := hfollows.step_eq hstep hsize hallowed hfault
    rw [move_add hsize hfollows.behind] at hscan hreadings
    rw [scanFrom_go hallowed hstep', readingsFrom_go hallowed hstep', scanFrom_go hallowed hstep,
      readingsFrom_go hallowed hstep, hscan, hreadings]
    exact ⟨by simp [onScan, Scan.after], rfl⟩

end Renaming

/-! ## Where an attribute is written -/

theorem EndsBlank.append {xs ys : List Char} (hys : EndsBlank ys) (hne : ys ≠ []) : EndsBlank (xs ++ ys) := by
  intro c hc
  rw [List.getLast?_append_of_ne_nil _ hne] at hc
  exact hys c hc

theorem endsBlank_of_blank {cs : List Char} (h : ∀ c ∈ cs, isSourceBlank c = true) : EndsBlank cs :=
  fun c hc => h c (List.mem_of_getLast? hc)

theorem endsName_of_blank {c : Char} (h : isSourceBlank c = true) : endsName (readAs c) = true := by
  simp [endsName, isTagBlank_readAs h]

namespace Follows

variable {start : Nat} {ws : List WrittenAttribute} {ts : List TagAttribute} {tail : List Char}

/-- What stands behind an attribute ends its name. -/
theorem endsName_onward (h : Follows start ws ts) (hends : Ends ws tail) :
    ∃ c cs, onward ws tail = c :: cs ∧ endsName (readAs c) = true := by
  cases h with
  | nil start =>
    obtain ⟨blanks, mark, heq, hblanks, hmark⟩ := hends.mark
    rw [onward, List.flatMap_nil, List.nil_append, heq]
    cases blanks with
    | nil => rcases hmark with rfl | rfl <;> exact ⟨_, _, rfl, by decide⟩
    | cons d blanks => exact ⟨d, _, rfl, endsName_of_blank (hblanks d (by simp))⟩
  | @cons _ w _ ws _ valid denotes rest =>
    obtain ⟨c, gap, hgap⟩ := List.exists_cons_of_ne_nil valid.gap
    rw [onward_cons, WrittenAttribute.source, hgap]
    exact ⟨c, _, rfl, endsName_of_blank (valid.blank c (by simp [hgap]))⟩

/-- The source of some attributes, cut at the name of one of them. -/
theorem cut (h : Follows start ws ts) (hends : Ends ws tail) {t : TagAttribute} (ht : t ∈ ts) :
    ∃ inside written behind, onward ws tail = inside ++ (written ++ behind) ∧ t.start = start + byteLength inside ∧
      written.map Char.toLower = t.name.toList ∧ (∀ c ∈ written, isNameChar c = true) ∧ EndsBlank inside ∧ inside ≠ [] ∧
        ∃ c cs, behind = c :: cs ∧ endsName (readAs c) = true := by
  induction h with
  | nil => cases ht
  | @cons start w t' ws ts valid denotes later ih =>
    rcases List.mem_cons.1 ht with rfl | ht
    · refine ⟨w.gap, w.name, (w.value.map WrittenValue.source).getD [] ++ onward ws tail, by simp [WrittenAttribute.source],
        denotes.start, denotes.name.symm, valid.nameChars, endsBlank_of_blank valid.blank, valid.gap, ?_⟩
      cases hv : w.value with
      | none => exact later.endsName_onward hends.of_cons
      | some v =>
        rw [Option.map_some, Option.getD_some, WrittenValue.source, List.append_assoc, List.cons_append]
        cases hblanks : v.before with
        | nil => exact ⟨'=', _, rfl, by decide⟩
        | cons d blanks => exact ⟨d, _, rfl, endsName_of_blank ((valid.value v hv).before d (by simp [hblanks]))⟩
    · obtain ⟨inside, written, behind, heq, hstart, hwritten, hchars, hblank, hne, hbehind⟩ := ih hends.of_cons ht
      exact ⟨w.source ++ inside, written, behind, by simp [heq], by simp [hstart, Nat.add_assoc], hwritten, hchars,
        hblank.append hne, by simp [hne], hbehind⟩

end Follows

/-- In the source the attribute `t` of the start tag `tag` is written as `written`. In front of it stand the source up to
and with the name of the tag, and `inside`; behind it stand `behind`, with which the tag ends, and the rest of the source. -/
structure WrittenAt (source : List Char) (tag : Tag) (t : TagAttribute) (before inside written behind rest : List Char) :
    Prop where
  source : source = before ++ (inside ++ (written ++ (behind ++ rest)))
  body : tag.start + 1 + tag.name.utf8ByteSize = byteLength before
  start : t.start = byteLength before + byteLength inside
  stop : tag.stop = t.start + (byteLength written + byteLength behind)
  blank : EndsBlank inside
  apart : inside ≠ []
  name : written.map Char.toLower = t.name.toList
  chars : ∀ c ∈ written, isNameChar c = true
  ends : ∃ c cs, behind = c :: cs ∧ endsName (readAs c) = true

theorem mem_startTags {source : List Char} {tag : Tag} :
    tag ∈ startTags source ↔ .tag tag ∈ (tokenize source).tokens ∧ tag.closing = false := by
  simp only [startTags, List.mem_filterMap]
  constructor
  · rintro ⟨token, htoken, hstart⟩
    obtain ⟨rfl, hclosing⟩ := Token.startTag?_eq_some hstart
    exact ⟨htoken, hclosing⟩
  · rintro ⟨htoken, hclosing⟩
    exact ⟨_, htoken, by simp [Token.startTag?, hclosing]⟩

theorem exists_writtenAt {source : List Char} {tag : Tag} (htag : tag ∈ startTags source) {t : TagAttribute}
    (ht : t ∈ tag.attributes) :
    ∃ before inside written behind rest, WrittenAt source tag t before inside written behind rest := by
  obtain ⟨htoken, hclosing⟩ := mem_startTags.1 htag
  obtain ⟨front, s, rest, hsource, hcloses⟩ := tags_standIn htoken
  obtain ⟨before, hwhole, hbody, hstop, hfollows⟩ := hcloses.behind_name hclosing hsource
  obtain ⟨inside, written, behind, hcut, hstart, hname, hchars, hblank, happart, hends⟩ :=
    hfollows.cut hcloses.closable.ends ht
  have hsize : tag.name.utf8ByteSize = byteLength s.name := by
    rw [← byteLength_toList, ← hcloses.spells.name, byteLength_map_toLower]
  refine ⟨before, inside, written, behind, rest, ?_, by rw [hsize, hbody], hstart, ?_, hblank, happart, hname, hchars, hends⟩
  · simp [hwhole, hcut]
  · rw [hstop, hstart, hcut, byteLength_append, byteLength_append, Nat.add_assoc]

/-! ## Names that are replaced -/

theorem isPlain_of_toLower {c : Char} (h : isPlain c.toLower = true) : isPlain c = true := by
  rcases toLower_cases c with hc | ⟨hlow, hhigh, -⟩
  · rwa [hc] at h
  · have hreturn : c ≠ '\r' := by
      rintro rfl
      exact absurd hlow (by decide)
    refine isPlain_of_allowed ?_ hreturn (by omega)
    simp only [isForbiddenCode, Bool.or_eq_false_iff, Bool.and_eq_false_iff, decide_eq_false_iff_not, beq_eq_false_iff_ne]
    omega

/-- The attributes of a tag stand in it, one behind the other. -/
theorem Follows.pairwise_start {start : Nat} {ws : List WrittenAttribute} {ts : List TagAttribute}
    (h : Follows start ws ts) : ts.Pairwise fun t u => t.start < u.start := by
  induction h with
  | nil => exact .nil
  | @cons start w t ws ts valid denotes rest ih =>
    refine .cons (fun u hu => ?_) ih
    have hle := rest.le_start hu
    have hname := byteLength_pos valid.name
    rw [denotes.start]
    simp only [WrittenAttribute.source, byteLength_append] at hle
    omega

/-- A name in place of that of an attribute. -/
def TagAttribute.renaming (t : TagAttribute) (name : String) : Renaming :=
  ⟨t.start, t.name.utf8ByteSize, name⟩

section WrittenAt

variable {source : List Char} {tag : Tag} {t : TagAttribute} {before inside written behind rest : List Char}
  (h : WrittenAt source tag t before inside written behind rest)
include h

theorem WrittenAt.size : byteLength written = t.name.utf8ByteSize := by
  rw [← byteLength_map_toLower, h.name, byteLength_toList]

theorem WrittenAt.text (name : String) :
    (t.renaming name).text source = before ++ (inside ++ (name.toList ++ (behind ++ rest))) := by
  have hplace : t.start = byteLength (before ++ inside) := by rw [h.start, byteLength_append]
  have hsource : source = (before ++ inside) ++ (written ++ (behind ++ rest)) := by rw [h.source, List.append_assoc]
  simp only [Renaming.text, TagAttribute.renaming, hsource, hplace, splitBytes?_byteLength, ← h.size, dropBytes?]
  simp

theorem WrittenAt.isAttributeName (hname : Markup.isAttributeName t.name = true) :
    Markup.isAttributeName (String.ofList written) = true := by
  simp only [Markup.isAttributeName, Bool.and_eq_true, Bool.not_eq_true', List.all_eq_true, ← h.name,
    List.forall_mem_map] at hname
  simp only [Markup.isAttributeName, Bool.and_eq_true, Bool.not_eq_true', List.all_eq_true, String.toList_ofList]
  refine ⟨?_, fun c hc => ⟨h.chars c hc, isPlain_of_toLower (hname.2 c hc).2⟩⟩
  have hsize : (String.ofList written).utf8ByteSize = t.name.utf8ByteSize := by
    rw [← byteLength_toList, String.toList_ofList, h.size]
  rw [String.isEmpty, hsize]
  exact hname.1

theorem WrittenAt.start_lt : tag.start < t.start := by
  have := h.body
  have := h.start
  omega

end WrittenAt

theorem Follows.start_lt {start : Nat} {ws : List WrittenAttribute} {ts : List TagAttribute} (h : Follows start ws ts)
    {t : TagAttribute} (ht : t ∈ ts) : t.start < start + byteLength (ws.flatMap WrittenAttribute.source) := by
  induction h with
  | nil => cases ht
  | @cons start w t' ws ts valid denotes rest ih =>
    rw [List.flatMap_cons, byteLength_append]
    rcases List.mem_cons.1 ht with rfl | ht
    · have hname := byteLength_pos valid.name
      rw [denotes.start, WrittenAttribute.source, byteLength_append, byteLength_append]
      omega
    · have := ih ht
      omega

section Tokens

variable {source : List Char} {T U : Tag}

/-- The attributes of a tag stand between its ends, one behind the other. -/
theorem attributes_between (hT : .tag T ∈ (tokenize source).tokens) :
    (∀ a ∈ T.attributes, T.start ≤ a.start ∧ a.start < T.stop) ∧ T.attributes.Pairwise fun a b => a.start < b.start := by
  obtain ⟨front, s, rest, -, hcloses⟩ := tags_standIn hT
  have hfollows := hcloses.spells.attributes.follows
  rw [List.reverse_reverse] at hfollows
  refine ⟨fun a ha => ?_, hfollows.pairwise_start⟩
  have hlow := hfollows.le_start ha
  have hhigh := hfollows.start_lt ha
  have hstart : T.start = byteLength front + byteLength s.text := hcloses.spells.start
  rw [← sources_eq_flatMap] at hhigh
  dsimp only at hlow hhigh
  rw [hcloses.stop, TagSource.source, TagSource.inner, TagSource.body]
  simp only [byteLength_append]
  omega

theorem pairwise_tokenize (source : List Char) : (tokenize source).tokens.Pairwise Token.Apart := by
  unfold tokenize
  split
  · split <;> exact tags_apart nofun
  · exact .nil

/-- Two tags of a source are the same, or do not overlap. -/
theorem tag_cases (hT : .tag T ∈ (tokenize source).tokens) (hU : .tag U ∈ (tokenize source).tokens) :
    U = T ∨ U.stop ≤ T.start ∨ T.stop ≤ U.start := by
  by_cases heq : U = T
  · exact .inl heq
  · have : Std.Symm Token.Apart := ⟨fun x y h t ht u hu => (h u hu t ht).symm⟩
    exact .inr ((pairwise_tokenize source).forall hU hT (fun h => heq (Token.tag.inj h)) U rfl T rfl)

/-- If a new name is that of no other attribute of the tag, the names of the attributes of each tag stay apart. -/
theorem apart_renamed {t : TagAttribute} {name : String} (hT : .tag T ∈ (tokenize source).tokens) (ht : t ∈ T.attributes)
    (hfresh : ∀ u ∈ T.attributes, u.name ≠ name) (hU : .tag U ∈ (tokenize source).tokens) :
    (((t.renaming name).onTag U).attributes.map TagAttribute.name).Nodup := by
  have hnodup : (U.attributes.map TagAttribute.name).Nodup := (sound_of_mem_tokenize _ hU).2
  obtain ⟨hbetween, hpairwise⟩ := attributes_between hU
  rw [Renaming.names_onTag, Tag.marks, List.map_map]
  have hpairs := (List.pairwise_map.1 hnodup).and hpairwise
  refine List.pairwise_map.2 (hpairs.imp_of_mem fun {a b} ha hb hapart => ?_)
  obtain ⟨hname, hstart⟩ := hapart
  have hown {c : TagAttribute} (hc : c ∈ U.attributes) (hplace : c.start = t.start) : U = T := by
    have := (attributes_between hT).1 t ht
    have := hbetween c hc
    rcases tag_cases hT hU with heq | hle | hle
    · exact heq
    · omega
    · omega
  show (if a.start = t.start then name else a.name) ≠ if b.start = t.start then name else b.name
  by_cases ha' : a.start = t.start
  · rw [if_pos ha', if_neg (by omega)]
    exact (hfresh b (hown ha ha' ▸ hb)).symm
  by_cases hb' : b.start = t.start
  · rw [if_neg ha', if_pos hb']
    exact hfresh a (hown hb hb' ▸ ha)
  · rw [if_neg ha', if_neg hb']
    exact hname

end Tokens

theorem isNameQuote_onReading (r : Renaming) (x : Reading) : (r.onReading x).isNameQuote = x.isNameQuote := by
  obtain ⟨state, offset, c⟩ := x
  cases state <;> rfl

section Text

variable {r : Renaming} {state : State} {pos : Nat} {tag : Tag} {back : List Char} {name : String}
  (hsize : name.utf8ByteSize = r.size) (hold : isAttributeName name = true) (hnew : isAttributeName r.name = true)
  (hlower : lowerName r.name = r.name) (hback : ∃ c cs, back = c :: cs ∧ endsName (readAs c) = true)

theorem exists_cons_of_isAttributeName {name : String} (h : isAttributeName name = true) :
    ∃ c cs, name.toList = c :: cs ∧ (isNameChar c = true ∧ isPlain c = true) ∧
      ∀ d ∈ cs, isNameChar d = true ∧ isPlain d = true := by
  simp only [isAttributeName, Bool.and_eq_true, Bool.not_eq_true', List.all_eq_true] at h
  obtain ⟨hne, hall⟩ := h
  cases hcs : name.toList with
  | nil => simp [String.toList_eq_nil_iff.1 hcs] at hne
  | cons c cs =>
    rw [hcs] at hall
    exact ⟨c, cs, rfl, hall c (by simp), fun d hd => hall d (by simp [hd])⟩

/-- A name is read where an attribute may start. -/
theorem scans_attributeName_of {name : String} (h : isAttributeName name = true) (hrepeat : tag.repeatsAttribute = false)
    (hstate : state = .beforeAttributeName tag ∨ state = .afterAttributeName tag) (pos : Nat) :
    Scans state pos name.toList [] (.attributeName (tag.addAttribute pos (name, none))) := by
  obtain ⟨c, cs, hcs, hc, hrest⟩ := exists_cons_of_isAttributeName h
  have := scans_name hc hrest hrepeat hstate pos
  rwa [← hcs, String.ofList_toList] at this

/-- Behind the name the scan stands in the tag with the new name. -/
theorem onTag_addAttribute (hbefore : tag.Before r.place) (name : String) (hlower : lowerName r.name = r.name) :
    r.onTag (tag.addAttribute r.place (name, none)) = tag.addAttribute r.place (r.name, none) := by
  have htag := Renaming.onTag_of_before hbefore
  obtain ⟨closing, _, attributes, selfClosing, start, stop⟩ := tag
  simp only [Renaming.onTag, Tag.mk.injEq, true_and] at htag
  simp [Renaming.onTag, Renaming.onAttribute, Tag.addAttribute, htag, hlower, Renaming.move_of_le (Nat.le_refl r.place)]

include hsize hold hnew hlower hback

/-- The scan from a name on, where it is replaced. -/
theorem scan_name (hstate : state = .beforeAttributeName tag ∨ state = .afterAttributeName tag)
    (hrepeat : tag.repeatsAttribute = false) (hbefore : tag.Before r.place)
    (hfault : (scanFrom state r.place (name.toList ++ back)).fault = none)
    (happart : ∀ U, .tag U ∈ (scanFrom state r.place (name.toList ++ back)).tokens →
      ((r.onTag U).attributes.map TagAttribute.name).Nodup) :
    scanFrom state r.place (r.name.toList ++ back) = r.onScan (scanFrom state r.place (name.toList ++ back)) ∧
      ((∀ x ∈ readingsFrom state r.place (name.toList ++ back), x.isNameQuote = false) →
        ∀ x ∈ readingsFrom state r.place (r.name.toList ++ back), x.isNameQuote = false) := by
  have hscans := scans_attributeName_of hold hrepeat hstate r.place
  have hscans' := scans_attributeName_of hnew hrepeat hstate r.place
  obtain ⟨read, -, hread⟩ := hscans.readings
  obtain ⟨read', hnone, hread'⟩ := hscans'.readings
  rw [hscans.scan, byteLength_toList, hsize] at hfault happart
  rw [hscans.scan, hscans'.scan, hread, hread', byteLength_toList, byteLength_toList, hsize]
  have hpositive : 0 < r.size := by
    obtain ⟨c, cs, hcs, -, -⟩ := exists_cons_of_isAttributeName hold
    rw [← hsize, ← byteLength_toList, hcs]
    exact byteLength_pos (List.cons_ne_nil c cs)
  have hfollows : r.Follows (.attributeName (tag.addAttribute r.place (name, none))) (r.place + r.size) back := by
    refine ⟨Nat.le_refl _, nofun, fun _ c hc => ?_, fun U hU => happart U hU⟩
    obtain ⟨d, cs, rfl, hends⟩ := hback
    obtain rfl := Option.some.inj hc
    exact hends
  obtain ⟨hscan, hreadings⟩ := Renaming.scanFrom_renamed hpositive hfollows hfault
  have htag : (State.attributeName (tag.addAttribute r.place (name, none))).mapTag r.onTag =
      .attributeName (tag.addAttribute r.place (r.name, none)) :=
    congrArg State.attributeName (onTag_addAttribute hbefore name hlower)
  rw [Renaming.move_stop hpositive, htag] at hscan hreadings
  rw [hscan, hreadings]
  refine ⟨by simp [Scan.after, Renaming.onScan], fun hquotes => List.forall_mem_append.2 ⟨hnone, fun x hx => ?_⟩⟩
  obtain ⟨y, hy, rfl⟩ := List.mem_map.1 hx
  rw [isNameQuote_onReading]
  exact hquotes y (List.mem_append_right _ hy)

/-- The scan of a text in which a name of an attribute is replaced. -/
theorem scan_text {front : List Char} (hblank : EndsBlank front) (hplace : pos + byteLength front = r.place) {T : Tag}
    {t : TagAttribute} (hfault : (scanFrom .data pos (front ++ (name.toList ++ back))).fault = none)
    (hT : .tag T ∈ (scanFrom .data pos (front ++ (name.toList ++ back))).tokens) (ht : t ∈ T.attributes)
    (hstart : t.start = r.place)
    (happart : ∀ U, .tag U ∈ (scanFrom .data pos (front ++ (name.toList ++ back))).tokens →
      ((r.onTag U).attributes.map TagAttribute.name).Nodup) :
    scanFrom .data pos (front ++ (r.name.toList ++ back)) =
        r.onScan (scanFrom .data pos (front ++ (name.toList ++ back))) ∧
      ((∀ x ∈ readingsFrom .data pos (front ++ (name.toList ++ back)), x.isNameQuote = false) →
        ∀ x ∈ readingsFrom .data pos (front ++ (r.name.toList ++ back)), x.isNameQuote = false) := by
  have hhead {name : String} (h : isAttributeName name = true) : (name.toList ++ back).head? ≠ some '\n' := by
    obtain ⟨c, cs, hcs, hc, -⟩ := exists_cons_of_isAttributeName h
    rw [hcs]
    rintro ⟨⟩
    exact absurd hc.1 (by decide)
  obtain ⟨read, tokens, state, hcross⟩ := exists_crosses hblank (hhead hold) hfault
  obtain ⟨hbefore, htokens⟩ := hcross.before nofun
  rw [hplace] at hbefore htokens
  rw [hcross.scan _ (hhead hold), hplace] at hfault hT happart
  rw [hcross.scan _ (hhead hold), hcross.scan _ (hhead hnew), hcross.readings _ (hhead hold), hcross.readings _ (hhead hnew),
    hplace]
  -- the attribute is started behind the front
  have hT : .tag T ∈ (scanFrom state r.place (name.toList ++ back)).tokens := by
    refine (List.mem_append.1 hT).resolve_left fun hT => ?_
    have := (htokens T hT).attributes t ht
    dsimp only at this
    omega
  obtain ⟨tag, hstate, hrepeat⟩ := exists_starting hbefore hfault hT ht hstart
  have htag : tag.Before r.place := hbefore tag (by rcases hstate with rfl | rfl <;> rfl)
  obtain ⟨hscan, hreadings⟩ := scan_name hsize hold hnew hlower hback hstate hrepeat htag hfault
    fun U hU => happart U (List.mem_append_right _ hU)
  refine ⟨?_, fun hquotes => ?_⟩
  · rw [hscan]
    simp [Scan.after, Renaming.onScan, Renaming.onToken_of_before htokens]
  · obtain ⟨hhere, hlater⟩ := List.forall_mem_append.1 hquotes
    exact List.forall_mem_append.2 ⟨hhere, hreadings hlater⟩

end Text

/-- The scan of a text that starts with `front` starts with its first character, or with the second one. -/
theorem exists_tokenize {front : List Char} (hne : front ≠ []) :
    ∃ n, ∀ back, tokenize (front ++ back) = scanFrom .data (byteLength (front.take n)) (front.drop n ++ back) ∧
      readings (front ++ back) = readingsFrom .data (byteLength (front.take n)) (front.drop n ++ back) := by
  obtain ⟨c, front, rfl⟩ := List.exists_cons_of_ne_nil hne
  by_cases hmark : c.toNat = 0xFEFF
  · exact ⟨1, fun back => by simp [tokenize, readings, hmark]⟩
  · exact ⟨0, fun back => by simp [tokenize, readings, hmark]⟩

/-- The attribute `t` of the start tag `tag` can be given the name `name`: it is one that an attribute can have, and none of
the tag has it yet. No blank stands in the two names. -/
structure Renames (source : List Char) (tag : Tag) (t : TagAttribute) (name : String) : Prop where
  faultless : (tokenize source).fault = none
  startTag : tag ∈ startTags source
  mem : t ∈ tag.attributes
  isName : isAttributeName name = true
  small : lowerName name = name
  fresh : ∀ u ∈ tag.attributes, u.name ≠ name
  old : ∀ c ∈ t.name.toList, isBlank c = false
  new : ∀ c ∈ name.toList, isBlank c = false

/-- Where an attribute gets a new name, the text is read as before, with the new name in its tag; and no quote comes into a
name. -/
theorem Renames.tokenize_text {source : List Char} {tag : Tag} {t : TagAttribute} {name : String}
    (hrenames : Renames source tag t name) :
    tokenize ((t.renaming name).text source) = (t.renaming name).onScan (tokenize source) ∧
      ((∀ x ∈ readings source, x.isNameQuote = false) →
        ∀ x ∈ readings ((t.renaming name).text source), x.isNameQuote = false) := by
  obtain ⟨before, inside, written, behind, rest, h⟩ := exists_writtenAt hrenames.startTag hrenames.mem
  have hfault := hrenames.faultless
  have htoken := (mem_startTags.1 hrenames.startTag).1
  have happart := fun U hU => apart_renamed (U := U) htoken hrenames.mem hrenames.fresh hU
  rw [h.text]
  have hfront : before ++ inside ≠ [] := by simp [h.apart]
  obtain ⟨n, hread⟩ := exists_tokenize hfront
  have hplace : byteLength ((before ++ inside).take n) + byteLength ((before ++ inside).drop n) = t.start := by
    rw [← byteLength_append, List.take_append_drop, byteLength_append, ← h.start]
  have hsource : source = (before ++ inside) ++ ((String.ofList written).toList ++ (behind ++ rest)) := by
    rw [h.source, String.toList_ofList, List.append_assoc]
  have hwritten := h.isAttributeName ((sound_of_mem_tokenize _ htoken).1.attributes t hrenames.mem).name
  have hends : ∃ c cs, behind ++ rest = c :: cs ∧ endsName (readAs c) = true := by
    obtain ⟨c, cs, hbehind, hc⟩ := h.ends
    exact ⟨c, cs ++ rest, by rw [hbehind, List.cons_append], hc⟩
  have hsize : (String.ofList written).utf8ByteSize = t.name.utf8ByteSize := by
    rw [← byteLength_toList, String.toList_ofList, h.size]
  rw [← List.append_assoc before inside, (hread _).1, (hread _).2]
  rw [hsource, (hread _).1] at htoken hfault happart
  rw [hsource, (hread _).1, (hread _).2]
  exact scan_text (r := t.renaming name) hsize hwritten hrenames.isName hrenames.small hends
    ((h.blank.append h.apart).drop n) hplace hfault htoken hrenames.mem rfl happart

end TemplateCompiler.Markup

import Mathlib.Data.List.Find
import TemplateCompiler.Proofs.Markup.Renamed
import TemplateCompiler.Proofs.Markup.RenamedRaw
import TemplateCompiler.Proofs.Markup.SoundDocument
/-!
# Documents of texts that differ in a directive

Where an `if:true` is replaced by `lwc:if` in a text that has a document, the text has one still, and it differs in that
attribute only (`parse_renamed`). The two texts are read side by side: each token is taken in both, and what has been read
so far differs in as many attributes as the tokens before do (`Assembly.Renamed`). No quote may stand in the name of a tag
or of a document type, as the raw text of a tag may not be found where it stands then.
-/

namespace TemplateCompiler.Markup

open TemplateCompiler.Text

/-! ## Raw texts that are found -/

/-- Without a quote that is read in a name, no tag has one in its name. -/
theorem not_hasQuotedName_of_readings {state : State} {pos : Nat} {cs : List Char}
    (hstate : ∀ t, state.tag? = some t → t.hasQuotedName = false)
    (hread : ∀ x ∈ readingsFrom state pos cs, x.isNameQuote = false) {t : Tag}
    (ht : .tag t ∈ (scanFrom state pos cs).tokens) : t.hasQuotedName = false := by
  refine forall_mem_scanFrom
    (R := fun state pos cs => (∀ t, state.tag? = some t → t.hasQuotedName = false) ∧
      ∀ x ∈ readingsFrom state pos cs, x.isNameQuote = false)
    (P := fun token => ∀ t : Tag, token = .tag t → t.hasQuotedName = false)
    (fun {state pos cs c eaten back next tokens} hreached hsteps => ?_) ⟨hstate, hread⟩ _ ht t rfl
  obtain ⟨hstate, hread⟩ := hreached
  obtain ⟨rest, size, hstep, -, -, -⟩ := hsteps.step
  rw [hsteps.readings, List.forall_mem_cons] at hread
  have hnone {t : Tag} (ht : next.tag? = some t ∨ .tag t ∈ tokens) : t.hasQuotedName = false := by
    by_contra hquoted
    rcases step_hasQuotedName hstep ht (by simpa using hquoted) with ⟨tag, htag, hquoted⟩ | ⟨tag, rfl, -, hc⟩
    · simp [hstate tag htag] at hquoted
    · simpa [Reading.isNameQuote, hc] using hread.1
  refine ⟨⟨fun t ht => hnone (.inl ht), hread.2⟩, ?_⟩
  rintro _ htoken t rfl
  exact hnone (.inr htoken)

theorem noQuotedTags_of_readings {source : List Char} (h : ∀ x ∈ readings source, x.isNameQuote = false) :
    NoQuotedTags source := by
  intro t ht
  unfold tokenize at ht
  unfold readings at h
  cases source with
  | nil => cases ht
  | cons c rest =>
    dsimp only at ht h
    split at ht
    · rename_i hmark
      rw [if_pos hmark] at h
      exact not_hasQuotedName_of_readings (by simp [State.tag?]) h ht
    · rename_i hmark
      rw [if_neg hmark] at h
      exact not_hasQuotedName_of_readings (by simp [State.tag?]) h ht

/-- The raw text of a start tag is found where it stands. -/
def FindsRaws (source : List Char) (call : Assembly × Tag) : Prop :=
  scanTag (call.1.tagPlace call.2).1 (call.1.tagPlace call.2).2 call.2.name.utf8ByteSize = some (call.2.raws source)

theorem Placed.findsRaws {source : List Char} {call : Assembly × Tag} (h : Placed source call.1 call.2)
    (hclosing : call.2.closing = false) (hname : call.2.hasQuotedName = false) : FindsRaws source call := by
  obtain ⟨front, name, body, rest, hsource, hstart, hstop, hsize, hscan⟩ := h.scanned hclosing hname
  rw [byteLength_toList] at hsize
  have hbody : call.2.start + 1 + byteLength name = byteLength (front ++ '<' :: name) := by
    rw [hstart, byteLength_append, byteLength_cons, Nat.add_assoc]
    rfl
  have hsource' : source = (front ++ '<' :: name) ++ (body ++ ['>'] ++ rest) := by simp [hsource]
  rw [FindsRaws, hscan, hbody, raws_eq hsource' (hsize ▸ hbody)]
  rw [hstop, hstart]
  simp [Nat.add_assoc]

/-- Without a quote in a name, the raw text of each start tag is found where it stands. -/
theorem startCalls_findsRaws {source : List Char} (h : ∀ x ∈ readings source, x.isNameQuote = false)
    {call : Assembly × Tag} (hcall : call ∈ startCalls source) : FindsRaws source call :=
  (startCall_placed hcall fun x hx _ => h x hx).findsRaws (closing_of_mem_calls hcall)
    (noQuotedTags_of_readings h call.2 (mem_tokens_of_mem_calls hcall))

/-- Then the element of each start tag has its attributes as the raw text shows them. -/
theorem exists_element_of_startTag {source : List Char} {document : List Node} (h : parse source = .ok document)
    (hquotes : ∀ x ∈ readings source, x.isNameQuote = false) {tag : Tag} (htag : tag ∈ startTags source) :
    ∃ e ∈ elementsOf document, ∃ svg start,
      e.attributes = tag.attributes.map (attributeIn source svg start (tag.raws source)) := by
  obtain ⟨hmakes, htags⟩ := parse_elements h
  rw [← htags] at htag
  obtain ⟨call, hcall, rfl⟩ := List.mem_map.1 htag
  obtain ⟨e, he, raws, hraws, rfl⟩ := exists_of_mem_right hmakes.flip hcall
  obtain rfl : raws = call.2.raws source := Option.some.inj (hraws.symm.trans (startCalls_findsRaws hquotes hcall))
  refine ⟨_, he, _, _, congrArg Prod.fst (attributes_map _ _ _ _ ?_)⟩
  exact (sound_of_mem_tokenize _ (mem_tokens_of_mem_calls hcall)).2

/-! ## Attributes -/

/-- What the raw text of a tag shows of its attribute `t`, once that has the name `name`. -/
def Tag.shownAs (source : List Char) (tag : Tag) (t : TagAttribute) (name : String) : Option RawAttribute :=
  (tag.raws source).find? fun raw => raw.offset == t.start || raw.name == name

/-- The attribute `t` of the start tag `tag` is an `if:true` on an element that is not iterated itself, and `lwc:if` is shown
in its place as much in quotes as itself. -/
structure Replaceable (source : List Char) (tag : Tag) (t : TagAttribute) : Prop
    extends Renames source tag t "lwc:if" where
  name : t.name = "if:true"
  once : ∀ u ∈ tag.attributes, u.name ≠ "for:each"
  quoted : (tag.shownAs source t "lwc:if").any RawAttribute.quoted =
    ((tag.raws source).find? (·.name == t.name)).any RawAttribute.quoted

/-- The renaming that makes an `lwc:if` of an attribute. -/
abbrev TagAttribute.replacing (t : TagAttribute) : Renaming :=
  t.renaming "lwc:if"

/-- How many attributes of a tag are replaced. -/
def Renaming.countIn (r : Renaming) (tag : Tag) : Nat :=
  tag.attributes.countP (·.start == r.place)

/-- The directives are spelled in SVG as they are elsewhere. -/
theorem spelling_directive : spelling svgAttributeNames "if:true" = "if:true" ∧
    spelling svgAttributeNames "lwc:if" = "lwc:if" := by
  decide +kernel

/-- No other name is spelled like one that is not spelled like in SVG. -/
theorem spelled_ne (svg : Bool) {name other : String} (h : name ≠ other) (hother : other ∉ svgAttributeNames) :
    (if svg then spelling svgAttributeNames name else name) ≠ other := by
  rcases spelled_cases svg svgAttributeNames name with heq | hmem
  · rwa [heq]
  · exact fun heq => hother (heq ▸ hmem)

theorem Attribute.Renamed.of_kept {a a' : Attribute} (hname : a'.name = a.name) (hvalue : a'.value = a.value)
    (hhas : a'.hasValue = a.hasValue) (hquoted : a'.quoted = a.quoted) : a.Renamed 0 a' := by
  obtain ⟨name, value, hasValue, quoted, position⟩ := a'
  obtain ⟨rfl, rfl, rfl, rfl⟩ : name = a.name ∧ value = a.value ∧ hasValue = a.hasValue ∧ quoted = a.quoted :=
    ⟨hname, hvalue, hhas, hquoted⟩
  exact .kept a position

theorem Attribute.Renamed.of_renamed {a a' : Attribute} (hname : a.name = "if:true") (hname' : a'.name = "lwc:if")
    (hvalue : a'.value = a.value) (hquoted : a'.quoted = a.quoted) : a.Renamed 1 a' := by
  obtain ⟨name, value, hasValue, quoted, position⟩ := a'
  obtain ⟨rfl, rfl, rfl⟩ : name = "lwc:if" ∧ value = a.value ∧ quoted = a.quoted := ⟨hname', hvalue, hquoted⟩
  exact .renamed hname hasValue position

/-- Where one list is read in two ways, the differences are as many as the members that are read differently. -/
theorem Counted.map_countP {α β γ : Type} {R : Nat → α → β → Prop} {p : γ → Bool} {f : γ → α} {g : γ → β} {cs : List γ}
    (h : ∀ c ∈ cs, R (if p c then 1 else 0) (f c) (g c)) : Counted R (cs.countP p) (cs.map f) (cs.map g) := by
  induction cs with
  | nil => exact .nil
  | cons c cs ih =>
    obtain ⟨hhere, hlater⟩ := List.forall_mem_cons.1 h
    rw [List.countP_cons, Nat.add_comm]
    exact .cons hhere (ih hlater)

section Elements

variable {source : List Char} {tag U : Tag} {t u : TagAttribute} {name : String}

/-- The tags that a place stands in are the same. -/
theorem tag_eq_of_between {T : Tag} (hT : .tag T ∈ (tokenize source).tokens) (hU : .tag U ∈ (tokenize source).tokens)
    {n : Nat} (hn : T.start ≤ n ∧ n < T.stop) (hn' : U.start ≤ n ∧ n < U.stop) : U = T := by
  rcases tag_cases hT hU with heq | hle | hle
  · exact heq
  · omega
  · omega

section Renames

variable (h : Renames source tag t name) (hU : U ∈ startTags source)
include h hU

theorem Renames.tag_eq (hu : u ∈ U.attributes) (hplace : u.start = t.start) : U = tag := by
  have htag := (mem_startTags.1 h.startTag).1
  have hU := (mem_startTags.1 hU).1
  exact tag_eq_of_between htag hU ((attributes_between htag).1 t h.mem) (hplace ▸ (attributes_between hU).1 u hu)

/-- Another attribute is shown as before. -/
theorem Renames.find?_kept (hu : u ∈ U.attributes) (hplace : u.start ≠ t.start) :
    (((t.renaming name).onTag U).raws ((t.renaming name).text source)).find? (·.name == u.name) =
      ((U.raws source).find? (·.name == u.name)).map (t.renaming name).onRaw := by
  rw [h.raws_onTag hU, List.find?_map]
  refine congrArg (Option.map _) (List.find?_congr fun raw hraw => ?_)
  show ((if raw.offset = t.start then name else raw.name) == u.name) = _
  split
  · rename_i hoffset
    have htag := (mem_startTags.1 h.startTag).1
    obtain ⟨hlow, hhigh⟩ := raws_between hU hraw
    obtain rfl : U = tag := tag_eq_of_between htag (mem_startTags.1 hU).1 ((attributes_between htag).1 t h.mem)
      (hoffset ▸ ⟨Nat.le_of_lt hlow, hhigh⟩)
    obtain ⟨before, inside, written, behind, rest, hwritten⟩ := exists_writtenAt hU h.mem
    have hnames : u.name ≠ t.name := by
      have hnodup := (sound_of_mem_tokenize _ htag).2
      intro heq
      exact hplace (congrArg TagAttribute.start (List.inj_on_of_nodup_map hnodup hu h.mem heq))
    rw [hwritten.name_of_raw (h.rawName hwritten) hraw hoffset]
    simp [hnames.symm, (h.fresh u hu).symm]
  · rfl

end Renames

/-- The renamed attribute is shown as what stands in its place or has the new name. -/
theorem Renames.find?_renamed (h : Renames source tag t name) :
    (((t.renaming name).onTag tag).raws ((t.renaming name).text source)).find? (·.name == name) =
      (tag.shownAs source t name).map (t.renaming name).onRaw := by
  rw [h.raws_onTag h.startTag, List.find?_map, Tag.shownAs]
  refine congrArg (Option.map _) (List.find?_congr fun raw _ => ?_)
  show ((if raw.offset = t.start then name else raw.name) == name) = _
  split <;> simp_all

theorem Renames.eq_of_start (h : Renames source tag t name) (hu : u ∈ tag.attributes) (hplace : u.start = t.start) :
    u = t := by
  have hpairs := (attributes_between (mem_startTags.1 h.startTag).1).2
  have hnodup : (tag.attributes.map TagAttribute.start).Nodup :=
    List.pairwise_map.2 (hpairs.imp fun hlt => Nat.ne_of_lt hlt)
  exact List.inj_on_of_nodup_map hnodup hu h.mem hplace

section Replaceable

variable (h : Replaceable source tag t) (hU : U ∈ startTags source)
include h hU

/-- Each attribute is shown as much in quotes as before. -/
theorem Replaceable.any_quoted (hu : u ∈ U.attributes) :
    (((t.replacing.onTag U).raws (t.replacing.text source)).find? (·.name == (t.replacing.onAttribute u).name)).any
        RawAttribute.quoted =
      ((U.raws source).find? (·.name == u.name)).any RawAttribute.quoted := by
  by_cases hplace : u.start = t.start
  · obtain rfl := h.tag_eq hU hu hplace
    obtain rfl := h.eq_of_start hu hplace
    have hname : (u.replacing.onAttribute u).name = "lwc:if" := if_pos rfl
    rw [hname, h.find?_renamed, Option.any_map, ← h.quoted]
    rfl
  · have hname : (t.replacing.onAttribute u).name = u.name := if_neg hplace
    rw [hname, h.find?_kept hU hu hplace, Option.any_map]
    rfl

theorem Replaceable.slashIn (hu : u ∈ U.attributes) :
    Markup.slashIn ((t.replacing.onTag U).raws (t.replacing.text source)) (t.replacing.onAttribute u) =
      Markup.slashIn (U.raws source) u :=
  congrArg (Assembly.endsInSlash · u.value) (h.any_quoted hU hu)

theorem Replaceable.valueIn (hu : u ∈ U.attributes) :
    Markup.valueIn ((t.replacing.onTag U).raws (t.replacing.text source)) (t.replacing.onAttribute u) =
      Markup.valueIn (U.raws source) u := by
  rw [Markup.valueIn, Markup.valueIn, h.slashIn hU hu]
  rfl

/-- Each attribute of a tag becomes the same as before, but for the one that is replaced. -/
theorem Replaceable.attributeIn (hu : u ∈ U.attributes) (svg : Bool) (start start' : Nat) :
    Attribute.Renamed (if u.start == t.start then 1 else 0) (Markup.attributeIn source svg start (U.raws source) u)
      (Markup.attributeIn (t.replacing.text source) svg start' ((t.replacing.onTag U).raws (t.replacing.text source))
        (t.replacing.onAttribute u)) := by
  by_cases hplace : u.start = t.start
  · obtain rfl := h.tag_eq hU hu hplace
    obtain rfl := h.eq_of_start hu hplace
    have hname : (u.replacing.onAttribute u).name = "lwc:if" := if_pos rfl
    rw [if_pos (by simp)]
    refine .of_renamed ?_ ?_ (h.valueIn hU hu) (h.any_quoted hU hu)
    · simp only [Markup.attributeIn, h.name, spelling_directive.1, ite_self]
    · simp only [Markup.attributeIn, hname, spelling_directive.2, ite_self]
  · have hname : (t.replacing.onAttribute u).name = u.name := if_neg hplace
    have hvalue : (t.replacing.onAttribute u).value = u.value := rfl
    rw [if_neg (by simpa using hplace)]
    refine .of_kept ?_ (h.valueIn hU hu) ?_ (h.any_quoted hU hu)
    · simp only [Markup.attributeIn, hname]
    · simp only [Markup.attributeIn, hname, hvalue, h.find?_kept hU hu hplace, Option.map_map]
      rfl

/-- The element of each tag is the same as before, but for the attribute that is replaced. -/
theorem Replaceable.elementOf (svg : Bool) (start start' : Cursor) :
    (Assembly.elementOf source svg start U (U.raws source)).Renamed Element.IsOnce (t.replacing.countIn U)
      (Assembly.elementOf (t.replacing.text source) svg start' (t.replacing.onTag U)
        ((t.replacing.onTag U).raws (t.replacing.text source))) := by
  have htoken := (mem_startTags.1 hU).1
  have hmap := attributes_map source svg start.offset (U.raws source) (sound_of_mem_tokenize _ htoken).2
  have hmap' := attributes_map (t.replacing.text source) svg start'.offset
    ((t.replacing.onTag U).raws (t.replacing.text source))
    (apart_renamed (mem_startTags.1 h.startTag).1 h.mem h.fresh htoken)
  have hslash : (t.replacing.onTag U).attributes.any
      (Markup.slashIn ((t.replacing.onTag U).raws (t.replacing.text source))) =
        U.attributes.any (Markup.slashIn (U.raws source)) := by
    rw [Renaming.onTag, List.any_map, Bool.eq_iff_iff, List.any_eq_true, List.any_eq_true]
    exact exists_congr fun u => and_congr_right fun hu => by rw [← h.slashIn hU hu]; rfl
  refine ⟨rfl, ?_, ?_, fun hcount a ha => ?_⟩
  · simp only [Assembly.elementOf, hmap, hmap', hslash]
    rfl
  · simp only [Assembly.elementOf, hmap, hmap']
    rw [show (t.replacing.onTag U).attributes = U.attributes.map t.replacing.onAttribute from rfl, List.map_map]
    exact .map_countP fun u hu => h.attributeIn hU hu svg start.offset start'.offset
  · obtain ⟨u, hu, hplace⟩ := List.countP_pos_iff.1 (Nat.pos_of_ne_zero hcount)
    obtain rfl := h.tag_eq hU hu (beq_iff_eq.1 hplace)
    simp only [Assembly.elementOf, hmap] at ha
    obtain ⟨v, hv, rfl⟩ := List.mem_map.1 ha
    exact spelled_ne svg (h.once v hv) (by decide)

end Replaceable

end Elements

/-! ## Readings side by side -/

/-- An open element and what stands in it so far, with `k` attributes renamed. -/
inductive OpenElement.Renamed (allowed : Element → Prop) : Nat → OpenElement → OpenElement → Prop where
  | mk {j k : Nat} {e e' : Element} {children children' : List Node} (tag : e.Renamed allowed j e')
      (content : NodesRenamed allowed k children children') : Renamed allowed (j + k) ⟨e, children⟩ ⟨e', children'⟩

namespace Assembly

/-- The same has been read, places aside, with `k` attributes renamed. -/
structure Renamed (allowed : Element → Prop) (k : Nat) (a a' : Assembly) : Prop where
  nodes : ∃ i j, Counted (OpenElement.Renamed allowed) i a.opened a'.opened ∧ NodesRenamed allowed j a.roots a'.roots ∧
    i + j = k
  pending : a'.pending.map Prod.fst = a.pending.map Prod.fst

variable {allowed : Element → Prop} {j k : Nat} {a a' : Assembly} {source source' : List Char}

theorem renamed_initial : (initial source).Renamed allowed 0 (initial source') :=
  ⟨⟨0, 0, .nil, .nil, rfl⟩, rfl⟩

theorem Renamed.withCursor (h : a.Renamed allowed k a') (cursor cursor' : Cursor) :
    ({ a with cursor } : Assembly).Renamed allowed k { a' with cursor := cursor' } :=
  ⟨h.nodes, h.pending⟩

theorem Renamed.inSvg (h : a.Renamed allowed k a') : a'.inSvg = a.inSvg := by
  obtain ⟨i, j, opened, -, -⟩ := h.nodes
  unfold Assembly.inSvg
  generalize a.opened = os, a'.opened = os' at opened
  induction opened with
  | nil => rfl
  | cons head tail ih =>
    obtain ⟨tag, content⟩ := head
    rw [List.any_cons, List.any_cons, ih, tag.tag]

theorem Renamed.attach (h : a.Renamed allowed k a') {n n' : Node} (hn : n.Renamed allowed j n') :
    (a.attach n).Renamed allowed (k + j) (a'.attach n') := by
  obtain ⟨i, l, opened, roots, hcount⟩ := h.nodes
  unfold Assembly.attach
  generalize a.opened = os, a'.opened = os' at opened
  cases opened with
  | nil => exact ⟨⟨0, j + l, .nil, .cons hn roots, by omega⟩, h.pending⟩
  | @cons _ m _ _ _ _ head tail =>
    obtain ⟨tag, content⟩ := head
    exact ⟨⟨_, l, .cons (.mk tag (.cons hn content)) tail, roots, by omega⟩, h.pending⟩

theorem Renamed.flush (h : a.Renamed allowed k a') : a.flush.Renamed allowed k a'.flush := by
  have hpending := h.pending
  unfold Assembly.flush
  rcases hread : a.pending with _ | ⟨text, position⟩ <;> rcases hread' : a'.pending with _ | ⟨text', position'⟩ <;>
    rw [hread, hread'] at hpending
  case none.none => exact h
  case some.some =>
    obtain rfl := Option.some.inj hpending
    have hrest : Renamed allowed k { a with pending := none } { a' with pending := none } := ⟨h.nodes, rfl⟩
    exact hrest.attach (.text _ _ _)
  all_goals cases hpending

theorem Renamed.enter (h : a.Renamed allowed k a') (name : String) {e e' : Element} (he : e.Renamed allowed j e') :
    (a.enter name e).Renamed allowed (k + j) (a'.enter name e') := by
  unfold Assembly.enter
  rw [he.selfClosing]
  split
  · exact h.attach (.element (k := 0) he .nil)
  · obtain ⟨i, l, opened, roots, hcount⟩ := h.nodes
    exact ⟨⟨_, l, .cons (.mk he .nil) opened, roots, by omega⟩, h.pending⟩

theorem Renamed.character (h : a.Renamed allowed k a') (c : Char) :
    (a.character source c).Renamed allowed k (a'.character source' c) := by
  have hpending := h.pending
  unfold Assembly.character
  rcases hread : a.pending with _ | ⟨text, position⟩ <;> rcases hread' : a'.pending with _ | ⟨text', position'⟩ <;>
    rw [hread, hread'] at hpending
  case none.none => exact ⟨h.nodes, rfl⟩
  case some.some =>
    obtain rfl := Option.some.inj hpending
    exact ⟨h.nodes, rfl⟩
  all_goals cases hpending

end Assembly

/-- How many attributes of the start tags among some tokens are replaced. -/
def Renaming.countOf (r : Renaming) (tokens : List Token) : Nat :=
  ((tokens.filterMap Token.startTag?).flatMap Tag.attributes).countP (·.start == r.place)

section Readings

variable {source : List Char} {tag : Tag} {t : TagAttribute} {a b a' : Assembly} {k : Nat} {token : Token}
  {tokens : List Token}

theorem Renaming.countOf_cons (r : Renaming) (token : Token) (tokens : List Token) :
    r.countOf (token :: tokens) = r.countOf [token] + r.countOf tokens := by
  unfold countOf
  rw [← List.singleton_append, List.filterMap_append, List.flatMap_append, List.countP_append]

theorem Renaming.countOf_eq_zero (r : Renaming) (h : token.startTag? = none) : r.countOf [token] = 0 := by
  simp [countOf, h]

theorem Renaming.countOf_startTag (r : Renaming) {U : Tag} (h : token.startTag? = some U) :
    r.countOf [token] = r.countIn U := by
  simp [countOf, countIn, h]

variable (hreplaceable : Replaceable source tag t)
include hreplaceable

/-- A token that is taken in the one reading is taken in the other one. -/
theorem Replaceable.takes (h : a.Renamed Element.IsOnce k a') (htoken : token ∈ (tokenize source).tokens)
    (hfinds : ∀ U, token.startTag? = some U → FindsRaws source (a.flush, U))
    (hfinds' : ∀ U, (t.replacing.onToken token).startTag? = some U →
      FindsRaws (t.replacing.text source) (a'.flush, U))
    (htakes : a.Takes source token b) :
    ∃ b', a'.Takes (t.replacing.text source) (t.replacing.onToken token) b' ∧
      b.Renamed Element.IsOnce (k + t.replacing.countOf [token]) b' := by
  have hflush := h.flush
  cases htakes with
  | character c => exact ⟨_, .character c, h.character c⟩
  | comment text => exact ⟨_, .comment text, (hflush.withCursor _ _).attach (.comment _ _ _)⟩
  | doctype => exact ⟨_, .doctype, h.withCursor _ _⟩
  | @opening U raws hstart hscanned =>
    have hopening : (Token.tag U).startTag? = some U := by simp [Token.startTag?, hstart]
    have hopening' : (t.replacing.onToken (.tag U)).startTag? = some (t.replacing.onTag U) :=
      if_neg (by simp [Renaming.onTag, hstart])
    have hfound := hfinds U hopening
    have hfound' := hfinds' _ hopening'
    simp only [FindsRaws, Assembly.tagPlace_flush] at hfound hfound'
    obtain rfl : raws = U.raws source := Option.some.inj (hscanned.symm.trans hfound)
    refine ⟨_, .opening hstart hfound', ?_⟩
    rw [t.replacing.countOf_startTag hopening]
    refine (hflush.withCursor _ _).enter _ ?_
    rw [hflush.inSvg]
    exact hreplaceable.elementOf (mem_startTags.2 ⟨htoken, hstart⟩) _ _ _
  | @closing U innermost outer hstop hcontent hopened hname =>
    obtain ⟨i, j, hnodes, roots, hcount⟩ := hflush.nodes
    rw [hopened] at hnodes
    generalize hopened' : a'.flush.opened = opened at hnodes
    cases hnodes with
    | @cons _ l _ _ _ outer' head tail =>
      obtain @⟨m, n, _, _, _, _, htag, content⟩ := head
      refine ⟨_, .closing hstop hcontent hopened' (by rw [htag.tag]; exact hname), ?_⟩
      rw [t.replacing.countOf_eq_zero (by simp [Token.startTag?, hstop])]
      have hcount : l + j + (m + n) = k + 0 := by omega
      have houter : Assembly.Renamed Element.IsOnce (l + j) { a.flush with opened := outer }
          { a'.flush with opened := outer' } := ⟨⟨l, j, tail, roots, rfl⟩, hflush.pending⟩
      exact hcount ▸ (houter.withCursor _ _).attach (.element htag content.reverse)

/-- All tokens that are taken in the one reading are taken in the other one. -/
theorem Replaceable.foldlM (h : a.Renamed Element.IsOnce k a') (htokens : ∀ token ∈ tokens, token ∈ (tokenize source).tokens)
    (hfinds : ∀ call ∈ startCallsFrom source a tokens, FindsRaws source call)
    (hfinds' : ∀ call ∈ startCallsFrom (t.replacing.text source) a' (tokens.map t.replacing.onToken),
      FindsRaws (t.replacing.text source) call)
    (hrun : tokens.foldlM (Assembly.step source) a = .ok b) :
    ∃ b', (tokens.map t.replacing.onToken).foldlM (Assembly.step (t.replacing.text source)) a' = .ok b' ∧
      b.Renamed Element.IsOnce (k + t.replacing.countOf tokens) b' := by
  induction tokens generalizing a a' k with
  | nil =>
    obtain rfl := Except.ok.inj hrun
    exact ⟨a', rfl, h⟩
  | cons token tokens ih =>
    obtain ⟨hhere, hlater⟩ := List.forall_mem_cons.1 htokens
    rw [List.foldlM_cons] at hrun
    rw [List.map_cons, startCallsFrom] at hfinds'
    rw [startCallsFrom] at hfinds
    obtain ⟨hfirst, hrest⟩ := List.forall_mem_append.1 hfinds
    obtain ⟨hfirst', hrest'⟩ := List.forall_mem_append.1 hfinds'
    cases hstep : a.step source token with
    | error e =>
      rw [hstep] at hrun
      cases hrun
    | ok a₁ =>
      obtain ⟨a₁', htakes, hsame⟩ := hreplaceable.takes h hhere (fun U hU => hfirst _ (by simp [hU]))
        (fun U hU => hfirst' _ (by simp [hU])) (Assembly.step_eq_ok_iff.1 hstep)
      have hstep' := Assembly.step_eq_ok_iff.2 htakes
      rw [hstep] at hrun hrest
      rw [hstep'] at hrest'
      obtain ⟨b', hrun', hread⟩ := ih hsame hlater hrest hrest' hrun
      rw [t.replacing.countOf_cons, ← Nat.add_assoc, List.map_cons, List.foldlM_cons, hstep']
      exact ⟨b', hrun', hread⟩

end Readings

/-! ## Documents -/

/-- The attributes of a source start at different places. -/
theorem pairwise_starts (source : List Char) :
    ((startTags source).flatMap Tag.attributes).Pairwise fun u v => u.start ≠ v.start := by
  have hbetween : ∀ U ∈ startTags source, (∀ u ∈ U.attributes, U.start ≤ u.start ∧ u.start < U.stop) ∧
      U.attributes.Pairwise fun u v => u.start < v.start := fun U hU => attributes_between (mem_startTags.1 hU).1
  have happart : (startTags source).Pairwise fun U V => U.stop ≤ V.start ∨ V.stop ≤ U.start := by
    refine (pairwise_tokenize source).filterMap _ fun x y happart U hU V hV => ?_
    exact happart U (Token.startTag?_eq_some hU).1 V (Token.startTag?_eq_some hV).1
  refine List.pairwise_flatMap.2 ⟨fun U hU => (hbetween U hU).2.imp Nat.ne_of_lt, ?_⟩
  refine happart.imp_of_mem fun {U V} hU hV hcases u hu v hv => ?_
  have := (hbetween U hU).1 u hu
  have := (hbetween V hV).1 v hv
  omega

theorem countOf_tokenize {source : List Char} {tag : Tag} {t : TagAttribute} (htag : tag ∈ startTags source)
    (ht : t ∈ tag.attributes) : t.replacing.countOf (tokenize source).tokens = 1 := by
  have hnodup : (((startTags source).flatMap Tag.attributes).map TagAttribute.start).Nodup :=
    List.pairwise_map.2 (pairwise_starts source)
  have hmem : t.start ∈ ((startTags source).flatMap Tag.attributes).map TagAttribute.start :=
    List.mem_map_of_mem (List.mem_flatMap.2 ⟨tag, htag, ht⟩)
  rw [← List.count_eq_one_of_mem hnodup hmem, List.count, List.countP_map]
  rfl

/-- Where `lwc:if` is written in place of an `if:true`, the document differs in that attribute only. -/
theorem parse_renamed {source : List Char} {document : List Node} {tag : Tag} {t : TagAttribute}
    (h : parse source = .ok document) (hquotes : ∀ x ∈ readings source, x.isNameQuote = false)
    (hreplaceable : Replaceable source tag t) :
    ∃ document', parse (t.replacing.text source) = .ok document' ∧ NodesRenamed Element.IsOnce 1 document document' := by
  obtain ⟨hfault, a, hrun, hopened, rfl⟩ := parse_eq_ok_iff.1 h
  obtain ⟨htokens, hquotes'⟩ := hreplaceable.tokenize_text
  have hfinds' : ∀ call ∈ startCallsFrom (t.replacing.text source) (.initial (t.replacing.text source))
      ((tokenize source).tokens.map t.replacing.onToken), FindsRaws (t.replacing.text source) call := by
    intro call hcall
    refine startCalls_findsRaws (hquotes' hquotes) ?_
    rw [startCalls, htokens]
    exact hcall
  obtain ⟨a', hrun', hread⟩ := hreplaceable.foldlM Assembly.renamed_initial (fun _ => id)
    (fun call hcall => startCalls_findsRaws hquotes hcall) hfinds' hrun
  rw [countOf_tokenize hreplaceable.startTag hreplaceable.mem] at hread
  obtain ⟨i, j, hnodes, hroots, hcount⟩ := hread.flush.nodes
  rw [hopened] at hnodes
  generalize hopened' : a'.flush.opened = opened at hnodes
  cases hnodes
  refine ⟨_, parse_eq_ok_iff.2 ⟨?_, a', ?_, hopened', rfl⟩, ?_⟩
  · rw [htokens]
    exact hfault
  · rw [htokens]
    exact hrun'
  · obtain rfl : j = 1 := by omega
    exact hroots.reverse

end TemplateCompiler.Markup

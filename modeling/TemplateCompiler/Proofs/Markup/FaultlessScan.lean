import TemplateCompiler.Proofs.Markup.TagSteps
/-!
# Scans without a fault

A scan without a fault reads its text to the end (`scan_induction`), and the front of a text whatever follows
(`exists_crosses`). Tags do not overlap (`tags_apart`). What a scan has read of a
tag is part of the tag that it hands out next (`exists_tag`).
-/

namespace TemplateCompiler.Markup

open TemplateCompiler.Text

variable {state next : State} {pos size : Nat} {c : Char} {rest cs : List Char} {tokens : List Token} {tag : Tag}

/-! ## Scans by their steps -/

theorem scanFrom_go (hallowed : isForbiddenCode (readAs c).toNat = false)
    (h : state.step pos (readAs c) rest = .go next tokens size) :
    scanFrom state pos (c :: rest) = .after tokens
      (scanFrom next (pos + byteLength (c :: rest.take (takenWith c rest size))) (rest.drop (takenWith c rest size))) := by
  conv => lhs; unfold scanFrom
  unfold readAs at hallowed h
  simp only [hallowed, h]
  rfl

theorem readingsFrom_go (hallowed : isForbiddenCode (readAs c).toNat = false)
    (h : state.step pos (readAs c) rest = .go next tokens size) :
    readingsFrom state pos (c :: rest) = ⟨state, pos, readAs c⟩ ::
      readingsFrom next (pos + byteLength (c :: rest.take (takenWith c rest size)))
        (rest.drop (takenWith c rest size)) := by
  conv => lhs; unfold readingsFrom
  unfold readAs at hallowed h
  simp only [hallowed, h]
  rfl

/-- A scan without a fault is at the end, or goes on. -/
theorem scanFrom_faultless (h : (scanFrom state pos cs).fault = none) :
    (cs = [] ∧ state.openAtEnd = none) ∨ ∃ c rest next tokens size, cs = c :: rest ∧
      isForbiddenCode (readAs c).toNat = false ∧ state.step pos (readAs c) rest = .go next tokens size := by
  cases cs with
  | nil =>
    unfold scanFrom at h
    exact .inl ⟨rfl, Option.map_eq_none_iff.1 h⟩
  | cons c rest =>
    by_cases hforbidden : isForbiddenCode (readAs c).toNat = true
    · unfold scanFrom at h
      unfold readAs at hforbidden
      simp [hforbidden] at h
    · cases hstep : state.step pos (readAs c) rest with
      | fault fault =>
        unfold scanFrom at h
        unfold readAs at hforbidden hstep
        simp [hforbidden, hstep] at h
      | go next tokens size => exact .inr ⟨c, rest, next, tokens, size, rfl, by simpa using hforbidden, hstep⟩

/-- What holds at the end, and before each step if it does behind it, holds of a scan without a fault. -/
theorem scan_induction {motive : State → Nat → List Char → Prop}
    (done : ∀ {state pos}, state.openAtEnd = none → motive state pos [])
    (step : ∀ {state pos c rest next tokens size}, isForbiddenCode (readAs c).toNat = false →
      state.step pos (readAs c) rest = .go next tokens size →
      (scanFrom next (pos + byteLength (c :: rest.take (takenWith c rest size)))
        (rest.drop (takenWith c rest size))).fault = none →
      motive next (pos + byteLength (c :: rest.take (takenWith c rest size))) (rest.drop (takenWith c rest size)) →
      motive state pos (c :: rest))
    (h : (scanFrom state pos cs).fault = none) : motive state pos cs := by
  induction hn : cs.length using Nat.strongRecOn generalizing state pos cs with
  | _ n ih =>
    rcases scanFrom_faultless h with ⟨rfl, hend⟩ | ⟨c, rest, next, tokens, size, rfl, hallowed, hstep⟩
    · exact done hend
    · rw [scanFrom_go hallowed hstep] at h
      refine step hallowed hstep h (ih _ ?_ h rfl)
      simp only [List.length_drop, List.length_cons] at hn ⊢
      omega

/-! ## Steps in a tag and outside of it -/

/-- What tells an attribute from others: its name and its place. -/
def TagAttribute.mark (a : TagAttribute) : String × Nat :=
  (a.name, a.start)

/-- The names and places of the attributes of a tag. -/
def Tag.marks (tag : Tag) : List (String × Nat) :=
  tag.attributes.map TagAttribute.mark

theorem marks_mapNewest (tag : Tag) {f : TagAttribute → TagAttribute} (hf : ∀ a, (f a).mark = a.mark) :
    (tag.mapNewest f).marks = tag.marks := by
  unfold Tag.mapNewest
  split
  · rename_i h
    simp [Tag.marks, h, hf]
  · rfl

/-- A step that reads `c` at the byte `pos` in the tag `tag`. -/
inductive TagStep (pos : Nat) (c : Char) (tag : Tag) : Part → State → List Token → Prop where
  | goOn {part : Part} {edit : Edit} {behind : Part} (follows : Move.FollowsFrom part c (.goOn edit behind)) :
    TagStep pos c tag part (behind.state (edit.apply tag)) []
  | start {part : Part} (d : Char) (between : part = .beforeAttributeName ∨ part = .afterAttributeName)
      (apart : tag.repeatsAttribute = false) :
    TagStep pos c tag part (.attributeName { tag with
      attributes := ⟨d.toLower.toString, "", pos, false, false⟩ :: tag.attributes }) []
  | finish {part : Part} (selfClosing : Bool) (apart : tag.repeatsAttribute = false) :
    TagStep pos c tag part .data [.tag { tag with
      attributes := tag.attributes.reverse, selfClosing := tag.selfClosing || selfClosing, stop := pos + 1 }]

theorem exists_tagStep (htag : state.tag? = some tag) (h : state.step pos c rest = .go next tokens size) :
    ∃ part, state = part.state tag ∧ TagStep pos c tag part next tokens := by
  obtain ⟨part, rfl⟩ := exists_part htag
  obtain ⟨m, hfollows, hrun⟩ := part.exists_move h
  rw [hrun] at h
  refine ⟨part, rfl, ?_⟩
  cases m with
  | goOn edit behind =>
    obtain ⟨rfl, rfl, -⟩ := Step.go.inj h
    exact .goOn hfollows
  | start c =>
    simp only [Move.run, startAttribute] at h
    split_ifs at h with hrepeats
    obtain ⟨rfl, rfl, -⟩ := to_eq_go.1 h
    exact .start c hfollows (by simpa using hrepeats)
  | finish selfClosing =>
    simp only [Move.run, endTag] at h
    split_ifs at h with hrepeats
    obtain ⟨rfl, rfl, -⟩ := Step.go.inj h
    exact .finish selfClosing (by simpa [Tag.repeatsAttribute] using hrepeats)

/-- A step outside of tags hands out none, and one that it starts has no attributes yet. -/
theorem step_outside (htag : state.tag? = none) (h : state.step pos c rest = .go next tokens size) :
    (∀ t, next.tag? = some t → t.attributes = [] ∧ t.start ≤ pos ∧ t.stop = 0) ∧ ∀ t, .tag t ∉ tokens := by
  refine ⟨fun t ht => ?_, (floor_le_of_noTag htag (Nat.le_refl 1) h).2.2⟩
  cases state with
  | data => grind [State.step, dataStep, Step.to, State.tag?]
  | tagOpen => grind [State.step, tagOpenStep, Step.to, State.tag?]
  | endTagOpen => grind [State.step, endTagOpenStep, Step.to, State.tag?]
  | doctypeIdentifier quoting identifier => grind [State.step, doctypeIdentifierStep, Step.to, State.tag?]
  | afterDoctypeIdentifier identifier => cases identifier <;> grind [State.step, Step.to, State.tag?]
  | _ =>
    first
    | simp [State.tag?] at htag; done
    | grind [State.step, commentStep, commentStartStep, commentStartDashStep, commentEndDashStep, commentEndStep,
      commentEndBangStep, startIdentifier, Step.to, State.tag?]

/-! ## Where attributes start -/

theorem starts_mapNewest (tag : Tag) {f : TagAttribute → TagAttribute} (hf : ∀ a, (f a).start = a.start) :
    (tag.mapNewest f).attributes.map TagAttribute.start = tag.attributes.map TagAttribute.start := by
  unfold Tag.mapNewest
  split
  · rename_i h
    simp [h, hf]
  · rfl

theorem mapNewest_stop (tag : Tag) (f : TagAttribute → TagAttribute) : (tag.mapNewest f).stop = tag.stop := by
  unfold Tag.mapNewest
  split <;> rfl

namespace Edit

theorem starts_apply (edit : Edit) (tag : Tag) :
    (edit.apply tag).attributes.map TagAttribute.start = tag.attributes.map TagAttribute.start := by
  cases edit <;> simp [apply, Tag.pushName, Tag.openValue, Tag.pushValue, starts_mapNewest]

theorem apply_start (edit : Edit) (tag : Tag) : (edit.apply tag).start = tag.start := by
  cases edit <;> simp [apply, Tag.pushName, Tag.openValue, Tag.pushValue, mapNewest_start]

theorem apply_stop (edit : Edit) (tag : Tag) : (edit.apply tag).stop = tag.stop := by
  cases edit <;> simp [apply, Tag.pushName, Tag.openValue, Tag.pushValue, mapNewest_stop]

end Edit

/-- The attributes of the tag start where `P` holds. -/
def Tag.StartsIn (P : Nat → Prop) (tag : Tag) : Prop :=
  ∀ a ∈ tag.attributes, P a.start

theorem startsIn_iff {P : Nat → Prop} : tag.StartsIn P ↔ ∀ n ∈ tag.attributes.map TagAttribute.start, P n :=
  List.forall_mem_map.symm

/-- The attributes of the tag that a scan stands in start where `P` holds. -/
def State.StartsIn (P : Nat → Prop) (state : State) : Prop :=
  ∀ t, state.tag? = some t → t.StartsIn P

/-- The attributes of some tags start where `P` holds. -/
def AllStartIn (P : Nat → Prop) (tokens : List Token) : Prop :=
  ∀ t, .tag t ∈ tokens → t.StartsIn P

section StartsIn

variable {P : Nat → Prop}

theorem State.StartsIn.goOn {part behind : Part} {edit : Edit} (h : (part.state tag).StartsIn P) :
    (behind.state (edit.apply tag)).StartsIn P ∧ AllStartIn P [] := by
  refine ⟨fun t ht => ?_, nofun⟩
  obtain rfl := Option.some.inj ((Part.tag?_state _ _).symm.trans ht)
  rw [startsIn_iff, Edit.starts_apply, ← startsIn_iff]
  exact h tag (Part.tag?_state _ _)

theorem State.StartsIn.finish {part : Part} {selfClosing : Bool} (h : (part.state tag).StartsIn P) :
    State.data.StartsIn P ∧ AllStartIn P [.tag { tag with
      attributes := tag.attributes.reverse, selfClosing := selfClosing, stop := pos + 1 }] := by
  refine ⟨nofun, fun t ht => ?_⟩
  obtain rfl : t = _ := by simpa using ht
  exact fun a ha => h tag (Part.tag?_state _ _) a (List.mem_reverse.1 ha)

theorem State.StartsIn.step (hstate : state.StartsIn P) (hpos : P pos)
    (h : state.step pos c rest = .go next tokens size) : next.StartsIn P ∧ AllStartIn P tokens := by
  cases htag : state.tag? with
  | none =>
    obtain ⟨hnext, hnone⟩ := step_outside htag h
    refine ⟨fun t ht a ha => ?_, fun t ht => absurd ht (hnone t)⟩
    rw [(hnext t ht).1] at ha
    cases ha
  | some tag =>
    have hstarts := hstate tag htag
    obtain ⟨part, rfl, hstep⟩ := exists_tagStep htag h
    cases hstep with
    | goOn follows => exact hstate.goOn
    | start d between apart =>
      refine ⟨fun t ht => ?_, nofun⟩
      obtain rfl := Option.some.inj ht
      exact List.forall_mem_cons.2 ⟨hpos, hstarts⟩
    | finish selfClosing apart => exact hstate.finish

/-- The attributes that a scan reads start where it goes. -/
theorem allStartIn_scanFrom (hstate : state.StartsIn P) (hup : ∀ p, pos ≤ p → P p) :
    AllStartIn P (scanFrom state pos cs).tokens := by
  intro t ht
  refine forall_mem_scanFrom (R := fun next pos' _ => next.StartsIn P ∧ pos ≤ pos')
    (P := fun token => ∀ t : Tag, token = .tag t → t.StartsIn P) (fun hreached hsteps => ?_)
    ⟨hstate, Nat.le_refl _⟩ _ ht t rfl
  obtain ⟨hstarts, hle⟩ := hreached
  obtain ⟨rest, size, hstep, -, -, -⟩ := hsteps.step
  obtain ⟨hnext, htokens⟩ := hstarts.step (hup _ hle) hstep
  refine ⟨⟨hnext, by omega⟩, ?_⟩
  rintro _ htoken t rfl
  exact htokens t htoken

end StartsIn

/-- The tag stands before the byte `n`, as far as it has been read. -/
structure Tag.Before (tag : Tag) (n : Nat) : Prop where
  start : tag.start < n
  stop : tag.stop ≤ n
  attributes : tag.StartsIn (· < n)

theorem Tag.Before.mono {m n : Nat} (h : tag.Before m) (hle : m ≤ n) : tag.Before n :=
  ⟨Nat.lt_of_lt_of_le h.start hle, h.stop.trans hle, fun a ha => Nat.lt_of_lt_of_le (h.attributes a ha) hle⟩

/-- The tag that a scan stands in stands before the byte `n`. -/
def State.Before (n : Nat) (state : State) : Prop :=
  ∀ t, state.tag? = some t → t.Before n

theorem State.Before.step {n : Nat} (hstate : state.Before n) (hpos : pos < n)
    (h : state.step pos c rest = .go next tokens size) : next.Before n ∧ ∀ t, .tag t ∈ tokens → t.Before n := by
  obtain ⟨hstarts, htokens⟩ := State.StartsIn.step (P := (· < n)) (fun t ht => (hstate t ht).attributes) hpos h
  cases htag : state.tag? with
  | none =>
    obtain ⟨hnext, hnone⟩ := step_outside htag h
    refine ⟨fun t ht => ?_, fun t ht => absurd ht (hnone t)⟩
    obtain ⟨-, hstart, hstop⟩ := hnext t ht
    exact ⟨by omega, by omega, hstarts t ht⟩
  | some tag =>
    have hbefore := hstate tag htag
    obtain ⟨part, rfl, hstep⟩ := exists_tagStep htag h
    cases hstep with
    | goOn follows =>
      refine ⟨fun t ht => ?_, nofun⟩
      have hattributes := hstarts t ht
      obtain rfl := Option.some.inj ((Part.tag?_state _ _).symm.trans ht)
      exact ⟨by rw [Edit.apply_start]; exact hbefore.start, by rw [Edit.apply_stop]; exact hbefore.stop, hattributes⟩
    | start c between apart =>
      refine ⟨fun t ht => ?_, nofun⟩
      have hattributes := hstarts t ht
      obtain rfl := Option.some.inj ht
      exact ⟨hbefore.start, hbefore.stop, hattributes⟩
    | finish selfClosing apart =>
      refine ⟨nofun, fun t ht => ?_⟩
      have hattributes := htokens t ht
      obtain rfl : t = _ := by simpa using ht
      exact ⟨hbefore.start, hpos, hattributes⟩

/-- One of the tags ends before the other one starts. -/
def Token.Apart (token token' : Token) : Prop :=
  ∀ t, token = .tag t → ∀ u, token' = .tag u → t.stop ≤ u.start ∨ u.stop ≤ t.start

/-- A step that hands out a tag hands out nothing else, and leaves the tag. -/
theorem step_of_tag_mem {t : Tag} (ht : .tag t ∈ tokens) (h : state.step pos c rest = .go next tokens size) :
    next = .data ∧ tokens = [.tag t] := by
  cases htag : state.tag? with
  | none => exact absurd ht ((step_outside htag h).2 t)
  | some tag =>
    obtain ⟨part, rfl, hstep⟩ := exists_tagStep htag h
    cases hstep with
    | goOn follows => cases ht
    | start c between apart => cases ht
    | finish selfClosing apart =>
      obtain rfl : t = _ := by simpa using ht
      exact ⟨rfl, rfl⟩

/-- Tags do not overlap. -/
theorem tags_apart (hstate : state.Before pos) : (scanFrom state pos cs).tokens.Pairwise Token.Apart := by
  induction hn : cs.length using Nat.strongRecOn generalizing state pos cs with
  | _ n ih =>
    rcases scanFrom_cases state pos cs with hnone | ⟨c, eaten, back, next, tokens, hsteps⟩
    · rw [hnone]
      exact .nil
    obtain ⟨rest, size, hstep, heats, -, -⟩ := hsteps.step
    have hwidth := byteLength_pos heats.ne_nil
    obtain ⟨hnext, htokens⟩ := State.Before.step (n := pos + byteLength eaten)
      (fun t ht => (hstate t ht).mono (Nat.le_add_right _ _)) (by omega) hstep
    rw [hsteps.scan]
    refine List.pairwise_append.2 ⟨?_, ih _ (hn ▸ hsteps.length_lt) hnext rfl, ?_⟩
    · refine List.pairwise_iff_forall_sublist.2 fun {x y} hsub t hx => ?_
      subst hx
      obtain ⟨-, rfl⟩ := step_of_tag_mem (t := t) (hsub.subset (by simp)) hstep
      have := hsub.length_le
      simp at this
    · rintro _ htoken _ hlater t rfl u rfl
      obtain ⟨rfl, -⟩ := step_of_tag_mem htoken hstep
      exact .inl ((htokens t htoken).stop.trans (floor_le_start (Nat.le_refl _) hlater))

/-- The scan is about to start an attribute where one of a tag that it hands out starts. -/
theorem exists_starting (hbefore : state.Before pos) (h : (scanFrom state pos cs).fault = none) {T : Tag}
    (hT : .tag T ∈ (scanFrom state pos cs).tokens) {a : TagAttribute} (ha : a ∈ T.attributes) (hstart : a.start = pos) :
    ∃ tag, (state = .beforeAttributeName tag ∨ state = .afterAttributeName tag) ∧ tag.repeatsAttribute = false := by
  rcases scanFrom_faultless h with ⟨rfl, -⟩ | ⟨c, rest, next, tokens, size, rfl, hallowed, hstep⟩
  · unfold scanFrom at hT
    cases hT
  by_contra hnone
  have hstate : state.StartsIn (· ≠ pos) := fun t ht b hb => Nat.ne_of_lt ((hbefore t ht).attributes b hb)
  obtain ⟨hnext, htokens⟩ : next.StartsIn (· ≠ pos) ∧ AllStartIn (· ≠ pos) tokens := by
    cases htag : state.tag? with
    | none =>
      obtain ⟨hnext, htokens⟩ := step_outside htag hstep
      refine ⟨fun t ht b hb => ?_, fun t ht => absurd ht (htokens t)⟩
      rw [(hnext t ht).1] at hb
      cases hb
    | some tag =>
      obtain ⟨part, rfl, htagStep⟩ := exists_tagStep htag hstep
      cases htagStep with
      | goOn follows => exact hstate.goOn
      | start d between apart =>
        refine absurd ⟨tag, ?_, apart⟩ hnone
        rcases between with rfl | rfl
        · exact .inl rfl
        · exact .inr rfl
      | finish selfClosing apart => exact hstate.finish
  rw [scanFrom_go hallowed hstep] at hT
  rcases List.mem_append.1 hT with hT | hT
  · exact htokens T hT a ha hstart
  · have hwidth := byteLength_pos (List.cons_ne_nil c (rest.take (takenWith c rest size)))
    exact allStartIn_scanFrom hnext (fun p hp => by omega) T hT a ha hstart

/-! ## Tags that are handed out -/

/-- The names and places of the attributes that have been read to their ends. -/
def State.settled (state : State) (tag : Tag) : List (String × Nat) :=
  match state with
  | .attributeName _ => tag.marks.tail
  | _ => tag.marks

theorem marks_finish (tag : Tag) (selfClosing : Bool) (stop : Nat) :
    ({ tag with attributes := tag.attributes.reverse, selfClosing, stop } : Tag).marks = tag.marks.reverse :=
  List.map_reverse

theorem Part.settled_eq {part : Part} (h : part ≠ .attributeName) (tag t : Tag) : (part.state t).settled tag = tag.marks := by
  cases part <;> first | rfl | exact absurd rfl h

theorem settled_marked (state : State) (tag : Tag) : (state.settled tag).reverse <+: tag.marks.reverse := by
  unfold State.settled
  split
  · rw [List.reverse_prefix]
    exact List.tail_suffix _
  · exact List.prefix_rfl

theorem marks_pushValue (tag : Tag) (chars : List Char) : (tag.pushValue chars).marks = tag.marks :=
  marks_mapNewest tag fun _ => rfl

theorem marks_openValue (tag : Tag) (quoted : Bool) : (tag.openValue quoted).marks = tag.marks :=
  marks_mapNewest tag fun _ => rfl

theorem Edit.marks_apply {edit : Edit} (h : ∀ c, edit ≠ .pushName c) (tag : Tag) : (edit.apply tag).marks = tag.marks := by
  cases edit with
  | pushName c => exact absurd rfl (h c)
  | keep => rfl
  | pushTagName c => rfl
  | openValue quoted => exact marks_openValue tag quoted
  | pushValue chars => exact marks_pushValue tag chars
  | startValue chars => exact (marks_pushValue _ chars).trans (marks_openValue tag false)

theorem marks_tail_pushName (tag : Tag) (c : Char) : (tag.pushName c).marks.tail = tag.marks.tail := by
  unfold Tag.pushName Tag.mapNewest Tag.marks
  split
  · rename_i h
    simp [h]
  · rfl

/-- The next tag that a scan hands out has the attributes that have been read in the tag where the scan stands. -/
theorem exists_tag (htag : state.tag? = some tag) (h : (scanFrom state pos cs).fault = none) :
    ∃ T tokens, (scanFrom state pos cs).tokens = .tag T :: tokens ∧ (state.settled tag).reverse <+: T.marks := by
  refine scan_induction (motive := fun state pos cs => ∀ tag, state.tag? = some tag → ∃ T tokens,
    (scanFrom state pos cs).tokens = .tag T :: tokens ∧ (state.settled tag).reverse <+: T.marks) ?_ ?_ h tag htag
  · intro state pos hend tag htag
    obtain ⟨part, rfl⟩ := exists_part htag
    cases part <;> cases hend
  · intro state pos c rest next tokens size hallowed hstep _ ih tag htag
    rw [scanFrom_go hallowed hstep]
    obtain ⟨part, rfl, htagStep⟩ := exists_tagStep htag hstep
    cases htagStep with
    | @goOn edit behind follows =>
      obtain ⟨T, tokens, htokens, hmarked⟩ := ih _ (Part.tag?_state _ _)
      refine ⟨T, tokens, htokens, ?_⟩
      by_cases hname : ∃ c, edit = .pushName c
      · obtain ⟨c, rfl⟩ := hname
        obtain ⟨rfl, rfl, -⟩ := follows
        have hsettled : (Part.state .attributeName (tag.pushName c)).settled (tag.pushName c) =
            (Part.state .attributeName tag).settled tag := marks_tail_pushName tag c
        exact hsettled ▸ hmarked
      · have hnot : ∀ c, edit ≠ .pushName c := fun c hc => hname ⟨c, hc⟩
        have hbehind : behind ≠ .attributeName := by
          cases edit with
          | pushName c => exact absurd rfl (hnot c)
          | _ => exact follows
        rw [Part.settled_eq hbehind, Edit.marks_apply hnot] at hmarked
        exact (settled_marked _ tag).trans hmarked
    | start c between apart =>
      obtain ⟨T, tokens, htokens, hmarked⟩ := ih _ rfl
      refine ⟨T, tokens, htokens, ?_⟩
      rwa [Part.settled_eq (by rintro rfl; simp at between)]
    | finish selfClosing apart =>
      exact ⟨_, _, rfl, (settled_marked _ tag).trans ⟨[], by rw [List.append_nil, marks_finish]⟩⟩

/-! ## Fronts of texts -/

/-- Over `front` a scan from `state` reads `read`, hands out `tokens` and gets to `next`, whatever follows but for a line
feed. -/
structure Crosses (state : State) (pos : Nat) (front : List Char) (read : List Reading) (tokens : List Token)
    (next : State) : Prop where
  scan : ∀ rest, rest.head? ≠ some '\n' →
    scanFrom state pos (front ++ rest) = .after tokens (scanFrom next (pos + byteLength front) rest)
  readings : ∀ rest, rest.head? ≠ some '\n' →
    readingsFrom state pos (front ++ rest) = read ++ readingsFrom next (pos + byteLength front) rest
  before : state.Before pos → next.Before (pos + byteLength front) ∧
    ∀ t, .tag t ∈ tokens → t.Before (pos + byteLength front)

/-- A step over `c`, and with it over what it takes of the front, crosses that much. -/
theorem Crosses.cons {front : List Char} {mid : State} {read : List Reading} {tokens' : List Token} {taken : Nat}
    (hallowed : isForbiddenCode (readAs c).toNat = false) (hle : taken ≤ front.length)
    (hstep : ∀ rest, rest.head? ≠ some '\n' → ∃ size, state.step pos (readAs c) (front ++ rest) = .go mid tokens size ∧
      takenWith c (front ++ rest) size = taken)
    (h : Crosses mid (pos + byteLength (c :: front.take taken)) (front.drop taken) read tokens' next) :
    Crosses state pos (c :: front) (⟨state, pos, readAs c⟩ :: read) (tokens ++ tokens') next := by
  have hwidth : pos + byteLength (c :: front.take taken) + byteLength (front.drop taken) = pos + byteLength (c :: front) := by
    rw [Nat.add_assoc, ← byteLength_append, List.cons_append, List.take_append_drop]
  refine ⟨fun rest hrest => ?_, fun rest hrest => ?_, fun hbefore => ?_⟩
  · obtain ⟨size, hgo, htaken⟩ := hstep rest hrest
    rw [List.cons_append, scanFrom_go hallowed hgo, htaken, List.drop_append_of_le_length hle,
      List.take_append_of_le_length hle, h.scan rest hrest, hwidth]
    simp [Scan.after]
  · obtain ⟨size, hgo, htaken⟩ := hstep rest hrest
    rw [List.cons_append, readingsFrom_go hallowed hgo, htaken, List.drop_append_of_le_length hle,
      List.take_append_of_le_length hle, h.readings rest hrest, hwidth]
    rfl
  · obtain ⟨size, hgo, -⟩ := hstep [] nofun
    obtain ⟨hmid, htokens⟩ := State.Before.step (n := pos + byteLength (c :: front.take taken))
      (fun t ht => (hbefore t ht).mono (Nat.le_add_right _ _))
      (by have := byteLength_pos (List.cons_ne_nil c (front.take taken)); omega) hgo
    obtain ⟨hnext, htokens'⟩ := h.before hmid
    rw [hwidth] at hnext htokens'
    refine ⟨hnext, fun t ht => ?_⟩
    rcases List.mem_append.1 ht with ht | ht
    · exact (htokens t ht).mono (by omega)
    · exact htokens' t ht

/-- A scan without a fault crosses a front that ends in a blank. -/
theorem exists_crosses {front : List Char} (hblank : EndsBlank front) (hrest : rest.head? ≠ some '\n')
    (h : (scanFrom state pos (front ++ rest)).fault = none) :
    ∃ read tokens next, Crosses state pos front read tokens next := by
  induction hn : front.length using Nat.strongRecOn generalizing state pos front with
  | _ n ih =>
    cases front with
    | nil => exact ⟨[], [], state, fun _ _ => rfl, fun _ _ => rfl, fun h => ⟨h, by simp⟩⟩
    | cons c front =>
      rw [List.cons_append] at h
      obtain ⟨⟨⟩, -⟩ | ⟨c', behind, mid, tokens, size, hsource, hallowed, hstep⟩ := scanFrom_faultless h
      injection hsource with hc hbehind
      subst hc hbehind
      have htaken := hblank.taken_le hstep hrest
      rw [scanFrom_go hallowed hstep, List.drop_append_of_le_length htaken] at h
      obtain ⟨read, tokens', next, hcross⟩ := ih _
        (by simp only [List.length_drop, List.length_cons] at hn ⊢; omega) (hblank.of_cons.drop _) h rfl
      rw [List.take_append_of_le_length htaken] at hcross
      refine ⟨_, tokens ++ tokens', next, hcross.cons hallowed htaken fun rest' hrest' => ⟨size, ?_, ?_⟩⟩
      · rw [hblank.step_eq _ _ rest' rest, hstep]
      · unfold takenWith
        cases front <;> simp [hrest, hrest']

end TemplateCompiler.Markup

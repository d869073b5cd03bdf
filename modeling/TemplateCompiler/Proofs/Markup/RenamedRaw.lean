import TemplateCompiler.Proofs.Markup.KeptValues
import TemplateCompiler.Proofs.Markup.RenamedText
/-!
# Raw texts that differ in a name

The scan of the raw text of a tag finds the same attributes where one name is replaced, with the new name where it finds the
old one (`rawAttributes_renamed`). It may not find it, as it may take the name for a part of an earlier value.
-/

namespace TemplateCompiler.Markup

open TemplateCompiler.Text

/-! ## Raw values -/

/-- A text that a raw name is made of. -/
structure RawName (cs : List Char) : Prop where
  ne : cs ≠ []
  chars : ∀ c ∈ cs, isRawNameChar c = true

theorem isRawNameChar_not {c : Char} (h : isRawNameChar c = true) :
    isBlank c = false ∧ isQuote c = false ∧ c ≠ '>' ∧ c ≠ '=' := by
  simp only [isRawNameChar, Bool.not_eq_true', Bool.or_eq_false_iff, beq_eq_false_iff_ne] at h
  exact ⟨h.1.1.1.1.1, by simp [isQuote, h.1.1.1.1.2, h.1.1.1.2], h.1.1.2, h.2⟩

theorem RawName.head {name back : List Char} (h : RawName name) {c : Char} (hc : (name ++ back).head? = some c) :
    isRawNameChar c = true := by
  rw [List.head?_append_of_ne_nil _ h.ne] at hc
  exact h.chars c (List.mem_of_head? hc)

/-- In front of a name no blank comes in. -/
theorem RawName.head_not_blank {front name back : List Char} (h : RawName name)
    (hfront : ∀ c, front.head? = some c → isBlank c = false) :
    ∀ c, (front ++ (name ++ back)).head? = some c → isBlank c = false := by
  intro c hc
  cases front with
  | nil => exact (isRawNameChar_not (h.head hc)).1
  | cons d front => exact hfront c hc

theorem RawName.not_mem_of_isQuote {name : List Char} (h : RawName name) {c : Char} (hc : isQuote c = true) : c ∉ name := by
  intro hmem
  rw [(isRawNameChar_not (h.chars c hmem)).2.1] at hc
  cases hc

/-- The value at the front of a text: how many characters it takes, and whether it is quoted. -/
def valueSize? (value : List Char) : Option (Nat × Bool) :=
  match quotedSize? value with
  | some size => some (size, true)
  | none =>
    let size := (value.takeWhile isRawValueChar).length
    if size = 0 then none else some (size, false)

theorem rawValue?_valueSize? {before after value : List Char} (hbefore : ∀ c ∈ before, isBlank c = true)
    (hafter : ∀ c ∈ after, isBlank c = true) (hvalue : ∀ c, value.head? = some c → isBlank c = false) :
    rawValue? (before ++ '=' :: (after ++ value)) =
      (valueSize? value).map fun v => (before.length + 1 + after.length + v.1, v.2) := by
  rw [rawValue?_sign hbefore hafter hvalue, valueSize?]
  cases quotedSize? value with
  | some size => rfl
  | none => by_cases hsize : (value.takeWhile isRawValueChar).length = 0 <;> simp [hsize]

/-- A run ends at the first character that it has no place for, whatever follows. -/
theorem takeWhile_front {p : Char → Bool} {xs : List Char} {c : Char} (hc : c ∈ xs) (hp : p c = false) (ys : List Char) :
    (xs ++ ys).takeWhile p = xs.takeWhile p ∧ (xs.takeWhile p).length < xs.length := by
  have hne : (xs.takeWhile p).length ≠ xs.length := by
    intro heq
    have := of_mem_takeWhile ((List.IsPrefix.eq_of_length (List.takeWhile_prefix p) heq).symm ▸ hc)
    simp [hp] at this
  refine ⟨by rw [List.takeWhile_append, if_neg hne], ?_⟩
  have := (List.takeWhile_prefix p (l := xs)).length_le
  omega

theorem EndsBlank.exists_blank {cs : List Char} (h : EndsBlank cs) (hne : cs ≠ []) : ∃ c ∈ cs, isBlank c = true :=
  ⟨cs.getLast hne, List.getLast_mem hne, isBlank_of_isSourceBlank (h _ (List.getLast?_eq_some_getLast hne))⟩

/-- A value without quotes ends in front of a name, if it starts there. -/
theorem bareSize_front {front : List Char} (hblank : EndsBlank front) (hne : front ≠ []) (rest : List Char) :
    ((front ++ rest).takeWhile isRawValueChar).length = (front.takeWhile isRawValueChar).length := by
  obtain ⟨c, hc, hcblank⟩ := hblank.exists_blank hne
  rw [(takeWhile_front hc (by simp [isRawValueChar, hcblank]) rest).1]

/-- A name where a value is looked for is taken for a value without quotes, or for the front of one. -/
theorem valueSize?_name {name : List Char} (h : RawName name) (back : List Char) :
    valueSize? (name ++ back) = some (name.length + (back.takeWhile isRawValueChar).length, false) := by
  have hvalue : ∀ c ∈ name, isRawValueChar c = true := fun c hc => by
    obtain ⟨hblank, -, hbracket, -⟩ := isRawNameChar_not (h.chars c hc)
    simp [isRawValueChar, hblank, hbracket]
  have hpos := List.length_pos_iff.2 h.ne
  rw [valueSize?, quotedSize?_none fun c hc => (isRawNameChar_not (h.head hc)).2.1, List.takeWhile_append_of_pos hvalue]
  dsimp only
  rw [List.length_append, if_neg (by omega)]

/-- A value at the front of a text that a name follows does not depend on the name, or reaches over it. -/
theorem valueSize?_cases {front : List Char} (hblank : EndsBlank front) (back : List Char) :
    (∃ size, (∀ v ∈ size, v.1 ≤ front.length) ∧ ∀ name, RawName name → valueSize? (front ++ (name ++ back)) = size) ∨
      ∃ k quoted, k ≤ back.length ∧ ∀ name, RawName name →
        valueSize? (front ++ (name ++ back)) = some (front.length + (name.length + k), quoted) := by
  cases front with
  | nil =>
    refine .inr ⟨(back.takeWhile isRawValueChar).length, false, (List.takeWhile_prefix _).length_le, fun name hname => ?_⟩
    rw [List.nil_append, valueSize?_name hname, List.length_nil, Nat.zero_add]
  | cons e front =>
    -- a value without quotes, which a quote that is not closed starts too
    have hbare (hnone : ∀ name, RawName name → quotedSize? (e :: front ++ (name ++ back)) = none) :
        ∃ size, (∀ v ∈ size, v.1 ≤ (e :: front).length) ∧
          ∀ name, RawName name → valueSize? (e :: front ++ (name ++ back)) = size := by
      refine ⟨if ((e :: front).takeWhile isRawValueChar).length = 0 then none
        else some (((e :: front).takeWhile isRawValueChar).length, false), fun v hv => ?_, fun name hname => ?_⟩
      · split at hv
        · cases hv
        · obtain rfl := Option.some.inj hv
          exact (List.takeWhile_prefix _).length_le
      · rw [valueSize?, hnone name hname]
        dsimp only
        rw [bareSize_front hblank (List.cons_ne_nil e front)]
    by_cases he : isQuote e = true
    case neg => exact .inl (hbare fun name _ => quotedSize?_none (by simpa using he))
    have hquote : e = '"' ∨ e = '\'' := by simpa [isQuote] using he
    by_cases hfront : e ∈ front
    · obtain ⟨text, more, rfl, htext⟩ := List.eq_append_cons_of_mem hfront
      refine .inl ⟨some (text.length + 2, true), fun v hv => ?_, fun name hname => ?_⟩
      · obtain rfl := Option.some.inj hv
        simp only [List.length_cons, List.length_append]
        omega
      · rw [List.cons_append, List.append_assoc, List.cons_append, valueSize?, quotedSize?_closed hquote htext]
    by_cases hback : e ∈ back
    · obtain ⟨text, more, rfl, htext⟩ := List.eq_append_cons_of_mem hback
      refine .inr ⟨text.length + 1, true, by simp, fun name hname => ?_⟩
      have hinside : e ∉ front ++ (name ++ text) := by simp [hfront, hname.not_mem_of_isQuote he, htext]
      have hsplit : e :: front ++ (name ++ (text ++ e :: more)) = e :: ((front ++ (name ++ text)) ++ e :: more) := by simp
      rw [hsplit, valueSize?, quotedSize?_closed hquote hinside]
      simp only [List.length_cons, List.length_append, Option.some.injEq, Prod.mk.injEq, and_true]
      omega
    · refine .inl (hbare fun name hname => ?_)
      have hnone : e ∉ front ++ (name ++ back) := by simp [hfront, hname.not_mem_of_isQuote he, hback]
      exact quotedSize?_unclosed hnone

theorem rawSize_sign {before after value : List Char} (hbefore : ∀ c ∈ before, isBlank c = true)
    (hafter : ∀ c ∈ after, isBlank c = true) (hvalue : ∀ c, value.head? = some c → isBlank c = false) :
    rawSize (before ++ '=' :: (after ++ value)) =
      match valueSize? value with
      | some v => (before.length + 1 + after.length + v.1, true, v.2)
      | none => (0, false, false) := by
  rw [rawSize, rawValue?_valueSize? hbefore hafter hvalue]
  cases valueSize? value <;> rfl

/-- Without a sign there is no value. -/
theorem rawSize_unsigned {before front name back : List Char} (hbefore : ∀ c ∈ before, isBlank c = true)
    (hfront : ∀ c, front.head? = some c → isBlank c = false) (hsign : front.head? ≠ some '=') (hname : RawName name) :
    rawSize (before ++ front ++ (name ++ back)) = (0, false, false) := by
  refine rawSize_of_apart fun c hc => ?_
  rw [List.append_assoc, dropWhile_append_stop hbefore (hname.head_not_blank hfront)] at hc
  cases front with
  | nil => exact (isRawNameChar_not (hname.head hc)).2.2.2
  | cons d front =>
    rintro rfl
    exact hsign hc

/-- So does what the scan takes behind a name. -/
theorem rawSize_cases {front : List Char} (hblank : EndsBlank front) (back : List Char) :
    (∃ size, size.1 ≤ front.length ∧ ∀ name, RawName name → rawSize (front ++ (name ++ back)) = size) ∨
      ∃ k quoted, k ≤ back.length ∧ ∀ name, RawName name →
        rawSize (front ++ (name ++ back)) = (front.length + (name.length + k), true, quoted) := by
  have hsplit := (List.takeWhile_append_dropWhile (p := isBlank) (l := front)).symm
  have hbefore : ∀ c ∈ front.takeWhile isBlank, isBlank c = true := fun c => of_mem_takeWhile
  have hnot : ∀ c, (front.dropWhile isBlank).head? = some c → isBlank c = false := fun c => head?_dropWhile_not
  generalize front.takeWhile isBlank = before at hsplit hbefore
  generalize front.dropWhile isBlank = more at hsplit hnot
  subst hsplit
  by_cases hsign : more.head? = some '='
  case neg => exact .inl ⟨(0, false, false), Nat.zero_le _, fun name hname => rawSize_unsigned hbefore hnot hsign hname⟩
  obtain ⟨rest, rfl⟩ := List.head?_eq_some_iff.1 hsign
  have hsplit := (List.takeWhile_append_dropWhile (p := isBlank) (l := rest)).symm
  have hafter : ∀ c ∈ rest.takeWhile isBlank, isBlank c = true := fun c => of_mem_takeWhile
  have hvalue : ∀ c, (rest.dropWhile isBlank).head? = some c → isBlank c = false := fun c => head?_dropWhile_not
  generalize rest.takeWhile isBlank = after at hsplit hafter
  generalize rest.dropWhile isBlank = value at hsplit hvalue
  subst hsplit
  have hsize {name : List Char} (hname : RawName name) : rawSize (before ++ '=' :: (after ++ value) ++ (name ++ back)) =
      match valueSize? (value ++ (name ++ back)) with
      | some v => (before.length + 1 + after.length + v.1, true, v.2)
      | none => (0, false, false) := by
    rw [List.append_assoc, List.cons_append, List.append_assoc,
      rawSize_sign hbefore hafter (hname.head_not_blank hvalue)]
  have hblank : EndsBlank value := (hblank.of_append.of_cons).of_append
  rcases valueSize?_cases hblank back with ⟨size, hle, hcases⟩ | ⟨k, quoted, hle, hcases⟩
  · cases size with
    | none => exact .inl ⟨(0, false, false), Nat.zero_le _, fun name hname => by rw [hsize hname, hcases name hname]⟩
    | some v =>
      refine .inl ⟨(before.length + 1 + after.length + v.1, true, v.2), ?_,
        fun name hname => by rw [hsize hname, hcases name hname]⟩
      have := hle v rfl
      simp only [List.length_append, List.length_cons]
      omega
  · refine .inr ⟨k, quoted, hle, fun name hname => ?_⟩
    rw [hsize hname, hcases name hname]
    simp only [List.length_append, List.length_cons, Prod.mk.injEq, and_true]
    omega

/-! ## Raw attributes -/

/-- A raw attribute behind the replacement. -/
def Renaming.onRaw (r : Renaming) (raw : RawAttribute) : RawAttribute :=
  { raw with name := if raw.offset = r.place then r.name else raw.name, offset := r.move raw.offset }

theorem Renaming.onRaw_of_lt {r : Renaming} {raw : RawAttribute} (h : raw.offset < r.place) : r.onRaw raw = raw := by
  rw [onRaw, if_neg (Nat.ne_of_lt h), move_of_le (Nat.le_of_lt h)]

/-- What stands behind the name is found where it has moved. -/
theorem rawAttributes_moved {r : Renaming} (hsize : 0 < r.size) {offset : Nat} (hle : r.place + r.size ≤ offset)
    (cs : List Char) : rawAttributes (r.move offset) cs = (rawAttributes offset cs).map r.onRaw := by
  rw [rawAttributes_shift offset, rawAttributes_shift (r.move offset), List.map_map]
  refine List.map_congr_left fun raw _ => ?_
  have hmove : r.move (raw.offset + offset) = raw.offset + r.move offset := by
    rw [Nat.add_comm, Renaming.move_add hsize hle, Nat.add_comm]
  simp only [Function.comp, Renaming.onRaw, hmove]
  rw [if_neg (by omega)]

/-- The scan finds the same attributes where a name is replaced. -/
theorem rawAttributes_renamed {r : Renaming} {front name back : List Char} (hblank : EndsBlank front)
    (hold : RawName name) (hnew : RawName r.name.toList) (hlower : lowerName r.name = r.name)
    (hback : ∀ c, back.head? = some c → isRawNameChar c = false) {offset : Nat}
    (hplace : r.place = offset + byteLength front) (hsize : r.size = byteLength name) :
    rawAttributes offset (front ++ (r.name.toList ++ back)) =
      (rawAttributes offset (front ++ (name ++ back))).map r.onRaw := by
  have hpositive : 0 < r.size := by
    have := byteLength_pos hold.ne
    omega
  -- behind the name
  have hmoved (width : Nat) (cs : List Char) :
      rawAttributes (r.place + byteLength r.name.toList + width) cs =
        (rawAttributes (r.place + byteLength name + width) cs).map r.onRaw := by
    rw [← hsize, byteLength_toList, ← Renaming.move_stop hpositive, ← Renaming.move_add hpositive (Nat.le_refl _),
      rawAttributes_moved hpositive (Nat.le_add_right _ _)]
  induction hn : front.length using Nat.strongRecOn generalizing front offset with
  | _ n ih =>
  cases front with
  | nil =>
    have hplace : r.place = offset := by simpa using hplace
    have hname : String.ofList (r.name.toList.map Char.toLower) = r.name := hlower
    rw [List.nil_append, List.nil_append, rawAttributes_name hnew.ne hnew.chars hback, rawAttributes_name hold.ne hold.chars hback,
      List.map_cons, ← hplace, hmoved, hname]
    simp [Renaming.onRaw, Renaming.move_of_le]
  | cons c front =>
    by_cases hc : isRawNameChar c = true
    case neg =>
      have hc : isRawNameChar c = false := by simpa using hc
      rw [List.cons_append, List.cons_append, rawAttributes_cons_not hc, rawAttributes_cons_not hc]
      refine ih _ ?_ hblank.of_cons ?_ rfl
      · simp only [List.length_cons] at hn
        omega
      · rw [hplace, byteLength_cons, Nat.add_assoc]
    have hrun : ∀ d ∈ c :: front.takeWhile isRawNameChar, isRawNameChar d = true :=
      List.forall_mem_cons.2 ⟨hc, fun d hd => of_mem_takeWhile hd⟩
    have hsplit : c :: front = (c :: front.takeWhile isRawNameChar) ++ front.dropWhile isRawNameChar := by
      rw [List.cons_append, List.takeWhile_append_dropWhile]
    have hstop : ∀ d, (front.dropWhile isRawNameChar).head? = some d → isRawNameChar d = false := fun d => head?_dropWhile_not
    have hne : c :: front.takeWhile isRawNameChar ≠ [] := List.cons_ne_nil _ _
    generalize c :: front.takeWhile isRawNameChar = run at hrun hsplit hne
    generalize front.dropWhile isRawNameChar = behind at hsplit hstop
    rw [hsplit] at hblank hplace hn ⊢
    -- the front ends in a blank, and so behind the run
    have hbehind : behind ≠ [] := by
      rintro rfl
      obtain ⟨d, hd, hdblank⟩ := hblank.exists_blank (by simpa using hne)
      rw [List.append_nil] at hd
      simp [(isRawNameChar_not (hrun d hd)).1] at hdblank
    have htail {name : List Char} : ∀ d, (behind ++ (name ++ back)).head? = some d → isRawNameChar d = false := fun d hd => by
      rw [List.head?_append_of_ne_nil _ hbehind] at hd
      exact hstop d hd
    rw [List.append_assoc, List.append_assoc, rawAttributes_name hne hrun htail, rawAttributes_name hne hrun htail,
      List.map_cons]
    rw [byteLength_append] at hplace
    have hpositiveRun := byteLength_pos hne
    rcases rawSize_cases hblank.of_append back with ⟨size, hle, hsizes⟩ | ⟨k, quoted, hle, hsizes⟩
    · rw [hsizes _ hold, hsizes _ hnew, Renaming.onRaw_of_lt (by dsimp only; omega)]
      simp only [List.take_append_of_le_length hle, List.drop_append_of_le_length hle]
      rw [ih _ ?_ (hblank.of_append.drop _) ?_ rfl]
      · have := List.length_pos_iff.2 hne
        simp only [List.length_append, List.length_drop] at hn ⊢
        omega
      · have : byteLength behind = byteLength (behind.take size.1) + byteLength (behind.drop size.1) := by
          rw [← byteLength_append, List.take_append_drop]
        omega
    · rw [hsizes _ hold, hsizes _ hnew, Renaming.onRaw_of_lt (by dsimp only; omega)]
      have hwidth (name : List Char) : offset + byteLength run + byteLength (behind ++ (name ++ back.take k)) =
          r.place + byteLength name + byteLength (back.take k) := by
        simp only [byteLength_append]
        omega
      simp only [List.take_length_add_append, List.drop_length_add_append, hwidth, hmoved]

/-! ## Raw texts of tags -/

/-- What the raw text of a start tag, where it stands in the source, shows of its attributes. -/
def Tag.raws (source : List Char) (tag : Tag) : List RawAttribute :=
  let body := tag.start + 1 + tag.name.utf8ByteSize
  rawAttributes body ((slice? source body tag.stop).getD [])

theorem raws_eq {source before body rest : List Char} {tag : Tag} (hsource : source = before ++ (body ++ rest))
    (hstart : tag.start + 1 + tag.name.utf8ByteSize = byteLength before)
    (hstop : tag.stop = byteLength before + byteLength body) : tag.raws source = rawAttributes (byteLength before) body := by
  unfold Tag.raws
  dsimp only
  rw [hstart, hsource, slice?_append before body rest rfl hstop]
  rfl

theorem rawName_of {cs : List Char} (hne : cs ≠ []) (hname : ∀ c ∈ cs, isNameChar c = true)
    (hblank : ∀ c ∈ cs, isBlank c = false) : RawName cs := by
  refine ⟨hne, fun c hc => ?_⟩
  obtain ⟨-, hslash, hsign, hbracket, hdouble, hsingle, -⟩ := isNameChar_not (hname c hc)
  simp [isRawNameChar, hblank c hc, hslash, hsign, hbracket, hdouble, hsingle]

theorem not_isRawNameChar_of_endsName {c : Char} (h : endsName (readAs c) = true) : isRawNameChar c = false := by
  unfold readAs at h
  split at h
  · rename_i hreturn
    subst hreturn
    decide
  · simp only [endsName, Bool.or_eq_true, beq_iff_eq] at h
    rcases h with ((hblank | rfl) | rfl) | rfl
    · exact not_isRawNameChar_of_isBlank (isBlank_of_isSourceBlank (by simp [isSourceBlank, hblank]))
    all_goals decide

/-- Where the raw text of a start tag stands. -/
theorem exists_raws {source : List Char} {U : Tag} (hU : U ∈ startTags source) :
    ∃ before body rest, source = before ++ (body ++ rest) ∧ U.start + 1 + U.name.utf8ByteSize = byteLength before ∧
      U.stop = byteLength before + byteLength body := by
  obtain ⟨htoken, hclosing⟩ := mem_startTags.1 hU
  obtain ⟨front, s, rest, hsource, hcloses⟩ := tags_standIn htoken
  obtain ⟨before, hwhole, hbody, hstop, -⟩ := hcloses.behind_name hclosing hsource
  have hsize : U.name.utf8ByteSize = byteLength s.name := by
    rw [← byteLength_toList, ← hcloses.spells.name, byteLength_map_toLower]
  exact ⟨before, _, rest, hwhole, by rw [hsize, hbody], hstop⟩

section WrittenAt

variable {source : List Char} {tag : Tag} {t : TagAttribute} {before inside written behind rest : List Char}
  (h : WrittenAt source tag t before inside written behind rest)
include h

theorem WrittenAt.raws : tag.raws source = rawAttributes (byteLength before) (inside ++ (written ++ behind)) := by
  have hsource : source = before ++ (inside ++ (written ++ behind) ++ rest) := by simp [h.source]
  exact raws_eq hsource h.body (by simp [h.stop, h.start, Nat.add_assoc])

theorem WrittenAt.rawName (hne : t.name ≠ "") (hblank : ∀ c ∈ t.name.toList, isBlank c = false) : RawName written := by
  refine rawName_of ?_ h.chars fun c hc => ?_
  · rintro rfl
    exact hne (String.toList_eq_nil_iff.1 h.name.symm)
  · rw [← isBlank_toLower]
    exact hblank _ (h.name ▸ List.mem_map_of_mem hc)

theorem WrittenAt.not_isRawNameChar {c : Char} (hc : behind.head? = some c) : isRawNameChar c = false := by
  obtain ⟨d, cs, rfl, hd⟩ := h.ends
  obtain rfl := Option.some.inj hc
  exact not_isRawNameChar_of_endsName hd

/-- What the raw text shows in the place of an attribute has its name. -/
theorem WrittenAt.name_of_raw (hname : RawName written) {raw : RawAttribute} (hraw : raw ∈ tag.raws source)
    (hplace : raw.offset = t.start) : raw.name = t.name := by
  rw [h.raws] at hraw
  obtain ⟨front, back, hsplit, -, hoffset, hnamed⟩ := mem_rawAttributes hraw
  have hfront : byteLength front = byteLength inside := by
    have := h.start
    omega
  obtain ⟨-, rfl⟩ := append_inj_byteLength hsplit hfront.symm
  have htail : behind.takeWhile isRawNameChar = [] := by
    cases behind with
    | nil => rfl
    | cons c behind => rw [List.takeWhile_cons_of_neg (by simp [h.not_isRawNameChar rfl])]
  rw [hnamed, List.takeWhile_append_of_pos hname.chars, htail, List.append_nil, h.name, String.ofList_toList]

end WrittenAt

/-- What the raw text of a tag shows stands in the tag. -/
theorem raws_between {source : List Char} {U : Tag} (hU : U ∈ startTags source) {raw : RawAttribute}
    (hraw : raw ∈ U.raws source) : U.start < raw.offset ∧ raw.offset < U.stop := by
  obtain ⟨before, body, rest, hsource, hstart, hstop⟩ := exists_raws hU
  rw [raws_eq hsource hstart hstop] at hraw
  obtain ⟨front, back, hbody, hne, hoffset, -⟩ := mem_rawAttributes hraw
  have := byteLength_pos hne
  rw [hbody, byteLength_append] at hstop
  omega

section Raws

variable {source : List Char} {tag : Tag} {t : TagAttribute} {name : String} (hrenames : Renames source tag t name)
include hrenames

theorem Renames.size_pos : 0 < (t.renaming name).size := by
  have hname := ((sound_of_mem_tokenize _ (mem_startTags.1 hrenames.startTag).1).1.attributes t hrenames.mem).name
  obtain ⟨c, cs, hcs, -, -⟩ := exists_cons_of_isAttributeName hname
  have := byteLength_pos (List.cons_ne_nil c cs)
  rwa [← hcs, byteLength_toList] at this

theorem Renames.rawName {before inside written behind rest : List Char}
    (h : WrittenAt source tag t before inside written behind rest) : RawName written := by
  refine h.rawName ?_ hrenames.old
  intro hnone
  have : 0 < t.name.utf8ByteSize := hrenames.size_pos
  rw [hnone] at this
  exact Nat.lt_irrefl _ this

/-- The raw text of the tag itself. -/
theorem Renames.raws_self :
    ((t.renaming name).onTag tag).raws ((t.renaming name).text source) = (tag.raws source).map (t.renaming name).onRaw := by
  obtain ⟨before, inside, written, behind, rest, h⟩ := exists_writtenAt hrenames.startTag hrenames.mem
  have hpositive := hrenames.size_pos
  have hsize : (t.renaming name).size = byteLength written := h.size.symm
  have hplace : (t.renaming name).place = byteLength before + byteLength inside := h.start
  have hstart : (t.renaming name).move tag.start = tag.start := Renaming.move_of_le (Nat.le_of_lt h.start_lt)
  have hstop : (t.renaming name).move tag.stop =
      byteLength before + byteLength (inside ++ (name.toList ++ behind)) := by
    have hstop : tag.stop = (t.renaming name).place + (t.renaming name).size + byteLength behind := by
      rw [h.stop, hsize, Nat.add_assoc]
      rfl
    rw [hstop, Renaming.move_add hpositive (Nat.le_refl _), Renaming.move_stop hpositive, hplace]
    simp only [byteLength_append, byteLength_toList, TagAttribute.renaming, Nat.add_assoc]
  have hnew : RawName name.toList := by
    obtain ⟨c, cs, hcs, hc, hrest⟩ := exists_cons_of_isAttributeName hrenames.isName
    refine rawName_of (by simp [hcs]) (fun d hd => ?_) hrenames.new
    rw [hcs] at hd
    rcases List.mem_cons.1 hd with rfl | hd
    · exact hc.1
    · exact (hrest d hd).1
  have htext : (t.renaming name).text source = before ++ (inside ++ (name.toList ++ behind) ++ rest) := by simp [h.text]
  rw [h.raws, raws_eq htext (by rw [← h.body]; simp only [Renaming.onTag, hstart]) hstop]
  exact rawAttributes_renamed h.blank (hrenames.rawName h) hnew hrenames.small (fun c => h.not_isRawNameChar) hplace hsize

/-- The raw text of a tag in front of the name. -/
theorem Renames.raws_before {U : Tag} (hU : U ∈ startTags source) (hle : U.stop ≤ tag.start) :
    ((t.renaming name).onTag U).raws ((t.renaming name).text source) = (U.raws source).map (t.renaming name).onRaw := by
  obtain ⟨before, inside, written, behind, rest, h⟩ := exists_writtenAt hrenames.startTag hrenames.mem
  obtain ⟨front, body, back, hsource, hstart, hstop⟩ := exists_raws hU
  have hlt := h.start_lt
  have hplace : (t.renaming name).place = t.start := rfl
  obtain ⟨middle, hmiddle⟩ : ∃ middle, before ++ inside = (front ++ body) ++ middle := by
    have hsame : (front ++ body) ++ back = (before ++ inside) ++ (written ++ (behind ++ rest)) := by
      simp only [List.append_assoc, ← hsource, ← h.source]
    refine exists_eq_append hsame ?_
    rw [byteLength_append, byteLength_append, ← h.start]
    omega
  have htext : (t.renaming name).text source = front ++ (body ++ (middle ++ (name.toList ++ (behind ++ rest)))) := by
    rw [h.text, ← List.append_assoc before, hmiddle]
    simp
  rw [raws_eq hsource hstart hstop, raws_eq htext]
  · rw [List.map_congr_left fun raw hraw => ?_, List.map_id']
    obtain ⟨inner, outer, hbody, hne, hoffset, -⟩ := mem_rawAttributes hraw
    have hpos := byteLength_pos hne
    rw [hbody, byteLength_append] at hstop
    exact Renaming.onRaw_of_lt (by omega)
  · rw [← hstart]
    simp only [Renaming.onTag, Renaming.move_of_le (show U.start ≤ (t.renaming name).place by omega)]
  · rw [← hstop]
    exact Renaming.move_of_le (by omega)

/-- The raw text of a tag behind the one with the name. -/
theorem Renames.raws_behind {U : Tag} (hU : U ∈ startTags source) (hle : tag.stop ≤ U.start) :
    ((t.renaming name).onTag U).raws ((t.renaming name).text source) = (U.raws source).map (t.renaming name).onRaw := by
  obtain ⟨before, inside, written, behind, rest, h⟩ := exists_writtenAt hrenames.startTag hrenames.mem
  obtain ⟨front, body, back, hsource, hstart, hstop⟩ := exists_raws hU
  have hpositive := hrenames.size_pos
  have hsize : (t.renaming name).size = byteLength written := h.size.symm
  have hplace : (t.renaming name).place = t.start := rfl
  have hend : tag.stop = t.start + (byteLength written + byteLength behind) := h.stop
  obtain ⟨middle, hmiddle⟩ : ∃ middle, front = (before ++ (inside ++ (written ++ behind))) ++ middle := by
    have hsame : (before ++ (inside ++ (written ++ behind))) ++ rest = front ++ (body ++ back) := by
      simp only [List.append_assoc, ← hsource, ← h.source]
    refine exists_eq_append hsame ?_
    simp only [byteLength_append, ← hstart]
    have := h.start
    omega
  have hrest : rest = middle ++ (body ++ back) := by
    have := h.source.symm.trans hsource
    rw [hmiddle] at this
    simpa using this
  have htext : (t.renaming name).text source =
      (before ++ (inside ++ (name.toList ++ (behind ++ middle)))) ++ (body ++ back) := by
    rw [h.text, hrest]
    simp
  have hmove : (t.renaming name).move (byteLength front) =
      byteLength (before ++ (inside ++ (name.toList ++ (behind ++ middle)))) := by
    have hfront : byteLength front =
        (t.renaming name).place + (t.renaming name).size + (byteLength behind + byteLength middle) := by
      rw [hmiddle, hplace, hsize, h.start]
      simp only [byteLength_append]
      omega
    rw [hfront, Renaming.move_add hpositive (Nat.le_refl _), Renaming.move_stop hpositive, hplace, h.start]
    simp only [byteLength_append, byteLength_toList, TagAttribute.renaming, Nat.add_assoc]
  rw [raws_eq hsource hstart hstop, raws_eq htext]
  · rw [← hmove, rawAttributes_moved hpositive (by omega)]
  · rw [← hmove, ← hstart, Nat.add_assoc, Nat.add_assoc, Renaming.move_add hpositive (by omega)]
    rfl
  · rw [← hmove, ← Renaming.move_add hpositive (by omega), ← hstop]
    rfl

/-- The raw text of each start tag shows the same attributes where a name is replaced. -/
theorem Renames.raws_onTag {U : Tag} (hU : U ∈ startTags source) :
    ((t.renaming name).onTag U).raws ((t.renaming name).text source) = (U.raws source).map (t.renaming name).onRaw := by
  rcases tag_cases (mem_startTags.1 hrenames.startTag).1 (mem_startTags.1 hU).1 with rfl | hle | hle
  · exact hrenames.raws_self
  · exact hrenames.raws_before hU hle
  · exact hrenames.raws_behind hU hle

end Raws

end TemplateCompiler.Markup

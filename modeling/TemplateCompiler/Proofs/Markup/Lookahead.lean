import TemplateCompiler.Proofs.Markup.Calls
import TemplateCompiler.Proofs.Markup.RawAttributes
/-!
# What a step looks at

A step of a scan looks at what follows its character for a character reference, a dash or a keyword, and for the line
feed behind a carriage return. It does not look past a blank (`State.step_blank`), and skips no more than there is (`State.step_size`).
-/

namespace TemplateCompiler.Markup

open TemplateCompiler.Text

/-! ## References -/

section Runs

variable {b : Char} {p : Char → Bool}

/-- A run ends at a character that it has no place for, whatever follows. -/
theorem takeWhile_stop (hb : p b = false) (xs rest rest' : List Char) :
    (xs ++ b :: rest).takeWhile p = (xs ++ b :: rest').takeWhile p := by
  induction xs with
  | nil => simp [hb]
  | cons c xs ih => simp only [List.cons_append, List.takeWhile_cons, ih]

/-- What follows such a run starts with the same character. -/
theorem exists_drop_stop (hb : p b = false) (xs rest rest' : List Char) :
    ∃ c behind behind', (xs ++ b :: rest).drop ((xs ++ b :: rest).takeWhile p).length = c :: behind ∧
      (xs ++ b :: rest').drop ((xs ++ b :: rest').takeWhile p).length = c :: behind' := by
  induction xs with
  | nil => exact ⟨b, rest, rest', by simp [hb], by simp [hb]⟩
  | cons c xs ih =>
    simp only [List.cons_append, List.takeWhile_cons]
    split
    · exact ih
    · exact ⟨c, xs ++ b :: rest, xs ++ b :: rest', rfl, rfl⟩

end Runs

theorem isReferenceChar_blank {b : Char} (hb : isSourceBlank b = true) : isReferenceChar b = false := by
  cases h : isReferenceChar b with
  | false => rfl
  | true => simpa [Quoting.allows, hb] using allows_reference .unquoted h

section Reference

variable {b : Char} (hb : isSourceBlank b = true)
include hb

theorem isAlphanum_blank : b.isAlphanum = false := by
  have := isReferenceChar_blank hb
  simp only [isReferenceChar, Bool.or_eq_false_iff] at this
  exact this.1.1

theorem numericReference_blank (base front : Nat) (xs rest rest' : List Char) :
    numericReference base front (xs ++ b :: rest) = numericReference base front (xs ++ b :: rest') := by
  have hdigit : isDigitIn base b = false := by
    cases h : isDigitIn base b with
    | false => rfl
    | true => exact absurd (isAlphanum_of_isDigitIn h) (by simp [isAlphanum_blank hb])
  obtain ⟨c, behind, behind', hdrop, hdrop'⟩ := exists_drop_stop hdigit xs rest rest'
  unfold numericReference
  dsimp only
  rw [hdrop, hdrop', takeWhile_stop hdigit xs rest rest']
  by_cases hc : c = ';'
  · rw [hc]
    rfl
  · simp [hc]

theorem namedReference_blank (inAttribute : Bool) (xs rest rest' : List Char) :
    namedReference inAttribute (xs ++ b :: rest) = namedReference inAttribute (xs ++ b :: rest') := by
  obtain ⟨c, behind, behind', hdrop, hdrop'⟩ := exists_drop_stop (isAlphanum_blank hb) xs rest rest'
  unfold namedReference
  dsimp only
  rw [hdrop, hdrop', takeWhile_stop (isAlphanum_blank hb) xs rest rest']
  generalize namedCharacters.lookup _ = codes
  by_cases hc : c = ';'
  · rw [hc]
    cases codes <;> rfl
  · simp [hc]

/-- What an ampersand stands for is decided before the next blank. -/
theorem reference_blank (inAttribute : Bool) (xs rest rest' : List Char) :
    reference inAttribute (xs ++ b :: rest) = reference inAttribute (xs ++ b :: rest') := by
  have hnot {c : Char} (hc : isSourceBlank c = false) : b ≠ c := by
    rintro rfl
    exact absurd hb (by simp [hc])
  have hsharp : b ≠ '#' := hnot (by decide)
  have hsmall : b ≠ 'x' := hnot (by decide)
  have hcapital : b ≠ 'X' := hnot (by decide)
  rcases xs with _ | ⟨c, xs⟩
  · simpa [reference, hsharp] using namedReference_blank hb inAttribute [] rest rest'
  by_cases hc : c = '#'
  case neg => simpa [reference, hc] using namedReference_blank hb inAttribute (c :: xs) rest rest'
  subst hc
  rcases xs with _ | ⟨c, xs⟩
  · simpa [reference, hsmall, hcapital] using numericReference_blank hb 10 1 [] rest rest'
  by_cases hx : c = 'x'
  · subst hx
    exact numericReference_blank hb 16 2 xs rest rest'
  by_cases hX : c = 'X'
  · subst hX
    exact numericReference_blank hb 16 2 xs rest rest'
  simpa [reference, hx, hX] using numericReference_blank hb 10 1 (c :: xs) rest rest'

end Reference

/-! ## Steps -/

theorem isPrefixOf_blank {p : Char → Char} {b : Char} {word : List Char} (hb : p b ∉ word) (xs rest rest' : List Char) :
    word.isPrefixOf ((xs ++ b :: rest).map p) = word.isPrefixOf ((xs ++ b :: rest').map p) := by
  induction xs generalizing word with
  | nil =>
    cases word with
    | nil => rfl
    | cons c word =>
      have hc : (c == p b) = false := beq_eq_false_iff_ne.2 fun hc => hb (hc ▸ List.mem_cons_self)
      simp [List.isPrefixOf, hc]
  | cons c xs ih =>
    cases word with
    | nil => rfl
    | cons d word =>
      simp only [List.cons_append, List.map_cons, List.isPrefixOf]
      rw [ih fun hmem => hb (List.mem_cons_of_mem _ hmem)]

section Step

variable {b : Char} (hb : isSourceBlank b = true)
include hb

theorem toLower_blank : b.toLower = b := by
  simp only [isSourceBlank, isTagBlank, Bool.or_eq_true, beq_iff_eq] at hb
  rcases toLower_cases b with h | ⟨h, -, -⟩
  · exact h
  · rcases hb with (((rfl | rfl) | hb) | rfl) | rfl <;> first | rfl | omega

theorem startsWithWord_blank (word : String) (hword : word.toList.all fun c => !isSourceBlank c) (xs rest rest' : List Char) :
    startsWithWord word (xs ++ b :: rest) = startsWithWord word (xs ++ b :: rest') := by
  refine isPrefixOf_blank (fun hmem => ?_) xs rest rest'
  rw [toLower_blank hb] at hmem
  simpa [hb] using List.all_eq_true.1 hword b hmem

theorem startsWithWord_take_blank (word : String) (hword : word.toList.all fun c => !isSourceBlank c) (n : Nat)
    (c : Char) (xs rest rest' : List Char) :
    startsWithWord word (c :: (xs ++ b :: rest).take n) = startsWithWord word (c :: (xs ++ b :: rest').take n) := by
  rcases Nat.le_total n xs.length with hle | hle
  · rw [List.take_append_of_le_length hle, List.take_append_of_le_length hle]
  · obtain ⟨k, rfl⟩ := Nat.exists_eq_add_of_le hle
    rw [List.take_length_add_append, List.take_length_add_append]
    cases k with
    | zero => rfl
    | succ k => exact startsWithWord_blank hb word hword (c :: xs) (rest.take k) (rest'.take k)

theorem valueCharacter_blank (quoting : Quoting) (tag : Tag) (c : Char) (xs rest rest' : List Char) :
    valueCharacter quoting tag c (xs ++ b :: rest) = valueCharacter quoting tag c (xs ++ b :: rest') := by
  rw [valueCharacter, valueCharacter, reference_blank hb true xs rest rest']

theorem attributeValueStep_blank (quoting : Quoting) (tag : Tag) (pos : Nat) (c : Char) (xs rest rest' : List Char) :
    attributeValueStep quoting tag pos c (xs ++ b :: rest) = attributeValueStep quoting tag pos c (xs ++ b :: rest') := by
  cases quoting <;> simp only [attributeValueStep, valueCharacter_blank hb _ tag c xs rest rest']

/-- A step does not look past a blank. -/
theorem State.step_blank (state : State) (pos : Nat) (c : Char) (xs rest rest' : List Char) :
    state.step pos c (xs ++ b :: rest) = state.step pos c (xs ++ b :: rest') := by
  cases state with
  | data => simp only [State.step, dataStep, reference_blank hb false xs rest rest']
  | tagOpen =>
    have hdashes : ['-', '-'].isPrefixOf (xs ++ b :: rest) = ['-', '-'].isPrefixOf (xs ++ b :: rest') := by
      have hdash : b ∉ ['-', '-'] := by
        intro hmem
        obtain rfl : b = '-' := by simpa using hmem
        exact absurd hb (by decide)
      simpa using isPrefixOf_blank (p := id) hdash xs rest rest'
    simp only [State.step, tagOpenStep, hdashes, show "--".toList = ['-', '-'] from rfl,
      startsWithWord_blank hb "doctype" (by decide) xs rest rest']
  | beforeAttributeValue tag => simp only [State.step, beforeAttributeValueStep, attributeValueStep_blank hb _ _ _ _ xs rest rest']
  | attributeValue quoting tag => exact attributeValueStep_blank hb quoting tag pos c xs rest rest'
  | afterDoctypeName =>
    simp only [State.step, startsWithWord_take_blank hb "public" (by decide) 5 c xs rest rest',
      startsWithWord_take_blank hb "system" (by decide) 5 c xs rest rest']
  | afterDoctypeIdentifier identifier => cases identifier <;> rfl
  | _ => rfl

end Step

/-! ## Skipped characters -/

theorem length_takeWhile_lt {p : Char → Bool} {cs : List Char} {c : Char} {rest : List Char}
    (h : cs.drop (cs.takeWhile p).length = c :: rest) : (cs.takeWhile p).length + 1 ≤ cs.length := by
  have := congrArg List.length h
  simp only [List.length_drop, List.length_cons] at this
  omega

theorem numericReference_size {base front size : Nat} {cs chars : List Char}
    (h : numericReference base front cs = .characters chars size) : size ≤ front + cs.length := by
  unfold numericReference at h
  dsimp only at h
  split at h
  · cases h
  · split at h
    · cases h
    · rename_i rest hrest
      split at h
      · cases h
      · injection h with _ hsize
        have := length_takeWhile_lt hrest
        omega
    · cases h

theorem namedReference_size {inAttribute : Bool} {size : Nat} {cs chars : List Char}
    (h : namedReference inAttribute cs = .characters chars size) : size ≤ cs.length := by
  unfold namedReference at h
  dsimp only at h
  split at h
  · rename_i rest codes hrest _
    injection h with _ hsize
    have := length_takeWhile_lt hrest
    omega
  · grind

theorem reference_size {inAttribute : Bool} {size : Nat} {cs chars : List Char}
    (h : reference inAttribute cs = .characters chars size) : size ≤ cs.length := by
  unfold reference at h
  split at h
  · cases h
  · have := numericReference_size h
    simp only [List.length_cons]
    omega
  · have := numericReference_size h
    simp only [List.length_cons]
    omega
  · have := numericReference_size h
    simp only [List.length_cons]
    omega
  · exact namedReference_size h

theorem length_le_of_startsWithWord {word : String} {cs : List Char} (h : startsWithWord word cs = true) :
    word.toList.length ≤ cs.length := by
  simpa using (List.isPrefixOf_iff_prefix.1 h).length_le

theorem valueCharacter_size {quoting : Quoting} {tag : Tag} {c : Char} {rest : List Char} {next : State}
    {tokens : List Token} {size : Nat} (h : valueCharacter quoting tag c rest = .go next tokens size) :
    size ≤ rest.length := by
  unfold valueCharacter at h
  split at h
  · split at h
    · simp [Step.to] at h
      omega
    · rename_i hreference
      obtain ⟨-, -, rfl⟩ := Step.go.inj h
      exact reference_size hreference
    · cases h
  · split at h
    · cases h
    · simp [Step.to] at h
      omega

/-- No step skips more than there is. -/
theorem State.step_size {state next : State} {pos : Nat} {c : Char} {rest : List Char} {tokens : List Token}
    {size : Nat} (h : state.step pos c rest = .go next tokens size) : size ≤ rest.length := by
  have hend {tag : Tag} (h : endTag tag pos = .go next tokens size) : size = 0 := by
    grind [endTag]
  cases state with
  | data => grind [State.step, dataStep, Step.to, → reference_size]
  | tagOpen =>
    have hdashes (h : "--".toList.isPrefixOf rest = true) : 2 ≤ rest.length :=
      (List.isPrefixOf_iff_prefix.1 h).length_le
    have hword (h : startsWithWord "doctype" rest = true) : 7 ≤ rest.length := length_le_of_startsWithWord h
    grind [State.step, tagOpenStep, Step.to]
  | afterDoctypeName =>
    have hword (word : String) (hsize : word.toList.length = 6) (h : startsWithWord word (c :: rest.take 5) = true) :
        5 ≤ rest.length := by
      have := length_le_of_startsWithWord h
      simp only [hsize, List.length_cons, List.length_take] at this
      omega
    have hpublic := hword "public" (by decide)
    have hsystem := hword "system" (by decide)
    grind [State.step, Step.to]
  | beforeAttributeValue tag =>
    grind [State.step, beforeAttributeValueStep, attributeValueStep, Step.to, → valueCharacter_size]
  | attributeValue quoting tag =>
    cases quoting <;> grind [State.step, attributeValueStep, Step.to, → valueCharacter_size]
  | afterDoctypeIdentifier identifier => cases identifier <;> grind [State.step, Step.to]
  | _ =>
    grind [State.step, endTagOpenStep, tagNameStep, beforeAttributeNameStep, attributeNameStep, afterAttributeNameStep,
      startAttribute, afterAttributeValueQuotedStep, selfClosingStartTagStep, commentStep, commentStartStep,
      commentStartDashStep, commentEndDashStep, commentEndStep, commentEndBangStep, doctypeIdentifierStep,
      startIdentifier, Step.to]

/-! ## Texts that end in a blank -/

/-- What ends in a blank, or is empty. -/
def EndsBlank (cs : List Char) : Prop :=
  ∀ c ∈ cs.getLast?, isSourceBlank c = true

theorem EndsBlank.drop {cs : List Char} (h : EndsBlank cs) (n : Nat) : EndsBlank (cs.drop n) := by
  intro c hc
  rw [List.getLast?_drop] at hc
  split at hc
  · cases hc
  · exact h c hc

theorem EndsBlank.of_append {xs ys : List Char} (h : EndsBlank (xs ++ ys)) : EndsBlank ys := by
  have := h.drop xs.length
  rwa [List.drop_left] at this

theorem EndsBlank.of_cons {c : Char} {cs : List Char} (h : EndsBlank (c :: cs)) : EndsBlank cs :=
  h.drop 1

/-- A blank between the parts of a tag is read without a look at what follows. -/
theorem State.step_of_blank (state : State) (pos : Nat) {c : Char} (hc : isTagBlank c = true) (rest rest' : List Char) :
    state.step pos c rest = state.step pos c rest' := by
  have hamp : c ≠ '&' := by
    rintro rfl
    exact absurd hc (by decide)
  have hmark : c ≠ '!' := by
    rintro rfl
    exact absurd hc (by decide)
  have hword (word : String) (h : word.toList.all fun c => !isSourceBlank c) :
      startsWithWord word (c :: rest.take 5) = startsWithWord word (c :: rest'.take 5) :=
    startsWithWord_blank (by simp [isSourceBlank, hc]) word h [] _ _
  cases state with
  | data => simp only [State.step, dataStep, hamp, if_false]
  | tagOpen => simp only [State.step, tagOpenStep, hmark, if_false]
  | beforeAttributeValue tag => simp only [State.step, beforeAttributeValueStep, hc, if_true]
  | attributeValue quoting tag =>
    cases quoting <;> simp only [State.step, attributeValueStep, valueCharacter, hamp, if_false]
  | afterDoctypeName =>
    simp only [State.step, hword "public" (by decide), hword "system" (by decide)]
  | afterDoctypeIdentifier identifier => cases identifier <;> rfl
  | _ => rfl

/-- The character that one in a source is read as. -/
def readAs (c : Char) : Char :=
  if c = '\r' then '\n' else c

theorem isTagBlank_readAs {c : Char} (h : isSourceBlank c = true) : isTagBlank (readAs c) = true := by
  unfold readAs
  split
  · decide
  · rename_i hreturn
    simpa [isSourceBlank, hreturn] using h

/-- How many characters are taken with `c`, if its step skips `size` characters. -/
def takenWith (c : Char) (rest : List Char) (size : Nat) : Nat :=
  if c = '\r' && rest.head? = some '\n' then 1 else size

section EndsBlank

variable {c : Char} {cs : List Char} (h : EndsBlank (c :: cs))
include h

/-- In a text that ends in a blank a step does not look past the end. -/
theorem EndsBlank.step_eq (state : State) (pos : Nat) (rest rest' : List Char) :
    state.step pos (readAs c) (cs ++ rest) = state.step pos (readAs c) (cs ++ rest') := by
  rcases List.eq_nil_or_concat cs with rfl | ⟨front, b, rfl⟩
  · exact state.step_of_blank pos (isTagBlank_readAs (h c (by simp))) _ _
  · rw [List.concat_eq_append] at h ⊢
    have hb : isSourceBlank b = true := h b (by rw [← List.cons_append, List.getLast?_concat, Option.mem_some])
    rw [List.append_assoc, List.append_assoc]
    exact state.step_blank hb pos _ front rest rest'

/-- In a text that ends in a blank no characters behind it are taken. -/
theorem EndsBlank.taken_le {state next : State} {pos : Nat} {rest : List Char} {tokens : List Token} {size : Nat}
    (hstep : state.step pos (readAs c) (cs ++ rest) = .go next tokens size) (hrest : rest.head? ≠ some '\n') :
    takenWith c (cs ++ rest) size ≤ cs.length := by
  unfold takenWith
  split
  · rename_i hjoined
    cases cs with
    | nil => simp_all
    | cons d cs => simp
  · rw [h.step_eq state pos rest [], List.append_nil] at hstep
    exact State.step_size hstep

end EndsBlank

end TemplateCompiler.Markup

import TemplateCompiler.Proofs.Binding.Braces
import TemplateCompiler.Proofs.Text.Utf8
/-!
# Where groups end

A text is scanned character by character, and the grammar of groups speaks of its bytes. A scan of the bytes ends at the
same place, since the bytes of a character that is not of ASCII change nothing more than the character does
(`closeGroup?_utf8`). So `groupEnd?` is the end of the group that the grammar derives from the bytes at `start`, if it
derives one (`groupEnd?_recognizes`).
-/

namespace TemplateCompiler.Binding

open TemplateCompiler.Text

variable {stack : List Opening} {n : Nesting}

/-! ## Characters that are not of ASCII -/

namespace Nesting

/-- The scan behind a character that opens, closes and escapes nothing. -/
def past (n : Nesting) : Nesting := { n with escaped := false, dollar := false }

@[simp] theorem past_past (n : Nesting) : n.past.past = n.past := rfl

theorem Stands.past (h : n.Stands stack) : n.past.Stands stack :=
  ⟨h.depth, h.templates, h.outermost, h.quote, by simp [Nesting.past]⟩

theorem Stands.step_eq_past (h : n.Stands stack) {c : Char} (hc : 128 ≤ c.toNat) : n.step c = .inside n.past := by
  have hne (d : Char) (hd : d.toNat < 128) : c ≠ d := by
    rintro rfl
    omega
  have hstay (hesc : n.escaped = false) (hdollar : n.dollar = false) : n.past = n := by
    obtain ⟨depth, quote, templates, escaped, dollar⟩ := n
    cases hesc
    cases hdollar
    rfl
  unfold step
  by_cases hesc : n.escaped = true
  · rw [if_pos hesc]
    rfl
  rw [if_neg hesc, if_neg (hne '\\' (by decide))]
  rw [Bool.not_eq_true] at hesc
  cases hquote : n.quote with
  | some q =>
    have hq : c ≠ q := by rcases h.quote q hquote with rfl | rfl <;> exact hne _ (by decide)
    have hdollar : n.dollar = false := by
      cases hd : n.dollar with
      | false => rfl
      | true => exact absurd (h.dollar hd).2.1 (by simp [hquote])
    simp only [if_neg hq, hstay hesc hdollar, ← hquote]
  | none =>
    have hplain : c ≠ '`' ∧ c ≠ '{' ∧ c ≠ '}' ∧ c ≠ '"' ∧ c ≠ '\'' ∧ c ≠ '$' := by
      refine ⟨?_, ?_, ?_, ?_, ?_, ?_⟩ <;> exact hne _ (by decide)
    by_cases htemplate : n.inTemplate = true
    · simp [htemplate, hplain, hesc, hquote, Nesting.past]
    · have hdollar : n.dollar = false := by
        cases hd : n.dollar with
        | false => rfl
        | true => exact absurd (by simp [h.inTemplate_eq, (h.dollar hd).2.2]) htemplate
      simp [htemplate, hplain, hstay hesc hdollar]

end Nesting

/-- Characters that are not of ASCII are passed over. -/
theorem closeGroup?_past (h : n.Stands stack) {c : Char} {cs : List Char} (hcs : ∀ d ∈ c :: cs, 128 ≤ d.toNat)
    (rest : List Char) :
    closeGroup? n (c :: cs ++ rest) = (closeGroup? n.past rest).map fun p => (c :: cs ++ p.1, p.2) := by
  induction cs generalizing n c with
  | nil => simp [closeGroup?, h.step_eq_past (hcs c (by simp))]
  | cons d cs ih =>
    have hrest := ih h.past (List.forall_mem_cons.1 hcs).2
    rw [List.cons_append, closeGroup?, h.step_eq_past (hcs c (by simp))]
    simp only [hrest, Option.map_map]
    rfl

/-! ## Bytes in place of characters -/

/-- A text as the bytes of its UTF-8 form, each read as a character. -/
def bytewise (cs : List Char) : List Char := (utf8 cs).map read

theorem bytewise_cons (c : Char) (cs : List Char) :
    bytewise (c :: cs) = (String.utf8EncodeChar c).map read ++ bytewise cs := by
  simp [bytewise]

theorem bytewise_cons_ascii {c : Char} (hc : c.toNat < 128) (cs : List Char) :
    bytewise (c :: cs) = c :: bytewise cs := by
  have hread : read (byte c) = c := (read_eq_iff (by omega)).2 rfl
  rw [bytewise_cons, utf8EncodeChar_ascii hc]
  exact congrArg (· :: _) hread

/-- A scan of the bytes of a text stops where a scan of its characters does. -/
theorem closeGroup?_utf8 (h : n.Stands stack) (cs : List Char) :
    closeGroup? n (bytewise cs) = (closeGroup? n cs).map fun p => (bytewise p.1, bytewise p.2) := by
  induction cs generalizing n stack with
  | nil => rfl
  | cons c cs ih =>
    by_cases hc : c.toNat < 128
    · have hread : read (byte c) = c := (read_eq_iff (by omega)).2 rfl
      have htakes := h.step_takes (byte c)
      rw [hread] at htakes
      rw [bytewise_cons_ascii hc, closeGroup?, closeGroup?]
      cases hstep : n.step c with
      | inside n' =>
        rw [hstep] at htakes
        obtain ⟨stack', h', -⟩ := htakes
        simp [ih h', Function.comp_def, bytewise_cons_ascii hc]
      | closed => simp [bytewise_cons_ascii hc, show bytewise [] = [] from rfl]
      | unbalanced => rfl
    · have hc := Nat.le_of_not_lt hc
      have hbytes : ∀ d ∈ (String.utf8EncodeChar c).map read, 128 ≤ d.toNat :=
        List.forall_mem_map.2 (le_of_mem_utf8EncodeChar hc)
      obtain ⟨d, ds, hds⟩ : ∃ d ds, (String.utf8EncodeChar c).map read = d :: ds :=
        List.exists_cons_of_ne_nil (by simp)
      rw [hds] at hbytes
      rw [bytewise_cons, hds, closeGroup?_past h hbytes, ih h.past, closeGroup?, h.step_eq_past hc]
      simp [Function.comp_def, bytewise_cons, hds]

/-! ## The end of a group -/

/-- The bytes of a text. -/
def bytesOf (text : String) : List UInt8 := text.toUTF8.data.toList

theorem bytesOf_eq (text : String) : bytesOf text = utf8 text.toList := toList_toUTF8 text

/-- The bytes of the text from `start` to `stop` are a group. -/
def IsGroupAt (text : String) (start stop : Nat) : Prop :=
  start ≤ stop ∧ stop ≤ (bytesOf text).length ∧ IsGroup ((bytesOf text).extract start stop)

theorem groupEnd?_append (before : List Char) (c : Char) (after : List Char) :
    groupEnd? (before ++ c :: after) (byteLength before) =
      (group? (c :: after)).map fun p => byteLength before + byteLength p.1 := by
  induction before with
  | nil => simp [groupEnd?]
  | cons d before ih =>
    have hpos : d.utf8Size + byteLength before ≠ 0 := by
      have := d.utf8Size_pos
      omega
    rw [List.cons_append, byteLength_cons, groupEnd?, if_neg hpos, Nat.add_sub_cancel_left, ih]
    simp only [Option.map_map, Function.comp_def]
    congr 1
    funext p
    omega

/-- The scan behind the first brace. -/
def Nesting.opened : Nesting := ⟨1, none, [], false, false⟩

theorem Nesting.stands_opened : Nesting.opened.Stands [.brace] :=
  ⟨rfl, rfl, rfl, by simp [opened], by simp [opened]⟩

/-- A scan behind a brace finds the bytes that close the group, if some do. -/
theorem closeGroup?_opened (after : List Char) (front : List UInt8) :
    (∃ group rest, closeGroup? .opened after = some (group, rest) ∧ utf8 group = front) ↔
      Closes [.brace] front ∧ front <+: utf8 after := by
  have hbytes := closeGroup?_read Nesting.stands_opened (utf8 after)
  have hchars := closeGroup?_utf8 Nesting.stands_opened after
  have hdemands : Nesting.opened.Demands [.brace] = Closes [.brace] := by
    funext bytes
    rw [Nesting.demands_unescaped rfl, Nesting.resumes_plain rfl rfl]
  have hsame {group rest : List Char} {front back : List UInt8} (h : closeGroup? .opened after = some (group, rest))
      (hsplit : utf8 after = front ++ back) (hread : bytewise group = front.map read) : utf8 group = front := by
    rw [(closeGroup?_append h).1, utf8_append] at hsplit
    exact (List.append_inj hsplit (by simpa [bytewise] using congrArg List.length hread)).1
  simp only [hdemands] at hbytes
  constructor
  · rintro ⟨group, rest, h, rfl⟩
    rw [h] at hchars
    obtain ⟨front, back, hsplit, hcloses, hread, -⟩ := (hbytes _ _).1 hchars
    rw [hsame h hsplit hread]
    exact ⟨hcloses, back, hsplit.symm⟩
  · rintro ⟨hcloses, back, hsplit⟩
    have hfound := (hbytes _ _).2 ⟨front, back, hsplit.symm, hcloses, rfl, rfl⟩
    obtain ⟨⟨group, rest⟩, h, heq⟩ := Option.map_eq_some_iff.1 (hchars.symm.trans hfound)
    exact ⟨group, rest, h, hsame h hsplit.symm (Prod.mk.inj heq).1⟩

/-- A brace in the bytes of a text is a character of it. -/
theorem exists_of_brace {text : String} {start : Nat} (hopen : (bytesOf text)[start]? = some (byte '{')) :
    ∃ before after, text.toList = before ++ '{' :: after ∧ byteLength before = start := by
  obtain ⟨hlt, hget⟩ := List.getElem?_eq_some_iff.1 hopen
  have hsplit : utf8 text.toList = (bytesOf text).take start ++ byte '{' :: (bytesOf text).drop (start + 1) := by
    rw [← bytesOf_eq, ← hget, List.getElem_cons_drop, List.take_append_drop]
  obtain ⟨before, after, htext, hbefore, -⟩ := exists_of_utf8_eq (by decide) hsplit
  refine ⟨before, after, htext, ?_⟩
  rw [← length_utf8, hbefore, List.length_take]
  omega

/-- The scan from a brace ends at `stop`, and a character of the text does. -/
def EndsAt (before after : List Char) (stop : Nat) : Prop :=
  ∃ group rest, closeGroup? .opened after = some (group, rest) ∧ byteLength (before ++ '{' :: group) = stop

theorem groupEnd?_eq_some_iff (before after : List Char) {stop : Nat} :
    groupEnd? (before ++ '{' :: after) (byteLength before) = some stop ↔ EndsAt before after stop := by
  have hstep : Nesting.outside.step '{' = .inside .opened := rfl
  rw [groupEnd?_append, group?, closeGroup?, hstep]
  simp only [Option.map_map, Option.map_eq_some_iff, Function.comp_apply, Prod.exists, byteLength_append, EndsAt]

theorem isGroupAt_iff {text : String} {before after : List Char} (htext : text.toList = before ++ '{' :: after)
    {stop : Nat} : IsGroupAt text (byteLength before) stop ↔ EndsAt before after stop := by
  have hbytes : bytesOf text = utf8 before ++ byte '{' :: utf8 after := by
    rw [bytesOf_eq, htext, utf8_append, utf8_cons, utf8EncodeChar_ascii (by decide)]
    rfl
  have hdrop : (bytesOf text).drop (byteLength before) = byte '{' :: utf8 after := by
    rw [hbytes, ← length_utf8, List.drop_left]
  have hlength : (bytesOf text).length = byteLength before + (1 + (utf8 after).length) := by
    rw [hbytes, List.length_append, length_utf8, List.length_cons, Nat.add_comm 1]
  have hopened := closeGroup?_opened after
  rw [IsGroupAt, List.extract_eq_take_drop, hdrop, isGroup_iff]
  constructor
  · rintro ⟨hle, hlt, more, hgroup, hcloses⟩
    obtain ⟨k, rfl⟩ := Nat.exists_eq_add_of_le hle
    rw [Nat.add_sub_cancel_left] at hgroup
    cases k with
    | zero => cases hgroup
    | succ k =>
      obtain rfl := (List.cons.inj hgroup).2
      obtain ⟨group, rest, hclose, hfront⟩ := (hopened _).2 ⟨hcloses, List.take_prefix k _⟩
      refine ⟨group, rest, hclose, ?_⟩
      have hk := congrArg List.length hfront
      rw [length_utf8, List.length_take] at hk
      have hsize : '{'.utf8Size = 1 := by decide
      rw [byteLength_append, byteLength_cons, hk, hsize]
      omega
  · rintro ⟨group, rest, hclose, rfl⟩
    obtain ⟨hcloses, back, hback⟩ := (hopened _).1 ⟨group, rest, hclose, rfl⟩
    have hsize : byteLength (before ++ '{' :: group) = byteLength before + ((utf8 group).length + 1) := by
      rw [byteLength_append, byteLength_cons, length_utf8, Nat.add_comm (byteLength group)]
      rfl
    rw [hsize]
    refine ⟨Nat.le_add_right _ _, ?_, utf8 group, ?_, hcloses⟩
    · rw [hlength, ← hback, List.length_append]
      omega
    · rw [Nat.add_sub_cancel_left, List.take_succ_cons, ← hback, List.take_left]

/-- Characters of the text end at the byte `offset`. -/
theorem isValid_byteLength {text : String} {front back : List Char} (htext : text.toList = front ++ back) :
    (⟨byteLength front⟩ : String.Pos.Raw).IsValid text := by
  have hsize : (String.ofList front).utf8ByteSize = byteLength front := by
    have hbytes := congrArg List.length (toList_toUTF8 (String.ofList front))
    rwa [String.toList_ofList, length_utf8, Array.length_toList] at hbytes
  refine String.Pos.Raw.isValid_iff_exists_append.2 ⟨String.ofList front, String.ofList back, ?_, ?_⟩
  · rw [← String.ofList_append, ← htext, String.ofList_toList]
  · exact congrArg String.Pos.Raw.mk hsize.symm

/-- What `groupEnd?` finds at a brace is the end of the group of the grammar there, and there is at most one. It finds
none only where there is none, and the group starts and ends between characters. -/
theorem groupEnd?_recognizes {text : String} {start : Nat} (hopen : (bytesOf text)[start]? = some (byte '{')) :
    (∀ stop, groupEnd? text.toList start = some stop ↔ IsGroupAt text start stop) ∧
    (groupEnd? text.toList start = none ↔ ∀ stop, ¬ IsGroupAt text start stop) ∧
    (∀ stop stop', IsGroupAt text start stop → IsGroupAt text start stop' → stop = stop') ∧
    (⟨start⟩ : String.Pos.Raw).IsValid text ∧
    ∀ stop, IsGroupAt text start stop → (⟨stop⟩ : String.Pos.Raw).IsValid text := by
  obtain ⟨before, after, htext, rfl⟩ := exists_of_brace hopen
  have hfound (stop : Nat) :
      groupEnd? text.toList (byteLength before) = some stop ↔ IsGroupAt text (byteLength before) stop := by
    rw [isGroupAt_iff htext, htext, groupEnd?_eq_some_iff]
  refine ⟨hfound, ?_, fun stop stop' h h' => ?_, isValid_byteLength htext, fun stop h => ?_⟩
  · simp [Option.eq_none_iff_forall_ne_some, hfound]
  · exact Option.some.inj (((hfound stop).2 h).symm.trans ((hfound stop').2 h'))
  · obtain ⟨group, rest, hclose, rfl⟩ := (isGroupAt_iff htext).1 h
    have hsplit : text.toList = (before ++ '{' :: group) ++ rest := by
      rw [htext, (closeGroup?_append hclose).1]
      simp
    exact isValid_byteLength hsplit

/-- A brace in a string does not close the group around it. -/
theorem groupEnd?_recognizes_quoted :
    (bytesOf "x\x7b'\x7d'\x7dy")[1]? = some (byte '{') ∧ IsGroupAt "x\x7b'\x7d'\x7dy" 1 6 :=
  have hopen : (bytesOf "x\x7b'\x7d'\x7dy")[1]? = some (byte '{') := by decide
  ⟨hopen, ((groupEnd?_recognizes hopen).1 6).1 (by decide)⟩

end TemplateCompiler.Binding

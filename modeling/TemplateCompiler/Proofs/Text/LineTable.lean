import Mathlib.Data.List.DropRight
import TemplateCompiler.Proofs.Markup.Cursor
import TemplateCompiler.Proofs.Text.Position
import TemplateCompiler.Proofs.Text.Utf8
import TemplateCompiler.Text.LineTable
/-!
# Positions are counted

The position of an offset says how many line feeds stand before it and how many characters behind the last of them, and
the table of the lines of a source gives the same position (`locate_counts`).
-/

namespace TemplateCompiler.Text

/-! ## Search by halves -/

section PartitionPoint

variable {p : Nat → Bool} {front back : List Nat}

/-- An entry satisfies `p` exactly if it stands in the front part. -/
theorem any_getElem?_append (hfront : ∀ n ∈ front, p n = true) (hback : ∀ n ∈ back, p n = false) (i : Nat) :
    (front ++ back).toArray[i]?.any p = true ↔ i < front.length := by
  rw [List.getElem?_toArray]
  by_cases hi : i < front.length
  · simp [List.getElem?_append_left hi, hfront _ (List.getElem_mem hi), hi]
  · rw [List.getElem?_append_right (Nat.le_of_not_lt hi)]
    cases hn : back[i - front.length]? with
    | none => simp [hi]
    | some n => simp [hback n (List.mem_of_getElem? hn), hi]

/-- The search keeps the end of the front part between its bounds. -/
theorem partitionPointIn_append (hfront : ∀ n ∈ front, p n = true) (hback : ∀ n ∈ back, p n = false) (low high : Nat)
    (hlow : low ≤ front.length) (hhigh : front.length ≤ high) :
    partitionPointIn p (front ++ back).toArray low high = front.length := by
  fun_induction partitionPointIn p (front ++ back).toArray low high with
  | case1 low high hlt middle hmiddle ih =>
    exact ih ((any_getElem?_append hfront hback middle).1 hmiddle) hhigh
  | case2 low high hlt middle hmiddle ih =>
    exact ih hlow (Nat.le_of_not_lt fun h => hmiddle ((any_getElem?_append hfront hback middle).2 h))
  | case3 low high hlt => omega

theorem partitionPoint_append (hfront : ∀ n ∈ front, p n = true) (hback : ∀ n ∈ back, p n = false) :
    partitionPoint p (front ++ back).toArray = front.length :=
  partitionPointIn_append hfront hback 0 _ (Nat.zero_le _) (by simp)

end PartitionPoint

/-! ## Starts of lines -/

theorem lineStarts_append (offset : Nat) (front back : List Char) :
    lineStarts offset (front ++ back) = lineStarts offset front ++ lineStarts (offset + byteLength front) back := by
  induction front generalizing offset with
  | nil => rfl
  | cons c front ih => by_cases hc : c = '\n' <;> simp [lineStarts, hc, ih, Nat.add_assoc]

theorem length_lineStarts (offset : Nat) (cs : List Char) : (lineStarts offset cs).length = cs.count '\n' := by
  induction cs generalizing offset with
  | nil => rfl
  | cons c cs ih => by_cases hc : c = '\n' <;> simp [lineStarts, hc, ih]

/-- A line starts behind a character and not behind the end of the text. -/
theorem bounds_of_mem_lineStarts {offset n : Nat} {cs : List Char} (h : n ∈ lineStarts offset cs) :
    (∃ c, cs.head? = some c ∧ offset + c.utf8Size ≤ n) ∧ n ≤ offset + byteLength cs := by
  induction cs generalizing offset with
  | nil => cases h
  | cons c cs ih =>
    rw [byteLength_cons]
    rw [lineStarts] at h
    have hlater (h : n ∈ lineStarts (offset + c.utf8Size) cs) :
        offset + c.utf8Size ≤ n ∧ n ≤ offset + (c.utf8Size + byteLength cs) := by
      obtain ⟨⟨d, -, hlow⟩, hhigh⟩ := ih h
      omega
    suffices offset + c.utf8Size ≤ n ∧ n ≤ offset + (c.utf8Size + byteLength cs) from ⟨⟨c, rfl, this.1⟩, this.2⟩
    split at h
    · rcases List.mem_cons.1 h with rfl | h
      · omega
      · exact hlater h
    · exact hlater h

/-- The last line of a text starts behind its last line feed. -/
theorem getElem?_lineStarts (cs : List Char) :
    (0 :: lineStarts 0 cs)[cs.count '\n']? = some (byteLength (cs.rdropWhile (· != '\n'))) := by
  induction cs using List.reverseRecOn with
  | nil => rfl
  | append_singleton cs c ih =>
    rw [lineStarts_append, Nat.zero_add, List.count_append]
    by_cases hc : c = '\n'
    · rw [List.rdropWhile_concat_neg _ _ _ (by simp [hc]), ← List.cons_append,
        List.getElem?_append_right (by simp [hc, length_lineStarts])]
      simp [lineStarts, hc, length_lineStarts]
    · rw [List.rdropWhile_concat_pos _ _ _ (by simp [hc]), ← ih]
      simp [lineStarts, hc]

/-! ## Lines and columns -/

/-- A text takes its end as many lines down as it has line feeds, and as many characters to the right as stand behind
the last of them. -/
theorem behind_first (cs : List Char) :
    Position.first.behind cs = ⟨1 + cs.count '\n', 1 + (cs.rtakeWhile (· != '\n')).length⟩ := by
  induction cs using List.reverseRecOn with
  | nil => rfl
  | append_singleton cs c ih =>
    rw [Position.behind] at ih ⊢
    rw [List.foldl_append, ih, List.foldl_cons, List.foldl_nil, Position.after, List.count_append]
    by_cases hc : c = '\n'
    · rw [if_pos hc, List.rtakeWhile_concat_neg _ _ _ (by simp [hc])]
      simp [hc, Nat.add_assoc]
    · rw [if_neg hc, List.rtakeWhile_concat_pos _ _ _ (by simp [hc])]
      simp [hc, Nat.add_assoc]

/-- An offset stands behind some characters and not behind the next one. -/
theorem exists_cut (source : List Char) (offset : Nat) :
    ∃ front back k, source = front ++ back ∧ offset = byteLength front + k ∧ ∀ c, back.head? = some c → k < c.utf8Size := by
  induction source generalizing offset with
  | nil => exact ⟨[], [], offset, rfl, by simp, by simp⟩
  | cons c cs ih =>
    by_cases hoffset : offset < c.utf8Size
    · exact ⟨[], c :: cs, offset, rfl, by simp, by simpa using hoffset⟩
    · obtain ⟨front, back, k, rfl, hk, hback⟩ := ih (offset - c.utf8Size)
      exact ⟨c :: front, back, k, rfl, by rw [byteLength_cons]; omega, hback⟩

theorem locate_cut (front back : List Char) (k : Nat) :
    locate (front ++ back) (byteLength front + k) = (Position.first.behind front).advance back k :=
  Position.advance_append .first front back k

/-- Inside a character, nothing is cut off. -/
theorem splitBytes?_inside (front : List Char) {c : Char} (rest : List Char) {k : Nat} (hpos : 0 < k)
    (hk : k < c.utf8Size) : splitBytes? (byteLength front + k) (front ++ c :: rest) = none := by
  induction front with
  | nil =>
    obtain ⟨m, rfl⟩ := Nat.exists_eq_add_one_of_ne_zero (Nat.ne_of_gt hpos)
    simp [splitBytes?, Nat.not_le.2 hk]
  | cons d front ih =>
    obtain ⟨m, hm⟩ : ∃ m, byteLength (d :: front) + k = m + 1 := ⟨byteLength (d :: front) + k - 1, by omega⟩
    have hrest : m + 1 - d.utf8Size = byteLength front + k := by
      rw [byteLength_cons] at hm
      omega
    rw [hm, List.cons_append, splitBytes?]
    split
    · rw [hrest, ih]
      rfl
    · rfl

theorem slice?_inside (front middle : List Char) {c : Char} (rest : List Char) {k : Nat} (hpos : 0 < k)
    (hk : k < c.utf8Size) :
    slice? (front ++ (middle ++ c :: rest)) (byteLength front) (byteLength front + byteLength middle + k) = none := by
  have hstop : byteLength front + byteLength middle + k - byteLength front = byteLength middle + k := by omega
  simp [slice?, dropBytes?, splitBytes?_byteLength, hstop, splitBytes?_inside middle rest hpos hk]

/-- An offset is that of the end of `front`, or it is inside the character behind it. -/
theorem stop_cases (front : List Char) {back : List Char} {k : Nat} (hback : ∀ c, back.head? = some c → k < c.utf8Size) :
    (min (byteLength front + k) (byteLength (front ++ back)) = byteLength front ∧
      locate (front ++ back) (byteLength front + k) = Position.first.behind front) ∨
    ∃ c rest, back = c :: rest ∧ 0 < k ∧ k < c.utf8Size ∧
      min (byteLength front + k) (byteLength (front ++ back)) = byteLength front + k ∧
      locate (front ++ back) (byteLength front + k) = ⟨(Position.first.behind front).line, 1⟩ := by
  rw [locate_cut, byteLength_append]
  cases back with
  | nil => exact .inl ⟨by simp, rfl⟩
  | cons c rest =>
    have hk := hback c rfl
    rw [byteLength_cons, Position.advance]
    rcases Nat.eq_zero_or_pos k with rfl | hpos
    · exact .inl ⟨by omega, if_pos rfl⟩
    · exact .inr ⟨c, rest, rfl, hpos, hk, by omega, by rw [if_neg (Nat.ne_of_gt hpos), if_pos hk]⟩

/-! ## The table -/

/-- The lines that start before an offset, or at it, are the first one and one for each line feed before it. -/
theorem partitionPoint_lineStarts {front back : List Char} {stop : Nat} (hfront : byteLength front ≤ stop)
    (hback : ∀ c, back.head? = some c → stop < byteLength front + c.utf8Size) :
    partitionPoint (· ≤ stop) (0 :: lineStarts 0 (front ++ back)).toArray = front.count '\n' + 1 := by
  rw [lineStarts_append, Nat.zero_add, ← List.cons_append, partitionPoint_append]
  · rw [List.length_cons, length_lineStarts]
  · intro n hn
    rcases List.mem_cons.1 hn with rfl | hn
    · simp
    · have := (bounds_of_mem_lineStarts hn).2
      simp
      omega
  · intro n hn
    obtain ⟨⟨c, hc, hlow⟩, -⟩ := bounds_of_mem_lineStarts hn
    have := hback c hc
    simp
    omega

theorem getElem?_starts (front back : List Char) :
    (0 :: lineStarts 0 (front ++ back))[front.count '\n']? =
      some (byteLength (front.rdropWhile (· != '\n'))) := by
  rw [lineStarts_append, ← List.cons_append, List.getElem?_append_left (by simp [length_lineStarts]), getElem?_lineStarts]

/-- The line of a position starts behind the last line feed. -/
theorem slice?_line (front back : List Char) :
    slice? (front ++ back) (byteLength (front.rdropWhile (· != '\n'))) (byteLength front) =
      some (front.rtakeWhile (· != '\n')) := by
  have hslice := Markup.slice?_append (front.rdropWhile (· != '\n')) (front.rtakeWhile (· != '\n')) back rfl rfl
  rwa [← List.append_assoc, ← byteLength_append, List.rdropWhile_append_rtakeWhile] at hslice

theorem slice?_line_inside (front : List Char) {c : Char} (rest : List Char) {k : Nat} (hpos : 0 < k)
    (hk : k < c.utf8Size) :
    slice? (front ++ c :: rest) (byteLength (front.rdropWhile (· != '\n'))) (byteLength front + k) = none := by
  have hslice := slice?_inside (front.rdropWhile (· != '\n')) (front.rtakeWhile (· != '\n')) rest hpos hk
  rwa [← List.append_assoc, ← byteLength_append, List.rdropWhile_append_rtakeWhile] at hslice

/-- The table of the lines of a source has every position in it. -/
theorem position?_ofSource (source : List Char) (offset : Nat) :
    (LineTable.ofSource source).position? offset = some (locate source offset) := by
  obtain ⟨front, back, k, rfl, rfl, hback⟩ := exists_cut source offset
  rw [LineTable.position?, LineTable.ofSource]
  dsimp only
  rcases stop_cases front hback with ⟨hstop, hlocate⟩ | ⟨c, rest, rfl, hpos, hk, hstop, hlocate⟩ <;> rw [hstop]
  · have hnext (c : Char) (_ : back.head? = some c) : byteLength front < byteLength front + c.utf8Size :=
      Nat.lt_add_of_pos_right c.utf8Size_pos
    rw [partitionPoint_lineStarts le_rfl hnext, hlocate, behind_first, Nat.add_comm 1, Nat.add_comm 1]
    simp [getElem?_starts, slice?_line]
  · -- No text ends inside a character, so that the column is the first one.
    have hnext (d : Char) (hd : (c :: rest).head? = some d) : byteLength front + k < byteLength front + d.utf8Size :=
      Nat.add_lt_add_left (hback d hd) _
    rw [partitionPoint_lineStarts (Nat.le_add_right _ _) hnext, hlocate, behind_first, Nat.add_comm 1, Nat.add_comm 1]
    simp [getElem?_starts, slice?_line_inside front rest hpos hk]

/-! ## Line feeds among bytes -/

theorem count_utf8EncodeChar (c : Char) : (String.utf8EncodeChar c).count 10 = if c = '\n' then 1 else 0 := by
  by_cases hascii : c.toNat < 128
  · have hfeed : c.toUInt8 = 10 ↔ c = '\n' := by
      rw [← UInt8.toNat_inj, toNat_toUInt8 (by omega)]
      exact ⟨fun h => Char.ext (UInt32.toNat_inj.1 h), by rintro rfl; rfl⟩
    simp [utf8EncodeChar_ascii hascii, List.count_singleton, hfeed]
  · have hnot : c ≠ '\n' := by
      rintro rfl
      exact hascii (by decide)
    rw [if_neg hnot, List.count_eq_zero]
    intro hmem
    exact absurd (le_of_mem_utf8EncodeChar (Nat.le_of_not_lt hascii) 10 hmem) (by decide)

theorem count_utf8 (cs : List Char) : (utf8 cs).count 10 = cs.count '\n' := by
  induction cs with
  | nil => rfl
  | cons c cs ih => simp [List.count_append, count_utf8EncodeChar, ih, List.count_cons, Nat.add_comm]

/-- The first bytes of a character that takes more have no line feed among them. -/
theorem count_take_utf8 {cs : List Char} {k : Nat} (h : ∀ c, cs.head? = some c → k < c.utf8Size) :
    ((utf8 cs).take k).count 10 = 0 := by
  cases cs with
  | nil => simp
  | cons c cs =>
    have hk := h c rfl
    rw [utf8_cons, List.take_append_of_le_length (by simpa using Nat.le_of_lt hk), List.count_eq_zero]
    intro hmem
    by_cases hascii : c.toNat < 128
    · have hone := congrArg List.length (utf8EncodeChar_ascii hascii)
      rw [String.length_utf8EncodeChar] at hone
      obtain rfl : k = 0 := by simp at hone; omega
      simp at hmem
    · have hbyte := le_of_mem_utf8EncodeChar (Nat.le_of_not_lt hascii) 10 (List.mem_of_mem_take hmem)
      exact absurd hbyte (by decide)

/-- An offset is on the line that the line feeds among the bytes before it lead to. -/
theorem line_locate (source : List Char) (offset : Nat) :
    (locate source offset).line = 1 + ((utf8 source).take offset).count 10 := by
  obtain ⟨front, back, k, rfl, rfl, hback⟩ := exists_cut source offset
  have hline : (locate (front ++ back) (byteLength front + k)).line = (Position.first.behind front).line := by
    rcases stop_cases front hback with ⟨-, hlocate⟩ | ⟨c, rest, -, -, -, -, hlocate⟩ <;> rw [hlocate]
  rw [hline, behind_first, utf8_append, ← length_utf8, List.take_length_add_append, List.count_append, count_utf8,
    count_take_utf8 hback, Nat.add_zero]

/-- At a character, the line counts the line feeds before it and the column the characters behind the last of them, and
positions grow with the offset. The table of the lines gives a position for every offset, also inside of a character and
behind the end, and its line counts the line feeds among the bytes before the offset. -/
theorem locate_counts (source : List Char) :
    (∀ front back, source = front ++ back → locate source (byteLength front) =
      ⟨1 + front.count '\n', 1 + (front.rtakeWhile (· != '\n')).length⟩) ∧
    (∀ front middle back, source = front ++ (middle ++ back) → middle ≠ [] →
      (locate source (byteLength front)).Before (locate source (byteLength front + byteLength middle))) ∧
    ∀ offset, (LineTable.ofSource source).position? offset = some (locate source offset) ∧
      (locate source offset).line = 1 + ((utf8 source).take offset).count 10 := by
  refine ⟨?_, ?_, fun offset => ⟨position?_ofSource source offset, line_locate source offset⟩⟩
  · rintro front back rfl
    rw [locate_append, behind_first]
  · rintro front middle back rfl h
    exact locate_before h

end TemplateCompiler.Text

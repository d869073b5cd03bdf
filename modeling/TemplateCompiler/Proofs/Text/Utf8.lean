import TemplateCompiler.Text.Bytes
/-!
# Bytes of characters

The UTF-8 form of characters. A character of ASCII is one byte, which is its code, and no byte of another character is
one of these: where such a byte stands in a text, its character does.
-/

namespace TemplateCompiler.Text

/-- The UTF-8 form of characters. -/
def utf8 (cs : List Char) : List UInt8 :=
  cs.flatMap String.utf8EncodeChar

@[simp] theorem utf8_nil : utf8 [] = [] := rfl

@[simp] theorem utf8_cons (c : Char) (cs : List Char) : utf8 (c :: cs) = String.utf8EncodeChar c ++ utf8 cs := rfl

@[simp] theorem utf8_append (xs ys : List Char) : utf8 (xs ++ ys) = utf8 xs ++ utf8 ys :=
  List.flatMap_append

theorem length_utf8 (cs : List Char) : (utf8 cs).length = byteLength cs := by
  induction cs with
  | nil => rfl
  | cons c cs ih => simp [ih]

theorem toList_toUTF8 (text : String) : text.toUTF8.data.toList = utf8 text.toList := by
  have h := String.utf8Encode_toList (b := text)
  show text.toByteArray.data.toList = _
  rw [← h]
  simp [utf8, List.utf8Encode]

theorem utf8EncodeChar_ascii {c : Char} (h : c.toNat < 128) : String.utf8EncodeChar c = [c.toUInt8] := by
  have hsize : c.utf8Size = 1 := by
    rw [Char.utf8Size_eq_one_iff, UInt32.le_iff_toNat_le]
    exact Nat.le_of_lt_succ h
  rw [String.utf8EncodeChar_eq_singleton hsize]
  rfl

/-- The bytes of a character that is not of ASCII are not of ASCII either. -/
theorem le_of_mem_utf8EncodeChar {c : Char} (h : 128 ≤ c.toNat) : ∀ b ∈ String.utf8EncodeChar c, 128 ≤ b.toNat := by
  have hbig : ¬ c.val.toNat ≤ 127 := Nat.not_le.2 h
  simp only [String.utf8EncodeChar, if_neg hbig]
  split
  · simp only [List.forall_mem_cons, UInt8.toNat_ofNat', List.not_mem_nil, false_implies, implies_true, and_true]
    omega
  · split
    · simp only [List.forall_mem_cons, UInt8.toNat_ofNat', List.not_mem_nil, false_implies, implies_true, and_true]
      omega
    · simp only [List.forall_mem_cons, UInt8.toNat_ofNat', List.not_mem_nil, false_implies, implies_true, and_true]
      omega

theorem toNat_toUInt8 {c : Char} (h : c.toNat < 256) : c.toUInt8.toNat = c.toNat := by
  show c.val.toUInt8.toNat = c.val.toNat
  rw [UInt32.toNat_toUInt8]
  exact Nat.mod_eq_of_lt h

/-- A byte of ASCII in a text is a character of it. -/
theorem exists_of_utf8_eq {c : Char} (hc : c.toNat < 128) {cs : List Char} {front back : List UInt8}
    (h : utf8 cs = front ++ c.toUInt8 :: back) :
    ∃ before after, cs = before ++ c :: after ∧ utf8 before = front ∧ utf8 after = back := by
  induction cs generalizing front with
  | nil => simp at h
  | cons d cs ih =>
    rw [utf8_cons, List.append_eq_append_iff] at h
    rcases h with ⟨more, rfl, hmore⟩ | ⟨more, hd, hmore⟩
    · obtain ⟨before, after, rfl, rfl, rfl⟩ := ih hmore
      exact ⟨d :: before, after, rfl, rfl, rfl⟩
    · cases more with
      | nil =>
        obtain ⟨before, after, rfl, hbefore, rfl⟩ := @ih [] hmore.symm
        refine ⟨d :: before, after, rfl, ?_, rfl⟩
        rw [utf8_cons, hbefore, hd]
        simp
      | cons b more =>
        obtain ⟨rfl, rfl⟩ := List.cons.inj hmore
        have hlow : d.toNat < 128 := by
          refine Nat.lt_of_not_le fun hge => ?_
          have hle := le_of_mem_utf8EncodeChar hge c.toUInt8 (by simp [hd])
          rw [toNat_toUInt8 (by omega)] at hle
          omega
        rw [utf8EncodeChar_ascii hlow] at hd
        cases front with
        | nil =>
          obtain ⟨heq, rfl⟩ := List.cons.inj hd
          have hcd : d.toNat = c.toNat := by
            rw [← toNat_toUInt8 (c := d) (by omega), heq, toNat_toUInt8 (by omega)]
          obtain rfl : d = c := Char.ext (UInt32.toNat_inj.1 hcd)
          exact ⟨[], cs, rfl, rfl, rfl⟩
        | cons b front => simp at hd

end TemplateCompiler.Text

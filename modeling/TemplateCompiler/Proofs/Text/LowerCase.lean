import TemplateCompiler.Text.Bytes
/-!
# Small letters

Names in markup are compared in small letters. A capital letter of ASCII becomes a small one, every other character
stays as it is, and either way the character takes as many bytes as before.
-/

namespace TemplateCompiler.Text

theorem toLower_cases (c : Char) :
    c.toLower = c ∨ (65 ≤ c.toNat ∧ c.toNat ≤ 90 ∧ c.toLower.toNat = c.toNat + 32) := by
  by_cases h : 'A'.val ≤ c.val ∧ c.val ≤ 'Z'.val
  · right
    have h1 : 65 ≤ c.toNat := h.1
    have h2 : c.toNat ≤ 90 := h.2
    refine ⟨h1, h2, ?_⟩
    have hval : c.toLower.val = c.val + ('a'.val - 'A'.val) := by
      unfold Char.toLower
      rw [dif_pos h]
    show c.toLower.val.toNat = c.val.toNat + 32
    have hc : c.val.toNat = c.toNat := rfl
    rw [hval, UInt32.toNat_add]
    have hd : ('a'.val - 'A'.val).toNat = 32 := by decide
    omega
  · left
    unfold Char.toLower
    rw [dif_neg h]

/-- A character that is no small letter is the small form of itself alone. -/
theorem toLower_eq_iff {c d : Char} (hd : d.toNat < 97 ∨ 122 < d.toNat) (hcap : d.toNat < 65 ∨ 90 < d.toNat) :
    c.toLower = d ↔ c = d := by
  constructor
  · rintro rfl
    rcases toLower_cases c with h | ⟨h1, h2, h3⟩
    · exact h.symm
    · omega
  · rintro rfl
    rcases toLower_cases c with h | ⟨h1, h2, h3⟩
    · exact h
    · omega

@[simp] theorem toLower_toLower (c : Char) : c.toLower.toLower = c.toLower := by
  rcases toLower_cases c with h | ⟨h1, h2, h3⟩
  · rw [h, h]
  · rcases toLower_cases c.toLower with h' | ⟨h1', h2', h3'⟩
    · exact h'
    · omega

theorem utf8Size_toLower (c : Char) : c.toLower.utf8Size = c.utf8Size := by
  rcases toLower_cases c with h | ⟨h1, h2, h3⟩
  · rw [h]
  · have hc : c.utf8Size = 1 := Char.utf8Size_eq_one_iff.2 (UInt32.le_iff_toNat_le.2 (by
      show c.toNat ≤ 127
      omega))
    have hl : c.toLower.utf8Size = 1 := Char.utf8Size_eq_one_iff.2 (UInt32.le_iff_toNat_le.2 (by
      show c.toLower.toNat ≤ 127
      omega))
    rw [hc, hl]

theorem byteLength_map_toLower (cs : List Char) : byteLength (cs.map Char.toLower) = byteLength cs := by
  induction cs with
  | nil => rfl
  | cons c cs ih => simp [utf8Size_toLower, ih]

theorem byteLength_toList (s : String) : byteLength s.toList = s.utf8ByteSize := by
  have h : ∀ cs : List Char, (String.ofList cs).utf8ByteSize = byteLength cs := by
    intro cs
    induction cs with
    | nil => rfl
    | cons c cs ih => rw [String.ofList_cons, String.utf8ByteSize_append, String.utf8ByteSize_singleton, ih]; rfl
  rw [← h, String.ofList_toList]

end TemplateCompiler.Text

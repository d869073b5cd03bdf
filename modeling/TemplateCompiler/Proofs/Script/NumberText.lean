import TemplateCompiler.Proofs.Number.Shortest
import TemplateCompiler.Proofs.Script.Numerals
/-!
# Texts of numbers read back

The text of a finite magnitude is a decimal (`isDecimal_text`), and is read as a number with the same text wherever no
digit, letter or dot follows it (`next_text`).
-/

namespace TemplateCompiler.Script.Tree

open TemplateCompiler.Text TemplateCompiler.Number TemplateCompiler.Number.Binary64

/-! ## Positional digits -/

/-- Digits with a point stand for their value at the place of the point. -/
theorem exists_isDecimalOf_positional {digits : List Char} (hdigits : ∀ c ∈ digits, c.isDigit = true) (hne : digits ≠ [])
    (hhead : digits.head? ≠ some '0') (point : ℤ) :
    ∃ value power, IsDecimalOf (positional digits point) value power ∧
      (value : ℚ) * 10 ^ power = valueIn 10 digits * 10 ^ (point - digits.length) := by
  have hzeros (n : Nat) : ∀ c ∈ List.replicate n '0', c.isDigit = true := fun c hc => by
    rw [List.eq_of_mem_replicate hc]
    rfl
  unfold positional
  dsimp only
  split
  · rename_i hpoint
    have hwhole : IsWhole ['0'] := ⟨by simp, by simp, fun _ => rfl⟩
    have hfraction : ∀ c ∈ List.replicate (-point).toNat '0' ++ digits, c.isDigit = true :=
      fun c hc => (List.mem_append.1 hc).elim (hzeros _ c) (hdigits c)
    have hdecimal := IsDecimalOf.fraction hwhole hfraction
    refine ⟨_, _, hdecimal, ?_⟩
    · have hvalue : valueIn 10 (['0'] ++ (List.replicate (-point).toNat '0' ++ digits)) = valueIn 10 digits := by
        rw [← List.append_assoc, valueIn_append, show ['0'] = List.replicate 1 '0' from rfl, List.replicate_append_replicate,
          valueIn_replicate_zero, Nat.mul_zero, Nat.zero_add]
      rw [hvalue, List.length_append, List.length_replicate]
      congr 2
      push_cast
      omega
  · rename_i hpoint
    split
    · rename_i hlength
      refine ⟨_, _, .whole ⟨?_, by simp [hne], ?_⟩, ?_⟩
      · exact fun c hc => (List.mem_append.1 hc).elim (hdigits c) (hzeros _ c)
      · intro hzero
        obtain ⟨c, cs, rfl⟩ := List.exists_cons_of_ne_nil hne
        exact absurd hzero hhead
      · rw [valueIn_append, valueIn_replicate_zero, List.length_replicate, zpow_zero,
          show point - digits.length = ((point.toNat - digits.length : ℕ) : ℤ) by omega, zpow_natCast]
        push_cast
        ring
    · rename_i hlength
      refine ⟨_, _, .fraction ⟨fun c hc => hdigits c (List.mem_of_mem_take hc), ?_, fun hzero => ?_⟩
        (fun c hc => hdigits c (List.mem_of_mem_drop hc)), ?_⟩
      · rw [Ne, List.take_eq_nil_iff]
        rintro (hzero | hnil)
        · omega
        · exact hne hnil
      · rw [List.head?_take, if_neg (by omega)] at hzero
        exact absurd hzero hhead
      · rw [List.take_append_drop, List.length_drop]
        congr 2
        omega

/-! ## Magnitudes -/

/-- The digits of a magnitude are those of a number other than zero. -/
theorem shortestDigits_proper {m : ℕ} {e : ℤ} (hm : IsNormal m e) :
    (∀ c ∈ (shortestDigits m e).1, c.isDigit = true) ∧ (shortestDigits m e).1 ≠ [] ∧
      (shortestDigits m e).1.head? ≠ some '0' := by
  obtain ⟨n, count, point, hnear, heq⟩ := exists_shortestDigits hm
  have hn : n ≠ 0 := by
    rintro rfl
    simpa using hnear.pos hm.pos
  have hhead := head?_toDigits hn
  rw [← digitsOf] at hhead
  obtain ⟨k, hzeros⟩ := exists_zeros (digitsOf n)
  rw [heq]
  dsimp only
  generalize ((digitsOf n).reverse.dropWhile (· == '0')).reverse = kept at hzeros ⊢
  have hkept : kept ≠ [] := by
    rintro rfl
    cases k with
    | zero => exact Nat.toDigits_ne_nil hzeros
    | succ k => exact hhead (by rw [hzeros]; rfl)
  refine ⟨fun c hc => ?_, hkept, fun hzero => hhead ?_⟩
  · exact Render.isDigit_of_mem_toDigits c (by rw [← digitsOf, hzeros]; exact List.mem_append_left _ hc)
  · rw [hzeros, List.head?_append, hzero]
    rfl

/-- The text of a finite magnitude is a decimal that is rounded to a magnitude with the same text. -/
theorem exists_isDecimalOf_text {m : ℕ} {e : ℤ} (hm : m = 0 ∨ IsNormal m e) :
    ∃ digits power, IsDecimalOf (finite m e).text.toList digits power ∧
      (nearestDecimal digits power).text = (finite m e).text := by
  rcases hm with rfl | hm
  · have hzero (e : ℤ) : (finite 0 e).text = "0" := by simp [Binary64.text]
    have hnearest : nearestDecimal 0 0 = finite 0 0 := by simp [nearestDecimal]
    refine ⟨0, 0, ?_, by rw [hnearest, hzero, hzero]⟩
    rw [hzero]
    have hwhole : IsWhole ['0'] := ⟨by simp, by simp, fun _ => rfl⟩
    exact .whole hwhole
  · obtain ⟨hdigits, hne, hhead⟩ := shortestDigits_proper hm
    obtain ⟨value, power, hdecimal, hvalue⟩ := exists_isDecimalOf_positional hdigits hne hhead (shortestDigits m e).2
    have htext : (finite m e).text.toList = positional (shortestDigits m e).1 (shortestDigits m e).2 := by
      rw [Binary64.text, if_neg hm.pos.ne', String.toList_ofList]
    have hnear : IsNear (value * 10 ^ power) m e := hvalue ▸ isNear_shortestDigits hm
    exact ⟨value, power, htext ▸ hdecimal, by rw [nearestDecimal_eq hm hnear]⟩

theorem isDecimal_text {m : ℕ} {e : ℤ} (hm : m = 0 ∨ IsNormal m e) : IsDecimal (finite m e).text.toList := by
  obtain ⟨digits, power, hdecimal, -⟩ := exists_isDecimalOf_text hm
  exact hdecimal.isDecimal

/-- The text of a finite magnitude is read as a number with the same text. -/
theorem next_text {m : ℕ} {e : ℤ} (hm : m = 0 ∨ IsNormal m e) {rest : List Char} (hrest : EndsWord rest)
    (hdot : rest.head? ≠ some '.') :
    next ((finite m e).text.toList ++ rest) = some (.number (finite m e).text, rest) := by
  obtain ⟨digits, power, hdecimal, htext⟩ := exists_isDecimalOf_text hm
  rw [hdecimal.next hrest hdot, htext]

end TemplateCompiler.Script.Tree

import Mathlib.Data.List.DropRight
import TemplateCompiler.Number.Shortest
import TemplateCompiler.Proofs.Number.Nearest
import TemplateCompiler.Text.Hex
/-!
# The shortest decimal

The decimal that a magnitude is written as is one that the magnitude is near (`isNear_shortestDigits`). Seventeen digits
are always enough for one, so the search for the fewest does not come to its end without any.
-/

namespace TemplateCompiler.Number

open TemplateCompiler.Text Binary64

/-! ## Rounding intervals -/

namespace Binary64

theorem isNear_iff {x : ℚ} {m : ℕ} {e : ℤ} :
    IsNear x m e ↔
      if m % 2 = 0 then lowerEnd m e * 2 ^ e ≤ x ∧ x ≤ (m + 1 / 2) * 2 ^ e
      else lowerEnd m e * 2 ^ e < x ∧ x < (m + 1 / 2) * 2 ^ e := by
  split
  · rename_i heven
    exact ⟨fun h => ⟨h.above, h.below⟩, fun h => ⟨h.1, h.2, fun _ => heven⟩⟩
  · rename_i hodd
    refine ⟨fun h => ⟨?_, ?_⟩, fun h => ⟨h.1.le, h.2.le, ?_⟩⟩
    · exact lt_of_le_of_ne h.above fun heq => hodd (h.even (.inl heq.symm))
    · exact lt_of_le_of_ne h.below fun heq => hodd (h.even (.inr heq))
    · rintro (heq | heq)
      · exact absurd heq h.1.ne'
      · exact absurd heq h.2.ne

/-- What lies between the ends of a rounding interval is near its magnitude. -/
theorem isNear_of_lt {x : ℚ} {m : ℕ} {e : ℤ} (habove : lowerEnd m e * 2 ^ e < x) (hbelow : x < (m + 1 / 2) * 2 ^ e) :
    IsNear x m e := by
  rw [isNear_iff]
  split
  · exact ⟨habove.le, hbelow.le⟩
  · exact ⟨habove, hbelow⟩

end Binary64

/-- The ends of a rounding interval and its magnitude, over one denominator. -/
theorem exists_rounding {m : ℕ} (hm : 0 < m) (e : ℤ) :
    ∃ low value high den : ℕ, rounding m e = ((low, value, high), den) ∧ 0 < den ∧ 0 < value ∧
      (low : ℚ) / den = lowerEnd m e * 2 ^ e ∧ (value : ℚ) / den = m * 2 ^ e ∧
      (high : ℚ) / den = (m + 1 / 2) * 2 ^ e := by
  obtain ⟨low, hlow, hvalue⟩ : ∃ low : ℕ, (if m = Nat.pow 2 52 && -1074 < e then 4 * m - 1 else 4 * m - 2) = low ∧
      (low : ℚ) = 4 * lowerEnd m e := by
    refine ⟨_, rfl, ?_⟩
    simp only [lowerEnd, Nat.pow_eq, Bool.and_eq_true, decide_eq_true_eq]
    split
    · rw [Nat.cast_sub (by omega)]
      push_cast
      ring
    · rw [Nat.cast_sub (by omega)]
      push_cast
      ring
  unfold rounding
  simp only [hlow, Nat.pow_eq]
  split
  · rename_i hsmall
    have hpow : (2 : ℚ) ^ (2 - e).toNat = 4 / 2 ^ e := by
      rw [two_zpow_toNat (by omega), zpow_sub₀ two_ne_zero]
      norm_num
    have hne := (two_zpow_pos e).ne'
    refine ⟨_, _, _, _, rfl, Nat.pow_pos two_pos, by omega, ?_, ?_, ?_⟩
    · push_cast
      rw [hvalue, hpow]
      field_simp
    · push_cast
      rw [hpow]
      field_simp
    · push_cast
      rw [hpow]
      field_simp
      ring
  · rename_i hlarge
    have hpow : (2 : ℚ) ^ (e - 2).toNat = 2 ^ e / 4 := by
      rw [two_zpow_toNat (by omega), zpow_sub₀ two_ne_zero]
      norm_num
    refine ⟨_, _, _, _, rfl, one_pos, Nat.mul_pos (by omega) (Nat.pow_pos two_pos), ?_, ?_, ?_⟩
    · push_cast
      rw [hvalue, hpow]
      ring
    · push_cast
      rw [hpow]
      ring
    · push_cast
      rw [hpow]
      ring

/-! ## The place of the point -/

theorem ten_zpow_eq (a : ℤ) : (10 : ℚ) ^ a = 10 ^ a.toNat / 10 ^ (-a).toNat := by
  rcases le_total 0 a with h | h
  · rw [ten_zpow_toNat h, Int.toNat_of_nonpos (by omega), pow_zero, div_one]
  · rw [ten_zpow_toNat (show 0 ≤ -a by omega), Int.toNat_of_nonpos h, pow_zero, zpow_neg, one_div, inv_inv]

/-- The reciprocal of a ratio below one lies between two natural numbers that follow each other. -/
theorem exists_reciprocal {num den : ℕ} (hnum : 0 < num) (hlt : num < den) :
    ∃ c, (den + num - 1) / num - 1 = c ∧ c ≠ 0 ∧ c * num < den ∧ den ≤ (c + 1) * num := by
  obtain ⟨c, hc⟩ : ∃ c, (den + num - 1) / num - 1 = c := ⟨_, rfl⟩
  have hceil : c + 1 = (den + num - 1) / num := by
    have hpos : 0 < (den + num - 1) / num := Nat.div_pos (by omega) hnum
    omega
  have hbelow : c * num < den := by
    have := Nat.div_mul_le_self (den + num - 1) num
    rw [← hceil, Nat.succ_mul] at this
    omega
  have habove : den ≤ (c + 1) * num := by
    have := Nat.lt_mul_div_succ (den + num - 1) hnum
    rw [← hceil, Nat.mul_comm, Nat.succ_mul] at this
    omega
  refine ⟨c, hc, ?_, hbelow, habove⟩
  rintro rfl
  omega

/-- The point stands behind as many digits as the power of ten above the ratio says. -/
theorem pointOf_bounds {num den : ℕ} (hnum : 0 < num) (hden : 0 < den) :
    (10 : ℚ) ^ (pointOf num den - 1) ≤ num / den ∧ (num : ℚ) / den < 10 ^ pointOf num den := by
  have hpos : (0 : ℚ) < den := by exact_mod_cast hden
  unfold pointOf digitsOf
  split
  · rename_i hle
    obtain ⟨hlow, hhigh⟩ := toDigits_bounds (Nat.div_pos hle hden).ne'
    generalize (Nat.toDigits 10 (num / den)).length = size at hlow hhigh
    constructor
    · refine hlow.trans ?_
      rw [le_div_iff₀ hpos]
      exact_mod_cast Nat.div_mul_le_self num den
    · have hnext : num / den + 1 ≤ 10 ^ size := by
        rw [zpow_natCast] at hhigh
        exact_mod_cast hhigh
      rw [zpow_natCast, div_lt_iff₀ hpos]
      have hlt : num < 10 ^ size * den := Nat.lt_mul_of_div_lt (Nat.lt_of_succ_le hnext) hden
      exact_mod_cast hlt
  · rename_i hlt
    obtain ⟨c, hc, hne, hbelow, habove⟩ := exists_reciprocal hnum (not_le.1 hlt)
    obtain ⟨hlow, hhigh⟩ := toDigits_bounds hne
    rw [hc]
    generalize (Nat.toDigits 10 c).length = size at hlow hhigh
    have hnum : (0 : ℚ) < num := by exact_mod_cast hnum
    constructor
    · have hnext : c + 1 ≤ 10 ^ size := by
        rw [zpow_natCast] at hhigh
        exact_mod_cast hhigh
      have hle : den ≤ 10 ^ size * num := habove.trans (Nat.mul_le_mul_right _ hnext)
      rw [show (1 - size - 1 : ℤ) = -size by omega, zpow_neg, zpow_natCast, le_div_iff₀ hpos, inv_mul_le_iff₀ (by positivity)]
      exact_mod_cast hle
    · have hlt : (10 : ℚ) ^ (size - 1 : ℤ) * num < den :=
        (mul_le_mul_of_nonneg_right hlow hnum.le).trans_lt (by exact_mod_cast hbelow)
      rw [show (1 - size : ℤ) = -(size - 1) by omega, zpow_neg, div_lt_iff₀ hpos,
        lt_inv_mul_iff₀ (zpow_pos (by norm_num) _)]
      exact hlt

/-! ## The search -/

/-- A multiple of a power of ten and a ratio, over one denominator. -/
theorem grid_eq {den : ℕ} (hden : 0 < den) (shift : ℤ) (n k : ℕ) :
    (n : ℚ) * 10 ^ shift = (n * (den * 10 ^ shift.toNat) : ℕ) / (den * 10 ^ (-shift).toNat : ℕ) ∧
      (k : ℚ) / den = (k * 10 ^ (-shift).toNat : ℕ) / (den * 10 ^ (-shift).toNat : ℕ) := by
  have hpos : (0 : ℚ) < den := by exact_mod_cast hden
  constructor
  · rw [ten_zpow_eq]
    push_cast
    field_simp
  · push_cast
    field_simp

theorem grid_le_iff {den : ℕ} (hden : 0 < den) (shift : ℤ) (n k : ℕ) :
    n * (den * 10 ^ shift.toNat) ≤ k * 10 ^ (-shift).toNat ↔ (n : ℚ) * 10 ^ shift ≤ k / den := by
  have hover : (0 : ℚ) < (den * 10 ^ (-shift).toNat : ℕ) := by positivity
  rw [(grid_eq hden shift n k).1, (grid_eq hden shift n k).2, div_le_div_iff_of_pos_right hover, Nat.cast_le]

theorem le_grid_iff {den : ℕ} (hden : 0 < den) (shift : ℤ) (n k : ℕ) :
    k * 10 ^ (-shift).toNat ≤ n * (den * 10 ^ shift.toNat) ↔ (k : ℚ) / den ≤ n * 10 ^ shift := by
  have hover : (0 : ℚ) < (den * 10 ^ (-shift).toNat : ℕ) := by positivity
  rw [(grid_eq hden shift n k).1, (grid_eq hden shift n k).2, div_le_div_iff_of_pos_right hover, Nat.cast_le]

/-- The digits that the search tries at a length: the two next to the magnitude. A number that it hands out is one that
the magnitude is near, and if it hands out none, neither of the two is. -/
theorem digitsOfLength?_spec {m : ℕ} (hm : 0 < m) (e point : ℤ) (count : ℕ) :
    ∃ down : ℕ, (down : ℚ) * 10 ^ (point - count) ≤ m * 2 ^ e ∧ (m : ℚ) * 2 ^ e < (down + 1) * 10 ^ (point - count) ∧
      match digitsOfLength? m e point count with
      | some n => IsNear (n * 10 ^ (point - count)) m e
      | none => ¬ IsNear (down * 10 ^ (point - count)) m e ∧ ¬ IsNear ((down + 1 : ℕ) * 10 ^ (point - count)) m e := by
  obtain ⟨low, value, high, den, hrounding, hden, -, hlow, hvalue, hhigh⟩ := exists_rounding hm e
  generalize hshift : point - (count : ℤ) = shift
  have hle := grid_le_iff hden shift
  have hge := le_grid_iff hden shift
  have hstepPos : 0 < den * 10 ^ shift.toNat := Nat.mul_pos hden (Nat.pow_pos (by decide))
  generalize hunit : 10 ^ (-shift).toNat = unit at hle hge
  generalize hstep : den * 10 ^ shift.toNat = step at hle hge hstepPos
  obtain ⟨inside, hinside⟩ : ∃ inside : ℕ → Bool, inside = fun n =>
      if m % 2 = 0 then decide (low * unit ≤ n * step) && decide (n * step ≤ high * unit)
      else decide (low * unit < n * step) && decide (n * step < high * unit) := ⟨_, rfl⟩
  have hnear (n : ℕ) : inside n = true ↔ IsNear (n * 10 ^ shift) m e := by
    rw [hinside, isNear_iff, ← hlow, ← hhigh]
    dsimp only
    split
    · simp only [Bool.and_eq_true, decide_eq_true_eq, hle, hge]
    · simp only [Bool.and_eq_true, decide_eq_true_eq, ← not_le, hle, hge]
  obtain ⟨nearDown, hsearch⟩ : ∃ nearDown : Bool, digitsOfLength? m e point count =
      if inside (value * unit / step) && (nearDown || !inside (value * unit / step + 1)) then
        some (value * unit / step)
      else if inside (value * unit / step + 1) then some (value * unit / step + 1) else none := by
    refine ⟨2 * (value * unit % step) < step, ?_⟩
    unfold digitsOfLength?
    simp only [hrounding, hshift, Nat.pow_eq, hunit, hstep, hinside]
  refine ⟨value * unit / step, ?_, ?_, ?_⟩
  · rw [← hvalue, ← hle]
    exact Nat.div_mul_le_self _ _
  · rw [← hvalue, ← Nat.cast_succ, ← not_le, ← hle, not_le]
    exact Nat.lt_mul_of_div_lt (Nat.lt_succ_self _) hstepPos
  · rw [hsearch]
    split_ifs with hdown hup
    · exact (hnear _).1 (Bool.and_eq_true_iff.1 hdown).1
    · exact (hnear _).1 hup
    · refine ⟨fun h => hdown ?_, fun h => hup ((hnear _).2 h)⟩
      rw [(hnear _).2 h, Bool.eq_false_iff.2 hup, Bool.not_false, Bool.or_true, Bool.true_and]

/-- A rounding interval is wider than what one digit behind seventeen of them counts. -/
theorem lt_width {m : ℕ} (hm : m < 2 ^ 53) (e : ℤ) : (m : ℚ) < 10 ^ 16 * (m + 1 / 2 - lowerEnd m e) := by
  have hlt : (m : ℚ) < 2 ^ 53 := by exact_mod_cast hm
  unfold lowerEnd
  split
  · rename_i hpower
    rw [hpower.1]
    norm_num
  · linarith

/-- Seventeen digits are enough. -/
theorem digitsOfLength?_ne_none {m : ℕ} {e point : ℤ} (hm : IsNormal m e) (hpoint : (10 : ℚ) ^ (point - 1) ≤ m * 2 ^ e) :
    digitsOfLength? m e point 17 ≠ none := by
  intro hnone
  obtain ⟨down, hdown, hup, hspec⟩ := digitsOfLength?_spec hm.pos e point 17
  rw [hnone] at hspec
  obtain ⟨hfar, hfar'⟩ := hspec
  have hpow := two_zpow_pos e
  have hlower : lowerEnd m e * 2 ^ e < m * 2 ^ e :=
    mul_lt_mul_of_pos_right (by have := (le_lowerEnd m e).2; linarith) hpow
  have hupper : (m : ℚ) * 2 ^ e < (m + 1 / 2) * 2 ^ e := mul_lt_mul_of_pos_right (by linarith) hpow
  -- The two numbers next to the magnitude lie outside of the interval, which is no wider than a step then.
  have hbelow : (down : ℚ) * 10 ^ (point - (17 : ℕ)) ≤ lowerEnd m e * 2 ^ e := by
    by_contra hlt
    exact hfar (isNear_of_lt (not_le.1 hlt) (hdown.trans_lt hupper))
  have habove : ((m : ℚ) + 1 / 2) * 2 ^ e ≤ (down + 1) * 10 ^ (point - (17 : ℕ)) := by
    by_contra hlt
    exact hfar' (isNear_of_lt (by push_cast; exact hlower.trans hup) (by push_cast; exact not_le.1 hlt))
  have hstep : (10 : ℚ) ^ 16 * 10 ^ (point - (17 : ℕ)) ≤ m * 2 ^ e := by
    refine le_of_eq_of_le ?_ hpoint
    rw [← zpow_natCast, ← ten_zpow_add]
    congr 1
    omega
  have hwide := mul_lt_mul_of_pos_right (lt_width hm.lt e) hpow
  generalize (10 : ℚ) ^ (point - (17 : ℕ)) = step at hbelow habove hstep
  linarith

/-! ## The value of digits -/

theorem foldl_valueIn (base start : ℕ) (digits : List Char) :
    digits.foldl (fun n c => base * n + (hexValue? c).getD 0) start = base ^ digits.length * start + valueIn base digits := by
  induction digits generalizing start with
  | nil => simp [valueIn]
  | cons c digits ih =>
    have hvalue : valueIn base (c :: digits) = base ^ digits.length * (hexValue? c).getD 0 + valueIn base digits := by
      rw [valueIn, List.foldl_cons, ih, Nat.mul_zero, Nat.zero_add]
    rw [List.foldl_cons, ih, hvalue, List.length_cons]
    ring

theorem valueIn_append (base : ℕ) (digits more : List Char) :
    valueIn base (digits ++ more) = base ^ more.length * valueIn base digits + valueIn base more := by
  rw [valueIn, List.foldl_append, foldl_valueIn base (digits.foldl _ 0) more]
  rfl

theorem valueIn_replicate_zero (base k : ℕ) : valueIn base (List.replicate k '0') = 0 := by
  have hzero : hexValue? '0' = some 0 := rfl
  induction k with
  | zero => rfl
  | succ k ih =>
    rw [List.replicate_succ', valueIn_append, ih]
    simp [valueIn, hzero]

theorem valueIn_digitsOf (n : ℕ) : valueIn 10 (digitsOf n) = n := by
  have hvalue : ∀ digits : List Char, (∀ c ∈ digits, c.isDigit = true) → ∀ start,
      digits.foldl (fun n c => 10 * n + (hexValue? c).getD 0) start = Nat.ofDigitChars 10 digits start := by
    intro digits hdigits
    induction digits with
    | nil => exact fun start => rfl
    | cons c digits ih =>
      intro start
      have hc : hexValue? c = some (c.toNat - 48) := if_pos (hdigits c List.mem_cons_self)
      rw [List.foldl_cons, ih fun d hd => hdigits d (List.mem_cons_of_mem c hd), hc]
      rfl
  exact (hvalue _ (fun c hc => Nat.isDigit_of_mem_toDigits (by decide) (by decide) hc) 0).trans Nat.ofDigitChars_ten_toDigits

/-- Digits without the zeros at their end. -/
theorem exists_zeros (digits : List Char) :
    ∃ k, digits = (digits.reverse.dropWhile (· == '0')).reverse ++ List.replicate k '0' := by
  refine ⟨(digits.rtakeWhile (· == '0')).length, ?_⟩
  have hzeros : digits.rtakeWhile (· == '0') = List.replicate (digits.rtakeWhile (· == '0')).length '0' :=
    List.eq_replicate_of_mem fun c hc => by simpa using List.mem_rtakeWhile_imp hc
  rw [← hzeros]
  exact List.rdropWhile_append_rtakeWhile.symm

/-! ## The decimal -/

/-- The decimal that stands for a magnitude is a number of some length that the magnitude is near. -/
theorem exists_shortestDigits {m : ℕ} {e : ℤ} (hm : IsNormal m e) :
    ∃ (n count : ℕ) (point : ℤ), IsNear (n * 10 ^ (point - count)) m e ∧
      shortestDigits m e = (((digitsOf n).reverse.dropWhile (· == '0')).reverse, point + ((digitsOf n).length - count)) := by
  obtain ⟨low, value, high, den, hrounding, hden, hpos, -, hvalue, -⟩ := exists_rounding hm.pos e
  have hpoint := (pointOf_bounds hpos hden).1
  rw [hvalue] at hpoint
  unfold shortestDigits
  simp only [hrounding]
  split
  · rename_i count n hfound
    obtain ⟨i, -, hi⟩ := List.exists_of_findSome?_eq_some hfound
    obtain ⟨n', hn, heq⟩ := Option.map_eq_some_iff.1 hi
    obtain ⟨rfl, rfl⟩ := Prod.mk.inj heq
    obtain ⟨_, -, -, hnear⟩ := digitsOfLength?_spec hm.pos e (pointOf value den) (i + 1)
    rw [hn] at hnear
    exact ⟨n', i + 1, _, hnear, rfl⟩
  · rename_i hnone
    rw [List.findSome?_eq_none_iff] at hnone
    have hlast := hnone 16 (by decide)
    exact absurd (Option.map_eq_none_iff.1 hlast) (digitsOfLength?_ne_none hm hpoint)

/-- The decimal that stands for a magnitude is one that the magnitude is near. -/
theorem isNear_shortestDigits {m : ℕ} {e : ℤ} (hm : IsNormal m e) :
    IsNear (valueIn 10 (shortestDigits m e).1 * 10 ^ ((shortestDigits m e).2 - (shortestDigits m e).1.length)) m e := by
  obtain ⟨n, count, point, hnear, hdigits⟩ := exists_shortestDigits hm
  obtain ⟨k, hzeros⟩ := exists_zeros (digitsOf n)
  rw [hdigits]
  generalize ((digitsOf n).reverse.dropWhile (· == '0')).reverse = kept at hzeros
  have hvalue : n = 10 ^ k * valueIn 10 kept := by
    rw [← valueIn_digitsOf n, hzeros, valueIn_append, valueIn_replicate_zero, List.length_replicate, Nat.add_zero]
  have hlength : (digitsOf n).length = kept.length + k := by
    rw [hzeros, List.length_append, List.length_replicate]
  convert hnear using 1
  rw [hlength, show (point + ((kept.length + k : ℕ) - count) - kept.length : ℤ) = k + (point - count) by push_cast; omega,
    ten_zpow_add, zpow_natCast]
  calc (valueIn 10 kept : ℚ) * (10 ^ k * 10 ^ (point - count))
      = (10 ^ k * valueIn 10 kept : ℕ) * 10 ^ (point - count) := by push_cast; ring
    _ = n * 10 ^ (point - count) := by rw [← hvalue]

end TemplateCompiler.Number

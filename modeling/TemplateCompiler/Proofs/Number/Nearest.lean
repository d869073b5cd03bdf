import Mathlib.Algebra.Order.Field.Power
import Mathlib.Algebra.Order.Field.Rat
import Mathlib.Tactic.FieldSimp
import Mathlib.Tactic.Linarith
import Mathlib.Tactic.NormNum
import Mathlib.Tactic.Positivity
import Mathlib.Tactic.Ring
import TemplateCompiler.Number.Binary64
/-!
# The nearest magnitude

`nearest` takes a ratio to the magnitude whose rounding interval it lies in (`nearest_eq`), and to the infinite one
exactly if it is too large for all others (`isResult_nearest`).
-/

namespace TemplateCompiler.Number.Binary64

/-! ## Rounding to natural numbers -/

/-- No natural number is nearer to `x` than `m`, and `m` is the even one of two that are equally near. -/
structure RoundsTo (x : ℚ) (m : ℕ) : Prop where
  above : (m : ℚ) - 1 / 2 ≤ x
  below : x ≤ m + 1 / 2
  even : x = m - 1 / 2 ∨ x = m + 1 / 2 → m % 2 = 0

theorem RoundsTo.le {x : ℚ} {m m' : ℕ} (h : RoundsTo x m) (h' : RoundsTo x m') : m ≤ m' := by
  by_contra hlt
  rw [Nat.not_le] at hlt
  have hstep : (m' : ℚ) + 1 ≤ m := by exact_mod_cast hlt
  have habove := h.above
  have hbelow := h'.below
  have heven := h.even (.inl (by linarith))
  have heven' := h'.even (.inr (by linarith))
  have hnext : (m : ℚ) = m' + 1 := by linarith
  have hnext : m = m' + 1 := by exact_mod_cast hnext
  omega

theorem RoundsTo.unique {x : ℚ} {m m' : ℕ} (h : RoundsTo x m) (h' : RoundsTo x m') : m = m' :=
  Nat.le_antisymm (h.le h') (h'.le h)

theorem roundsTo_roundHalfEven (num : ℕ) {den : ℕ} (h : 0 < den) :
    RoundsTo ((num : ℚ) / den) (roundHalfEven num den) := by
  have hden : (0 : ℚ) < den := by exact_mod_cast h
  have hlt : num % den < den := Nat.mod_lt num h
  have hratio : (num : ℚ) / den = (num / den : ℕ) + (num % den : ℕ) / den := by
    have hnum : (num : ℚ) = den * (num / den : ℕ) + (num % den : ℕ) := by
      exact_mod_cast (Nat.div_add_mod num den).symm
    field_simp
    linarith
  rw [hratio]
  unfold roundHalfEven
  generalize num / den = q
  generalize num % den = r at hlt
  have hnonneg : (0 : ℚ) ≤ r / den := by positivity
  have hone : (r : ℚ) / den < 1 := by
    rw [div_lt_one hden]
    exact_mod_cast hlt
  have hless : (r : ℚ) / den < 1 / 2 ↔ 2 * r < den := by
    rw [div_lt_div_iff₀ hden two_pos, ← Nat.cast_lt (α := ℚ)]
    push_cast
    constructor <;> intro h <;> linarith
  have hmore : 1 / 2 < (r : ℚ) / den ↔ den < 2 * r := by
    rw [div_lt_div_iff₀ two_pos hden, ← Nat.cast_lt (α := ℚ)]
    push_cast
    constructor <;> intro h <;> linarith
  have hnext : ((q + 1 : ℕ) : ℚ) = q + 1 := by push_cast; ring
  dsimp only
  split_ifs with hdown hup heven
  · have hdown := hless.2 hdown
    refine ⟨by linarith, by linarith, ?_⟩
    rintro (h | h) <;> linarith
  · have hup := hmore.2 hup
    refine ⟨by linarith, by linarith, ?_⟩
    rintro (h | h) <;> linarith
  · have hhalf : (r : ℚ) / den = 1 / 2 := le_antisymm (not_lt.1 (hmore.not.2 hup)) (not_lt.1 (hless.not.2 hdown))
    exact ⟨by linarith, by linarith, fun _ => heven⟩
  · have hhalf : (r : ℚ) / den = 1 / 2 := le_antisymm (not_lt.1 (hmore.not.2 hup)) (not_lt.1 (hless.not.2 hdown))
    exact ⟨by linarith, by linarith, fun _ => by omega⟩

/-! ## Exponents -/

theorem two_zpow_pos (e : ℤ) : (0 : ℚ) < 2 ^ e :=
  zpow_pos two_pos e

theorem two_zpow_add (e k : ℤ) : (2 : ℚ) ^ (e + k) = 2 ^ e * 2 ^ k :=
  zpow_add₀ two_ne_zero e k

theorem two_zpow_toNat {e : ℤ} (h : 0 ≤ e) : (2 : ℚ) ^ e.toNat = 2 ^ e := by
  rw [← zpow_natCast, Int.toNat_of_nonneg h]

theorem scale_pos (num : ℕ) {den : ℕ} (h : 0 < den) (e : ℤ) : 0 < (scale num den e).2 := by
  unfold scale
  split
  · exact h
  · exact Nat.mul_pos h (Nat.pow_pos two_pos)

theorem scale_ratio (num : ℕ) {den : ℕ} (h : 0 < den) (e : ℤ) :
    ((scale num den e).1 : ℚ) / (scale num den e).2 = num / den / 2 ^ e := by
  have hden : (den : ℚ) ≠ 0 := by exact_mod_cast h.ne'
  have hpow := (two_zpow_pos e).ne'
  unfold scale
  split
  · rename_i hneg
    have hk : (2 : ℚ) ^ (-e).toNat = (2 ^ e)⁻¹ := by rw [two_zpow_toNat (by omega), zpow_neg]
    simp only [Nat.pow_eq]
    push_cast
    rw [hk]
    field_simp
  · rename_i hneg
    simp only [Nat.pow_eq]
    push_cast
    rw [two_zpow_toNat (by omega), div_div]

/-- The exponent at which `x` has 53 bits before the point, or the least one if it has fewer there. -/
structure IsExponent (x : ℚ) (e : ℤ) : Prop where
  least : -1074 ≤ e
  below : x < 2 ^ (e + 53)
  full : e = -1074 ∨ 2 ^ (e + 52) ≤ x

theorem IsExponent.le {x : ℚ} {e e' : ℤ} (h : IsExponent x e) (h' : IsExponent x e') : e ≤ e' := by
  rcases h.full with rfl | hfull
  · exact h'.least
  · have hlt := (zpow_lt_zpow_iff_right₀ one_lt_two).1 (hfull.trans_lt h'.below)
    omega

theorem IsExponent.unique {x : ℚ} {e e' : ℤ} (h : IsExponent x e) (h' : IsExponent x e') : e = e' :=
  Int.le_antisymm (h.le h') (h'.le h)

theorem log2_bounds {n : ℕ} (h : n ≠ 0) : (2 : ℚ) ^ (n.log2 : ℤ) ≤ n ∧ (n : ℚ) < 2 ^ ((n.log2 : ℤ) + 1) := by
  constructor
  · rw [zpow_natCast]
    exact_mod_cast Nat.log2_self_le h
  · have hlt : n < 2 ^ (n.log2 + 1) := Nat.lt_log2_self
    rw [← Nat.cast_succ, zpow_natCast]
    exact_mod_cast hlt

/-- The size of a ratio, by the bits of its terms. -/
theorem ratio_bounds {num den : ℕ} (hnum : num ≠ 0) (hden : 0 < den) :
    (2 : ℚ) ^ ((num.log2 : ℤ) - den.log2 - 1) ≤ num / den ∧ (num : ℚ) / den < 2 ^ ((num.log2 : ℤ) - den.log2 + 1) := by
  have hpos : (0 : ℚ) < den := by exact_mod_cast hden
  obtain ⟨hnumLow, hnumHigh⟩ := log2_bounds hnum
  obtain ⟨hdenLow, hdenHigh⟩ := log2_bounds hden.ne'
  constructor
  · rw [le_div_iff₀ hpos]
    calc (2 : ℚ) ^ ((num.log2 : ℤ) - den.log2 - 1) * den
        ≤ 2 ^ ((num.log2 : ℤ) - den.log2 - 1) * 2 ^ ((den.log2 : ℤ) + 1) :=
          mul_le_mul_of_nonneg_left hdenHigh.le (two_zpow_pos _).le
      _ = 2 ^ (num.log2 : ℤ) := by rw [← two_zpow_add]; congr 1; omega
      _ ≤ num := hnumLow
  · rw [div_lt_iff₀ hpos]
    calc (num : ℚ) < 2 ^ ((num.log2 : ℤ) + 1) := hnumHigh
      _ = 2 ^ ((num.log2 : ℤ) - den.log2 + 1) * 2 ^ (den.log2 : ℤ) := by rw [← two_zpow_add]; congr 1; omega
      _ ≤ 2 ^ ((num.log2 : ℤ) - den.log2 + 1) * den := mul_le_mul_of_nonneg_left hdenLow (two_zpow_pos _).le

theorem isExponent_exponentOf {num den : ℕ} (hnum : num ≠ 0) (hden : 0 < den) :
    IsExponent ((num : ℚ) / den) (exponentOf num den) := by
  obtain ⟨hlow, hhigh⟩ := ratio_bounds hnum hden
  unfold exponentOf
  generalize he : (num.log2 : ℤ) - (den.log2 : ℤ) - 52 = e
  have hsmall : (scale num den e).1 / (scale num den e).2 < 2 ^ 52 ↔ (num : ℚ) / den < 2 ^ (e + 52) := by
    have hscale : (0 : ℚ) < (scale num den e).2 := by exact_mod_cast scale_pos num hden e
    have hbits : (num : ℚ) / den / 2 ^ e < 2 ^ (52 : ℤ) ↔ (num : ℚ) / den < 2 ^ (e + 52) := by
      rw [div_lt_iff₀ (two_zpow_pos e), ← two_zpow_add, add_comm]
    rw [Nat.div_lt_iff_lt_mul (scale_pos num hden e), ← hbits, ← scale_ratio num hden e, div_lt_iff₀ hscale]
    norm_cast
  dsimp only
  -- The estimate `e` is right or one too large.
  have hchoice : ∃ e' : ℤ, (if (scale num den e).1 / (scale num den e).2 < Nat.pow 2 52 then e - 1 else e) = e' ∧
      (num : ℚ) / den < 2 ^ (e' + 53) ∧ 2 ^ (e' + 52) ≤ (num : ℚ) / den := by
    rw [Nat.pow_eq]
    split_ifs with hcase
    · refine ⟨e - 1, rfl, ?_, ?_⟩
      · have := hsmall.1 hcase
        rwa [show e - 1 + 53 = e + 52 by omega]
      · rwa [show e - 1 + 52 = (num.log2 : ℤ) - den.log2 - 1 by omega]
    · refine ⟨e, rfl, ?_, ?_⟩
      · rwa [show e + 53 = (num.log2 : ℤ) - den.log2 + 1 by omega]
      · exact not_lt.1 (hsmall.not.1 hcase)
  obtain ⟨e', heq, hbelow, hfull⟩ := hchoice
  rw [heq]
  rcases le_total (-1074) e' with hle | hle
  · rw [max_eq_left hle]
    exact ⟨hle, hbelow, .inr hfull⟩
  · rw [max_eq_right hle]
    refine ⟨le_refl _, hbelow.trans_le ?_, .inl rfl⟩
    exact zpow_le_zpow_right₀ one_le_two (by omega)

/-! ## Rounding to magnitudes -/

/-- The result of rounding, if the ratio is rounded to `m` at the exponent `e`. -/
theorem nearest_of_exponent {num den m : ℕ} {e : ℤ} (hnum : num ≠ 0) (hden : 0 < den)
    (he : IsExponent ((num : ℚ) / den) e) (hm : RoundsTo ((num : ℚ) / den / 2 ^ e) m) :
    nearest num den =
      if m = 2 ^ 53 then if 970 < e then .infinite else .finite (2 ^ 52) (e + 1)
      else if 971 < e then .infinite else .finite m e := by
  have hexponent : exponentOf num den = e := (isExponent_exponentOf hnum hden).unique he
  have hround : roundHalfEven (scale num den e).1 (scale num den e).2 = m := by
    have hrounds := roundsTo_roundHalfEven (scale num den e).1 (scale_pos num hden e)
    rw [scale_ratio num hden e] at hrounds
    exact hrounds.unique hm
  unfold nearest
  simp only [if_neg hnum, hexponent, hround, Nat.pow_eq]
  by_cases hcarry : m = 2 ^ 53
  · have hiff : 971 < e + 1 ↔ 970 < e := by omega
    simp only [hcarry, if_true, hiff]
  · simp only [hcarry, if_false]

theorem RoundsTo.le_of_lt {x : ℚ} {m n : ℕ} (h : RoundsTo x m) (hx : x < n) : m ≤ n := by
  have hle : (m : ℚ) < (n + 1 : ℕ) := by
    have := h.above
    push_cast
    linarith
  exact Nat.le_of_lt_succ (by exact_mod_cast hle)

/-- A magnitude other than zero as it is kept: it has 53 bits, or the least exponent. -/
structure IsNormal (m : ℕ) (e : ℤ) : Prop where
  pos : 0 < m
  lt : m < 2 ^ 53
  least : -1074 ≤ e
  most : e ≤ 971
  full : e = -1074 ∨ 2 ^ 52 ≤ m

/-- The lower end of what is rounded to `m · 2^e`, in units of `2^e`. The gap below a power of two is half as wide as the
one above. -/
def lowerEnd (m : ℕ) (e : ℤ) : ℚ :=
  if m = 2 ^ 52 ∧ -1074 < e then m - 1 / 4 else m - 1 / 2

/-- No magnitude is nearer to `x` than `m · 2^e`, and it is the even one of two that are equally near. -/
structure IsNear (x : ℚ) (m : ℕ) (e : ℤ) : Prop where
  above : lowerEnd m e * 2 ^ e ≤ x
  below : x ≤ (m + 1 / 2) * 2 ^ e
  even : x = lowerEnd m e * 2 ^ e ∨ x = (m + 1 / 2) * 2 ^ e → m % 2 = 0

theorem le_lowerEnd (m : ℕ) (e : ℤ) : (m : ℚ) - 1 / 2 ≤ lowerEnd m e ∧ lowerEnd m e ≤ m - 1 / 4 := by
  unfold lowerEnd
  split <;> constructor <;> linarith

theorem IsNear.pos {x : ℚ} {m : ℕ} {e : ℤ} (h : IsNear x m e) (hm : 0 < m) : 0 < x := by
  have hone : (1 : ℚ) ≤ m := by exact_mod_cast hm
  have hlower : 0 < lowerEnd m e := by
    have := (le_lowerEnd m e).1
    linarith
  exact (mul_pos hlower (two_zpow_pos e)).trans_le h.above

/-- What is near a magnitude, in units of `2^e`. -/
theorem IsNear.scaled {x : ℚ} {m : ℕ} {e : ℤ} (h : IsNear x m e) : lowerEnd m e ≤ x / 2 ^ e ∧ x / 2 ^ e ≤ m + 1 / 2 :=
  ⟨(le_div_iff₀ (two_zpow_pos e)).2 h.above, (div_le_iff₀ (two_zpow_pos e)).2 h.below⟩

theorem IsNear.roundsTo {x : ℚ} {m : ℕ} {e : ℤ} (h : IsNear x m e) : RoundsTo (x / 2 ^ e) m := by
  have hpow := two_zpow_pos e
  obtain ⟨habove, hbelow⟩ := h.scaled
  have hlower := (le_lowerEnd m e).1
  refine ⟨by linarith, hbelow, ?_⟩
  rintro (heq | heq)
  · exact h.even (.inl ((div_eq_iff hpow.ne').1 (by linarith)))
  · exact h.even (.inr ((div_eq_iff hpow.ne').1 heq))

theorem IsNear.isExponent {x : ℚ} {m : ℕ} {e : ℤ} (h : IsNear x m e) (hm : IsNormal m e)
    (hfull : e = -1074 ∨ 2 ^ (e + 52) ≤ x) : IsExponent x e := by
  have hlt : (m : ℚ) + 1 ≤ 2 ^ 53 := by exact_mod_cast hm.lt
  refine ⟨hm.least, ?_, hfull⟩
  rw [add_comm, two_zpow_add]
  refine (div_lt_iff₀ (two_zpow_pos e)).1 (lt_of_le_of_lt h.scaled.2 ?_)
  rw [show (2 : ℚ) ^ (53 : ℤ) = 2 ^ 53 from rfl]
  linarith

/-- What is near a power of two and lies below it has one bit more at the exponent below, and is rounded up to the power. -/
theorem IsNear.carries {x : ℚ} {m : ℕ} {e : ℤ} (h : IsNear x m e) (hm : IsNormal m e) (hleast : -1074 < e)
    (hless : x < 2 ^ (e + 52)) : m = 2 ^ 52 ∧ IsExponent x (e - 1) ∧ RoundsTo (x / 2 ^ (e - 1)) (2 ^ 53) := by
  have hpow := two_zpow_pos e
  obtain ⟨habove, -⟩ := h.scaled
  have hless : x / 2 ^ e < 2 ^ 52 := by
    rw [div_lt_iff₀ hpow]
    rwa [add_comm, two_zpow_add] at hless
  have hpower : m = 2 ^ 52 := by
    by_contra hne
    have hfull : 2 ^ 52 ≤ m := hm.full.resolve_left hleast.ne'
    have hmore : (2 : ℚ) ^ 52 + 1 ≤ m := by exact_mod_cast Nat.lt_of_le_of_ne hfull (Ne.symm hne)
    have := (le_lowerEnd m e).1
    linarith
  subst hpower
  have hlower : lowerEnd (2 ^ 52) e = 2 ^ 52 - 1 / 4 := by
    rw [lowerEnd, if_pos ⟨rfl, hleast⟩]
    norm_num
  rw [hlower] at habove
  refine ⟨rfl, ⟨by omega, ?_, .inr ?_⟩, ?_⟩
  · rw [show e - 1 + 53 = 52 + e by omega, two_zpow_add]
    exact (div_lt_iff₀ hpow).1 hless
  · rw [show e - 1 + 52 = 51 + e by omega, two_zpow_add]
    refine (le_div_iff₀ hpow).1 (le_trans ?_ habove)
    norm_num
  · have htwice : x / 2 ^ (e - 1) = 2 * (x / 2 ^ e) := by
      rw [zpow_sub_one₀ two_ne_zero]
      field_simp
    rw [htwice]
    refine ⟨?_, ?_, fun _ => by norm_num⟩
    · push_cast
      linarith
    · push_cast
      linarith

/-- A ratio is rounded to the magnitude that it is near. -/
theorem nearest_eq {num den m : ℕ} {e : ℤ} (hden : 0 < den) (hm : IsNormal m e)
    (h : IsNear ((num : ℚ) / den) m e) : nearest num den = .finite m e := by
  have hnum : num ≠ 0 := by
    rintro rfl
    simpa using h.pos hm.pos
  have hmost := hm.most
  by_cases hfull : e = -1074 ∨ 2 ^ (e + 52) ≤ (num : ℚ) / den
  · have hm53 : m ≠ 2 ^ 53 := hm.lt.ne
    rw [nearest_of_exponent hnum hden (h.isExponent hm hfull) h.roundsTo, if_neg hm53, if_neg (not_lt.2 hmost)]
  · obtain ⟨hne, hless⟩ := not_or.1 hfull
    have hleast : -1074 < e := lt_of_le_of_ne hm.least (Ne.symm hne)
    obtain ⟨rfl, hexponent, hrounds⟩ := h.carries hm hleast (not_le.1 hless)
    rw [nearest_of_exponent hnum hden hexponent hrounds, if_pos rfl, if_neg (by omega), Int.sub_add_cancel]

/-- The least ratio that is too large for every finite magnitude: it is halfway from the largest one to the power of two
behind it. -/
def limit : ℚ := (2 ^ 53 - 1 / 2) * 2 ^ (971 : ℤ)

/-- What rounding results in: a magnitude as it is kept, or the infinite one for a ratio that is too large. -/
def IsResult (x : ℚ) : Binary64 → Prop
  | .finite m e => x < limit ∧ (m = 0 ∨ IsNormal m e)
  | .infinite => limit ≤ x

theorem limit_pos : 0 < limit :=
  mul_pos (by norm_num) (two_zpow_pos 971)

theorem le_limit {e : ℤ} (h : e ≤ 971) : (2 ^ 53 - 1 / 2) * 2 ^ e ≤ limit :=
  mul_le_mul_of_nonneg_left (zpow_le_zpow_right₀ one_le_two h) (by norm_num)

theorem limit_le {e : ℤ} (h : 971 ≤ e) : limit ≤ (2 ^ 53 - 1 / 2) * 2 ^ e :=
  mul_le_mul_of_nonneg_left (zpow_le_zpow_right₀ one_le_two h) (by norm_num)

/-- Rounding results in the infinite magnitude if the ratio is too large, and in one as it is kept if it is not. -/
theorem isResult_nearest (num : ℕ) {den : ℕ} (hden : 0 < den) : IsResult ((num : ℚ) / den) (nearest num den) := by
  by_cases hnum : num = 0
  · have hzero : nearest num den = .finite 0 0 := if_pos hnum
    rw [hzero, hnum, Nat.cast_zero, zero_div]
    exact ⟨limit_pos, .inl rfl⟩
  generalize hx : (num : ℚ) / den = x
  obtain ⟨e, hexponent⟩ : ∃ e, IsExponent x e := ⟨_, hx ▸ isExponent_exponentOf hnum hden⟩
  obtain ⟨m, hm⟩ : ∃ m, RoundsTo (x / 2 ^ e) m :=
    ⟨_, hx ▸ scale_ratio num hden e ▸ roundsTo_roundHalfEven _ (scale_pos num hden e)⟩
  have hpow := two_zpow_pos e
  have hbits : x / 2 ^ e < 2 ^ 53 := by
    rw [div_lt_iff₀ hpow]
    have := hexponent.below
    rwa [add_comm, two_zpow_add] at this
  have hfull : e = -1074 ∨ 2 ^ 52 ≤ x / 2 ^ e := by
    refine hexponent.full.imp_right fun h => ?_
    rw [le_div_iff₀ hpow]
    rwa [add_comm, two_zpow_add] at h
  rw [nearest_of_exponent hnum hden (hx.symm ▸ hexponent) (hx.symm ▸ hm)]
  split_ifs with hcarry hmost hmost
  · have habove := hm.above
    rw [hcarry, le_div_iff₀ hpow] at habove
    refine (limit_le (e := e) (by omega)).trans (le_of_eq_of_le ?_ habove)
    push_cast
    ring
  · refine ⟨?_, .inr ⟨by norm_num, by norm_num, by have := hexponent.least; omega, by omega, .inr le_rfl⟩⟩
    have hbelow : x < 2 ^ 53 * 2 ^ e := (div_lt_iff₀ hpow).1 hbits
    have hnext := le_limit (e := e + 1) (by omega)
    rw [two_zpow_add] at hnext
    linarith
  · have hlarge : 2 ^ 52 * 2 ^ e ≤ x := (le_div_iff₀ hpow).1 (hfull.resolve_left (by omega))
    have hbefore := limit_le (e := e - 1) (by omega)
    rw [zpow_sub_one₀ two_ne_zero] at hbefore
    show limit ≤ x
    linarith
  · have hlt : m < 2 ^ 53 := Nat.lt_of_le_of_ne (hm.le_of_lt (by push_cast; exact hbits)) hcarry
    have hstep : (m : ℚ) + 1 ≤ 2 ^ 53 := by exact_mod_cast hlt
    have hbelow := hm.below
    -- Halfway to the power of two is rounded up to it, since the magnitude before it is odd.
    have hhalf : x / 2 ^ e < 2 ^ 53 - 1 / 2 := by
      by_contra hnot
      rw [not_lt] at hnot
      have hlast : (m : ℚ) + 1 = 2 ^ 53 := by linarith
      have hlast : m + 1 = 2 ^ 53 := by exact_mod_cast hlast
      have heven := hm.even (.inr (by linarith))
      omega
    refine ⟨((div_lt_iff₀ hpow).1 hhalf).trans_le (le_limit (by omega)), ?_⟩
    by_cases hzero : m = 0
    · exact .inl hzero
    · refine .inr ⟨Nat.pos_of_ne_zero hzero, hlt, hexponent.least, by omega, hfull.imp_right fun h => ?_⟩
      have hmore : (2 : ℚ) ^ 52 < m + 1 := by linarith
      exact Nat.le_of_lt_succ (by exact_mod_cast hmore)

/-! ## Decimals -/

theorem ten_zpow_add (a b : ℤ) : (10 : ℚ) ^ (a + b) = 10 ^ a * 10 ^ b :=
  zpow_add₀ (by norm_num) a b

theorem ten_zpow_toNat {power : ℤ} (h : 0 ≤ power) : (10 : ℚ) ^ power.toNat = 10 ^ power := by
  rw [← zpow_natCast, Int.toNat_of_nonneg h]

/-- A number has as many digits as the power of ten above it says. -/
theorem toDigits_bounds {n : ℕ} (h : n ≠ 0) :
    (10 : ℚ) ^ ((Nat.toDigits 10 n).length - 1 : ℤ) ≤ n ∧ (n : ℚ) < 10 ^ ((Nat.toDigits 10 n).length : ℤ) := by
  have hpos : 0 < (Nat.toDigits 10 n).length := Nat.length_toDigits_pos
  constructor
  · rw [← Nat.cast_one, ← Nat.cast_sub hpos, zpow_natCast]
    by_contra hlt
    have hlt : n < 10 ^ ((Nat.toDigits 10 n).length - 1) := by exact_mod_cast not_le.1 hlt
    by_cases hone : (Nat.toDigits 10 n).length = 1
    · rw [hone] at hlt
      exact h (Nat.lt_one_iff.1 hlt)
    · have hle := (Nat.length_toDigits_le_iff (by decide) (by omega)).2 hlt
      omega
  · have hlt : n < 10 ^ (Nat.toDigits 10 n).length := (Nat.length_toDigits_le_iff (by decide) hpos).1 le_rfl
    rw [zpow_natCast]
    exact_mod_cast hlt

/-- A decimal is rounded as a ratio, unless its size alone tells what it is rounded to. -/
theorem nearestDecimal_cases (digits : ℕ) (power : ℤ) :
    ((digits : ℚ) * 10 ^ power < 10 ^ (-330 : ℤ) ∧ nearestDecimal digits power = .finite 0 0) ∨
      ((10 : ℚ) ^ (330 : ℤ) ≤ digits * 10 ^ power ∧ nearestDecimal digits power = .infinite) ∨
      ∃ num den : ℕ, 0 < den ∧ (num : ℚ) / den = digits * 10 ^ power ∧ nearestDecimal digits power = nearest num den := by
  have hpow : (0 : ℚ) < 10 ^ power := zpow_pos (by norm_num) power
  have hten : (1 : ℚ) < 10 := by norm_num
  by_cases hdigits : digits = 0
  · refine .inl ⟨?_, by simp [nearestDecimal, hdigits]⟩
    rw [hdigits, Nat.cast_zero, zero_mul]
    exact zpow_pos (by norm_num) _
  obtain ⟨hlow, hhigh⟩ := toDigits_bounds hdigits
  generalize hsize : ((Nat.toDigits 10 digits).length : ℤ) = size at hlow hhigh
  have hlow : (10 : ℚ) ^ (size - 1 + power) ≤ digits * 10 ^ power := by
    rw [ten_zpow_add]
    exact mul_le_mul_of_nonneg_right hlow hpow.le
  have hhigh : (digits : ℚ) * 10 ^ power < 10 ^ (size + power) := by
    rw [ten_zpow_add]
    exact mul_lt_mul_of_pos_right hhigh hpow
  unfold nearestDecimal
  simp only [hsize, hdigits, decide_false, Bool.false_or, decide_eq_true_eq]
  split_ifs with hsmall hlarge hnegative
  · exact .inl ⟨hhigh.trans_le (zpow_le_zpow_right₀ hten.le (by omega)), rfl⟩
  · exact .inr (.inl ⟨(zpow_le_zpow_right₀ hten.le (by omega)).trans hlow, rfl⟩)
  · refine .inr (.inr ⟨digits, _, Nat.pow_pos (by decide), ?_, rfl⟩)
    push_cast
    rw [ten_zpow_toNat (by omega), zpow_neg, div_inv_eq_mul]
  · refine .inr (.inr ⟨_, 1, one_pos, ?_, rfl⟩)
    rw [Nat.pow_eq]
    push_cast
    rw [ten_zpow_toNat (by omega), div_one]

/-- The powers of ten between which decimals are rounded as ratios lie beyond all magnitudes. -/
theorem two_zpow_le_ten_zpow : (2 : ℚ) ^ (1089 : ℤ) ≤ 10 ^ (330 : ℤ) := by
  rw [zpow_ofNat, zpow_ofNat]
  calc (2 : ℚ) ^ (33 * 33) = (2 ^ 33) ^ 33 := pow_mul 2 33 33
    _ ≤ (10 ^ 10) ^ 33 := pow_le_pow_left₀ (by norm_num) (by norm_num) 33
    _ = 10 ^ (10 * 33) := (pow_mul 10 10 33).symm

theorem limit_lt : limit < 10 ^ (330 : ℤ) := by
  refine lt_of_lt_of_le ?_ two_zpow_le_ten_zpow
  have hlimit : limit < 2 ^ (53 : ℤ) * 2 ^ (971 : ℤ) :=
    mul_lt_mul_of_pos_right (by norm_num) (two_zpow_pos 971)
  rw [← two_zpow_add] at hlimit
  exact hlimit.trans_le (zpow_le_zpow_right₀ one_le_two (by norm_num))

/-- A decimal that is too large is rounded to the infinite magnitude, and any other to one as it is kept. -/
theorem isResult_nearestDecimal (digits : ℕ) (power : ℤ) :
    IsResult (digits * 10 ^ power) (nearestDecimal digits power) := by
  rcases nearestDecimal_cases digits power with ⟨hsmall, heq⟩ | ⟨hlarge, heq⟩ | ⟨num, den, hden, hratio, heq⟩
  · rw [heq]
    have hone : 1 ≤ limit :=
      one_le_mul_of_one_le_of_one_le (by norm_num) (one_le_zpow₀ one_le_two (by norm_num))
    have hten : (10 : ℚ) ^ (-330 : ℤ) < 1 := zpow_lt_one_of_neg₀ (by norm_num) (by norm_num)
    exact ⟨(hsmall.trans hten).trans_le hone, .inl rfl⟩
  · rw [heq]
    exact limit_lt.le.trans hlarge
  · rw [heq, ← hratio]
    exact isResult_nearest num hden

/-- A decimal is rounded to the magnitude that it is near. -/
theorem nearestDecimal_eq {digits m : ℕ} {power e : ℤ} (hm : IsNormal m e) (h : IsNear (digits * 10 ^ power) m e) :
    nearestDecimal digits power = .finite m e := by
  rcases nearestDecimal_cases digits power with ⟨hsmall, -⟩ | ⟨hlarge, -⟩ | ⟨num, den, hden, hratio, heq⟩
  · have hone : (1 : ℚ) ≤ m := by exact_mod_cast hm.pos
    have hlower : (1 : ℚ) / 2 ≤ lowerEnd m e := by
      have := (le_lowerEnd m e).1
      linarith
    have hleast : (2 : ℚ) ^ (-1075 : ℤ) ≤ digits * 10 ^ power := by
      calc (2 : ℚ) ^ (-1075 : ℤ) = 1 / 2 * 2 ^ (-1074 : ℤ) := by
            rw [show (-1075 : ℤ) = -1074 - 1 by norm_num, zpow_sub_one₀ two_ne_zero]
            ring
        _ ≤ lowerEnd m e * 2 ^ e :=
          mul_le_mul hlower (zpow_le_zpow_right₀ one_le_two hm.least) (two_zpow_pos _).le (by linarith)
        _ ≤ digits * 10 ^ power := h.above
    have hten : (10 : ℚ) ^ (-330 : ℤ) ≤ 2 ^ (-1075 : ℤ) := by
      rw [zpow_neg, zpow_neg]
      exact inv_anti₀ (two_zpow_pos _)
        ((zpow_le_zpow_right₀ one_le_two (by norm_num)).trans two_zpow_le_ten_zpow)
    exact absurd (hleast.trans_lt hsmall) (not_lt.2 hten)
  · have hlast : (m : ℚ) + 1 ≤ 2 ^ 53 := by exact_mod_cast hm.lt
    have hmost : ((m : ℚ) + 1 / 2) * 2 ^ e ≤ limit :=
      (mul_le_mul_of_nonneg_right (by linarith) (two_zpow_pos e).le).trans (le_limit hm.most)
    exact absurd (hlarge.trans (h.below.trans hmost)) (not_le.2 limit_lt)
  · rw [heq]
    exact nearest_eq hden hm (hratio.symm ▸ h)

end TemplateCompiler.Number.Binary64

/-!
# Binary floating point, rounded exactly

Magnitudes of the 64-bit binary format: `m · 2^e` with `m` below `2^53` and `e` from -1074 on. `nearest`
rounds a ratio of natural numbers to the nearest magnitude, and to the even one of two equally near.
-/

namespace TemplateCompiler.Number

/-- A magnitude of the 64-bit binary format. -/
inductive Binary64 where
  | finite (m : Nat) (e : Int)
  | infinite
deriving DecidableEq, Repr

namespace Binary64

/-- The ratio `num / den`, scaled by `2^(-e)`, as numerator and denominator. -/
def scale (num den : Nat) (e : Int) : Nat × Nat :=
  if e < 0 then (num * Nat.pow 2 (-e).toNat, den) else (num, den * Nat.pow 2 e.toNat)

/-- `num / den` rounded to the nearest natural number, a half to the even one. -/
def roundHalfEven (num den : Nat) : Nat :=
  let q := num / den
  let r := num % den
  if 2 * r < den then q
  else if den < 2 * r then q + 1
  else if q % 2 = 0 then q else q + 1

/-- The exponent at which `num / den` has 53 significant bits, or the least exponent if it is too small for
that. -/
def exponentOf (num den : Nat) : Int :=
  let e : Int := (num.log2 : Int) - (den.log2 : Int) - 52
  let (n, d) := scale num den e
  max (if n / d < Nat.pow 2 52 then e - 1 else e) (-1074)

/-- The magnitude nearest to `num / den`. -/
def nearest (num den : Nat) : Binary64 :=
  if num = 0 then .finite 0 0
  else
    let e := exponentOf num den
    let (n, d) := scale num den e
    let m := roundHalfEven n d
    let (m, e) := if m = Nat.pow 2 53 then (Nat.pow 2 52, e + 1) else (m, e)
    if 971 < e then .infinite else .finite m e

/-- The magnitude nearest to `digits · 10^power`. Powers far outside the range are settled without
computing them. -/
def nearestDecimal (digits : Nat) (power : Int) : Binary64 :=
  let size : Int := (Nat.toDigits 10 digits).length
  if digits = 0 || size + power < -330 then .finite 0 0
  else if 330 < size + power then .infinite
  else if power < 0 then nearest digits (Nat.pow 10 (-power).toNat)
  else nearest (digits * Nat.pow 10 power.toNat) 1

end Binary64

end TemplateCompiler.Number

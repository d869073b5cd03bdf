import TemplateCompiler.Number.Binary64
/-!
# The shortest decimal that reads back

The decimal form of a magnitude has the fewest digits for which no other magnitude is nearer, and among
those the digits nearest to it. It is written positionally, whatever its size, and never with an exponent.
-/

namespace TemplateCompiler.Number

/-- The decimal digits of `n`, most significant first. -/
def digitsOf (n : Nat) : List Char :=
  Nat.toDigits 10 n

/-- The number of digits before the decimal point of `num / den`: zero or negative for a ratio below one,
where it counts the zeros that follow the point. -/
def pointOf (num den : Nat) : Int :=
  if den ≤ num then (digitsOf (num / den)).length
  else 1 - ((digitsOf ((den + num - 1) / num - 1)).length : Int)

/-- The ratios that round to `m · 2^e`, as a triple over one denominator: the lower end, the magnitude itself
and the upper end. The gap below a power of two is half as wide as the one above. -/
def rounding (m : Nat) (e : Int) : (Nat × Nat × Nat) × Nat :=
  let low := if m = Nat.pow 2 52 && -1074 < e then 4 * m - 1 else 4 * m - 2
  if e < 2 then ((low, 4 * m, 4 * m + 2), Nat.pow 2 (2 - e).toNat)
  else
    let unit := Nat.pow 2 (e - 2).toNat
    ((low * unit, 4 * m * unit, (4 * m + 2) * unit), 1)

/-- The number of `count` digits that is nearest to the magnitude among those that round to it; `point` is
where the decimal point stands. -/
def digitsOfLength? (m : Nat) (e : Int) (point : Int) (count : Nat) : Option Nat :=
  let ((low, value, high), den) := rounding m e
  let shift := point - count
  -- one step of the grid is `step / unit` over the common denominator
  let step := den * Nat.pow 10 shift.toNat
  let unit := Nat.pow 10 (-shift).toNat
  let down := value * unit / step
  let inside (n : Nat) : Bool :=
    if m % 2 = 0 then low * unit ≤ n * step && n * step ≤ high * unit
    else low * unit < n * step && n * step < high * unit
  let nearDown : Bool := 2 * (value * unit % step) < step
  if inside down && (nearDown || !inside (down + 1)) then some down
  else if inside (down + 1) then some (down + 1)
  else none

/-- The shortest digits of `m · 2^e`, and where the decimal point stands in them. -/
def shortestDigits (m : Nat) (e : Int) : List Char × Int :=
  let ((_, value, _), den) := rounding m e
  let point := pointOf value den
  match (List.range 17).findSome? fun i => (digitsOfLength? m e point (i + 1)).map (i + 1, ·) with
  | some (count, n) =>
    let digits := digitsOf n
    -- rounding up may carry into one more digit
    let point := point + ((digits.length : Int) - count)
    let kept := (digits.reverse.dropWhile (· == '0')).reverse
    (kept, point)
  | none => (['0'], 1)

/-- Digits with a decimal point after the first `point` of them. -/
def positional (digits : List Char) (point : Int) : List Char :=
  let n := point.toNat
  if point ≤ 0 then '0' :: '.' :: List.replicate (-point).toNat '0' ++ digits
  else if digits.length ≤ n then digits ++ List.replicate (n - digits.length) '0'
  else digits.take n ++ '.' :: digits.drop n

/-- The text of a magnitude. -/
def Binary64.text : Binary64 → String
  | .infinite => "inf"
  | .finite m e =>
    if m = 0 then "0"
    else
      let (digits, point) := shortestDigits m e
      String.ofList (positional digits point)

end TemplateCompiler.Number

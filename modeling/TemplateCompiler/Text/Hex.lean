/-!
# Hexadecimal digits

Numbers written in hexadecimal and in other bases up to sixteen.
-/

namespace TemplateCompiler.Text

/-- The lower-case hexadecimal digit of a number below 16. -/
def hexDigit (n : Nat) : Char :=
  if n < 10 then Char.ofNat (48 + n) else Char.ofNat (87 + n)

/-- `n` in hexadecimal, in at least `width` digits. -/
def hexDigits (width n : Nat) : List Char :=
  let digits := Nat.toDigits 16 n
  List.replicate (width - digits.length) '0' ++ digits

/-- The value of a hexadecimal digit. -/
def hexValue? (c : Char) : Option Nat :=
  if c.isDigit then some (c.toNat - 48)
  else if 'a' ≤ c && c ≤ 'f' then some (c.toNat - 87)
  else if 'A' ≤ c && c ≤ 'F' then some (c.toNat - 55)
  else none

/-- The number that digits denote in a base. -/
def valueIn (base : Nat) (digits : List Char) : Nat :=
  digits.foldl (fun n c => base * n + (hexValue? c).getD 0) 0

/-- Whether `c` is a digit of a base up to 16. -/
def isDigitIn (base : Nat) (c : Char) : Bool :=
  match hexValue? c with
  | some v => v < base
  | none => false

/-- The code of four hexadecimal digits at the front of `cs`. -/
def fourDigits? (cs : List Char) : Option Nat :=
  let digits := cs.take 4
  if digits.length = 4 && digits.all (isDigitIn 16) then some (valueIn 16 digits) else none

/-- A code point that is half of a surrogate pair and so no character. -/
def isSurrogate (code : Nat) : Bool :=
  0xD800 ≤ code && code ≤ 0xDFFF

/-- The code point of a surrogate pair, if the two halves make one. -/
def surrogatePair? (high low : Nat) : Option Nat :=
  if 0xD800 ≤ high && high ≤ 0xDBFF && 0xDC00 ≤ low && low ≤ 0xDFFF then
    some (0x10000 + (high - 0xD800) * 0x400 + (low - 0xDC00))
  else none

end TemplateCompiler.Text

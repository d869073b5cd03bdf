import TemplateCompiler.Markup.NamedCharacters
import TemplateCompiler.Text.Hex
/-!
# Character references

What an ampersand in markup stands for: the character of a number or of a name, or itself. A reference that
is written wrongly is a fault, except that a query such as `?a=1&copy=2` in an attribute stays as it is.
-/

namespace TemplateCompiler.Markup

open TemplateCompiler.Text

/-- What is wrong with a character reference. -/
inductive ReferenceFault where
  | noDigits
  | noSemicolonAfterDigits
  | endAfterDigits
  | endAfterHash
  | invalidCode (code : Nat)
  | noSemicolonAfterName
  | unknownName (name : String)
deriving DecidableEq, Repr

/-- The message for the author of the markup. -/
def ReferenceFault.message : ReferenceFault → String
  | .noDigits => "Numeric character reference without digits"
  | .noSemicolonAfterDigits => "Semicolon missing after numeric character reference"
  | .endAfterDigits => "EOF in numeric character reference"
  | .endAfterHash => "EOF after '#' in character reference"
  | .invalidCode code =>
    "Invalid numeric character reference value 0x" ++ String.ofList ((hexDigits 6 code).map Char.toUpper)
  | .noSemicolonAfterName => "Character reference does not end with semicolon"
  | .unknownName name => "Invalid character reference &" ++ name ++ ";"

/-- What an ampersand stands for. -/
inductive Reference where
  /-- Itself. -/
  | ampersand
  /-- The characters that a reference of `size` characters after the ampersand denotes. -/
  | characters (chars : List Char) (size : Nat)
  | fault (fault : ReferenceFault)

/-- A code point that is a control character or no character at all. -/
def isForbiddenCode (n : Nat) : Bool :=
  (0x1 ≤ n && n ≤ 0x8) || n == 0xB || (0xE ≤ n && n ≤ 0x1F) || (0x7F ≤ n && n ≤ 0x9F) ||
  (0xFDD0 ≤ n && n ≤ 0xFDEF) || n % 0x10000 == 0xFFFE || n % 0x10000 == 0xFFFF

/-- The number that digits denote, kept to 32 bits, and whether it was ever too large for a code point. -/
def referenceCode (base : Nat) (digits : List Char) : Nat × Bool :=
  digits.foldl
    (fun (code, large) c =>
      let shifted := code * base % Nat.pow 2 32
      ((shifted + (hexValue? c).getD 0) % Nat.pow 2 32, large || 0x10FFFF < shifted))
    (0, false)

/-- A numeric reference whose digits start at the front of `cs`, behind `front` characters. -/
def numericReference (base front : Nat) (cs : List Char) : Reference :=
  let digits := cs.takeWhile (isDigitIn base)
  let (code, large) := referenceCode base digits
  if digits.isEmpty then .fault .noDigits
  else
    match cs.drop digits.length with
    | [] => .fault .endAfterDigits
    | ';' :: _ =>
      if large || 0x10FFFF < code || code = 0 || code = 0xD || isSurrogate code || isForbiddenCode code then
        .fault (.invalidCode code)
      else .characters [Char.ofNat code] (front + digits.length + 1)
    | _ => .fault .noSemicolonAfterDigits

/-- A reference by name at the front of `cs`. Where a name stands without a semicolon, the longest name that may
do so counts; in an attribute it is no reference if `=`, a letter or a digit follows. -/
def namedReference (inAttribute : Bool) (cs : List Char) : Reference :=
  let run := cs.takeWhile Char.isAlphanum
  let name := String.ofList run
  let bare := bareNames.any fun bareName => bareName.toList.isPrefixOf run
  match cs.drop run.length, namedCharacters.lookup name with
  | ';' :: _, some codes => .characters (codes.map Char.ofNat) (run.length + 1)
  | rest, _ =>
    if bare then
      if inAttribute && (!bareNames.contains name || rest.head? = some '=') then .ampersand
      else .fault .noSemicolonAfterName
    else
      match rest with
      | ';' :: _ => if run.isEmpty then .ampersand else .fault (.unknownName name)
      | _ => .ampersand

/-- What the ampersand before `cs` stands for. -/
def reference (inAttribute : Bool) (cs : List Char) : Reference :=
  match cs with
  | ['#'] => .fault .endAfterHash
  | '#' :: 'x' :: rest => numericReference 16 2 rest
  | '#' :: 'X' :: rest => numericReference 16 2 rest
  | '#' :: rest => numericReference 10 1 rest
  | _ => namedReference inAttribute cs

end TemplateCompiler.Markup

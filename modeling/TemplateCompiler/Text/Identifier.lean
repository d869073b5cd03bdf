import TemplateCompiler.Text.IdentifierTable
/-!
# Identifier names

An identifier name starts with a letter, `$` or `_` and goes on with letters, digits, marks and joiners.
Reserved words are names too.
-/

namespace TemplateCompiler.Text

/-- Whether one of the closed ranges holds `n`. -/
def inRanges (ranges : List (Nat × Nat)) (n : Nat) : Bool :=
  ranges.any fun (low, high) => low ≤ n && n ≤ high

/-- A character that can start an identifier. -/
def isIdentifierStart (c : Char) : Bool :=
  if c.toNat < 128 then c.isAlpha || c == '$' || c == '_'
  else inRanges identifierStartRanges c.toNat

/-- A character that can stand after the first one of an identifier. -/
def isIdentifierPart (c : Char) : Bool :=
  if c.toNat < 128 then c.isAlphanum || c == '$' || c == '_'
  else c.toNat == 0x200C || c.toNat == 0x200D || inRanges identifierStartRanges c.toNat ||
    inRanges identifierContinueRanges c.toNat

/-- Whether `cs` is an identifier name. -/
def isIdentifierChars : List Char → Bool
  | [] => false
  | c :: cs => isIdentifierStart c && cs.all isIdentifierPart

/-- Whether `s` is an identifier name. -/
def isIdentifierName (s : String) : Bool :=
  isIdentifierChars s.toList

end TemplateCompiler.Text

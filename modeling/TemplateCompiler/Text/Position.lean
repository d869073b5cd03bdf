/-!
# Positions

A line and a column, both counted from one. Only a line feed ends a line, and a column counts
characters.
-/

namespace TemplateCompiler.Text

/-- A line and a column. -/
structure Position where
  line : Nat
  column : Nat
deriving DecidableEq, Repr, Inhabited

namespace Position

/-- The position of the first character. -/
def first : Position := ⟨1, 1⟩

/-- The position after a character that stands at `p`. -/
def after (p : Position) (c : Char) : Position :=
  if c = '\n' then ⟨p.line + 1, 1⟩ else ⟨p.line, p.column + 1⟩

/-- The written form, `line:column`. -/
def text (p : Position) : String :=
  toString p.line ++ ":" ++ toString p.column

/-- The position `n` bytes further, when `cs` follows `p`. An offset past the end counts as the end, and
one inside a character gives the first column of its line. -/
def advance (p : Position) : List Char → Nat → Position
  | [], _ => p
  | c :: cs, n =>
    if n = 0 then p
    else if n < c.utf8Size then ⟨p.line, 1⟩
    else (p.after c).advance cs (n - c.utf8Size)

end Position

/-- The position of a byte offset in `source`. -/
def locate (source : List Char) (offset : Nat) : Position :=
  Position.first.advance source offset

end TemplateCompiler.Text

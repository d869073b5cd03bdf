import TemplateCompiler.Text.Bytes
import TemplateCompiler.Text.Position
/-!
# Line tables

The offsets at which the lines of a source start, found once for all positions in it. The line of an offset is searched
for in them by halves, and its column is the number of characters from the start of that line on.
-/

namespace TemplateCompiler.Text

/-- The index between `low` and `high` from which on no entry satisfies `p`, if all entries before it do. -/
def partitionPointIn (p : Nat → Bool) (xs : Array Nat) (low high : Nat) : Nat :=
  if low < high then
    let middle := low + (high - low) / 2
    if xs[middle]?.any p then partitionPointIn p xs (middle + 1) high
    else partitionPointIn p xs low middle
  else low
termination_by high - low

/-- The number of entries that satisfy `p`, if these stand before all others. -/
def partitionPoint (p : Nat → Bool) (xs : Array Nat) : Nat :=
  partitionPointIn p xs 0 xs.size

/-- The offsets behind the line feeds of `cs`, which starts at `offset`. -/
def lineStarts (offset : Nat) : List Char → List Nat
  | [] => []
  | c :: cs =>
    if c = '\n' then (offset + c.utf8Size) :: lineStarts (offset + c.utf8Size) cs
    else lineStarts (offset + c.utf8Size) cs

/-- A source with the offsets at which its lines start. -/
structure LineTable where
  source : List Char
  starts : Array Nat

namespace LineTable

/-- The table of a source. The first line starts where the source does. -/
def ofSource (source : List Char) : LineTable :=
  { source, starts := (0 :: lineStarts 0 source).toArray }

/-- The position of an offset. There is none if the table has no line that starts at the offset or before it. -/
def position? (t : LineTable) (offset : Nat) : Option Position :=
  let stop := min offset (byteLength t.source)
  match partitionPoint (· ≤ stop) t.starts with
  | 0 => none
  | line + 1 => do
    let start ← t.starts[line]?
    let column := ((slice? t.source start stop).map List.length).getD 0
    return ⟨line + 1, column + 1⟩

end LineTable

end TemplateCompiler.Text

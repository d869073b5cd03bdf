/-!
# Blank text

Blank characters are those with the Unicode property `White_Space`. Form feeds and no-break spaces are
among them, zero-width spaces and byte order marks are not.
-/

namespace TemplateCompiler.Text

/-- A character with the property `White_Space`. -/
def isBlank (c : Char) : Bool :=
  let n := c.toNat
  (9 ≤ n && n ≤ 13) || n == 0x20 || n == 0x85 || n == 0xA0 || n == 0x1680 ||
  (0x2000 ≤ n && n ≤ 0x200A) || n == 0x2028 || n == 0x2029 || n == 0x202F || n == 0x205F || n == 0x3000

/-- `cs` without the blanks that end it. -/
def trimEnd : List Char → List Char
  | [] => []
  | c :: cs =>
    match trimEnd cs with
    | [] => if isBlank c then [] else [c]
    | rest => c :: rest

/-- `cs` without the blanks around it. -/
def trim (cs : List Char) : List Char :=
  trimEnd (cs.dropWhile isBlank)

/-- `s` without the blanks around it. -/
def trimmed (s : String) : String :=
  String.ofList (trim s.toList)

/-- The maximal runs of characters that satisfy `p`, in order. -/
def runsOf (p : Char → Bool) : List Char → List (List Char)
  | [] => []
  | c :: cs =>
    if p c then
      match cs, runsOf p cs with
      | d :: _, run :: runs => if p d then (c :: run) :: runs else [c] :: run :: runs
      | _, runs => [c] :: runs
    else runsOf p cs

/-- The words of `s`: its maximal runs of characters that are not blank. -/
def words (s : String) : List String :=
  (runsOf (fun c => !isBlank c) s.toList).map String.ofList

/-- `cs` with every maximal run of blanks written as one space. -/
def collapse : List Char → List Char
  | [] => []
  | c :: cs =>
    if isBlank c then
      match cs with
      | d :: _ => if isBlank d then collapse cs else ' ' :: collapse cs
      | [] => [' ']
    else c :: collapse cs

/-- Text as it is shown: text of blanks alone is nothing, and elsewhere a run of blanks is one space. Where
blanks are kept, as inside `pre`, only empty text is nothing. -/
def shown (keepBlanks : Bool) (s : String) : Option String :=
  if keepBlanks then
    if s.isEmpty then none else some s
  else if s.toList.all isBlank then none
  else some (String.ofList (collapse s.toList))

end TemplateCompiler.Text

import TemplateCompiler.Text.Blank
import TemplateCompiler.Text.Bytes
/-!
# The raw text of tags

A tag that has been read no longer shows where its attributes stand and how their values are written. Both are
found again by looking for the tag in the source, from a cursor that stays behind the last tag that was found,
and by scanning its raw text.
-/

namespace TemplateCompiler.Markup

open TemplateCompiler.Text

/-- A place in the source: a byte offset, and the text from there on. -/
structure Cursor where
  offset : Nat
  rest : List Char
deriving Repr

namespace Cursor

/-- The start of a source. -/
def start (source : List Char) : Cursor := ⟨0, source⟩

/-- The place behind the first character. -/
def next (cursor : Cursor) : Cursor :=
  match cursor.rest with
  | c :: rest => ⟨cursor.offset + c.utf8Size, rest⟩
  | [] => cursor

/-- The first place from `offset` on, where `cs` starts, at which `needle` stands. Capital letters of the source
count as small ones. -/
def findFrom? (needle : List Char) (offset : Nat) : List Char → Option Cursor
  | [] => if needle.isEmpty then some ⟨offset, []⟩ else none
  | c :: cs =>
    if needle.isPrefixOf (((c :: cs).take needle.length).map Char.toLower) then some ⟨offset, c :: cs⟩
    else findFrom? needle (offset + c.utf8Size) cs

/-- The first place from the cursor on at which `needle` stands, or the cursor itself. -/
def find (cursor : Cursor) (needle : String) : Cursor :=
  (findFrom? needle.toList cursor.offset cursor.rest).getD cursor

/-- The place behind the bracket that closes a tag in `cs`, which starts at `offset`. Brackets in quotes do not
count. -/
def closeTagFrom (quote : Option Char) (offset : Nat) : List Char → Cursor
  | [] => ⟨offset, []⟩
  | c :: cs =>
    let offset := offset + c.utf8Size
    match quote with
    | some q => closeTagFrom (if c = q then none else some q) offset cs
    | none =>
      if c = '"' || c = '\'' then closeTagFrom (some c) offset cs
      else if c = '>' then ⟨offset, cs⟩
      else closeTagFrom none offset cs

/-- The place behind the tag at the cursor. -/
def closeTag (cursor : Cursor) : Cursor :=
  closeTagFrom none cursor.offset cursor.rest

/-- The place behind the comment in `cs`, which starts at `offset`. -/
def closeCommentFrom (offset : Nat) : List Char → Cursor
  | [] => ⟨offset, []⟩
  | '-' :: '-' :: '>' :: rest => ⟨offset + 3, rest⟩
  | c :: cs => closeCommentFrom (offset + c.utf8Size) cs

/-- The place behind the comment at the cursor. -/
def closeComment (cursor : Cursor) : Cursor :=
  closeCommentFrom cursor.offset cursor.rest

end Cursor

/-! ## Attributes in raw text -/

/-- An attribute as it is written. -/
structure RawAttribute where
  /-- The name in small letters. -/
  name : String
  hasValue : Bool
  quoted : Bool
  /-- The byte offset of the name. -/
  offset : Nat
deriving DecidableEq, Repr

/-- A character of a raw attribute name. -/
def isRawNameChar (c : Char) : Bool :=
  !(isBlank c || c == '"' || c == '\'' || c == '>' || c == '/' || c == '=')

/-- A character of a raw value without quotes. -/
def isRawValueChar (c : Char) : Bool :=
  !(isBlank c || c == '>')

/-- The value in quotes at the front of `cs`: how many characters it takes with its quotes. -/
def quotedSize? (cs : List Char) : Option Nat :=
  match cs with
  | q :: rest =>
    let inside := rest.takeWhile (· != q)
    if (q == '"' || q == '\'') && inside.length < rest.length then some (inside.length + 2) else none
  | [] => none

/-- The value that follows a raw name: how many characters it takes from the end of the name on, and whether it
is quoted. A quote that is never closed starts a value without quotes. -/
def rawValue? (cs : List Char) : Option (Nat × Bool) :=
  let before := (cs.takeWhile isBlank).length
  match cs.drop before with
  | '=' :: afterSign =>
    let after := (afterSign.takeWhile isBlank).length
    let value := afterSign.drop after
    match quotedSize? value with
    | some size => some (before + 1 + after + size, true)
    | none =>
      let size := (value.takeWhile isRawValueChar).length
      if size = 0 then none else some (before + 1 + after + size, false)
  | _ => none

/-- The attributes in `cs`, which starts at the byte `offset`. -/
def rawAttributes (offset : Nat) (cs : List Char) : List RawAttribute :=
  match cs with
  | [] => []
  | c :: rest =>
    if isRawNameChar c then
      let name := c :: rest.takeWhile isRawNameChar
      let tail := rest.drop (name.length - 1)
      let (size, hasValue, quoted) :=
        match rawValue? tail with
        | some (size, quoted) => (size, true, quoted)
        | none => (0, false, false)
      ⟨String.ofList (name.map Char.toLower), hasValue, quoted, offset⟩ ::
        rawAttributes (offset + byteLength name + byteLength (tail.take size)) (tail.drop size)
    else rawAttributes (offset + c.utf8Size) rest
termination_by cs.length

/-- Where the attributes of a tag are looked for: behind its name, but not behind the end of the tag. -/
def bodyStart (start stop nameSize : Nat) : Nat :=
  min (start + 1 + nameSize) stop

/-- The raw attributes of the tag from `start` to `stop`, whose name takes `nameSize` bytes, unless the place behind
the name lies inside a character. -/
def scanTag (start stop : Cursor) (nameSize : Nat) : Option (List RawAttribute) :=
  let body := bodyStart start.offset stop.offset nameSize
  (slice? start.rest (body - start.offset) (stop.offset - start.offset)).map (rawAttributes body)

end TemplateCompiler.Markup

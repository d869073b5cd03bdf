import TemplateCompiler.Text.Hex
/-!
# JSON

A strict reader of JSON texts: one value with nothing but blanks around it. Objects keep their entries as they
are written, repeated names included, and strings keep the halves of surrogate pairs that stand alone.
-/

namespace TemplateCompiler.Config

open TemplateCompiler.Text

/-- A JSON value. A string is the sequence of its codes, and of a number only the fact that it is one is kept. -/
inductive Json where
  | null
  | bool (value : Bool)
  | number
  | string (codes : List Nat)
  | array (items : List Json)
  | object (entries : List (List Nat × Json))
deriving Repr

/-- The text of a sequence of codes, unless one of them is no character. -/
def textOf? (codes : List Nat) : Option String :=
  if codes.any isSurrogate then none else some (String.ofList (codes.map Char.ofNat))

/-- The text of a string. -/
def Json.text? : Json → Option String
  | .string codes => textOf? codes
  | _ => none

/-! ## Reading -/

/-- A character that may stand between the parts of a JSON text. -/
def isJsonBlank (c : Char) : Bool :=
  c == ' ' || c == '\n' || c == '\t' || c == '\r'

/-- What follows the blanks at the front of a text. -/
def skipBlanks (cs : List Char) : List Char :=
  cs.dropWhile isJsonBlank

/-- What follows a backslash in a string: the code it denotes and how many characters it takes. -/
def jsonEscape? : List Char → Option (Nat × Nat)
  | '"' :: _ => some (34, 1)
  | '\\' :: _ => some (92, 1)
  | '/' :: _ => some (47, 1)
  | 'b' :: _ => some (8, 1)
  | 'f' :: _ => some (12, 1)
  | 'n' :: _ => some (10, 1)
  | 'r' :: _ => some (13, 1)
  | 't' :: _ => some (9, 1)
  | 'u' :: rest => do
    let code ← fourDigits? rest
    match rest.drop 4 with
    | '\\' :: 'u' :: more =>
      match (fourDigits? more).bind (surrogatePair? code) with
      | some pair => return (pair, 11)
      | none => return (code, 5)
    | _ => return (code, 5)
  | _ => none

/-- The codes of a string up to its closing quote, and what follows it. -/
def jsonString? : List Char → Option (List Nat × List Char)
  | [] => none
  | c :: rest =>
    if c = '"' then some ([], rest)
    else if c = '\\' then do
      let (code, size) ← jsonEscape? rest
      let (codes, after) ← jsonString? (rest.drop size)
      return (code :: codes, after)
    else if c.toNat < 32 then none
    else do
      let (codes, after) ← jsonString? rest
      return (c.toNat :: codes, after)
termination_by cs => cs.length

/-- What follows a run of at least one digit. -/
def digits? (cs : List Char) : Option (List Char) :=
  match cs with
  | c :: rest => if c.isDigit then some (rest.dropWhile Char.isDigit) else none
  | [] => none

/-- What follows a number. -/
def jsonNumber? (cs : List Char) : Option (List Char) := do
  let cs := match cs with
    | '-' :: rest => rest
    | _ => cs
  let cs ← match cs with
    | '0' :: rest => some rest
    | _ => digits? cs
  let cs ← match cs with
    | '.' :: rest => digits? rest
    | _ => some cs
  match cs with
  | c :: rest =>
    if c = 'e' || c = 'E' then
      match rest with
      | '+' :: more => digits? more
      | '-' :: more => digits? more
      | _ => digits? rest
    else return cs
  | [] => return []

mutual
/-- The value at the front of a text, and what follows it. `depth` bounds the number of values and parts of
values that are read. -/
def jsonValue? (depth : Nat) (cs : List Char) : Option (Json × List Char) :=
  match depth with
  | 0 => none
  | depth + 1 =>
    match skipBlanks cs with
    | 'n' :: 'u' :: 'l' :: 'l' :: rest => some (.null, rest)
    | 't' :: 'r' :: 'u' :: 'e' :: rest => some (.bool true, rest)
    | 'f' :: 'a' :: 'l' :: 's' :: 'e' :: rest => some (.bool false, rest)
    | '"' :: rest => (jsonString? rest).map fun (codes, after) => (.string codes, after)
    | '[' :: rest =>
      match skipBlanks rest with
      | ']' :: after => some (.array [], after)
      | _ => (jsonItems? depth rest).map fun (items, after) => (.array items, after)
    | '{' :: rest =>
      match skipBlanks rest with
      | '}' :: after => some (.object [], after)
      | _ => (jsonEntries? depth rest).map fun (entries, after) => (.object entries, after)
    | start => (jsonNumber? start).map (.number, ·)

/-- The items of an array up to its closing bracket, and what follows it. -/
def jsonItems? (depth : Nat) (cs : List Char) : Option (List Json × List Char) :=
  match depth with
  | 0 => none
  | depth + 1 => do
    let (item, rest) ← jsonValue? depth cs
    match skipBlanks rest with
    | ',' :: rest =>
      let (items, after) ← jsonItems? depth rest
      return (item :: items, after)
    | ']' :: after => return ([item], after)
    | _ => none

/-- The entries of an object up to its closing brace, and what follows it. -/
def jsonEntries? (depth : Nat) (cs : List Char) : Option (List (List Nat × Json) × List Char) :=
  match depth with
  | 0 => none
  | depth + 1 =>
    match skipBlanks cs with
    | '"' :: rest => do
      let (name, rest) ← jsonString? rest
      match skipBlanks rest with
      | ':' :: rest =>
        let (value, rest) ← jsonValue? depth rest
        match skipBlanks rest with
        | ',' :: rest =>
          let (entries, after) ← jsonEntries? depth rest
          return ((name, value) :: entries, after)
        | '}' :: after => return ([(name, value)], after)
        | _ => none
      | _ => none
    | _ => none
end

/-- The value that a JSON text denotes. -/
def Json.parse? (source : String) : Option Json := do
  let cs := source.toList
  let (value, rest) ← jsonValue? (2 * cs.length + 2) cs
  if (skipBlanks rest).isEmpty then return value else none

end TemplateCompiler.Config

import TemplateCompiler.Text.Identifier
import TemplateCompiler.Text.Hex
import TemplateCompiler.Number.Shortest
/-!
# JavaScript tokens

`lexeme` reads the next token of a script: blanks and comments are skipped, and of two tokens that fit the
longer one is taken. A slash is always a punctuator here, and a backquote a token of its own: the grammar
knows whether a regular expression or a template can stand there and reads on with `regex` or
`templateChunk?`.

A text that is no token still has a lexeme, whose token is `invalid`, so that it is the grammar which says whether
the text matters. A token may also be flawed: it is clear what it is meant to be, but its text is at fault.
-/

namespace TemplateCompiler.Script

open TemplateCompiler.Text TemplateCompiler.Number

/-- A token. Numbers carry the decimal text of their value, strings and names the text they denote. -/
inductive Token where
  | word (name : String) (escaped : Bool)
  | privateName (name : String)
  | number (text : String)
  | bigInteger
  | string (value : String)
  | backquote
  | punct (text : String)
  /-- A text that is no token. -/
  | invalid
  /-- The end of the script. -/
  | done
deriving DecidableEq, Repr

/-- Whether the token is the word `name`, with escapes or without. -/
def Token.isWord (token : Token) (name : String) : Bool :=
  match token with
  | .word text _ => text == name
  | _ => false

/-- Whether the token is a private name. -/
def Token.isPrivateName : Token → Bool
  | .privateName _ => true
  | _ => false

/-- A token as it is written at the front of a text. -/
structure Written where
  token : Token
  /-- The text of the token is at fault. -/
  flawed : Bool := false
  /-- What follows the token. -/
  rest : List Char

/-! ## Blanks and comments -/

/-- A character that ends a line of script. -/
def isLineEnd (c : Char) : Bool :=
  c == '\n' || c == '\r' || c.toNat == 0x2028 || c.toNat == 0x2029

/-- A character that may stand between tokens and ends no line. -/
def isSpace (c : Char) : Bool :=
  let n := c.toNat
  n == 9 || n == 11 || n == 12 || n == 0x20 || n == 0x85 || n == 0xA0 || n == 0x1680 ||
  (0x2000 ≤ n && n ≤ 0x200B) || n == 0x202F || n == 0x205F || n == 0x3000 || n == 0xFEFF

/-- Where a scan between two tokens stands. -/
inductive Gap where
  | code
  | lineComment
  | blockComment

/-- Skips blanks and comments, and says whether a line ended among them. An open comment is refused. -/
def skipGap : Gap → Bool → List Char → Option (Bool × List Char)
  | .code, newline, '/' :: '/' :: rest => skipGap .lineComment newline rest
  | .code, newline, '/' :: '*' :: rest => skipGap .blockComment newline rest
  | .code, newline, c :: rest =>
    if isLineEnd c then skipGap .code true rest
    else if isSpace c then skipGap .code newline rest
    else some (newline, c :: rest)
  | .lineComment, newline, c :: rest =>
    if isLineEnd c then skipGap .code true rest else skipGap .lineComment newline rest
  | .blockComment, newline, '*' :: '/' :: rest => skipGap .code newline rest
  | .blockComment, newline, c :: rest => skipGap .blockComment (newline || isLineEnd c) rest
  | .blockComment, _, [] => none
  | _, newline, [] => some (newline, [])

/-! ## Escapes -/

/-- What follows `\u`: the code it denotes and how many characters it takes. -/
def codeEscape? : List Char → Option (Nat × Nat)
  | '{' :: rest =>
    let digits := rest.takeWhile (isDigitIn 16)
    let code := valueIn 16 digits
    match rest.drop digits.length with
    | '}' :: _ => if digits.isEmpty || 0x10FFFF < code then none else some (code, digits.length + 2)
    | _ => none
  | cs => (fourDigits? cs).map (·, 4)

/-- What follows `\u` in a string, where two halves of a surrogate pair make one character. -/
def pairEscape? (cs : List Char) : Option (Nat × Nat) := do
  let (code, size) ← codeEscape? cs
  match size, cs.drop size with
  | 4, '\\' :: 'u' :: rest =>
    match (fourDigits? rest).bind (surrogatePair? code) with
    | some pair => return (pair, 10)
    | none => return (code, size)
  | _, _ => return (code, size)

/-- What follows a backslash in a string: the codes it denotes and how many characters it takes. -/
def stringEscape? : List Char → Option (List Nat × Nat)
  | [] => none
  | c :: rest =>
    if c = '\r' then some ([], if rest.head? = some '\n' then 2 else 1)
    else if isLineEnd c then some ([], 1)
    else if isDigitIn 8 c then
      let size := if c ≤ '3' then 3 else 2
      let digits := c :: (rest.take (size - 1)).takeWhile (isDigitIn 8)
      some ([valueIn 8 digits], digits.length)
    else
      match c with
      | 'b' => some ([8], 1)
      | 't' => some ([9], 1)
      | 'n' => some ([10], 1)
      | 'v' => some ([11], 1)
      | 'f' => some ([12], 1)
      | 'r' => some ([13], 1)
      | 'x' =>
        let digits := rest.take 2
        if digits.length = 2 && digits.all (isDigitIn 16) then some ([valueIn 16 digits], 3) else none
      | 'u' => (pairEscape? rest).map fun (code, size) => ([code], size + 1)
      | _ => some ([c.toNat], 1)

/-- Whether what follows a backslash in a template is an escape that denotes something. -/
def templateEscapeDenotes : List Char → Bool
  | 'x' :: rest => (rest.take 2).length == 2 && (rest.take 2).all (isDigitIn 16)
  | 'u' :: rest => (codeEscape? rest).isSome
  | '0' :: rest => !(rest.head?.any Char.isDigit)
  | c :: _ => !c.isDigit
  | [] => true

/-! ## Strings and templates -/

/-- The text of a sequence of codes. A lone surrogate is written as U+FFFD and its four digits, and in such a
text U+FFFD itself is written in the same way. -/
def textOfCodes (codes : List Nat) : String :=
  if codes.any isSurrogate then
    String.ofList <| codes.flatMap fun code =>
      if isSurrogate code || code == 0xFFFD then Char.ofNat 0xFFFD :: hexDigits 4 code
      else [Char.ofNat code]
  else String.ofList (codes.map Char.ofNat)

/-- The codes of a string up to its closing quote, whether one of its escapes denotes nothing, and what follows
it. -/
def stringBody? (close : Char) : List Char → Option (List Nat × Bool × List Char)
  | [] => none
  | c :: rest =>
    if c = close then some ([], false, rest)
    else if c = '\\' then
      match stringEscape? rest with
      | some (codes, size) => do
        let (more, flawed, after) ← stringBody? close (rest.drop size)
        return (codes ++ more, flawed, after)
      | none => do
        let (more, _, after) ← stringBody? close (rest.drop 1)
        return (more, true, after)
    else if c = '\n' || c = '\r' then none
    else do
      let (more, flawed, after) ← stringBody? close rest
      return (c.toNat :: more, flawed, after)
termination_by cs => cs.length

/-- A piece of a template between its delimiters. -/
structure Chunk where
  /-- The characters as they are written. -/
  raw : List Char
  /-- Every escape in it denotes something. -/
  denotes : Bool
  /-- It ends at a substitution and not at the closing backquote. -/
  opens : Bool

/-- The piece of a template at the front of a text, and what follows its end. -/
def templateChunk? : List Char → Option (Chunk × List Char)
  | [] => none
  | '`' :: rest => some (⟨[], true, false⟩, rest)
  | '$' :: '{' :: rest => some (⟨[], true, true⟩, rest)
  | '\\' :: '`' :: rest => (templateChunk? rest).map fun (k, r) => ({ k with raw := '\\' :: '`' :: k.raw }, r)
  | '\\' :: '$' :: rest => (templateChunk? rest).map fun (k, r) => ({ k with raw := '\\' :: '$' :: k.raw }, r)
  | '\\' :: '\\' :: rest => (templateChunk? rest).map fun (k, r) => ({ k with raw := '\\' :: '\\' :: k.raw }, r)
  | '\\' :: rest => (templateChunk? rest).map fun (k, r) =>
      ({ k with raw := '\\' :: k.raw, denotes := k.denotes && templateEscapeDenotes rest }, r)
  | c :: rest => (templateChunk? rest).map fun (k, r) => ({ k with raw := c :: k.raw }, r)

/-- Every line end of the forms CR LF and CR as a line feed. -/
def lineFeeds : List Char → List Char
  | '\r' :: '\n' :: rest => '\n' :: lineFeeds rest
  | '\r' :: rest => '\n' :: lineFeeds rest
  | c :: rest => c :: lineFeeds rest
  | [] => []

/-- What follows a regular expression whose opening slash has been read, and whether it has a closing one before the
line ends; `inClass` says that a bracket is open. -/
def regexBody (inClass : Bool) : List Char → Bool × List Char
  | [] => (false, [])
  | '\\' :: c :: rest => if isLineEnd c then (false, rest) else regexBody inClass rest
  | c :: rest =>
    if isLineEnd c then (false, rest)
    else if c = '/' && !inClass then (true, rest)
    else if c = '[' then regexBody true rest
    else if c = ']' then regexBody false rest
    else regexBody inClass rest

/-- Whether letters are flags of a regular expression: each at most once, and not both `u` and `v`. -/
def areRegexFlags (flags : List Char) : Bool :=
  flags.all (· ∈ ['d', 'g', 'i', 'm', 's', 'u', 'v', 'y']) && decide flags.Nodup &&
    !(flags.contains 'u' && flags.contains 'v')

/-- What follows a regular expression and its flags, and whether both are without a fault. -/
def regex (cs : List Char) : Bool × List Char :=
  let (closed, after) := regexBody false cs
  if closed then
    let flags := after.takeWhile fun c => c.isAlphanum || c == '$' || c == '_'
    (areRegexFlags flags, after.drop flags.length)
  else (false, after)

/-! ## Words and numbers -/

/-- An identifier as it is written. -/
structure Word where
  name : List Char := []
  escaped : Bool := false
  flawed : Bool := false
  rest : List Char

/-- The identifier at the front of a text whose first character is one of `isNext`. An escape that denotes no such
character is a fault and adds nothing. -/
def word (isNext : Char → Bool) : List Char → Word
  | [] => { rest := [] }
  | c :: rest =>
    if c = '\\' then
      let code := if rest.head? = some 'u' then codeEscape? (rest.drop 1) else none
      match code with
      | some (n, size) =>
        let more := word isIdentifierPart (rest.drop (size + 1))
        if !isSurrogate n && isNext (Char.ofNat n) then
          { more with name := Char.ofNat n :: more.name, escaped := true }
        else { more with escaped := true, flawed := true }
      | none =>
        let opening := if rest.take 2 = ['u', '{'] then 2 else if rest.head? = some 'u' then 1 else 0
        { word isIdentifierPart (rest.drop opening) with escaped := true, flawed := true }
    else if isNext c then
      let more := word isIdentifierPart rest
      { more with name := c :: more.name }
    else { rest := c :: rest }
termination_by cs => cs.length

/-- Whether an identifier starts at the front of a text. -/
def startsWord (cs : List Char) : Bool :=
  cs.head?.any fun c => isIdentifierStart c || c == '\\'

/-- A run of digits in which single underscores may separate digits: the digits, whether an underscore stands behind
the last of them, and what follows; `inside` says that a digit stands before it. -/
def digitRun (isDigit : Char → Bool) (inside : Bool) : List Char → List Char × Bool × List Char
  | [] => ([], false, [])
  | c :: rest =>
    if isDigit c then
      let (digits, stray, after) := digitRun isDigit true rest
      (c :: digits, stray, after)
    else if inside && c == '_' then
      if rest.head?.any isDigit then digitRun isDigit false rest else ([], true, rest)
    else ([], false, c :: rest)

/-- A number ends where neither a digit nor an identifier starts. -/
def endsNumber (cs : List Char) : Bool :=
  !(cs.head?.any fun c => c.isDigit || isIdentifierStart c)

/-- What is written there, if a number can end there. -/
def Written.ended? (written : Written) : Option Written :=
  if endsNumber written.rest then some written else none

/-- The exponent at the front of a text behind its letter. -/
def exponentDigits? (cs : List Char) : Option (Int × List Char) :=
  let (negative, cs) :=
    match cs with
    | '-' :: rest => (true, rest)
    | '+' :: rest => (false, rest)
    | _ => (false, cs)
  match digitRun Char.isDigit false cs with
  | ([], _) => none
  | (_, true, _) => none
  | (digits, false, after) =>
    let n : Int := valueIn 10 digits
    some (if negative then -n else n, after)

/-- The exponent at the front of a text, zero if there is none. -/
def exponent? (cs : List Char) : Option (Int × List Char) :=
  match cs with
  | 'e' :: rest => exponentDigits? rest
  | 'E' :: rest => exponentDigits? rest
  | _ => some (0, cs)

/-- The number of these digits, of which the last ones are a fraction, and this exponent. -/
def decimal (whole fraction : List Char) (power : Int) : Token :=
  .number (Binary64.nearestDecimal (valueIn 10 (whole ++ fraction)) (power - fraction.length)).text

/-- The digits before the point have been read: an optional fraction and an optional exponent follow. -/
def decimalTail? (whole : List Char) (cs : List Char) : Option Written :=
  match cs with
  | '.' :: rest =>
    match digitRun Char.isDigit false rest with
    | (_, true, _) => none
    | (fraction, false, rest) => do
      let (power, after) ← exponent? rest
      Written.ended? { token := decimal whole fraction power, rest := after }
  | _ => do
    let (power, after) ← exponent? cs
    Written.ended? { token := decimal whole [] power, rest := after }

/-- A whole number in another base than ten. -/
def radixNumber? (base : Nat) (cs : List Char) : Option Written :=
  match digitRun (isDigitIn base) false cs with
  | ([], _) => none
  | (_, true, _) => none
  | (_, false, 'n' :: after) => Written.ended? { token := .bigInteger, rest := after }
  | (digits, false, after) =>
    Written.ended? { token := .number (Binary64.nearest (valueIn base digits) 1).text, rest := after }

/-- A number whose first digit is a zero, with an exponent behind its letter. Anything may follow it. -/
def zeroPower? (whole : List Char) (cs : List Char) : Option Written := do
  let (power, after) ← exponentDigits? cs
  return { token := decimal whole [] power, rest := after }

/-- A number that starts with a zero and another digit: octal, unless one of its digits is 8 or 9. Then a fraction may
follow, or an exponent behind a small letter. -/
def zeroNumber? (cs : List Char) : Option Written :=
  let digits := cs.takeWhile Char.isDigit
  let rest := cs.dropWhile Char.isDigit
  if digits.all (isDigitIn 8) then
    Written.ended? { token := .number (Binary64.nearest (valueIn 8 digits) 1).text, rest }
  else
    match rest with
    | '.' :: _ => decimalTail? digits rest
    | 'e' :: rest => zeroPower? digits rest
    | _ => Written.ended? { token := decimal digits [] 0, rest }

/-- The number at the front of a text. -/
def number? (cs : List Char) : Option Written :=
  match cs with
  | '0' :: c :: rest =>
    if c = 'x' || c = 'X' then radixNumber? 16 rest
    else if c = 'o' || c = 'O' then radixNumber? 8 rest
    else if c = 'b' || c = 'B' then radixNumber? 2 rest
    else if c = 'e' || c = 'E' then zeroPower? ['0'] rest
    else if c.isDigit then zeroNumber? cs
    else if c = 'n' then Written.ended? { token := .bigInteger, rest }
    else decimalTail? ['0'] (c :: rest)
  | '.' :: rest =>
    if rest.head?.any Char.isDigit then decimalTail? [] cs else none
  | _ =>
    match digitRun Char.isDigit false cs with
    | ([], _) => none
    | (_, flawed, 'n' :: after) => Written.ended? { token := .bigInteger, flawed, rest := after }
    | (digits, false, after) => decimalTail? digits after
    | (digits, true, after) => Written.ended? { token := decimal digits [] 0, flawed := true, rest := after }

/-! ## Tokens -/

/-- The punctuator `{`. -/
@[match_pattern] abbrev leftBrace : String := "\x7b"

/-- The punctuator `}`. -/
@[match_pattern] abbrev rightBrace : String := "\x7d"

/-- The punctuators with their characters, longer ones before their beginnings. -/
def punctuators : List (List Char × String) :=
  List.map (fun p => (p.toList, p))
  [">>>=", "...", "===", "!==", "**=", "<<=", ">>=", ">>>", "&&=", "||=", "??=",
   "=>", "==", "!=", "<=", ">=", "&&", "||", "??", "?.", "++", "--", "+=", "-=", "*=", "/=", "%=", "&=",
   "|=", "^=", "<<", ">>", "**",
   leftBrace, rightBrace, "(", ")", "[", "]", ";", ",", "<", ">", "+", "-", "*", "/", "%", "&", "|", "^", "!", "~",
   "?", ":", "=", ".", "@"]

/-- The punctuator at the front of a text. `?.` before a digit is a question mark. -/
def punct? (cs : List Char) : Option Written :=
  match cs with
  | '?' :: '.' :: c :: rest =>
    if c.isDigit then some { token := .punct "?", rest := '.' :: c :: rest }
    else some { token := .punct "?.", rest := c :: rest }
  | _ =>
    (punctuators.find? fun p => p.1.isPrefixOf cs).map fun (chars, p) =>
      { token := .punct p, rest := cs.drop chars.length }

/-- The token at the front of a text that starts with neither a blank nor a comment. A template has a token only if
its first piece comes to an end. -/
def token? (cs : List Char) : Option Written :=
  match cs with
  | [] => some { token := .done, rest := [] }
  | c :: rest =>
    if startsWord cs then
      let w := word isIdentifierStart cs
      some { token := .word (String.ofList w.name) w.escaped, flawed := w.flawed, rest := w.rest }
    else if c.isDigit || (c = '.' && rest.head?.any Char.isDigit) then number? cs
    else if c = '"' || c = '\'' then
      (stringBody? c rest).map fun (codes, flawed, after) =>
        { token := .string (textOfCodes codes), flawed, rest := after }
    else if c = '`' then
      (templateChunk? rest).map fun _ => { token := .backquote, rest }
    else if c = '#' then
      if startsWord rest then
        let w := word isIdentifierStart rest
        some { token := .privateName (String.ofList w.name), flawed := w.flawed, rest := w.rest }
      else none
    else punct? cs

/-- A token in its place. -/
structure Lexeme extends Written where
  /-- A line ends between the token and the one before it. -/
  onNewLine : Bool

/-- The next token of a script. -/
def lexeme (cs : List Char) : Lexeme :=
  let invalid : Written := { token := .invalid, flawed := true, rest := [] }
  match skipGap .code false cs with
  | some (onNewLine, start) => { (token? start).getD invalid with onNewLine }
  | none => { invalid with onNewLine := false }

end TemplateCompiler.Script

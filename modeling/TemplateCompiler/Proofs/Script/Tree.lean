import TemplateCompiler.Proofs.Render.LoopNames
import TemplateCompiler.Script.Token
/-!
# Syntax trees

`Tree.read` reads a piece of JavaScript by the precedence of the language: a comma binds least, then an arrow, an
assignment and `?:`, then the operators between two operands by their levels, then `!`, and calls and members bind
most. Only those forms are read that a render function can be made of; what has any other form has no tree. How a text
is grouped is all that matters: a function that takes a name twice, or an escape in a template that denotes nothing, is
read as well.
-/

namespace TemplateCompiler.Script

/-- A JavaScript expression as it is grouped. Parentheses leave no trace. -/
inductive Tree where
  | name (name : String)
  | number (text : String)
  | string (value : String)
  | boolean (value : Bool)
  | null
  /-- The text before the first substitution, then each substitution with the text after it. -/
  | template (head : String) (tail : List (Tree × String))
  | array (items : List Tree)
  | object (entries : List (String × Tree))
  /-- A function that only returns a value. -/
  | function (parameters : List String) (value : Tree)
  /-- An arrow function without parameters. -/
  | arrow (value : Tree)
  | member (object : Tree) (property : String)
  | index (object key : Tree)
  | call (callee : Tree) (arguments : List Tree)
  | not (operand : Tree)
  | binary (operator : String) (left right : Tree)
  | conditional (test consequent alternate : Tree)
  | assign (target value : Tree)
  | sequence (first second : Tree)
deriving Repr

namespace Tree

/-- Whether something can be assigned to the tree. -/
def isPlace : Tree → Bool
  | .name .. => true
  | .member _ _ => true
  | .index _ _ => true
  | _ => false

/-! ## Tokens -/

/-- The token at the front of a text, if nothing is at fault in it, and what follows it. -/
def next (cs : List Char) : Option (Token × List Char) :=
  let found := lexeme cs
  if found.flawed then none else some (found.token, found.rest)

/-- What follows the token, if it stands at the front of a text. -/
def take (token : Token) (cs : List Char) : Option (List Char) :=
  match next cs with
  | some (found, rest) => if found = token then some rest else none
  | none => none

/-- The level of an operator between two operands. What has a higher level binds more. -/
def level? : String → Option Nat
  | "||" => some 1
  | "&&" => some 2
  | "|" => some 3
  | "^" => some 4
  | "&" => some 5
  | "==" => some 6
  | "!=" => some 6
  | "===" => some 6
  | "!==" => some 6
  | "<" => some 7
  | "<=" => some 7
  | ">" => some 7
  | ">=" => some 7
  | "<<" => some 8
  | ">>" => some 8
  | ">>>" => some 8
  | "+" => some 9
  | "-" => some 9
  | "*" => some 10
  | "/" => some 10
  | "%" => some 10
  | _ => none

/-- The operator that a token is, with its level. -/
def operator? : Token → Option (String × Nat)
  | .punct text => (level? text).map (text, ·)
  | _ => none

/-- What follows the head of an arrow function without parameters. What stands there is a value, and no block. -/
def arrowBody? (cs : List Char) : Option (List Char) := do
  let cs ← take (.punct "(") cs
  let cs ← take (.punct ")") cs
  let cs ← take (.punct "=>") cs
  if (take (.punct leftBrace) cs).isSome then none else some cs

/-- The parameters of a function up to the closing parenthesis, and what follows it. -/
def parametersAt : Nat → List Char → Option (List String × List Char)
  | 0, _ => none
  | depth + 1, cs =>
    match next cs with
    | some (.word word false, cs) => do
      if moduleReservedWords.contains word then none
      else if let some cs := take (.punct ")") cs then return ([word], cs)
      else
        let (words, cs) ← parametersAt depth (← take (.punct ",") cs)
        return (word :: words, cs)
    | _ => none

/-- The name of an entry of an object. -/
def keyOf : Token → Option String
  | .word word false => some word
  | .string text => some text
  | _ => none

/-! ## Expressions -/

mutual

/-- An expression. -/
def expressionAt : Nat → List Char → Option (Tree × List Char)
  | 0, _ => none
  | depth + 1, cs => do
    let (t, cs) ← assignmentAt depth cs
    match take (.punct ",") cs with
    | some cs =>
      let (u, cs) ← expressionAt depth cs
      return (.sequence t u, cs)
    | none => return (t, cs)

/-- An expression without commas at its top. -/
def assignmentAt : Nat → List Char → Option (Tree × List Char)
  | 0, _ => none
  | depth + 1, cs =>
    match arrowBody? cs with
    | some cs => do
      let (value, cs) ← assignmentAt depth cs
      return (.arrow value, cs)
    | none => do
      let (t, cs) ← binaryAt depth 0 cs
      match next cs with
      | some (.punct "?", cs) =>
        let (consequent, cs) ← assignmentAt depth cs
        let (alternate, cs) ← assignmentAt depth (← take (.punct ":") cs)
        return (.conditional t consequent alternate, cs)
      | some (.punct "=", cs) =>
        if t.isPlace then
          let (value, cs) ← assignmentAt depth cs
          return (.assign t value, cs)
        else none
      | _ => return (t, cs)

/-- Operands with operators between them, of the level `least` or a higher one. -/
def binaryAt : Nat → Nat → List Char → Option (Tree × List Char)
  | 0, _, _ => none
  | depth + 1, least, cs => do
    let (t, cs) ← unaryAt depth cs
    operatorsAt depth least t cs

/-- The operators that follow an operand, with their right operands. An operator takes what is left of it as a whole. -/
def operatorsAt : Nat → Nat → Tree → List Char → Option (Tree × List Char)
  | 0, _, _, _ => none
  | depth + 1, least, left, cs =>
    match (next cs).bind fun (token, cs) => (operator? token).map (·, cs) with
    | some ((operator, level), rest) =>
      if least ≤ level then do
        let (right, cs) ← binaryAt depth (level + 1) rest
        operatorsAt depth least (.binary operator left right) cs
      else return (left, cs)
    | none => return (left, cs)

/-- An operand. -/
def unaryAt : Nat → List Char → Option (Tree × List Char)
  | 0, _ => none
  | depth + 1, cs =>
    match take (.punct "!") cs with
    | some cs => do
      let (t, cs) ← unaryAt depth cs
      return (.not t, cs)
    | none => do
      let (t, cs) ← primaryAt depth cs
      chainAt depth t cs

/-- The members and calls that follow a value. -/
def chainAt : Nat → Tree → List Char → Option (Tree × List Char)
  | 0, _, _ => none
  | depth + 1, t, cs =>
    match next cs with
    | some (.punct ".", cs) =>
      match next cs with
      | some (.word word false, cs) => chainAt depth (.member t word) cs
      | _ => none
    | some (.punct "[", cs) => do
      let (key, cs) ← expressionAt depth cs
      chainAt depth (.index t key) (← take (.punct "]") cs)
    | some (.punct "(", cs) => do
      let (arguments, cs) ← itemsAt depth ")" cs
      chainAt depth (.call t arguments) cs
    | _ => return (t, cs)

/-- A value without members and calls. -/
def primaryAt : Nat → List Char → Option (Tree × List Char)
  | 0, _ => none
  | depth + 1, cs =>
    match next cs with
    | some (.word "true" false, cs) => some (.boolean true, cs)
    | some (.word "false" false, cs) => some (.boolean false, cs)
    | some (.word "null" false, cs) => some (.null, cs)
    | some (.word "function" false, cs) => do
      let (words, cs) ← parametersAt depth (← take (.punct "(") cs)
      let cs ← take (.word "return" false) (← take (.punct leftBrace) cs)
      if (lexeme cs).onNewLine then none
      else
        let (value, cs) ← expressionAt depth cs
        return (.function words value, ← take (.punct rightBrace) (← take (.punct ";") cs))
    | some (.word word false, cs) => if moduleReservedWords.contains word then none else some (.name word, cs)
    | some (.number text, cs) => some (.number text, cs)
    | some (.string value, cs) => some (.string value, cs)
    | some (.backquote, cs) => do
      let ((first, rest), cs) ← templateAt depth cs
      return (.template first rest, cs)
    | some (.punct "(", cs) => do
      let (t, cs) ← expressionAt depth cs
      return (t, ← take (.punct ")") cs)
    | some (.punct "[", cs) => do
      let (values, cs) ← itemsAt depth "]" cs
      return (.array values, cs)
    | some (.punct leftBrace, cs) => do
      let (values, cs) ← entriesAt depth cs
      return (.object values, cs)
    | _ => none

/-- The pieces and substitutions of a template up to the closing backquote, and what follows it. -/
def templateAt : Nat → List Char → Option ((String × List (Tree × String)) × List Char)
  | 0, _ => none
  | depth + 1, cs => do
    let (chunk, cs) ← templateChunk? cs
    if chunk.opens then
      let (inner, cs) ← expressionAt depth cs
      let ((after, tail), cs) ← templateAt depth (← take (.punct rightBrace) cs)
      return ((String.ofList chunk.raw, (inner, after) :: tail), cs)
    else return ((String.ofList chunk.raw, []), cs)

/-- Expressions with commas between them up to the token that closes them, and what follows that. -/
def itemsAt : Nat → String → List Char → Option (List Tree × List Char)
  | 0, _, _ => none
  | depth + 1, close, cs =>
    match take (.punct close) cs with
    | some cs => some ([], cs)
    | none => do
      let (t, cs) ← assignmentAt depth cs
      match take (.punct close) cs with
      | some cs => return ([t], cs)
      | none =>
        let (ts, cs) ← itemsAt depth close (← take (.punct ",") cs)
        return (t :: ts, cs)

/-- The entries of an object up to the closing brace, and what follows it. -/
def entriesAt : Nat → List Char → Option (List (String × Tree) × List Char)
  | 0, _ => none
  | depth + 1, cs =>
    match take (.punct rightBrace) cs with
    | some cs => some ([], cs)
    | none => do
      let (token, cs) ← next cs
      let key ← keyOf token
      let (t, cs) ← assignmentAt depth (← take (.punct ":") cs)
      match take (.punct rightBrace) cs with
      | some cs => return ([(key, t)], cs)
      | none =>
        let (more, cs) ← entriesAt depth (← take (.punct ",") cs)
        return ((key, t) :: more, cs)

end

/-- The tree of a text. Each rule comes back to others a few times between two characters, so the depth is enough for
the whole text. -/
def read (cs : List Char) : Option Tree := do
  let (t, rest) ← expressionAt (8 * cs.length + 8) cs
  let (token, _) ← next rest
  if token = .done then some t else none

end Tree

end TemplateCompiler.Script

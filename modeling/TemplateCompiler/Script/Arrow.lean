import TemplateCompiler.Script.Operators
/-!
# Arrow functions

A parenthesis may open the parameters of an arrow function or an expression. Where the first tokens do not tell,
the text is read as an arrow function with its body, and as an expression if that fails.
-/

namespace TemplateCompiler.Script

/-! ## The first tokens -/

/-- Whether a text starts an arrow function with parentheses, as far as its first tokens tell. -/
inductive ArrowGuess where
  | never
  | maybe
  | always
deriving DecidableEq, Repr

/-- The guess where a variable stands behind the parenthesis, from what follows it. -/
def guessAtName (third : Lexeme) : ArrowGuess :=
  match third.token with
  | .punct ":" => .always
  | .punct "," => .maybe
  | .punct "=" => .maybe
  | .punct ")" => .maybe
  | .punct "?" =>
    if [Token.punct ":", .punct ",", .punct "=", .punct ")"].contains (lexeme third.rest).token then .always
    else .never
  | _ => .never

/-- The guess where a word stands behind the parenthesis. A modifier before a name belongs to a parameter. -/
def guessAtWord (name : String) (third : Lexeme) : ArrowGuess :=
  if name != "async" && modifierWords.contains name && third.token.isVariable && !third.token.isWord "as" then
    .always
  else if isVariable name || name == "this" then guessAtName third
  else .never

/-- The guess from what follows the parenthesis. -/
def guessInside (second : Lexeme) : ArrowGuess :=
  let third := lexeme second.rest
  match second.token with
  | .punct ")" =>
    if third.token = .punct "=>" || third.token = .punct leftBrace then .always else .never
  | .punct "[" => .maybe
  | .punct leftBrace => .maybe
  | .punct "..." => .always
  | .word name _ => guessAtWord name third
  | _ => .never

/-- The guess for a text, which may start with `async`. -/
def guessArrow (cs : List Char) : ArrowGuess :=
  let first := lexeme cs
  let opening :=
    if first.token.isWord "async" then
      let next := lexeme first.rest
      if next.onNewLine then first else next
    else first
  if opening.token = .punct "(" then guessInside (lexeme opening.rest) else .never

/-- Whether a text starts an arrow function that waits and has one parameter without parentheses. -/
def startsAsyncArrow (cs : List Char) : Bool :=
  let first := lexeme cs
  let name := lexeme first.rest
  let arrow := lexeme name.rest
  first.token.isWord "async" && name.token.isVariable && !name.onNewLine && arrow.token = .punct "=>" &&
    !arrow.onNewLine

/-! ## The functions -/

/-- The arrow, on the line of the parameters, and the body of an arrow function. -/
def arrowBody (g : Grammar) (ctx : Context) (isAsync : Bool) : Reader Term := do
  if (← peek).onNewLine then flaw
  expect "=>"
  let inner := { ctx with awaits := isAsync, yields := false }
  if ← accept leftBrace then g.statements { inner with inOperator := true, returns := true }
  else
    let _ ← g.assignment inner
  return .other .value

/-- An arrow function with parentheses. -/
def arrowFunction (g : Grammar) (ctx : Context) : Reader Term := do
  let isAsync ← acceptWord "async"
  expect "("
  let _ ← g.parameters { ctx with inOperator := true, awaits := ctx.awaits || isAsync } {}
  arrowBody g ctx isAsync

/-- The arrow function with parentheses that comes next, if one does. A place where none is found is not tried
again. -/
def arrowFunction? (g : Grammar) (ctx : Context) : Reader (Option Term) := do
  match guessArrow (← get).rest with
  | .never => return none
  | .always => return some (← arrowFunction g ctx)
  | .maybe =>
    let start ← place
    if (← get).notArrows.contains start then return none
    let found ← attempt (arrowFunction g ctx)
    if found.isNone then modify fun scan => { scan with notArrows := start :: scan.notArrows }
    return found

/-- An arrow function that waits and has one parameter without parentheses. -/
def asyncArrow (g : Grammar) (ctx : Context) : Reader Term := do
  expectWord "async"
  let next ← peek
  require !(ctx.awaits && next.token.isWord "await")
  variableName ctx
  arrowBody g ctx true

end TemplateCompiler.Script

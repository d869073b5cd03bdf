import TemplateCompiler.Script.Declaration
/-!
# Loops

The head of a `for` loop: three parts with semicolons between them, or what it assigns to and what it runs over.
-/

namespace TemplateCompiler.Script

/-- An expression in parentheses. -/
def condition (g : Grammar) (ctx : Context) : Reader Unit := do
  expect "("
  let _ ← g.expression ctx.bracketed
  expect ")"

/-- The parts of a loop head from the first semicolon on. -/
def loopParts (g : Grammar) (ctx : Context) (awaited : Bool) : Reader Unit := do
  if awaited then flaw
  expect ";"
  unless ← accept ";" do
    let _ ← g.expression ctx.bracketed
    expect ";"
  unless ← accept ")" do
    let _ ← g.expression ctx.bracketed
    expect ")"

/-- What a loop runs over. -/
inductive LoopSource where
  | elements
  | keys
deriving DecidableEq

/-- What a loop runs over, behind `of` or `in`, if one of them comes next. -/
def loopSource (g : Grammar) (ctx : Context) (awaited : Bool) : Reader (Option LoopSource) := do
  if ← acceptWord "of" then
    let _ ← g.assignment ctx.bracketed
    expect ")"
    return some .elements
  if ← acceptWord "in" then
    if awaited then flaw
    let _ ← g.expression ctx.bracketed
    expect ")"
    return some .keys
  return none

/-- Whether `let` at the front of a text declares variables in the head of a loop. -/
def startsLoopLet (cs : List Char) : Bool :=
  let first := lexeme cs
  let next := (lexeme first.rest).token
  first.token.isWord "let" &&
    match next with
    | .word name _ => name != "in"
    | _ => next = .punct "[" || next = .punct leftBrace

/-- A loop head behind the keyword of the variables that it declares. -/
def declaredHead (g : Grammar) (ctx : Context) (constant awaited : Bool) : Reader Unit := do
  let lacking ← g.declarations { ctx with inOperator := false } constant
  if (← loopSource g ctx awaited).isNone then
    if lacking then flaw
    loopParts g ctx awaited

/-- A loop head that declares resources. -/
def usingHead (g : Grammar) (ctx : Context) (awaited : Bool) : Reader Unit := do
  usingWords ctx
  g.resources { ctx with inOperator := false } false
  match ← loopSource g ctx awaited with
  | none => loopParts g ctx awaited
  | some source => if source = .keys then flaw

/-- A loop head that starts with an expression. -/
def expressionHead (g : Grammar) (ctx : Context) (awaited : Bool) : Reader Unit := do
  let first ← peek
  let t ← g.expression { ctx with inOperator := false }
  if (← aheadWord "of") || (← aheadWord "in") then
    assignTo t
    let isAsync := first.token = .word "async" false && t.isName "async"
    if isAsync && !awaited && (← aheadWord "of" : Bool) then flaw
    let _ ← loopSource g ctx awaited
  else loopParts g ctx awaited

/-- The head of a `for` loop. -/
def loopHead (g : Grammar) (ctx : Context) (awaited : Bool) : Reader Unit := do
  expect "("
  if ← ahead ";" then loopParts g ctx awaited
  else if ← acceptWord "var" then declaredHead g ctx false awaited
  else if ← acceptWord "const" then declaredHead g ctx true awaited
  else if startsLoopLet (← get).rest then
    expectWord "let"
    declaredHead g ctx false awaited
  else if startsResources true (← get).rest then usingHead g ctx awaited
  else expressionHead g ctx awaited

/-- A `for` loop behind its keyword. -/
def forRest (g : Grammar) (ctx : Context) : Reader Unit := do
  let awaited ← acceptWord "await"
  if awaited && !ctx.awaits then flaw
  loopHead g ctx awaited
  g.statement ctx true

end TemplateCompiler.Script

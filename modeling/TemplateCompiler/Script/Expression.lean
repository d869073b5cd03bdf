import TemplateCompiler.Script.Arrow
/-!
# Expressions

Assignments, alternatives and sequences, above the operators.
-/

namespace TemplateCompiler.Script

/-! ## Yielding -/

/-- Whether `yield` comes next and is no name. -/
def aheadYield (ctx : Context) : Reader Bool := do
  let next ← peek
  return next.token.isWord "yield" && (ctx.yields || (lexeme next.rest).continuesLine)

/-- Whether nothing is handed out by a `yield` before the token. -/
def Token.endsYield (token : Token) : Bool :=
  token = .done || token.isWord "in" ||
    [Token.punct ";", .punct rightBrace, .punct ")", .punct "]", .punct ":", .punct ","].contains token

/-- A `yield` and what it hands out. -/
def yieldTerm (g : Grammar) (ctx : Context) : Reader Term := do
  expectWord "yield"
  unless ctx.yields do flaw
  unless (← peek).onNewLine do
    let delegates ← accept "*"
    if delegates || !(← peek).token.endsYield then
      let _ ← g.assignment { ctx with yields := true }
  return .other .value

/-! ## Assignments and alternatives -/

/-- The operators that assign. -/
def assignmentOperators : List String :=
  ["=", "+=", "-=", "*=", "/=", "%=", "**=", "<<=", ">>=", ">>>=", "&=", "|=", "^=", "&&=", "||=", "??="]

/-- The rest of two alternatives behind the question mark. -/
def alternatives (g : Grammar) (ctx : Context) : Reader Term := do
  let _ ← g.assignment ctx.bracketed
  expect ":"
  let _ ← g.assignment ctx
  return .other .value

/-- What can follow a sequence of operands: an arrow, an assignment or two alternatives. -/
def assignmentRest (g : Grammar) (ctx : Context) (t : Term) : Reader Term := do
  let next ← peek
  match next.token, t with
  | .punct "=>", .name _ => arrowBody g ctx false
  | .punct "?", _ =>
    skip next
    alternatives g ctx
  | .punct op, _ =>
    if assignmentOperators.contains op then
      assignTo t
      skip next
      let _ ← g.assignment ctx
      return .other (if op = "=" then .defaulted else .value)
    return t
  | _, _ => return t

/-- An expression without commas at its top. -/
def assignment (g : Grammar) (ctx : Context) : Reader Term := do
  if ← aheadYield ctx then return ← yieldTerm g ctx
  if let some t ← arrowFunction? g ctx then return t
  if startsAsyncArrow (← get).rest then return ← asyncArrow g ctx
  assignmentRest g ctx (← binary g ctx)

/-! ## Sequences -/

/-- The expressions that follow the first comma of a sequence. -/
def moreExpressions (g : Grammar) (ctx : Context) : Reader Unit := do
  let _ ← g.assignment ctx
  if ← accept "," then g.moreExpressions ctx

/-- An expression. -/
def expression (g : Grammar) (ctx : Context) : Reader Term := do
  let t ← g.assignment ctx
  if ← accept "," then
    g.moreExpressions ctx
    return .other .value
  return t

end TemplateCompiler.Script

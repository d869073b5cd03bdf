import TemplateCompiler.Script.Expression
/-!
# Declarations of variables

Variables behind `var`, `let` and `const`, and resources behind `using`.
-/

namespace TemplateCompiler.Script

/-- The variables of a declaration, and whether one of them lacks the value that a constant or a pattern needs. -/
def declarations (g : Grammar) (ctx : Context) (constant : Bool) : Reader Bool := do
  let target ← peek
  g.pattern ctx
  let valued ← accept "="
  if valued then
    let _ ← g.assignment ctx
  let lacking := !valued && (constant || !target.token.isVariable)
  if ← accept "," then
    let more ← g.declarations ctx constant
    return lacking || more
  return lacking

/-- The resources of a declaration, which are bound by names; `valued` says that each needs a value. -/
def resources (g : Grammar) (ctx : Context) (valued : Bool) : Reader Unit := do
  unless (← peek).token.isVariable do flaw
  g.pattern ctx
  if ← accept "=" then
    let _ ← g.assignment ctx
  else if valued then flaw
  if ← accept "," then g.resources ctx valued

/-- Whether `using` at the front of a text declares resources: a name or a pattern stands on its line. In the head of
a loop `of` is no such name. -/
def startsUsing (inLoop : Bool) (cs : List Char) : Bool :=
  let first := lexeme cs
  let next := lexeme first.rest
  first.token.isWord "using" && !next.onNewLine &&
    (next.token = .punct leftBrace || (next.token.isVariable && !(inLoop && next.token.isWord "of")))

/-- Whether a text declares resources, with `await` or without. -/
def startsResources (inLoop : Bool) (cs : List Char) : Bool :=
  let first := lexeme cs
  let next := lexeme first.rest
  startsUsing inLoop cs || (first.token.isWord "await" && !next.onNewLine && startsUsing inLoop first.rest)

/-- The words before resources. -/
def usingWords (ctx : Context) : Reader Unit := do
  if ← acceptWord "await" then
    unless ctx.awaits do flaw
  expectWord "using"

/-- Variables behind their keyword, as a statement; `single` says that no declaration may stand there. -/
def variableStatement (g : Grammar) (ctx : Context) (lexical constant single : Bool) : Reader Unit := do
  if lexical && single then flaw
  if ← g.declarations ctx constant then flaw
  statementEnd

/-- A statement that starts with `let`, which may be a name. -/
def letStatement (g : Grammar) (ctx : Context) (single : Bool) : Reader Unit := do
  let next ← peek
  let follower := (lexeme next.rest).token
  let assigned :=
    match follower with
    | .punct text => assignmentOperators.contains text || closeOperators.contains text ||
        (looseOperators.contains text && !(["&&", "||", "??"].contains text))
    | _ => follower.isWord "in" || follower.isWord "instanceof"
  if assigned then
    let _ ← g.assignment ctx
    statementEnd
  else if follower = .punct "." || follower = .punct "(" then
    let _ ← g.expression ctx
  else
    skip next
    if (single && follower != .punct "[") || follower = .punct ";" then statementEnd
    else variableStatement g ctx true false single

end TemplateCompiler.Script

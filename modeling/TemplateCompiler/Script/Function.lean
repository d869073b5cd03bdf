import TemplateCompiler.Script.Pattern
/-!
# Functions

Functions and methods behind the words and names that start them.
-/

namespace TemplateCompiler.Script

/-- The parameters and the body of a function. -/
def functionRest (g : Grammar) (inner : Context) : Reader Parameters := do
  expect "("
  let parameters ← g.parameters inner {}
  expect leftBrace
  g.statements inner
  return parameters

/-- A function whose keyword has been read; `declared` says that it is a declaration, which needs a name. -/
def function (g : Grammar) (isAsync declared : Bool) (outer : Context) : Reader Unit := do
  let inner := Context.function isAsync (← accept "*")
  match (← peek).token with
  | .word _ _ => variableName (if declared then outer else inner)
  | _ => if declared then flaw
  let _ ← functionRest g inner

/-- A method that reads or writes a property: a reader has no single parameter, a writer has one parameter. -/
def accessor (g : Grammar) (reads : Bool) : Reader Unit := do
  let parameters ← functionRest g (Context.function false false)
  if reads then
    if parameters.count != 0 then flaw
  else if parameters.count != 1 || parameters.rest then flaw

/-- Whether a function that waits comes next: `async` and `function` on one line. -/
def aheadAsyncFunction : Reader Bool := do
  let next ← peek
  let follower := lexeme next.rest
  return next.token.isWord "async" && follower.token.isWord "function" && !follower.onNewLine

end TemplateCompiler.Script

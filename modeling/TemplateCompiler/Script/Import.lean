import TemplateCompiler.Script.Declaration
/-!
# Imports and exports

What a script takes from other modules and offers to them. They are read wherever a statement can stand.
-/

namespace TemplateCompiler.Script

/-! ## Modules -/

/-- The attributes of an import, up to the closing brace. -/
def importAttributes (g : Grammar) : Reader Unit := do
  if ← accept rightBrace then return
  match ← take with
  | .word _ _ => pure ()
  | .string _ => pure ()
  | _ => failure
  expect ":"
  modulePath
  if ← accept "," then g.importAttributes else expect rightBrace
where
  /-- A text in quotes. -/
  modulePath : Reader Unit := do
    match ← take with
    | .string _ => pure ()
    | _ => failure

/-- The module that is imported from, with attributes, to the end of the statement. -/
def importSource (g : Grammar) : Reader Unit := do
  importAttributes.modulePath
  let next ← peek
  if next.token.isWord "with" || (next.token.isWord "assert" && !next.onNewLine) then
    let _ ← take
    expect leftBrace
    g.importAttributes
  statementEnd

/-! ## Imports -/

/-- The names that are imported, up to the closing brace. A name that is no variable's is given another. -/
def imports (g : Grammar) (ctx : Context) : Reader Unit := do
  if ← accept rightBrace then return
  let name ← take
  if ← acceptWord "as" then variableName ctx
  else
    match name with
    | .word name _ => checkVariable ctx name
    | _ => failure
  if ← accept "," then g.imports ctx else expect rightBrace

/-- All that a module offers, or single names of it. -/
def importBindings (g : Grammar) (ctx : Context) : Reader Unit := do
  if ← accept "*" then
    expectWord "as"
    variableName ctx
  else
    expect leftBrace
    g.imports ctx

/-- Whether the word that comes next says when the module is loaded, and is no name. -/
def aheadPhase : Reader Bool := do
  let first ← peek
  let second := lexeme first.rest
  let third := lexeme second.rest
  return (first.token.isWord "defer" && second.token = .punct "*") ||
    (first.token.isWord "source" && second.token.isVariable &&
      (!second.token.isWord "from" || third.token.isWord "from"))

/-- An import behind its keyword. -/
def importStatement (g : Grammar) (ctx : Context) : Reader Unit := do
  if ← aheadPhase then
    let _ ← take
  match (← peek).token with
  | .string _ => pure ()
  | .word _ _ =>
    variableName ctx
    if ← accept "," then importBindings g ctx
    expectWord "from"
  | _ =>
    importBindings g ctx
    expectWord "from"
  importSource g

/-! ## Exports -/

/-- The name of something in a module: a word or a text in quotes. -/
def exportName : Reader Token := do
  let token ← take
  match token with
  | .word _ _ => return token
  | .string _ => return token
  | _ => failure

/-- The names that are exported, up to the closing brace, and whether one of them is no variable's; `foreign` says
that of the names before them. -/
def exports (g : Grammar) (foreign : Bool) : Reader Bool := do
  if ← accept rightBrace then return foreign
  let name ← exportName
  if ← acceptWord "as" then
    let _ ← exportName
  let foreign := foreign || !name.isVariable
  if ← accept "," then g.exports foreign
  else
    expect rightBrace
    return foreign

/-- Names that are exported, behind their brace. Names of other modules' things need no variable. -/
def exportedNames (g : Grammar) : Reader Unit := do
  let foreign ← g.exports false
  if ← acceptWord "from" then importSource g
  else
    if foreign then flaw
    statementEnd

/-- All names of another module, behind the star. -/
def exportedModule (g : Grammar) : Reader Unit := do
  if ← acceptWord "as" then
    let _ ← exportName
  expectWord "from"
  importSource g

/-- The function that waits, if one comes next. -/
def asyncDeclaration (g : Grammar) (ctx : Context) (named : Bool) : Reader Bool := do
  if ← aheadAsyncFunction then
    expectWord "async"
    expectWord "function"
    function g true named ctx
    return true
  return false

/-- What `export default` exports. -/
def exportedDefault (g : Grammar) (ctx : Context) : Reader Unit := do
  if ← g.decorators ctx false then
    expectWord "class"
    classRest g ctx
  else if ← acceptWord "class" then classRest g ctx
  else if ← acceptWord "function" then function g false false ctx
  else unless ← asyncDeclaration g ctx false do
    let _ ← g.assignment ctx
    statementEnd

/-- An export behind its keyword. -/
def exportStatement (g : Grammar) (ctx : Context) : Reader Unit := do
  if ← acceptWord "default" then exportedDefault g ctx
  else if ← accept "*" then exportedModule g
  else if ← accept leftBrace then exportedNames g
  else if ← g.decorators ctx false then
    expectWord "class"
    classRest g ctx
  else if ← acceptWord "class" then classRest g ctx
  else if ← acceptWord "function" then function g false true ctx
  else if ← acceptWord "var" then variableStatement g ctx false false false
  else if ← acceptWord "let" then variableStatement g ctx true false false
  else if ← acceptWord "const" then variableStatement g ctx true true false
  else require (← asyncDeclaration g ctx true)

end TemplateCompiler.Script

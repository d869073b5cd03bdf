import TemplateCompiler.Script.Name
/-!
# Patterns

What variables and parameters are bound by: names, and patterns of names. A rest element comes last, with no comma
behind it.
-/

namespace TemplateCompiler.Script

/-- The default of a pattern, if there is one. -/
def patternDefault (g : Grammar) (ctx : Context) : Reader Unit := do
  if ← accept "=" then
    let _ ← g.assignment ctx.bracketed

/-- A pattern: a name, or elements or properties in brackets. -/
def pattern (g : Grammar) (ctx : Context) : Reader Unit := do
  match ← take with
  | .word name _ => checkVariable ctx name
  | .punct "[" => g.elementPatterns ctx false
  | .punct leftBrace => g.propertyPatterns ctx false
  | _ => failure

/-- What a rest element, read by `target`, binds. It has no default. -/
def restPattern (g : Grammar) (ctx : Context) (target : Reader Unit) : Reader Unit := do
  target
  if ← ahead "=" then flaw
  patternDefault g ctx

/-- Goes on behind an element of a list: behind a comma with `more`, or with nothing behind `close`. `rest` says
that a rest element has been read. -/
def listRest (close : String) (rest : Bool) (more : Reader Unit) : Reader Unit := do
  if ← accept "," then
    if rest then flaw
    more
  else expect close

/-- The elements of an array pattern, up to its closing bracket; `rest` says that one of them was a rest element. -/
def elementPatterns (g : Grammar) (ctx : Context) (rest : Bool) : Reader Unit := do
  if ← accept "]" then return
  if ← accept "," then
    if rest then flaw
    g.elementPatterns ctx rest
  else if ← accept "..." then
    restPattern g ctx (g.pattern ctx)
    listRest "]" true (g.elementPatterns ctx true)
  else
    g.pattern ctx
    patternDefault g ctx
    listRest "]" rest (g.elementPatterns ctx rest)

/-- A property of an object pattern. -/
def propertyPattern (g : Grammar) (ctx : Context) : Reader Unit := do
  let next ← peek
  let _ ← propertyName g ctx
  if ← accept ":" then g.pattern ctx
  else require next.token.isVariable
  patternDefault g ctx

/-- The properties of an object pattern, up to its closing brace; `rest` says that one of them was a rest element,
which is a name. -/
def propertyPatterns (g : Grammar) (ctx : Context) (rest : Bool) : Reader Unit := do
  if ← accept rightBrace then return
  if ← accept "..." then
    restPattern g ctx (variableName ctx)
    listRest rightBrace true (g.propertyPatterns ctx true)
  else
    propertyPattern g ctx
    listRest rightBrace rest (g.propertyPatterns ctx rest)

/-- The parameters of a function, up to the closing parenthesis; `read` have been read before. -/
def parameters (g : Grammar) (ctx : Context) (read : Parameters) : Reader Parameters := do
  if ← accept ")" then return read
  if read.rest then flaw
  let read ←
    if ← accept "..." then do
      restPattern g ctx (g.pattern ctx)
      pure { read with rest := true }
    else do
      let _ ← g.decorators ctx false
      unless (← g.modifiers []).isEmpty do flaw
      g.pattern ctx
      patternDefault g ctx
      pure { read with count := read.count + 1 }
  if ← accept "," then
    if read.rest then flaw
    g.parameters ctx read
  else
    expect ")"
    return read

end TemplateCompiler.Script

import TemplateCompiler.Script.Loop
import TemplateCompiler.Script.Import
/-!
# Statements

What stands in the bodies of functions. Only whether they can be read matters, so these readers return nothing.
Where a rule takes `single`, it says that the statement is the body of another one, where no declaration may stand.
-/

namespace TemplateCompiler.Script

/-- A block. -/
def block (g : Grammar) (ctx : Context) : Reader Unit := do
  expect leftBrace
  g.statements ctx

/-! ## Statements with a keyword -/

/-- What follows `if`. -/
def ifRest (g : Grammar) (ctx : Context) : Reader Unit := do
  condition g ctx
  g.statement ctx true
  if ← acceptWord "else" then g.statement ctx true

/-- What follows `do`. -/
def doRest (g : Grammar) (ctx : Context) : Reader Unit := do
  g.statement ctx true
  expectWord "while"
  condition g ctx
  let _ ← accept ";"

/-- What follows `while` and `with`. -/
def whileRest (g : Grammar) (ctx : Context) : Reader Unit := do
  condition g ctx
  g.statement ctx true

/-- What follows `try`. -/
def tryRest (g : Grammar) (ctx : Context) : Reader Unit := do
  block g ctx
  let caught ← acceptWord "catch"
  if caught then
    if ← accept "(" then
      g.pattern ctx
      expect ")"
    block g ctx
  if ← acceptWord "finally" then block g ctx
  else unless caught do flaw

/-- The cases of a `switch`, up to its closing brace. Statements between two labels are read one by one. -/
def cases (g : Grammar) (ctx : Context) : Reader Unit := do
  if ← accept rightBrace then return
  if ← acceptWord "case" then
    let _ ← g.expression ctx.bracketed
    expect ":"
  else if ← acceptWord "default" then expect ":"
  else g.statement ctx false
  g.cases ctx

/-- What follows `switch`. -/
def switchRest (g : Grammar) (ctx : Context) : Reader Unit := do
  condition g ctx
  expect leftBrace
  require ((← ahead rightBrace) || (← aheadWord "case") || (← aheadWord "default"))
  g.cases ctx

/-- Whether the statement can end before the next token. -/
def aheadEnd : Reader Bool := do
  let next ← peek
  return next.onNewLine || next.token = .punct ";" || next.token = .punct rightBrace || next.token = .done

/-- What follows `return`. -/
def returnRest (g : Grammar) (ctx : Context) : Reader Unit := do
  unless ctx.returns do flaw
  unless ← aheadEnd do
    let _ ← g.expression ctx.bracketed
  statementEnd

/-- What follows `throw`. -/
def throwRest (g : Grammar) (ctx : Context) : Reader Unit := do
  if (← peek).onNewLine then flaw
  let _ ← g.expression ctx.bracketed
  statementEnd

/-- What follows `break` and `continue`. -/
def jumpRest (ctx : Context) : Reader Unit := do
  unless ← aheadEnd do labelName ctx
  statementEnd

/-- What follows `class`, as a statement. -/
def classStatement (g : Grammar) (ctx : Context) (single : Bool) : Reader Unit := do
  if single then flaw
  classRest g ctx

/-- What follows `function`, as a statement. -/
def functionStatement (g : Grammar) (ctx : Context) (single : Bool) : Reader Unit := do
  if single && (← ahead "*" : Bool) then flaw
  function g false true ctx

/-- A statement behind the keyword `name` that it starts with. -/
def keywordStatement? (g : Grammar) (ctx : Context) (single : Bool) (name : String) : Option (Reader Unit) :=
  match name with
  | "if" => some (ifRest g ctx)
  | "for" => some (forRest g ctx)
  | "while" => some (whileRest g ctx)
  | "do" => some (doRest g ctx)
  | "with" => some (whileRest g ctx)
  | "switch" => some (switchRest g ctx)
  | "try" => some (tryRest g ctx)
  | "throw" => some (throwRest g ctx)
  | "return" => some (returnRest g ctx)
  | "break" => some (jumpRest ctx)
  | "continue" => some (jumpRest ctx)
  | "debugger" => some statementEnd
  | "function" => some (functionStatement g ctx single)
  | "class" => some (classStatement g ctx single)
  | "export" => some (exportStatement g ctx)
  | "var" => some (variableStatement g ctx false false single)
  | "const" => some (variableStatement g ctx true true single)
  | _ => none

/-! ## Other statements -/

/-- An expression as a statement, or a label before a statement. -/
def expressionStatement (g : Grammar) (ctx : Context) : Reader Unit := do
  match ← g.expression ctx.bracketed with
  | .name _ => if ← accept ":" then g.statement ctx true else statementEnd
  | _ => statementEnd

/-- A declaration of resources. -/
def usingStatement (g : Grammar) (ctx : Context) (single : Bool) : Reader Unit := do
  if single then flaw
  usingWords ctx
  g.resources ctx true
  statementEnd

/-- A class or an export that decorators stand before, of which the first sign has been read. -/
def decoratedStatement (g : Grammar) (ctx : Context) (single : Bool) : Reader Unit := do
  decorator g ctx
  let _ ← g.decorators ctx true
  if ← acceptWord "export" then
    let _ ← acceptWord "default"
  expectWord "class"
  classStatement g ctx single

/-- Whether `import` comes next and starts no expression. -/
def aheadImport : Reader Bool := do
  let next ← peek
  let follower := (lexeme next.rest).token
  return next.token.isWord "import" && follower != .punct "." && follower != .punct "("

/-- A statement that starts with the word `name`, which is no keyword of a statement and still ahead. -/
def wordStatement (g : Grammar) (ctx : Context) (single : Bool) (next : Lexeme) : Reader Unit := do
  if next.token = .word "let" false then letStatement g ctx single
  else if startsResources false (← get).rest then usingStatement g ctx single
  else if ← aheadImport then
    expectWord "import"
    importStatement g ctx
  else if ← aheadAsyncFunction then
    if single then flaw
    let _ ← asyncDeclaration g ctx true
  else expressionStatement g ctx

/-- A statement. -/
def statement (g : Grammar) (ctx : Context) (single : Bool) : Reader Unit := do
  let next ← peek
  match next.token with
  | .punct ";" => skip next
  | .punct leftBrace =>
    skip next
    g.statements ctx
  | .punct "@" =>
    skip next
    decoratedStatement g ctx single
  | .word name escaped =>
    match keywordStatement? g ctx single name with
    | some rest =>
      skip next
      if escaped then flaw
      rest
    | none => wordStatement g ctx single next
  | _ => expressionStatement g ctx

/-- Statements, up to a closing brace. -/
def statements (g : Grammar) (ctx : Context) : Reader Unit := do
  if ← accept rightBrace then return
  g.statement ctx false
  g.statements ctx

end TemplateCompiler.Script

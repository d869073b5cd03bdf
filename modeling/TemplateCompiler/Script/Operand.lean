import TemplateCompiler.Script.Class
/-!
# Operands

Expressions without operators: names, literals, functions, classes, and the members, calls and templates behind
them.
-/

namespace TemplateCompiler.Script

/-! ## Arguments -/

/-- The arguments of a call, up to the closing parenthesis. -/
def arguments (g : Grammar) (ctx : Context) : Reader Unit := do
  if ← accept ")" then return
  let _ ← accept "..."
  let _ ← g.assignment ctx.bracketed
  if ← accept "," then g.arguments ctx else expect ")"

/-- The path of a module that is loaded, and options for it. -/
def loadRest (g : Grammar) (ctx : Context) : Reader Term := do
  expect "("
  let _ ← g.assignment ctx.bracketed
  if ← accept "," then
    unless ← ahead ")" do
      let _ ← g.assignment ctx.bracketed
      let _ ← accept ","
  expect ")"
  return .other .load

/-- What follows `import`: the module itself, or a module to be loaded. -/
def importRest (g : Grammar) (ctx : Context) : Reader Term := do
  if ← accept "." then
    if ← acceptWord "meta" then return .other .value
    unless ← acceptWord "source" do expectWord "defer"
  loadRest g ctx

/-- What follows `new`. -/
def newRest (g : Grammar) (ctx : Context) : Reader Term := do
  if ← accept "." then
    expectWord "target"
    return .other .value
  let callee ← g.callee ctx
  if ← accept "(" then g.arguments ctx
  if callee.isLoad then flaw
  return .other .value

/-! ## Primary expressions -/

/-- A regular expression behind its opening slash. -/
def regexRest (text : List Char) : Reader Term := do
  let (valid, rest) := regex text
  modify fun scan => { scan with rest }
  unless valid do flaw
  return .other .value

/-- An expression behind the keyword `name` that it starts with. -/
def keywordTerm? (g : Grammar) (ctx : Context) (name : String) : Option (Reader Term) :=
  match name with
  | "this" => some (return .this)
  | "null" => some (return .null)
  | "true" => some (return .boolean true)
  | "false" => some (return .boolean false)
  | "function" => some do
    function g false false ctx
    return .other .value
  | "class" => some do
    classRest g ctx
    return .other .value
  | "new" => some (newRest g ctx)
  | "import" => some (importRest g ctx)
  | "super" => some do
    unless (← ahead ".") || (← ahead "[") || (← ahead "(") do flaw
    return .other .value
  | _ => none

/-- An expression behind the word `name`. -/
def wordTerm (g : Grammar) (ctx : Context) (name : String) (escaped : Bool) : Reader Term := do
  match keywordTerm? g ctx name with
  | some term =>
    if escaped then flaw
    term
  | none =>
    checkVariable ctx name
    return .name name

/-- A class that decorators stand before, of which the first sign has been read. -/
def decoratedClass (g : Grammar) (ctx : Context) : Reader Term := do
  decorator g ctx
  let _ ← g.decorators ctx true
  expectWord "class"
  classRest g ctx
  return .other .value

/-- A function that waits. -/
def asyncFunction (g : Grammar) (ctx : Context) : Reader Term := do
  expectWord "async"
  expectWord "function"
  function g true false ctx
  return .other .value

/-- An expression without operators, calls and member accesses. -/
def primary (g : Grammar) (ctx : Context) : Reader Term := do
  if ← aheadAsyncFunction then return ← asyncFunction g ctx
  let next ← peek
  skip next
  match next.token with
  | .word name escaped => wordTerm g ctx name escaped
  | .number text => return .number text
  | .string value => return .string value
  | .bigInteger => return .other .value
  | .backquote =>
    let (head, tail) ← g.template ctx false
    return .template head tail
  | .punct "(" =>
    let inner ← g.expression ctx.bracketed
    expect ")"
    return .paren inner
  | .punct "[" =>
    let cover ← g.elements ctx.bracketed (some {})
    return literalTerm cover
  | .punct leftBrace =>
    let cover ← g.properties ctx.bracketed (some {})
    return literalTerm cover
  | .punct "/" => regexRest next.rest
  | .punct "/=" => regexRest ('=' :: next.rest)
  | .punct "@" => decoratedClass g ctx
  | _ => failure

/-! ## Members, calls and templates -/

/-- The member that follows a dot. -/
def memberOf (t : Term) : Reader Term := do
  match ← take with
  | .word name _ => return .member t name
  | .privateName _ => return .other .place
  | _ => failure

/-- Goes on from `t` as long as member accesses, calls and templates follow. A chain that has accessed a member
of what may be missing is nothing but a value. -/
def chain (g : Grammar) (ctx : Context) (form : Chain) (t : Term) : Reader Term := do
  let next ← peek
  match next.token with
  | .punct "." =>
    skip next
    g.chain ctx form (← memberOf t)
  | .punct "[" =>
    skip next
    let key ← g.expression ctx.bracketed
    expect "]"
    g.chain ctx form (.index t key)
  | .backquote =>
    skip next
    if form.optional then flaw
    let _ ← g.template ctx true
    g.chain ctx form (.other .value)
  | .punct "(" =>
    if form.calls then
      skip next
      g.arguments ctx
      g.chain ctx form .call
    else return t
  | .punct "?." =>
    skip next
    unless form.calls do flaw
    let form := { form with optional := true }
    match (← peek).token with
    | .punct "(" => g.chain ctx form t
    | .punct "[" => g.chain ctx form t
    | .backquote => g.chain ctx form t
    | _ => g.chain ctx form (← memberOf t)
  | _ => return if form.optional then .other .value else t

/-- An expression with the members, calls and templates behind it. -/
def chained (g : Grammar) (ctx : Context) : Reader Term := do
  g.chain ctx ⟨true, false⟩ (← primary g ctx)

/-- What `new` is applied to: an expression with member accesses but without calls. -/
def callee (g : Grammar) (ctx : Context) : Reader Term := do
  g.chain ctx ⟨false, false⟩ (← primary g ctx)

end TemplateCompiler.Script

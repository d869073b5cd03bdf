import TemplateCompiler.Script.Function
/-!
# Literals with parts

Templates, arrays and objects. An array or object is read as a value, together with what it would be as a
destructuring pattern.
-/

namespace TemplateCompiler.Script

/-! ## Templates -/

/-- A template whose opening backquote has been read. In a tagged one escapes need not denote anything. -/
def template (g : Grammar) (ctx : Context) (tagged : Bool) : Reader (String × List (Term × String)) := do
  let some (chunk, rest) := templateChunk? (← get).rest | failure
  modify fun scan => { scan with rest }
  unless tagged || chunk.denotes do flaw
  let quasi := String.ofList (lineFeeds chunk.raw)
  if chunk.opens then
    let inner ← g.expression ctx.bracketed
    expect rightBrace
    let (after, tail) ← g.template ctx tagged
    return (quasi, (inner, after) :: tail)
  else return (quasi, [])

/-! ## Arrays -/

/-- The cover of a literal with one more part. -/
def withPart (cover part : Option Cover) : Option Cover := do
  return (← cover).append (← part)

/-- The term that a literal is. -/
def literalTerm : Option Cover → Term
  | some cover => .other (.pattern cover)
  | none => .other .value

/-- The cover of a literal whose last part spreads what `part` is assigned; nothing may follow it, and no comma
either. -/
def withSpread (cover part : Option Cover) (close : String) : Reader (Option Cover) := do
  let cover := withPart cover part
  if ← accept "," then
    if ← ahead close then return withPart cover (some { flawed := true })
    return none
  unless ← ahead close do failure
  return cover

/-- The elements of an array literal, up to its closing bracket. -/
def elements (g : Grammar) (ctx : Context) (cover : Option Cover) : Reader (Option Cover) := do
  if ← accept "]" then return cover
  if ← accept "," then g.elements ctx cover
  else if ← accept "..." then
    let t ← g.assignment ctx
    g.elements ctx (← withSpread cover t.target? "]")
  else
    let t ← g.assignment ctx
    let cover := withPart cover t.element?
    unless ← accept "," do require (← ahead "]")
    g.elements ctx cover

/-! ## Objects -/

/-- A property that is only named, maybe with a default for a pattern. -/
def namedProperty (g : Grammar) (ctx : Context) (name : String) (start : Nat) : Reader (Option Cover) := do
  require (isVariable name && !isTaken ctx name)
  if ← accept "=" then
    let _ ← g.assignment ctx
    modify fun scan => { scan with defaults := scan.defaults.insert start }
    return some { defaults := [start] }
  return some {}

/-- A method or a property, from the signs before its name on. Only `async` may stand before it, and only before a
method. -/
def valueProperty (g : Grammar) (ctx : Context) (modifiers : List String) (start : Nat) :
    Reader (Option Cover) := do
  let isGenerator ← accept "*"
  let next ← peek
  let _ ← propertyName g ctx
  if isGenerator || (← ahead "(" : Bool) then
    if modifiers.any (· != "async") then flaw
    let _ ← functionRest g (Context.function (modifiers.contains "async") isGenerator)
    return none
  unless modifiers.isEmpty do flaw
  if ← accept ":" then return (← g.assignment ctx).element?
  match next.token with
  | .word name _ => namedProperty g ctx name start
  | _ => failure

/-- One property of an object literal. -/
def property (g : Grammar) (ctx : Context) : Reader (Option Cover) := do
  let start ← place
  let modifiers ← g.modifiers []
  let next ← peek
  match next.token with
  | .word name escaped =>
    if (name == "get" || name == "set") && (lexeme next.rest).token.followsAccessor then
      skip next
      if escaped || !modifiers.isEmpty then flaw
      let _ ← propertyName g ctx
      accessor g (name == "get")
      return none
    else valueProperty g ctx modifiers start
  | _ => valueProperty g ctx modifiers start

/-- The properties of an object literal, up to its closing brace. -/
def properties (g : Grammar) (ctx : Context) (cover : Option Cover) : Reader (Option Cover) := do
  if ← accept rightBrace then return cover
  if ← accept "..." then
    let t ← g.assignment ctx
    let part := if t.isPlace then some {} else none
    g.properties ctx (← withSpread cover part rightBrace)
  else
    let cover := withPart cover (← property g ctx)
    unless ← accept "," do require (← ahead rightBrace)
    g.properties ctx cover

/-- Assigns to `t`, which takes up the defaults in it. -/
def assignTo (t : Term) : Reader Unit := do
  let some cover := t.target? | failure
  if cover.flawed then flaw
  modify fun scan => { scan with defaults := scan.defaults.filter fun start => !cover.defaults.contains start }

end TemplateCompiler.Script

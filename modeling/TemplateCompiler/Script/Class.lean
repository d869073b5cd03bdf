import TemplateCompiler.Script.Literal
/-!
# Classes

Classes and their members. Words such as `private` and marks such as `?` that only say something about types are
read past.
-/

namespace TemplateCompiler.Script

/-! ## Decorators -/

/-- A decorator whose sign has been read: an expression in parentheses, or a path of names that may be called. -/
def decorator (g : Grammar) (ctx : Context) : Reader Unit := do
  if ← accept "(" then
    let _ ← g.expression ctx.bracketed
    expect ")"
  else
    variableName ctx
    if ← accept "." then g.path true
    if ← accept "(" then g.arguments ctx

/-- The decorators that come next, and whether there are any; `any` says that some have been read. -/
def decorators (g : Grammar) (ctx : Context) (any : Bool) : Reader Bool := do
  if ← accept "@" then
    decorator g ctx
    g.decorators ctx true
  else return any

/-! ## Modifiers -/

/-- The words that say something about the member behind them. -/
def modifierWords : List String :=
  ["abstract", "accessor", "async", "const", "declare", "default", "export", "in", "out", "override", "private",
   "protected", "public", "readonly", "static"]

/-- The modifiers that say who may use a member. -/
def accessWords : List String :=
  ["private", "protected", "public"]

/-- The modifiers that `name` must stand before. -/
def laterModifiers (name : String) : List String :=
  if accessWords.contains name then accessWords ++ ["override", "static", "readonly", "async"]
  else if name == "static" then ["override", "readonly", "async"]
  else if name == "override" then ["readonly", "async"]
  else []

/-- Whether `name` is no modifier of a member, or may not stand behind the modifiers `earlier`. -/
def isMisplaced (earlier : List String) (name : String) : Bool :=
  ["const", "default", "export", "in", "out"].contains name ||
  earlier.any fun word => word == name || (laterModifiers name).contains word

/-- The modifier that comes next, behind the modifiers `earlier`. -/
def modifier? (earlier : List String) : Reader (Option String) := do
  let next ← peek
  match next.token with
  | .word name escaped =>
    let follower := lexeme next.rest
    let follows :=
      if name == "static" then !earlier.contains name && follower.token != .punct leftBrace
      else modifierWords.contains name && !follower.onNewLine
    if follows && follower.token.followsModifier then
      skip next
      if escaped || isMisplaced earlier name then flaw
      return some name
    return none
  | _ => return none

/-- The modifiers that come next, behind the modifiers `earlier`. -/
def modifiers (g : Grammar) (earlier : List String) : Reader (List String) := do
  match ← modifier? earlier with
  | some name => g.modifiers (earlier ++ [name])
  | none => return earlier

/-! ## Members -/

/-- What stands before the name of a member. -/
structure Member where
  decorated : Bool
  modifiers : List String

/-- The member belongs to the class itself. -/
def Member.isStatic (m : Member) : Bool :=
  m.modifiers.contains "static"

/-- Whether no method of that name may stand here, the constructor aside. -/
def Member.refusesMethod (m : Member) (name : Option String) : Bool :=
  name = some (if m.isStatic then "prototype" else "constructor")

/-- Whether no field of that name may stand here. -/
def Member.refusesField (m : Member) (name : Option String) : Bool :=
  name = some "constructor" || (m.isStatic && name = some "prototype")

/-- Takes the name of a member, which may be private. -/
def memberName (g : Grammar) (ctx : Context) (m : Member) : Reader (Option String) := do
  let next ← peek
  match next.token with
  | .privateName name =>
    skip next
    if name == "constructor" || m.modifiers.any accessWords.contains then flaw
    return none
  | _ => propertyName g ctx

/-- The end of a statement: a semicolon, or a place where one may be left out. -/
def statementEnd : Reader Unit := do
  unless ← accept ";" do
    let next ← peek
    require (next.onNewLine || next.token = .punct rightBrace || next.token = .done)

/-- The method `name` behind its name. -/
def methodMember (g : Grammar) (m : Member) (name : Option String) (isGenerator : Bool) : Reader Unit := do
  if m.refusesMethod name || m.modifiers.contains "readonly" then flaw
  let _ ← functionRest g (Context.function (m.modifiers.contains "async") isGenerator)

/-- The field `name` behind its name. -/
def fieldMember (g : Grammar) (ctx : Context) (m : Member) (name : Option String) : Reader Unit := do
  let accessor := m.modifiers.contains "accessor"
  if m.refusesField name then flaw
  if accessor && ["async", "declare", "readonly"].any m.modifiers.contains then flaw
  if ← accept "=" then
    let _ ← if accessor then g.assignment ctx.bracketed else g.expression ctx.field
  statementEnd

/-- A method or a field. -/
def namedMember (g : Grammar) (ctx : Context) (m : Member) : Reader Unit := do
  let isGenerator ← accept "*"
  let name ← memberName g ctx m
  let isOptional ← accept "?"
  if isGenerator || (← ahead "(" : Bool) then methodMember g m name isGenerator
  else
    if ← accept "!" then
      if isOptional then flaw
    fieldMember g ctx m name

/-- A method that reads or writes a property, whose first word has been read. -/
def accessorMember (g : Grammar) (ctx : Context) (m : Member) (reads : Bool) : Reader Unit := do
  let name ← memberName g ctx m
  if m.refusesMethod name || m.modifiers.contains "readonly" then flaw
  accessor g reads

/-- The constructor, whose name has been read. -/
def constructorMember (g : Grammar) (m : Member) : Reader Unit := do
  let isAsync := m.modifiers.contains "async"
  if isAsync || m.decorated then flaw
  let _ ← functionRest g (Context.function isAsync false)

/-- A block that runs for the class itself, whose keyword has been read. -/
def blockMember (g : Grammar) (m : Member) : Reader Unit := do
  if m.decorated || !m.modifiers.isEmpty then flaw
  expect leftBrace
  g.statements Context.staticBlock

/-- One member of a class. -/
def member (g : Grammar) (ctx : Context) : Reader Unit := do
  let m : Member := ⟨← g.decorators ctx false, ← g.modifiers []⟩
  let next ← peek
  let follower := lexeme next.rest
  let called := !m.isStatic && follower.token = .punct "("
  match next.token with
  | .word name escaped =>
    let taken : Reader Unit := do
      skip next
      if escaped then flaw
    if name == "static" && follower.token = .punct leftBrace then
      taken
      blockMember g m
    else if (name == "get" || name == "set") && follower.token.followsAccessor then
      taken
      accessorMember g ctx m (name == "get")
    else if name == "constructor" && called then
      taken
      constructorMember g m
    else namedMember g ctx m
  | .string name =>
    if name == "constructor" && called then
      skip next
      constructorMember g m
    else namedMember g ctx m
  | _ => namedMember g ctx m

/-- The members of a class, up to its closing brace. -/
def members (g : Grammar) (ctx : Context) : Reader Unit := do
  if ← accept rightBrace then return
  unless ← accept ";" do member g ctx
  g.members ctx

/-! ## Classes -/

/-- What a class extends. There is one of them. -/
def superclasses (g : Grammar) (ctx : Context) : Reader Unit := do
  let _ ← g.chained ctx
  if ← accept "," then
    flaw
    g.superclasses ctx

/-- The types that a class says it agrees with. -/
def agreements (g : Grammar) : Reader Unit := do
  g.path false
  if ← accept "," then g.agreements

/-- What a class extends, and the types that it says it agrees with, each once and in this order. -/
def heritage (g : Grammar) (ctx : Context) (extended agreed : Bool) : Reader Unit := do
  if ← acceptWord "extends" then
    if extended || agreed then flaw
    g.superclasses ctx
    g.heritage ctx true agreed
  else if ← acceptWord "implements" then
    if agreed then flaw
    g.agreements
    g.heritage ctx extended true

/-- Whether the name of a class comes next. The word `implements` before another word is none. -/
def namesClass : Reader Bool := do
  let next ← peek
  match next.token, (lexeme next.rest).token with
  | .word "implements" _, .word _ _ => return false
  | token, _ => return token.isVariable

/-- A class whose keyword has been read. -/
def classRest (g : Grammar) (ctx : Context) : Reader Unit := do
  if ← namesClass then variableName ctx
  g.heritage ctx false false
  expect leftBrace
  g.members ctx

end TemplateCompiler.Script

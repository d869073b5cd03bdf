import TemplateCompiler.Script.Reader
/-!
# Names

The words that may name something, and the names of properties and members.
-/

namespace TemplateCompiler.Script

/-- Words that are no names of variables. -/
def reservedWords : List String :=
  ["break", "case", "catch", "class", "const", "continue", "debugger", "default", "delete", "do", "else",
   "enum", "export", "extends", "false", "finally", "for", "function", "if", "import", "in", "instanceof",
   "new", "null", "return", "super", "switch", "this", "throw", "true", "try", "typeof", "var", "void",
   "while", "with"]

/-- Whether a word can name a variable somewhere. -/
def isVariable (name : String) : Bool :=
  !reservedWords.contains name

/-- Whether a word that can name a variable elsewhere has another meaning here. -/
def isTaken (ctx : Context) (name : String) : Bool :=
  (ctx.awaits && name == "await") || (ctx.yields && name == "yield")

/-- Whether the token is a word that can name a variable somewhere. -/
def Token.isVariable : Token → Bool
  | .word name _ => Script.isVariable name
  | _ => false

/-- Whether the token is a word. -/
def Token.isName : Token → Bool
  | .word _ _ => true
  | _ => false

/-- A word that names a variable. -/
def checkVariable (ctx : Context) (name : String) : Reader Unit := do
  require (isVariable name)
  if isTaken ctx name then flaw

/-- Takes the name of a variable. -/
def variableName (ctx : Context) : Reader Unit := do
  match ← take with
  | .word name _ => checkVariable ctx name
  | _ => failure

/-- Takes the name of a label. -/
def labelName (ctx : Context) : Reader Unit := do
  match ← take with
  | .word name _ => require (isVariable name && !isTaken ctx name)
  | _ => failure

/-- Whether the token is the name of a property that is written out. -/
def Token.isLiteralName : Token → Bool
  | .word _ _ => true
  | .string _ => true
  | .number _ => true
  | .bigInteger => true
  | _ => false

/-- Whether a member can follow `get` or `set`. -/
def Token.followsAccessor (token : Token) : Bool :=
  token.isLiteralName || token.isPrivateName || token = .punct "["

/-- Whether a member can follow a modifier. -/
def Token.followsModifier (token : Token) : Bool :=
  token.followsAccessor || token = .punct leftBrace || token = .punct "*" || token = .punct "..."

/-- Takes the name of a property, which is a word, a literal or an expression in brackets. The text of a word or a
string is handed out. -/
def propertyName (g : Grammar) (ctx : Context) : Reader (Option String) := do
  match ← take with
  | .word name _ => return some name
  | .string name => return some name
  | .number _ => return none
  | .bigInteger => return none
  | .punct "[" =>
    let _ ← g.assignment ctx.bracketed
    expect "]"
    return none
  | _ => failure

/-- Takes a path of names with dots between them; `members` says that they may be private. -/
def path (g : Grammar) (members : Bool) : Reader Unit := do
  let token ← take
  require (token.isPrivateName && members || token.isName)
  if ← accept "." then g.path members

end TemplateCompiler.Script

import TemplateCompiler.Script.Token
import TemplateCompiler.Script.Term
/-!
# Readers

A reader takes a piece of script from the front of a text, or stops where no script can go on. Some faults do not
stop it: they are noted as flaws, and a script with a flaw is refused in the end. The difference shows where one
reading of a text is given up for another, since flaws are given up with it.

The grammar of scripts is recursive in many places; each rule is written against a `Grammar` that holds the rules
it comes back to.
-/

namespace TemplateCompiler.Script

/-- How far a script has been read. A place in it is told by the length of the text from there on. -/
structure Scan where
  /-- What has not been read. -/
  rest : List Char
  /-- Something has been read that makes the script invalid. -/
  flawed : Bool := false
  /-- The places where a parenthesis has turned out to start no arrow function. -/
  notArrows : List Nat := []
  /-- The places of the names with a default that no destructuring pattern has taken up. -/
  defaults : List Nat := []

/-- Takes a piece from the front of a text. -/
abbrev Reader := OptionT (StateM Scan)

/-! ## Tokens -/

/-- The next token, left where it is. -/
def peek : Reader Lexeme :=
  return lexeme (← get).rest

/-- Goes on behind a token. What is at fault in its text makes the script invalid. -/
def skip (next : Lexeme) : Reader Unit :=
  modify fun scan => { scan with rest := next.rest, flawed := scan.flawed || next.flawed }

/-- Takes the next token. -/
def take : Reader Token := do
  let next ← peek
  skip next
  return next.token

/-- Notes that the script is invalid. -/
def flaw : Reader Unit :=
  modify fun scan => { scan with flawed := true }

/-- Stops unless `condition` holds. -/
def require (condition : Bool) : Reader Unit :=
  unless condition do failure

/-- Takes the punctuator `text` if it comes next. -/
def accept (text : String) : Reader Bool := do
  let next ← peek
  if next.token = .punct text then
    skip next
    return true
  return false

/-- Takes the punctuator `text`. -/
def expect (text : String) : Reader Unit := do
  require (← accept text)

/-- Whether the punctuator `text` comes next. -/
def ahead (text : String) : Reader Bool :=
  return (← peek).token = .punct text

/-- Takes the keyword `name` if it comes next. A keyword has no escapes. -/
def acceptWord (name : String) : Reader Bool := do
  let next ← peek
  match next.token with
  | .word word escaped =>
    if word = name then
      skip next
      if escaped then flaw
      return true
    return false
  | _ => return false

/-- Takes the keyword `name`. -/
def expectWord (name : String) : Reader Unit := do
  require (← acceptWord name)

/-- Whether the keyword `name` comes next. -/
def aheadWord (name : String) : Reader Bool :=
  return (← peek).token.isWord name

/-- The place that has been reached. -/
def place : Reader Nat :=
  return (← get).rest.length

/-- What `p` reads. If it stops, nothing is taken, and what it noted on the text is given up. -/
def attempt {α : Type} (p : Reader α) : Reader (Option α) := fun scan =>
  match p scan with
  | (some a, after) => (some (some a), after)
  | (none, after) => (some none, { after with rest := scan.rest, flawed := scan.flawed })

/-! ## What may be read where -/

/-- What the place of a rule allows. -/
structure Context where
  /-- `in` is an operator. -/
  inOperator : Bool
  /-- `await` waits for a value. -/
  awaits : Bool
  /-- `yield` hands out a value. -/
  yields : Bool
  /-- `return` leaves a function. -/
  returns : Bool

/-- The top level of a module. -/
def Context.module : Context :=
  ⟨true, true, false, false⟩

/-- Where `in` is an operator again, as inside brackets. -/
def Context.bracketed (ctx : Context) : Context :=
  { ctx with inOperator := true }

/-- The inside of a function. -/
def Context.function (isAsync isGenerator : Bool) : Context :=
  ⟨true, isAsync, isGenerator, true⟩

/-- The value of a field of a class. -/
def Context.field (ctx : Context) : Context :=
  { ctx with inOperator := true, awaits := false, yields := false }

/-- A block that runs once for a class. -/
def Context.staticBlock : Context :=
  ⟨true, true, false, false⟩

/-- How a chain of member accesses may go on. -/
structure Chain where
  /-- It may call. -/
  calls : Bool
  /-- It has accessed a member of what may be missing. -/
  optional : Bool

/-- The operators of a flat sequence that must not be mixed. -/
structure Mix where
  nullish : Bool
  logical : Bool

/-- What has been read of the parameters of a function. -/
structure Parameters where
  /-- How many single parameters there are. -/
  count : Nat := 0
  /-- A parameter stands for all further arguments. -/
  rest : Bool := false

/-- The rules that others come back to. -/
structure Grammar where
  expression : Context → Reader Term
  moreExpressions : Context → Reader Unit
  assignment : Context → Reader Term
  unary : Context → Reader Term
  operators : Context → Mix → Reader Unit
  chain : Context → Chain → Term → Reader Term
  chained : Context → Reader Term
  callee : Context → Reader Term
  arguments : Context → Reader Unit
  elements : Context → Option Cover → Reader (Option Cover)
  properties : Context → Option Cover → Reader (Option Cover)
  template : Context → Bool → Reader (String × List (Term × String))
  pattern : Context → Reader Unit
  elementPatterns : Context → Bool → Reader Unit
  propertyPatterns : Context → Bool → Reader Unit
  parameters : Context → Parameters → Reader Parameters
  decorators : Context → Bool → Reader Bool
  members : Context → Reader Unit
  modifiers : List String → Reader (List String)
  superclasses : Context → Reader Unit
  agreements : Reader Unit
  heritage : Context → Bool → Bool → Reader Unit
  path : Bool → Reader Unit
  statement : Context → Bool → Reader Unit
  statements : Context → Reader Unit
  declarations : Context → Bool → Reader Bool
  resources : Context → Bool → Reader Unit
  cases : Context → Reader Unit
  imports : Context → Reader Unit
  exports : Bool → Reader Bool
  importAttributes : Reader Unit

end TemplateCompiler.Script

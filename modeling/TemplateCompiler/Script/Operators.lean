import TemplateCompiler.Script.Operand
/-!
# Operators

Operands with the operators around them. Operators between operands are read as a flat sequence: their order of
binding changes no answer here, only which of them may stand side by side.
-/

namespace TemplateCompiler.Script

/-! ## Operators of one operand -/

/-- Whether the token is an operand on the same line, so that the word before it is no name. -/
def Lexeme.continuesLine (next : Lexeme) : Bool :=
  !next.onNewLine &&
    match next.token with
    | .word name _ => name != "in" && name != "instanceof"
    | .number _ => true
    | .bigInteger => true
    | .string _ => true
    | _ => false

/-- An operand behind its operator. With its sign it is no base of a power. -/
def signed (g : Grammar) (ctx : Context) : Reader Term := do
  let _ ← g.unary ctx
  if ← ahead "**" then flaw
  return .other .value

/-- An expression and the signs that count it up or down. -/
def counted (g : Grammar) (ctx : Context) : Reader Term := do
  let t ← g.chained ctx
  let next ← peek
  if (next.token = .punct "++" || next.token = .punct "--") && !next.onNewLine then
    skip next
    require t.isPlace
    return .other .value
  return t

/-- An expression that starts with the word `name`, which is still ahead. -/
def wordUnary (g : Grammar) (ctx : Context) (next : Lexeme) (name : String) (escaped : Bool) : Reader Term := do
  if name == "delete" || name == "typeof" || name == "void" then
    skip next
    if escaped then flaw
    signed g ctx
  else if name == "await" && (ctx.awaits || (lexeme next.rest).continuesLine) then
    skip next
    if escaped || !ctx.awaits then flaw
    signed g { ctx with awaits := true }
  else counted g ctx

/-- An expression and the operators before it. -/
def unary (g : Grammar) (ctx : Context) : Reader Term := do
  let next ← peek
  match next.token with
  | .punct text =>
    if text == "+" || text == "-" || text == "~" || text == "!" then
      skip next
      signed g ctx
    else if text == "++" || text == "--" then
      skip next
      require (← g.unary ctx).isPlace
      return .other .value
    else counted g ctx
  | .word name escaped => wordUnary g ctx next name escaped
  | _ => counted g ctx

/-! ## Operators between operands -/

/-- The operators between two operands that bind at least as closely as a comparison. -/
def closeOperators : List String :=
  ["<", "<=", ">", ">=", "<<", ">>", ">>>", "+", "-", "*", "/", "%", "**", "in", "instanceof"]

/-- The other operators between two operands. -/
def looseOperators : List String :=
  ["==", "!=", "===", "!==", "&", "^", "|", "&&", "||", "??"]

/-- The operator between two operands that the token is. -/
def operator? (ctx : Context) : Token → Option String
  | .punct text => if closeOperators.contains text || looseOperators.contains text then some text else none
  | .word name _ => if name == "instanceof" || (name == "in" && ctx.inOperator) then some name else none
  | _ => none

/-- An operand: an expression, or a private name whose presence `in` tests. No such test is an operand of an operator
that binds as closely as a comparison; `close` says that one stands before it. -/
def operand (g : Grammar) (ctx : Context) (close : Bool) : Reader Term := do
  let next ← peek
  if ctx.inOperator && next.token.isPrivateName then
    skip next
    require (!close && (← aheadWord "in" : Bool))
    return .other .value
  unary g ctx

/-- The sequence of operators with one more. `??` stands beside neither `||` nor `&&`. -/
def Mix.add (mix : Mix) (op : String) : Mix :=
  ⟨mix.nullish || op == "??", mix.logical || op == "||" || op == "&&"⟩

/-- Whether the token starts a remark on the type of the operand before it. -/
def Lexeme.startsRemark (next : Lexeme) : Bool :=
  !next.onNewLine && (next.token.isWord "as" || next.token.isWord "satisfies")

/-- The operators and operands that follow an operand. A remark on a type is read past, and makes the script
invalid. -/
def operators (g : Grammar) (ctx : Context) (mix : Mix) : Reader Unit := do
  let next ← peek
  match operator? ctx next.token with
  | some op =>
    let mix := mix.add op
    if mix.nullish && mix.logical then flaw
    skip next
    if next.token = .word op true then flaw
    let _ ← operand g ctx (closeOperators.contains op)
    g.operators ctx mix
  | none =>
    if next.startsRemark then
      skip next
      flaw
      unless ← acceptWord "const" do
        let _ ← g.unary ctx
      g.operators ctx mix

/-- A sequence of operands and operators. -/
def binary (g : Grammar) (ctx : Context) : Reader Term := do
  let t ← operand g ctx false
  let next ← peek
  if (operator? ctx next.token).isSome || next.startsRemark then
    g.operators ctx ⟨false, false⟩
    return .other .value
  return t

end TemplateCompiler.Script

import TemplateCompiler.Text.Blank
import TemplateCompiler.Script.Grammar
import TemplateCompiler.Binding.Expr
/-!
# Reading a binding

The code of a binding is read as a JavaScript expression, and is refused if it is more than a binding may be.
-/

namespace TemplateCompiler.Binding

open TemplateCompiler.Text TemplateCompiler.Script

/-- Why the code of a binding is refused. -/
inductive BindingError where
  | empty
  | unreadable (code : String)
  | computedKey
  | this
  | call
  | unsupported
deriving DecidableEq, Repr

/-- The message for the author of the template. -/
def BindingError.message : BindingError → String
  | .empty => "empty binding"
  | .unreadable code => "cannot parse `" ++ code ++ "`"
  | .computedKey => "computed member keys must be literals"
  | .this => "`this` is implicit in bindings; reference the field directly"
  | .call => "function calls are not allowed in bindings"
  | .unsupported => "only identifiers, member access, literals and template strings are allowed"

mutual
/-- The binding expression that a term is. The key of a member access is looked at before its object. -/
def Expr.ofTerm : Term → Except BindingError Expr
  | .name name => .ok (.identifier name)
  | .string value => .ok (.literal (.string value))
  | .number text => .ok (.literal (.number text))
  | .boolean value => .ok (.literal (.boolean value))
  | .null => .ok (.literal .null)
  | .member object property => do return .member (← Expr.ofTerm object) (.static property)
  | .index object key => do
    match ← Expr.ofTerm key with
    | .literal value => return .member (← Expr.ofTerm object) (.computed value)
    | _ => throw .computedKey
  | .paren inner => do return .paren (← Expr.ofTerm inner)
  | .template head tail => do return .template head (← Expr.ofTail tail)
  | .this => .error .this
  | .call => .error .call
  | .other _ => .error .unsupported

/-- The binding expressions in the substitutions of a template string, from the left. -/
def Expr.ofTail : List (Term × String) → Except BindingError (List (Expr × String))
  | [] => .ok []
  | (inner, after) :: tail => do
    let inner ← Expr.ofTerm inner
    return (inner, after) :: (← Expr.ofTail tail)
end

/-- The expression that the code between the braces of a binding is. -/
def readBinding (code : List Char) : Except BindingError Expr :=
  if code.all isBlank then .error .empty
  else
    match readExpression code with
    | some t => Expr.ofTerm t
    | none => .error (.unreadable (String.ofList (trim code)))

end TemplateCompiler.Binding

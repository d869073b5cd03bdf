import TemplateCompiler.Text.Quoted
/-!
# Binding expressions

The expressions that a template may bind: identifiers, member accesses, literals, parentheses and template
strings. `Expr.toJs` writes one as JavaScript, where a root identifier is read off the component unless an
iteration around it binds that name.
-/

namespace TemplateCompiler.Binding

open TemplateCompiler.Text

/-- A literal. A number is kept as the text of its value. -/
inductive Literal where
  | string (value : String)
  | number (text : String)
  | boolean (value : Bool)
  | null
deriving DecidableEq, Repr

/-- The text of a literal. -/
def Literal.toJs : Literal → String
  | .string value => quote value
  | .number text => text
  | .boolean true => "true"
  | .boolean false => "false"
  | .null => "null"

/-- What a member access names. -/
inductive Property where
  | static (name : String)
  | computed (key : Literal)
deriving DecidableEq, Repr

/-- The text of a property behind its object. -/
def Property.toJs : Property → String
  | .static name => "." ++ name
  | .computed key => "[" ++ key.toJs ++ "]"

/-- A binding expression. -/
inductive Expr where
  | identifier (name : String)
  | member (object : Expr) (property : Property)
  | literal (value : Literal)
  | paren (inner : Expr)
  /-- The raw text before the first substitution, then each substitution with the raw text after it. -/
  | template (head : String) (tail : List (Expr × String))
deriving Repr

namespace Expr

/-- Whether the expression is a literal, in parentheses or not. -/
def isLiteral : Expr → Bool
  | .literal _ => true
  | .paren inner => inner.isLiteral
  | _ => false

/-- Whether the expression is a number, in parentheses or not. -/
def isNumber : Expr → Bool
  | .literal (.number _) => true
  | .paren inner => inner.isNumber
  | _ => false

/-- The identifier that a chain of member accesses starts from. -/
def rootIdentifier? : Expr → Option String
  | .identifier name => some name
  | .member object _ => object.rootIdentifier?
  | .paren inner => inner.rootIdentifier?
  | _ => none

mutual
/-- The text of an expression; `locals` are the names that iterations around it bind. Parentheses are dropped,
except that a number keeps a pair where a member is read off it. -/
def toJs (locals : List String) : Expr → String
  | .identifier name => if locals.contains name then name else "$cmp." ++ name
  | .member object property =>
    (if object.isNumber then "(" ++ object.toJs locals ++ ")" else object.toJs locals) ++ property.toJs
  | .literal value => value.toJs
  | .paren inner => inner.toJs locals
  | .template head tail => "`" ++ head ++ tailToJs locals tail ++ "`"

/-- The text of the substitutions of a template string, each with the raw text after it. -/
def tailToJs (locals : List String) : List (Expr × String) → String
  | [] => ""
  | (inner, after) :: tail => "$\x7b" ++ inner.toJs locals ++ "\x7d" ++ after ++ tailToJs locals tail
end

end Expr

end TemplateCompiler.Binding

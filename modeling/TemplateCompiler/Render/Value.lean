import TemplateCompiler.Text.Identifier
import TemplateCompiler.Text.Quoted
/-!
# JavaScript values

The shapes of JavaScript that a render function is made of, and how they are written, each on one line. A literal is
made of strings, numbers and truth values alone, and means the same anywhere in a module.
-/

namespace TemplateCompiler.Render

open TemplateCompiler.Text

/-- A JavaScript expression. -/
inductive Value where
  | string (text : String)
  | number (n : Nat)
  | bool (value : Bool)
  | undefined
  /-- The text of an expression. -/
  | raw (source : String)
  /-- A name that the module declares. -/
  | constant (name : String)
  | array (items : List Value)
  | object (entries : List (String × Value))
  | call (callee : String) (arguments : List Value)
  | function (parameters : List String) (body : Value)
  | arrow (body : Value)
  | conditional (test consequent alternate : Value)
  /-- Strings joined by `+`. -/
  | concat (parts : List Value)
  /-- A value that the render context keeps under a name from its first use on. -/
  | memo (name : String) (value : Value)
deriving Repr

namespace Value

mutual
/-- Whether a value is a literal. -/
def isLiteral : Value → Bool
  | .string _ => true
  | .number _ => true
  | .bool _ => true
  | .array items => areLiteral items
  | .object entries => haveLiterals entries
  | _ => false

/-- Whether all values of a list are literals. -/
def areLiteral : List Value → Bool
  | [] => true
  | v :: vs => v.isLiteral && areLiteral vs

/-- Whether all values of an object are literals. -/
def haveLiterals : List (String × Value) → Bool
  | [] => true
  | (_, v) :: rest => v.isLiteral && haveLiterals rest
end

/-- Whether a value is an array or an object with nothing in it. -/
def isEmptyContainer : Value → Bool
  | .array items => items.isEmpty
  | .object entries => entries.isEmpty
  | _ => false

/-- The key of an object as it is written: in quotes, unless it is an identifier name. -/
def keyText (key : String) : String :=
  if isIdentifierName key then key else quote key

mutual
/-- The written form of a value. -/
def text : Value → String
  | .string s => quote s
  | .number n => toString n
  | .bool true => "true"
  | .bool false => "false"
  | .undefined => "undefined"
  | .raw source => source
  | .constant name => name
  | .array items => "[" ++ textOfList ", " items ++ "]"
  | .object [] => "{}"
  | .object (entry :: entries) => "\x7b " ++ textOfEntries (entry :: entries) ++ " \x7d"
  | .call callee arguments => callee ++ "(" ++ textOfList ", " arguments ++ ")"
  | .function parameters body =>
    "function (" ++ ", ".intercalate parameters ++ ") \x7b return " ++ body.text ++ "; \x7d"
  | .arrow body => "() => " ++ body.text
  | .conditional test consequent alternate => test.text ++ " ? " ++ consequent.text ++ " : " ++ alternate.text
  | .concat parts => textOfList " + " parts
  | .memo name value => name ++ " || ($ctx." ++ name ++ " = " ++ value.text ++ ")"

/-- The written forms of values with `separator` between them. -/
def textOfList (separator : String) : List Value → String
  | [] => ""
  | [v] => v.text
  | v :: w :: vs => v.text ++ separator ++ textOfList separator (w :: vs)

/-- The written forms of the entries of an object with commas between them. -/
def textOfEntries : List (String × Value) → String
  | [] => ""
  | [(key, v)] => keyText key ++ ": " ++ v.text
  | (key, v) :: entry :: entries => keyText key ++ ": " ++ v.text ++ ", " ++ textOfEntries (entry :: entries)
end

end Value

end TemplateCompiler.Render

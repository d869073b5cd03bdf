/-!
# Terms

What the grammar keeps of an expression. Names, member accesses, literals, parentheses and templates are kept
as they are. Of everything else only the use it can be put to is left, since some expressions may be assigned
to and others read as destructuring patterns.
-/

namespace TemplateCompiler.Script

/-- What becomes of an array or object literal that is read as a destructuring pattern. -/
structure Cover where
  /-- A comma follows the rest element. -/
  flawed : Bool := false
  /-- The places of the names with a default. -/
  defaults : List Nat := []
deriving DecidableEq, Repr

/-- The cover of a literal from the covers of its parts. -/
def Cover.append (a b : Cover) : Cover :=
  ⟨a.flawed || b.flawed, a.defaults ++ b.defaults⟩

/-- What an expression that is not kept can stand for. -/
inductive Use where
  /-- A value. -/
  | value
  /-- The load of a module, which `new` cannot be applied to. -/
  | load
  /-- A value that can be assigned to. -/
  | place
  /-- A literal that is also a destructuring pattern. -/
  | pattern (cover : Cover)
  /-- An assignment, which is also a target with a default. -/
  | defaulted
deriving DecidableEq, Repr

/-- An expression. -/
inductive Term where
  | name (name : String)
  | string (value : String)
  | number (text : String)
  | boolean (value : Bool)
  | null
  | member (object : Term) (property : String)
  | index (object : Term) (key : Term)
  | paren (inner : Term)
  /-- The text before the first substitution, then each substitution with the text after it. -/
  | template (head : String) (tail : List (Term × String))
  | this
  | call
  | other (use : Use)

namespace Term

/-- Whether the term can be assigned to as it stands. -/
def isPlace : Term → Bool
  | .name _ => true
  | .member _ _ => true
  | .index _ _ => true
  | .paren inner => inner.isPlace
  | .other use => use = .place
  | _ => false

/-- The term as the target of an assignment. -/
def target? : Term → Option Cover
  | .other (.pattern cover) => some cover
  | t => if t.isPlace then some {} else none

/-- The term as an element of a destructuring pattern. -/
def element? : Term → Option Cover
  | .other .defaulted => some {}
  | t => t.target?

/-- Whether the term is the name `name`, without parentheses. -/
def isName (t : Term) (name : String) : Bool :=
  match t with
  | .name text => text == name
  | _ => false

/-- Whether the term is the load of a module. -/
def isLoad : Term → Bool
  | .other .load => true
  | _ => false

end Term

end TemplateCompiler.Script

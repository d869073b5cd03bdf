import TemplateCompiler.Render.Helper
import TemplateCompiler.Render.HoistTable
import TemplateCompiler.Render.InternalError
/-!
# What a render function gathers

While the body of a render function is generated, the helpers that it calls, the declarations that it needs beside it
and the memoized listeners are gathered in the order of their first uses.
-/

namespace TemplateCompiler.Render

/-- What the body of a render function needs so far. -/
structure Emission where
  /-- The helpers, without repetition. -/
  helpers : List Helper := []
  hoists : HoistTable := {}
  /-- The number of memoized listeners. -/
  memos : Nat := 0
deriving Repr

/-- A step in the generation of a body. -/
abbrev Emitting := StateT Emission (Except InternalError)

/-- The name of a memoized listener. -/
def memoName (n : Nat) : String :=
  "_m" ++ toString n

namespace Emission

/-- The emission that needs a helper. -/
def addHelper (e : Emission) (helper : Helper) : Emission :=
  if e.helpers.contains helper then e else { e with helpers := e.helpers ++ [helper] }

end Emission

namespace Emitting

/-- Needs a helper. -/
def use (helper : Helper) : Emitting Unit :=
  modify (·.addHelper helper)

/-- A call of a helper, with as many arguments as it takes. -/
def call (helper : Helper) (arguments : List Value) (_arity : arguments.length = helper.arity := by rfl) :
    Emitting Value := do
  use helper
  return .call helper.localName arguments

/-- The name that a content is declared under. -/
def hoist (kind : HoistKind) (content : String) : Emitting String :=
  modifyGet fun e => (e.hoists.nameFor kind content, { e with hoists := e.hoists.insert kind content })

/-- A literal, declared beside the render function. -/
def hoistLiteral (value : Value) : Emitting Value := do
  return .constant (← hoist .object value.text)

/-- A value that is kept from its first use on. -/
def memoize (value : Value) : Emitting Value :=
  modifyGet fun e => (.memo (memoName e.memos) value, { e with memos := e.memos + 1 })

end Emitting

end TemplateCompiler.Render

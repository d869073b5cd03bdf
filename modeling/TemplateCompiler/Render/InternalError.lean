import TemplateCompiler.Template.Node
/-!
# Internal errors

What can keep a render function from being generated. None of it is the fault of a template: it happens only where the
passes disagree about one.
-/

namespace TemplateCompiler.Render

open Template (NodeKind)

/-- Why a render function cannot be generated. -/
inductive InternalError where
  /-- The node was never analyzed. -/
  | notAnalyzed (kind : NodeKind) (id : Nat)
  | noKey (kind : NodeKind) (id : Nat)
  | notImported (tag : String)
  | boundAttribute (name : String)
  | boundText
  /-- The node can be no part of a fragment. -/
  | notStatic (kind : NodeKind) (id : Nat)
deriving DecidableEq, Repr

namespace InternalError

/-- What is wrong. -/
def detail : InternalError → String
  | .notAnalyzed kind id => kind.name ++ " node " ++ toString id ++ " reached codegen without analysis"
  | .noKey kind id => kind.name ++ " node " ++ toString id ++ " has no key"
  | .notImported tag => "<" ++ tag ++ "> has no import binding"
  | .boundAttribute name => "bound attribute `" ++ name ++ "` inside a static fragment"
  | .boundText => "bound text inside a static fragment"
  | .notStatic kind id => kind.name ++ " node " ++ toString id ++ " inside a static fragment"

/-- The message of an internal error. -/
def message (error : InternalError) : String :=
  "internal compiler error in codegen: " ++ error.detail

end InternalError

end TemplateCompiler.Render

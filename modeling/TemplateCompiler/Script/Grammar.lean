import TemplateCompiler.Script.Statement
/-!
# The grammar of scripts

`grammar depth` ties the rules together: each rule comes back to the others up to `depth` times. Between two
characters of a script that happens only a few times, so a depth that grows with the length of the script is
deep enough for all of it (`readExpression`).
-/

namespace TemplateCompiler.Script

/-- The rules, of which each comes back to the others at most `depth` times. -/
def grammar : Nat → Grammar
  | 0 =>
    { expression := fun _ => failure
      moreExpressions := fun _ => failure
      assignment := fun _ => failure
      unary := fun _ => failure
      operators := fun _ _ => failure
      chain := fun _ _ _ => failure
      chained := fun _ => failure
      callee := fun _ => failure
      arguments := fun _ => failure
      elements := fun _ _ => failure
      properties := fun _ _ => failure
      template := fun _ _ => failure
      pattern := fun _ => failure
      elementPatterns := fun _ _ => failure
      propertyPatterns := fun _ _ => failure
      parameters := fun _ _ => failure
      decorators := fun _ _ => failure
      members := fun _ => failure
      modifiers := fun _ => failure
      superclasses := fun _ => failure
      agreements := failure
      heritage := fun _ _ _ => failure
      path := fun _ => failure
      statement := fun _ _ => failure
      statements := fun _ => failure
      declarations := fun _ _ => failure
      resources := fun _ _ => failure
      cases := fun _ => failure
      imports := fun _ => failure
      exports := fun _ => failure
      importAttributes := failure }
  | depth + 1 =>
    { expression := fun ctx => expression (grammar depth) ctx
      moreExpressions := fun ctx => moreExpressions (grammar depth) ctx
      assignment := fun ctx => assignment (grammar depth) ctx
      unary := fun ctx => unary (grammar depth) ctx
      operators := fun ctx mix => operators (grammar depth) ctx mix
      chain := fun ctx form t => chain (grammar depth) ctx form t
      chained := fun ctx => chained (grammar depth) ctx
      callee := fun ctx => callee (grammar depth) ctx
      arguments := fun ctx => arguments (grammar depth) ctx
      elements := fun ctx cover => elements (grammar depth) ctx cover
      properties := fun ctx cover => properties (grammar depth) ctx cover
      template := fun ctx tagged => template (grammar depth) ctx tagged
      pattern := fun ctx => pattern (grammar depth) ctx
      elementPatterns := fun ctx rest => elementPatterns (grammar depth) ctx rest
      propertyPatterns := fun ctx rest => propertyPatterns (grammar depth) ctx rest
      parameters := fun ctx read => parameters (grammar depth) ctx read
      decorators := fun ctx any => decorators (grammar depth) ctx any
      members := fun ctx => members (grammar depth) ctx
      modifiers := fun earlier => modifiers (grammar depth) earlier
      superclasses := fun ctx => superclasses (grammar depth) ctx
      agreements := fun scan => agreements (grammar depth) scan
      heritage := fun ctx extended agreed => heritage (grammar depth) ctx extended agreed
      path := fun members => path (grammar depth) members
      statement := fun ctx single => statement (grammar depth) ctx single
      statements := fun ctx => statements (grammar depth) ctx
      declarations := fun ctx constant => declarations (grammar depth) ctx constant
      resources := fun ctx valued => resources (grammar depth) ctx valued
      cases := fun ctx => cases (grammar depth) ctx
      imports := fun ctx => imports (grammar depth) ctx
      exports := fun foreign => exports (grammar depth) foreign
      importAttributes := fun scan => importAttributes (grammar depth) scan }

/-- The expression at the front of a module's text, if nothing in it makes the text invalid. What follows it is not
read, except that the next token must be one. -/
def readExpression (code : List Char) : Option Term :=
  match (grammar (8 * code.length + 8)).expression Context.module { rest := code } with
  | (some t, scan) =>
    if scan.flawed || !scan.defaults.isEmpty || (lexeme scan.rest).flawed then none else some t
  | (none, _) => none

end TemplateCompiler.Script

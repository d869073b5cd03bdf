/-!
# Template literals

Text as the body of a JavaScript template literal. A backslash goes before each backslash, each backtick and each
dollar sign that an opening brace follows.
-/

namespace TemplateCompiler.Text

/-- The characters `cs` as the body of a template literal. -/
def escapeLiteral : List Char → List Char
  | [] => []
  | '\\' :: cs => '\\' :: '\\' :: escapeLiteral cs
  | '`' :: cs => '\\' :: '`' :: escapeLiteral cs
  | '$' :: '{' :: cs => '\\' :: '$' :: '{' :: escapeLiteral cs
  | c :: cs => c :: escapeLiteral cs

/-- `s` as the body of a template literal. -/
def escapeTemplateLiteral (s : String) : String :=
  String.ofList (escapeLiteral s.toList)

end TemplateCompiler.Text

import TemplateCompiler.Config
import TemplateCompiler.Render.Emission
import TemplateCompiler.Scoping.ImportTable
import TemplateCompiler.Text.TemplateLiteral
/-!
# Source of a module

A template is compiled to an ECMAScript module: imports, hoisted declarations, the render function, and what is
registered with it.
-/

namespace TemplateCompiler.Render

open TemplateCompiler.Text
open Scoping (Import)

/-- The module of a template. -/
structure RenderModule where
  imports : List Import
  stylesheets : List String
  /-- The module that the render function is registered with. -/
  runtimeModule : String
  hoists : HoistTable
  /-- The helpers that the render function calls. -/
  helpers : List Helper
  /-- The number of listeners that the render function memoizes. -/
  memos : Nat
  /-- What the render function returns. -/
  body : Value
  slots : List String
  renderMode : RenderMode
  stylesheetToken : Option String
deriving Repr

/-- The name of a stylesheet. -/
def stylesheetName (n : Nat) : String :=
  "_stylesheet" ++ toString n

/-- The import of a component. -/
def importText (entry : Import) : String :=
  "import " ++ entry.local ++ " from " ++ quote entry.path ++ ";"

/-- A hoisted declaration. -/
def hoistText (h : Hoist) : String :=
  "const " ++ h.name ++ " = " ++
    (match h.kind with
      | .object => h.content
      | .fragment => "parseFragment`" ++ escapeTemplateLiteral h.content ++ "`") ++ ";"

/-- The declaration of names as properties of an object, or nothing if there are none. -/
def destructuringText (names : List String) (object : String) : List String :=
  if names.isEmpty then [] else ["  const \x7b " ++ ", ".intercalate names ++ " \x7d = " ++ object ++ ";"]

namespace RenderModule

/-- The names of the stylesheets. -/
def stylesheetNames (m : RenderModule) : List String :=
  (List.range m.stylesheets.length).map stylesheetName

/-- The names that the module imports from the runtime. -/
def runtimeNames (m : RenderModule) : List String :=
  (if m.hoists.hasFragments then ["parseFragment"] else []) ++ ["registerTemplate"]

/-- The imports of the stylesheets. -/
def stylesheetImports (m : RenderModule) : List String :=
  (m.stylesheetNames.zip m.stylesheets).map fun (name, path) => "import " ++ name ++ " from " ++ quote path ++ ";"

/-- The render function. -/
def functionText (m : RenderModule) : List String :=
  ["function tmpl($api, $cmp, $slotset, $ctx) \x7b"] ++
  destructuringText (m.helpers.map fun helper => helper.property ++ ": " ++ helper.localName) "$api" ++
  destructuringText ((List.range m.memos).map memoName) "$ctx" ++
  ["  return " ++ m.body.text ++ ";", "\x7d"]

/-- What is registered with the render function. -/
def registrationText (m : RenderModule) : List String :=
  ["export default registerTemplate(tmpl);"] ++
  (if m.slots.isEmpty then [] else ["tmpl.slots = [" ++ ", ".intercalate (m.slots.map quote) ++ "];"]) ++
  ["tmpl.stylesheets = [" ++ ", ".intercalate m.stylesheetNames ++ "];"] ++
  (if m.renderMode = .light then ["tmpl.renderMode = \"light\";"] else []) ++
  (match m.stylesheetToken with
    | some token => ["tmpl.stylesheetToken = " ++ quote token ++ ";"]
    | none => [])

/-- The statements of the module, in order. -/
def statements (m : RenderModule) : List String :=
  m.imports.map importText ++ m.stylesheetImports ++
  ["import \x7b " ++ ", ".intercalate m.runtimeNames ++ " \x7d from " ++ quote m.runtimeModule ++ ";"] ++
  m.hoists.entries.map hoistText ++ m.functionText ++ m.registrationText

/-- The text of the module. -/
def text (m : RenderModule) : String :=
  "".intercalate (m.statements.map (· ++ "\n"))

end RenderModule

end TemplateCompiler.Render

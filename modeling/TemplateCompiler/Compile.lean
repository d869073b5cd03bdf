import TemplateCompiler.Digest.Sha256
import TemplateCompiler.Markup.Tree
import TemplateCompiler.Render.Body
import TemplateCompiler.Render.Source
import TemplateCompiler.Scoping.Resolve
import TemplateCompiler.Template.Build
/-!
# Compiling a template

From markup to a module. Problems of a template become diagnostics, and a template with an error has no module.
-/

namespace TemplateCompiler

open Render (InternalError RenderModule)
open Scoping (Import ImportTable IdTable)

/-! ## Modules of templates -/

namespace Template

/-- The template that a source holds, or what is wrong with its markup. -/
def parse (config : Config) (source : String) : Except Markup.ReadError Template :=
  (Markup.parse source.toList).map (ofDocument config)

/-- The analysis of a template. -/
def analysis (t : Template) : Analysis :=
  analyze t.config t.nodes

/-- Whether something is wrong with a template that keeps it from being compiled. -/
def hasErrors (t : Template) : Bool :=
  Diagnostic.hasErrors t.diagnostics

/-- The components that a template imports. -/
def imports (t : Template) : ImportTable :=
  importTable t.nodes

/-- The ids that a template names. -/
def ids (t : Template) : IdTable :=
  idTable t.config.renderMode t.nodes

/-- A template with its scoped attributes marked. -/
def mark (t : Template) : Template :=
  { t with nodes := markNodes t.config.renderMode t.nodes }

/-- The module of a template whose attributes are marked. -/
def toModule (t : Template) (analysis : Analysis) (imports : ImportTable) (stylesheetToken : Option String) :
    Except InternalError RenderModule := do
  let (body, emission) ← (Render.bodyValue ⟨analysis, t.table, imports⟩ t.nodes).run {}
  return {
    imports := imports.entries
    stylesheets := t.config.stylesheets
    runtimeModule := t.config.runtimeModule
    hoists := emission.hoists
    helpers := emission.helpers
    memos := emission.memos
    body
    slots := t.slots
    renderMode := t.config.renderMode
    stylesheetToken }

end Template

/-! ## Stylesheet tokens -/

/-- A component name as it stands in a token: what is no letter or digit is a hyphen. -/
def tokenName (name : String) : String :=
  String.ofList (name.toList.map fun c => if c.isAlphanum then c else '-')

/-- The token that keeps scoped styles to one component: its name and the start of a digest of the name, or of the
source where there is no name. -/
def stylesheetToken (componentName : Option String) (source : String) : String :=
  tokenName (componentName.getD "tmpl") ++ "-" ++
    String.ofList ((Digest.sha256 (componentName.getD source)).toList.take 8)

/-! ## Compiling -/

/-- What compiling a template gives. -/
structure Output where
  /-- The text of the module, unless there is an error. -/
  code : Option String := none
  diagnostics : List Diagnostic := []
  slots : List String := []
  stylesheets : List String := []
  imports : List Import := []
  /-- The ids that the template names. -/
  ids : List String := []
  stylesheetToken : Option String := none
deriving Repr

/-- Whether there is no module because of an error. -/
def Output.hasErrors (output : Output) : Bool :=
  Diagnostic.hasErrors output.diagnostics

/-- Why compiling a source gives no output. -/
inductive CompileError where
  | internal (error : InternalError)
  /-- The markup cannot be read, as it would have to be cut inside a character, at the byte `offset`. -/
  | splitCharacter (offset : Nat)
deriving DecidableEq, Repr

/-- The token for the stylesheets of a template that was built from `source`, if they are scoped. -/
def Template.token? (t : Template) (source : String) : Option String :=
  if t.config.scopedStyles then some (stylesheetToken t.config.componentName source) else none

/-- The module for a template that was built from `source`. -/
def Template.renderModule (t : Template) (source : String) : Except InternalError RenderModule :=
  t.mark.toModule t.analysis t.imports (t.token? source)

/-- The output for a template that was built from `source`. -/
def Template.compile (t : Template) (source : String) : Except InternalError Output := do
  let output : Output :=
    { diagnostics := t.diagnostics, slots := t.slots, stylesheets := t.config.stylesheets }
  if t.hasErrors then return output
  let m ← t.renderModule source
  return { output with
    code := some m.text
    imports := t.imports.entries
    ids := t.ids.ids
    stylesheetToken := t.token? source }

/-- The output for a source. Markup that is no document gives one diagnostic and nothing else. -/
def compile (config : Config) (source : String) : Except CompileError Output :=
  match Template.parse config source with
  | .ok t => (t.compile source).mapError .internal
  | .error (.malformed e) =>
    .ok { diagnostics := [(Template.Problem.malformed e.fault).diagnostic e.position]
          stylesheets := config.stylesheets }
  | .error (.splitCharacter offset) => .error (.splitCharacter offset)

/-- A template with a name. -/
structure TemplateSource where
  name : String
  source : String
deriving DecidableEq, Repr

/-- The outputs for sources that have nothing to do with each other. -/
def compileMany (config : Config) (inputs : List TemplateSource) : List (Except CompileError Output) :=
  inputs.map fun input => compile config input.source

end TemplateCompiler

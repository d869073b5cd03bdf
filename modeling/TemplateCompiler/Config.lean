import TemplateCompiler.Config.Json
/-!
# Configurations

How templates are to be compiled. A configuration is written in JSON, as an object with some of the fields or as
an array of the first few in their order; a field that is left out has its default.
-/

namespace TemplateCompiler

open Config (Json)

/-- The namespace of the elements at the top of a template. -/
inductive Namespace where
  | native
  /-- The template is the content of an `svg` element. -/
  | svgHint
deriving DecidableEq, Repr

/-- The name of a namespace. -/
def Namespace.name : Namespace → String
  | .native => "native"
  | .svgHint => "svg-hint"

/-- The namespace with the given name. -/
def Namespace.ofName? (name : String) : Option Namespace :=
  [.native, .svgHint].find? (·.name == name)

/-- Where a component renders. -/
inductive RenderMode where
  | shadow
  | light
deriving DecidableEq, Repr

/-- The name of a render mode. -/
def RenderMode.name : RenderMode → String
  | .shadow => "shadow"
  | .light => "light"

/-- The render mode with the given name. -/
def RenderMode.ofName? (name : String) : Option RenderMode :=
  [.shadow, .light].find? (·.name == name)

/-- A configuration. -/
structure Config where
  «namespace» : Namespace := .native
  preserveComments : Bool := false
  renderMode : RenderMode := .shadow
  scopedStyles : Bool := false
  /-- The name that the token of scoped styles is derived from. -/
  componentName : Option String := none
  /-- The modules of the stylesheets. -/
  stylesheets : List String := []
  /-- The module that render functions are registered with. -/
  runtimeModule : String := "lwc"
  /-- Elements without bindings are rendered as fragments. -/
  optimizeStatic : Bool := true
deriving DecidableEq, Repr

namespace Config

/-- The name that a JSON value chooses from an enumeration: a string, or an object with that name alone and
nothing behind it. -/
def choice? : Json → Option String
  | .object [(name, .null)] => textOf? name
  | value => value.text?

/-- A truth value. -/
def bool? : Json → Option Bool
  | .bool value => some value
  | _ => none

/-- The texts of an array of strings. -/
def texts? : Json → Option (List String)
  | .array items => items.mapM Json.text?
  | _ => none

/-- The names of the fields, in the order of an array. -/
def fieldNames : List String :=
  ["namespace", "preserveComments", "renderMode", "scopedStyles", "componentName", "stylesheets",
   "runtimeModule", "enableStaticContentOptimization"]

/-- The configuration with one field set. A field of another name is left out. -/
def set? (config : Config) (field : String) (value : Json) : Option Config :=
  match field with
  | "namespace" => (choice? value).bind Namespace.ofName? |>.map ({ config with «namespace» := · })
  | "preserveComments" => (bool? value).map ({ config with preserveComments := · })
  | "renderMode" => (choice? value).bind RenderMode.ofName? |>.map ({ config with renderMode := · })
  | "scopedStyles" => (bool? value).map ({ config with scopedStyles := · })
  | "componentName" =>
    match value with
    | .null => some { config with componentName := none }
    | _ => value.text?.map ({ config with componentName := some · })
  | "stylesheets" => (texts? value).map ({ config with stylesheets := · })
  | "runtimeModule" => value.text?.map ({ config with runtimeModule := · })
  | "enableStaticContentOptimization" => (bool? value).map ({ config with optimizeStatic := · })
  | _ => some config

/-- The configuration with the given fields set. No field is set twice. -/
def ofFields? (config : Config) : List (String × Json) → Option Config
  | [] => some config
  | (field, value) :: rest =>
    if fieldNames.contains field && rest.any (·.1 == field) then none
    else (config.set? field value).bind (ofFields? · rest)

/-- The configuration that a JSON value denotes. -/
def ofJson? : Json → Option Config
  | .object entries => do
    let fields ← entries.mapM fun (name, value) => (textOf? name).map (·, value)
    ofFields? {} fields
  | .array items =>
    if items.length ≤ fieldNames.length then ofFields? {} (fieldNames.zip items) else none
  | _ => none

/-- The configuration that a JSON text denotes. -/
def parse? (source : String) : Option Config :=
  (Json.parse? source).bind ofJson?

end Config

end TemplateCompiler

import TemplateCompiler.Text.Position
/-!
# Diagnostics

What the author of a template is told: a code, a message and a position. The code decides whether it is an
error, which keeps a template from being compiled, or a warning.
-/

namespace TemplateCompiler

open Text (Position)

/-- How grave a diagnostic is. -/
inductive Severity where
  | error
  | warning
deriving DecidableEq, Repr

/-- The word for a severity. -/
def Severity.name : Severity → String
  | .error => "error"
  | .warning => "warning"

/-- The kind of a diagnostic. -/
inductive DiagnosticCode where
  | malformedMarkup
  | missingRootTemplate
  | invalidDirectiveUsage
  | duplicateSlotName
  | reservedTagName
  | reservedAttributeName
  | invalidExpression
  | deprecatedDirective
  | missingIterationKey
  | unknownHtmlElement
deriving DecidableEq, Repr

namespace DiagnosticCode

/-- Every code. -/
def all : List DiagnosticCode :=
  [.malformedMarkup, .missingRootTemplate, .invalidDirectiveUsage, .duplicateSlotName, .reservedTagName,
   .reservedAttributeName, .invalidExpression, .deprecatedDirective, .missingIterationKey,
   .unknownHtmlElement]

/-- The name of a code. -/
def name : DiagnosticCode → String
  | .malformedMarkup => "MalformedMarkup"
  | .missingRootTemplate => "MissingRootTemplate"
  | .invalidDirectiveUsage => "InvalidDirectiveUsage"
  | .duplicateSlotName => "DuplicateSlotName"
  | .reservedTagName => "ReservedTagName"
  | .reservedAttributeName => "ReservedAttributeName"
  | .invalidExpression => "InvalidExpression"
  | .deprecatedDirective => "DeprecatedDirective"
  | .missingIterationKey => "MissingIterationKey"
  | .unknownHtmlElement => "UnknownHtmlElement"

/-- The code with the given name. -/
def ofName? (name : String) : Option DiagnosticCode :=
  all.find? (·.name == name)

/-- The remedy shown next to the message. -/
def hint : DiagnosticCode → String
  | .malformedMarkup => "Every element must be closed, and end tags must match the open element."
  | .missingRootTemplate => "A template file contains exactly one root <template> element."
  | .invalidDirectiveUsage => "Directives are only valid on the element forms that accept them."
  | .duplicateSlotName => "Each slot name may appear once per template."
  | .reservedTagName => "This hyphenated name is reserved by the platform and cannot be a component."
  | .reservedAttributeName => "This attribute is managed by the runtime and cannot be set here."
  | .invalidExpression => "Bindings accept identifiers, member access, literals and template strings."
  | .deprecatedDirective => "Use lwc:if / lwc:elseif / lwc:else instead."
  | .missingIterationKey => "Give elements rendered by for:each a key={...} bound to a stable value."
  | .unknownHtmlElement => "Custom elements need a hyphenated name, e.g. <x-foo>."

/-- Whether a code stands for an error or for a warning. -/
def severity : DiagnosticCode → Severity
  | .deprecatedDirective => .warning
  | .missingIterationKey => .warning
  | .unknownHtmlElement => .warning
  | _ => .error

end DiagnosticCode

/-- A diagnostic. -/
structure Diagnostic where
  code : DiagnosticCode
  message : String
  position : Position
deriving DecidableEq, Repr

namespace Diagnostic

/-- Whether the diagnostic keeps its template from being compiled. -/
def isError (d : Diagnostic) : Bool :=
  d.code.severity = .error

/-- The diagnostic on one line. -/
def text (d : Diagnostic) : String :=
  d.code.severity.name ++ "[" ++ d.code.name ++ "] " ++ d.message ++ " at " ++ d.position.text

/-- Whether one of the diagnostics is an error. -/
def hasErrors (ds : List Diagnostic) : Bool :=
  ds.any isError

/-- The number of errors among the diagnostics. -/
def errorCount (ds : List Diagnostic) : Nat :=
  ds.countP isError

end Diagnostic

end TemplateCompiler

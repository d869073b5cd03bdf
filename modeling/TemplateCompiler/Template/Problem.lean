import TemplateCompiler.Diagnostic
import TemplateCompiler.Binding.Part
import TemplateCompiler.Markup.Tree
/-!
# Problems of templates

Everything that can be wrong with a template, each with the code it is reported under and its message.
-/

namespace TemplateCompiler.Template

open Text (Position)
open Binding (BindingError TextError)
open Markup (MarkupFault)

/-- What is wrong with a template. -/
inductive Problem where
  | malformed (fault : MarkupFault)
  | noRoot
  -- the root element
  | renderMode (value : String)
  | rootAttribute (name : String)
  -- bindings
  | text (error : TextError)
  | expectsBinding (name : String)
  | invalidBinding (name : String) (error : BindingError)
  | quotedBinding (name : String)
  -- directives
  | noVariableName (name : String) (value : String)
  | conditionalConflict (name : String)
  | deprecated (name : String)
  | elseWithValue
  | rootOnly (name : String)
  | unknownDirective (name : String)
  | eachWithoutItem
  | itemWithoutEach
  | indexWithoutEach
  | keyOutsideIteration
  | keyWithoutBinding
  | branchWithoutIf (isElse : Bool)
  -- nested templates
  | templateWithoutDirective
  | templateKey
  | templateDynamic
  | templateAttribute (name : String)
  -- elements
  | reservedTag (tag : String)
  | unknownElement (tag : String)
  | dynamicNative (tag : String)
  | noKey (tag : String)
  | reservedIs
  | handlerWithoutBinding (name : String)
  -- slots
  | slotInIteration (iteration : Position)
  | slotDirective
  | slotNameBound
  | duplicateSlot (name : String) (first : Position)
deriving DecidableEq, Repr

namespace Problem

/-- The code that a problem is reported under. -/
def code : Problem → DiagnosticCode
  | .malformed _ => .malformedMarkup
  | .noRoot => .missingRootTemplate
  | .text _ => .invalidExpression
  | .expectsBinding _ => .invalidExpression
  | .invalidBinding _ _ => .invalidExpression
  | .quotedBinding _ => .invalidExpression
  | .keyWithoutBinding => .invalidExpression
  | .handlerWithoutBinding _ => .invalidExpression
  | .deprecated _ => .deprecatedDirective
  | .keyOutsideIteration => .reservedAttributeName
  | .reservedIs => .reservedAttributeName
  | .reservedTag _ => .reservedTagName
  | .unknownElement _ => .unknownHtmlElement
  | .noKey _ => .missingIterationKey
  | .duplicateSlot _ _ => .duplicateSlotName
  | _ => .invalidDirectiveUsage

/-- The message for the author of the template. -/
def message : Problem → String
  | .malformed fault => fault.message
  | .noRoot => "expected a single root <template> element"
  | .renderMode value => "lwc:render-mode must be \"light\" or \"shadow\", got \"" ++ value ++ "\""
  | .rootAttribute name => "`" ++ name ++ "` is not allowed on the root <template>"
  | .text error => error.message
  | .expectsBinding name =>
    "`" ++ name ++ "` expects an unquoted binding such as " ++ name ++ "={value}"
  | .invalidBinding name error => "invalid binding for `" ++ name ++ "`: " ++ error.message
  | .quotedBinding name => "binding for `" ++ name ++ "` must not be quoted"
  | .noVariableName name value =>
    "`" ++ name ++ "` must name a variable, got \"" ++ value ++ "\""
  | .conditionalConflict name =>
    "`" ++ name ++ "` conflicts with another conditional directive on the same element"
  | .deprecated name => "`" ++ name ++ "` is deprecated"
  | .elseWithValue => "lwc:else does not take a value"
  | .rootOnly name => "`" ++ name ++ "` is only allowed on the root <template>"
  | .unknownDirective name => "unknown directive `" ++ name ++ "`"
  | .eachWithoutItem => "for:each requires a for:item name"
  | .itemWithoutEach => "for:item is only valid next to for:each"
  | .indexWithoutEach => "for:index is only valid next to for:each"
  | .keyOutsideIteration => "`key` is reserved for elements rendered by an iteration"
  | .keyWithoutBinding => "`key` must be a binding to a value unique per item"
  | .branchWithoutIf isElse =>
    (if isElse then "lwc:else" else "lwc:elseif") ++
      " must immediately follow an lwc:if or lwc:elseif sibling"
  | .templateWithoutDirective =>
    "nested <template> elements need an if, lwc:if or for:each directive"
  | .templateKey => "`key` belongs on the element rendered per item, not on <template>"
  | .templateDynamic => "lwc:dynamic is only valid on custom elements"
  | .templateAttribute name => "<template> only accepts directives, found `" ++ name ++ "`"
  | .reservedTag tag => "<" ++ tag ++ "> is a reserved element name and cannot be used as a component"
  | .unknownElement tag => "<" ++ tag ++ "> is not a known HTML element"
  | .dynamicNative tag => "lwc:dynamic is only valid on custom elements, not <" ++ tag ++ ">"
  | .noKey tag => "<" ++ tag ++ "> is rendered per item but has no key"
  | .reservedIs => "`is` is reserved; use a custom element tag instead"
  | .handlerWithoutBinding name =>
    "event handler `" ++ name ++ "` must be a binding such as " ++ name ++ "={handleEvent}"
  | .slotInIteration iteration =>
    "<slot> cannot be rendered inside the for:each at " ++ iteration.text
  | .slotDirective => "<slot> only accepts the name attribute and conditional directives"
  | .slotNameBound => "slot names must be literal strings"
  | .duplicateSlot name first =>
    "duplicate slot name \"" ++ (if name.isEmpty then "default" else name) ++ "\", first declared at " ++
      first.text

/-- The diagnostic that reports a problem at a position. -/
def diagnostic (problem : Problem) (position : Position) : Diagnostic :=
  ⟨problem.code, problem.message, position⟩

end Problem

end TemplateCompiler.Template

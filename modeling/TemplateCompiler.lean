import TemplateCompiler.Binding.Expr
import TemplateCompiler.Binding.Group
import TemplateCompiler.Binding.Part
import TemplateCompiler.Binding.Read
import TemplateCompiler.Compile
import TemplateCompiler.Config
import TemplateCompiler.Config.Json
import TemplateCompiler.Diagnostic
import TemplateCompiler.Digest.Sha256
import TemplateCompiler.Markup.CharacterReference
import TemplateCompiler.Markup.Document
import TemplateCompiler.Markup.NamedCharacters
import TemplateCompiler.Markup.Names
import TemplateCompiler.Markup.RawTag
import TemplateCompiler.Markup.Token
import TemplateCompiler.Markup.Tree
import TemplateCompiler.Number.Binary64
import TemplateCompiler.Number.Shortest
import TemplateCompiler.Proofs.Binding.Braces
import TemplateCompiler.Proofs.Binding.Emitted
import TemplateCompiler.Proofs.Binding.GroupEnd
import TemplateCompiler.Proofs.Binding.Numbers
import TemplateCompiler.Proofs.Binding.Parts
import TemplateCompiler.Proofs.Binding.Proper
import TemplateCompiler.Proofs.Binding.ReadBack
import TemplateCompiler.Proofs.Binding.ShownText
import TemplateCompiler.Proofs.Markup.Agreement
import TemplateCompiler.Proofs.Markup.Calls
import TemplateCompiler.Proofs.Markup.Cursor
import TemplateCompiler.Proofs.Markup.Elements
import TemplateCompiler.Proofs.Markup.KeptValues
import TemplateCompiler.Proofs.Markup.Nesting
import TemplateCompiler.Proofs.Markup.Outcome
import TemplateCompiler.Proofs.Markup.Piece
import TemplateCompiler.Proofs.Markup.RawAttributes
import TemplateCompiler.Proofs.Markup.Renamed
import TemplateCompiler.Proofs.Markup.Reread
import TemplateCompiler.Proofs.Markup.Rescan
import TemplateCompiler.Proofs.Markup.Rules
import TemplateCompiler.Proofs.Markup.Scan
import TemplateCompiler.Proofs.Markup.Seats
import TemplateCompiler.Proofs.Markup.SelfClosing
import TemplateCompiler.Proofs.Markup.Shape
import TemplateCompiler.Proofs.Markup.Since
import TemplateCompiler.Proofs.Markup.Sound
import TemplateCompiler.Proofs.Markup.SoundDocument
import TemplateCompiler.Proofs.Markup.SvgNames
import TemplateCompiler.Proofs.Markup.TokenSteps
import TemplateCompiler.Proofs.Markup.WrittenTag
import TemplateCompiler.Proofs.Number.Nearest
import TemplateCompiler.Proofs.Number.Shortest
import TemplateCompiler.Proofs.Render.Agreement
import TemplateCompiler.Proofs.Render.Choice
import TemplateCompiler.Proofs.Render.Constructs
import TemplateCompiler.Proofs.Render.Described
import TemplateCompiler.Proofs.Render.Emitting
import TemplateCompiler.Proofs.Render.EveryNode
import TemplateCompiler.Proofs.Render.Flags
import TemplateCompiler.Proofs.Render.FragmentMarkup
import TemplateCompiler.Proofs.Render.FragmentPath
import TemplateCompiler.Proofs.Render.Generated
import TemplateCompiler.Proofs.Render.HoistCalls
import TemplateCompiler.Proofs.Render.Hoisted
import TemplateCompiler.Proofs.Render.Hygiene
import TemplateCompiler.Proofs.Render.InIteration
import TemplateCompiler.Proofs.Render.Inlined
import TemplateCompiler.Proofs.Render.KeysApart
import TemplateCompiler.Proofs.Render.Literals
import TemplateCompiler.Proofs.Render.LoopNames
import TemplateCompiler.Proofs.Render.Modules
import TemplateCompiler.Proofs.Render.Naming
import TemplateCompiler.Proofs.Render.ObjectKeys
import TemplateCompiler.Proofs.Render.Occurrences
import TemplateCompiler.Proofs.Render.Outlines
import TemplateCompiler.Proofs.Render.Preamble
import TemplateCompiler.Proofs.Render.ReadBack
import TemplateCompiler.Proofs.Render.References
import TemplateCompiler.Proofs.Render.Renamed
import TemplateCompiler.Proofs.Render.Rendered
import TemplateCompiler.Proofs.Render.ScopedIds
import TemplateCompiler.Proofs.Render.ScopedValues
import TemplateCompiler.Proofs.Render.Shapes
import TemplateCompiler.Proofs.Render.Shown
import TemplateCompiler.Proofs.Render.SlotGroups
import TemplateCompiler.Proofs.Render.Stack
import TemplateCompiler.Proofs.Render.Steps
import TemplateCompiler.Proofs.Render.Subvalues
import TemplateCompiler.Proofs.Render.Total
import TemplateCompiler.Proofs.Render.Unnoticed
import TemplateCompiler.Proofs.Render.Unplaced
import TemplateCompiler.Proofs.Render.VariableNames
import TemplateCompiler.Proofs.Render.Words
import TemplateCompiler.Proofs.Scoping.Imports
import TemplateCompiler.Proofs.Script.EscapedText
import TemplateCompiler.Proofs.Script.Gaps
import TemplateCompiler.Proofs.Script.KeptTerms
import TemplateCompiler.Proofs.Script.Lexemes
import TemplateCompiler.Proofs.Script.NumberText
import TemplateCompiler.Proofs.Script.Numerals
import TemplateCompiler.Proofs.Script.NumericLiteral
import TemplateCompiler.Proofs.Script.Pieces
import TemplateCompiler.Proofs.Script.Proper
import TemplateCompiler.Proofs.Script.Readers
import TemplateCompiler.Proofs.Script.SpacedTerms
import TemplateCompiler.Proofs.Script.Suffixes
import TemplateCompiler.Proofs.Script.Takes
import TemplateCompiler.Proofs.Script.Tree
import TemplateCompiler.Proofs.Script.WrittenTerms
import TemplateCompiler.Proofs.Template.Ancestors
import TemplateCompiler.Proofs.Template.Authored
import TemplateCompiler.Proofs.Template.Branches
import TemplateCompiler.Proofs.Template.Built
import TemplateCompiler.Proofs.Template.Changes
import TemplateCompiler.Proofs.Template.Declarations
import TemplateCompiler.Proofs.Template.Facts
import TemplateCompiler.Proofs.Template.Fragments
import TemplateCompiler.Proofs.Template.Iterated
import TemplateCompiler.Proofs.Template.Kept
import TemplateCompiler.Proofs.Template.Keys
import TemplateCompiler.Proofs.Template.Namespaces
import TemplateCompiler.Proofs.Template.Numbering
import TemplateCompiler.Proofs.Template.Origin
import TemplateCompiler.Proofs.Template.Projection
import TemplateCompiler.Proofs.Template.Proper
import TemplateCompiler.Proofs.Template.Register
import TemplateCompiler.Proofs.Template.Registrations
import TemplateCompiler.Proofs.Template.Regular
import TemplateCompiler.Proofs.Template.Renamed
import TemplateCompiler.Proofs.Template.RenamedElements
import TemplateCompiler.Proofs.Template.Reserved
import TemplateCompiler.Proofs.Template.Spelling
import TemplateCompiler.Proofs.Template.Style
import TemplateCompiler.Proofs.Template.Unplaced
import TemplateCompiler.Proofs.Template.WithFragments
import TemplateCompiler.Proofs.Template.Written
import TemplateCompiler.Proofs.Text.Blank
import TemplateCompiler.Proofs.Text.Collapsed
import TemplateCompiler.Proofs.Text.LineTable
import TemplateCompiler.Proofs.Text.LowerCase
import TemplateCompiler.Proofs.Text.Position
import TemplateCompiler.Proofs.Text.Utf8
import TemplateCompiler.Render.Body
import TemplateCompiler.Render.Emission
import TemplateCompiler.Render.Fragment
import TemplateCompiler.Render.Helper
import TemplateCompiler.Render.HoistTable
import TemplateCompiler.Render.InternalError
import TemplateCompiler.Render.Source
import TemplateCompiler.Render.Value
import TemplateCompiler.Scoping.IdTable
import TemplateCompiler.Scoping.ImportTable
import TemplateCompiler.Scoping.Reference
import TemplateCompiler.Scoping.Resolve
import TemplateCompiler.Script.Arrow
import TemplateCompiler.Script.Class
import TemplateCompiler.Script.Declaration
import TemplateCompiler.Script.Expression
import TemplateCompiler.Script.Function
import TemplateCompiler.Script.Grammar
import TemplateCompiler.Script.Import
import TemplateCompiler.Script.Literal
import TemplateCompiler.Script.Loop
import TemplateCompiler.Script.Name
import TemplateCompiler.Script.Operand
import TemplateCompiler.Script.Operators
import TemplateCompiler.Script.Pattern
import TemplateCompiler.Script.Reader
import TemplateCompiler.Script.Statement
import TemplateCompiler.Script.Term
import TemplateCompiler.Script.Token
import TemplateCompiler.Template.Analysis
import TemplateCompiler.Template.Attribute
import TemplateCompiler.Template.Build
import TemplateCompiler.Template.Directive
import TemplateCompiler.Template.Draft
import TemplateCompiler.Template.Element
import TemplateCompiler.Template.Node
import TemplateCompiler.Template.NodeTable
import TemplateCompiler.Template.Problem
import TemplateCompiler.Template.Style
import TemplateCompiler.Text.Blank
import TemplateCompiler.Text.Bytes
import TemplateCompiler.Text.Camel
import TemplateCompiler.Text.Hex
import TemplateCompiler.Text.Identifier
import TemplateCompiler.Text.IdentifierTable
import TemplateCompiler.Text.LineTable
import TemplateCompiler.Text.Position
import TemplateCompiler.Text.Quoted
import TemplateCompiler.Text.TemplateLiteral
import TemplateCompiler.Text.UpperCaseTable
import TemplateCompiler.Proofs.Markup.Lookahead

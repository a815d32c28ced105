import Recast.Command.Arguments
import Recast.Command.Log
import Recast.Command.Run
import Recast.Component.ClassComponent
import Recast.Component.ClassShape
import Recast.Component.Definition
import Recast.Component.Functional
import Recast.Component.Hook
import Recast.Component.Signature
import Recast.Config.Fields
import Recast.Config.Load
import Recast.Config.Moment
import Recast.Config.Value
import Recast.Config.Yaml.Cursor
import Recast.Config.Yaml.Document
import Recast.Config.Yaml.Fault
import Recast.Config.Yaml.Form
import Recast.Config.Yaml.Graph
import Recast.Config.Yaml.Key
import Recast.Config.Yaml.Literal
import Recast.Config.Yaml.Scalar
import Recast.Config.Yaml.Token
import Recast.Console.Cells
import Recast.Console.Control
import Recast.Console.Display
import Recast.Console.Json
import Recast.Console.Pictures
import Recast.Console.Report
import Recast.Files.Directory
import Recast.Files.Path
import Recast.Journal.Outcome
import Recast.Journal.Warning
import Recast.Main
import Recast.Markup.Attribute
import Recast.Markup.Content
import Recast.Markup.ListCall
import Recast.Markup.Property
import Recast.Markup.Recasting
import Recast.Markup.Style
import Recast.Markup.Vocabulary
import Recast.Number.Arithmetic
import Recast.Number.Binary64
import Recast.Number.Reading
import Recast.Number.Shortest
import Recast.Options
import Recast.Proofs.Command.Atomicity
import Recast.Proofs.Command.InputFile
import Recast.Proofs.Command.MachineOutput
import Recast.Proofs.Command.Performance
import Recast.Proofs.Component.ClassConversion
import Recast.Proofs.Component.ComponentRecord
import Recast.Proofs.Component.ComponentSpan
import Recast.Proofs.Component.DefinitionList
import Recast.Proofs.Component.DefinitionShift
import Recast.Proofs.Component.DependencyList
import Recast.Proofs.Component.EffectComment
import Recast.Proofs.Component.HeadSearch
import Recast.Proofs.Component.HookExtraction
import Recast.Proofs.Component.HookRemoval
import Recast.Proofs.Component.HookScript
import Recast.Proofs.Component.Locality
import Recast.Proofs.Component.Method
import Recast.Proofs.Component.MovedCode
import Recast.Proofs.Component.MovedTemplate
import Recast.Proofs.Component.PropKeys
import Recast.Proofs.Component.PropNames
import Recast.Proofs.Component.PropsRoot
import Recast.Proofs.Component.Replacement
import Recast.Proofs.Component.ReturnSplit
import Recast.Proofs.Component.ScriptExtraction
import Recast.Proofs.Component.ScriptState
import Recast.Proofs.Component.SetterCall
import Recast.Proofs.Component.StateField
import Recast.Proofs.Component.TypeArgument
import Recast.Proofs.Component.TypeTree
import Recast.Proofs.Component.UnknownElement
import Recast.Proofs.Component.Unmarked
import Recast.Proofs.Component.WrittenDefinition
import Recast.Proofs.Config.Validation
import Recast.Proofs.Console.ControlFree
import Recast.Proofs.Files.Neighbour
import Recast.Proofs.Files.Persistence
import Recast.Proofs.Journal.Laws
import Recast.Proofs.Markup.AttributeList
import Recast.Proofs.Markup.BracedValue
import Recast.Proofs.Markup.ChainText
import Recast.Proofs.Markup.ElementExtent
import Recast.Proofs.Markup.EmbeddedCode
import Recast.Proofs.Markup.LeftMarkup
import Recast.Proofs.Markup.MappedReceiver
import Recast.Proofs.Markup.PropertyList
import Recast.Proofs.Markup.TextMeaning
import Recast.Proofs.Markup.Tree
import Recast.Proofs.Markup.TreeRecast
import Recast.Proofs.Markup.TreeScan
import Recast.Proofs.Markup.WholeElement
import Recast.Proofs.Scan.BracketPairs
import Recast.Proofs.Scan.Found
import Recast.Proofs.Scan.MarkupSearch
import Recast.Proofs.Scan.Nesting
import Recast.Proofs.Scan.Passage
import Recast.Proofs.Scan.Pieces
import Recast.Proofs.Scan.Progress
import Recast.Proofs.Scan.QuotedText
import Recast.Proofs.Scan.Reflow
import Recast.Proofs.Scan.Relocation
import Recast.Proofs.Scan.Shift
import Recast.Proofs.Scan.Tiling
import Recast.Proofs.Scan.TokenShape
import Recast.Proofs.Scan.Truncation
import Recast.Proofs.Scope.ArrowParams
import Recast.Proofs.Scope.Binders
import Recast.Proofs.Scope.BoundNames
import Recast.Proofs.Scope.ClosedCode
import Recast.Proofs.Scope.Code
import Recast.Proofs.Scope.Expression
import Recast.Proofs.Scope.ExpressionCode
import Recast.Proofs.Scope.ExpressionQualify
import Recast.Proofs.Scope.ExpressionScopes
import Recast.Proofs.Scope.ExpressionWords
import Recast.Proofs.Scope.LiteralScan
import Recast.Proofs.Scope.LiteralsKept
import Recast.Proofs.Scope.LocalNames
import Recast.Proofs.Scope.MaskModes
import Recast.Proofs.Scope.Masked
import Recast.Proofs.Scope.PatternNames
import Recast.Proofs.Scope.PatternTree
import Recast.Proofs.Scope.Requalify
import Recast.Proofs.Scope.Rewriting
import Recast.Proofs.Scope.Settled
import Recast.Proofs.Scope.Undeclared
import Recast.Proofs.Scope.Walk
import Recast.Proofs.Scope.Words
import Recast.Proofs.Source.ImportStripping
import Recast.Proofs.Source.Session
import Recast.Proofs.Stack.Components
import Recast.Proofs.Stack.Lowering
import Recast.Proofs.Stack.Nesting
import Recast.Proofs.Stack.Overflow
import Recast.Proofs.Stack.Searches
import Recast.Proofs.Stack.Settling
import Recast.Proofs.Text.Gap
import Recast.Proofs.Text.Layout
import Recast.Proofs.Text.Lines
import Recast.Proofs.Text.Part
import Recast.Proofs.Text.Search
import Recast.Proofs.Text.StableSort
import Recast.Proofs.Text.Sweep
import Recast.Proofs.Text.Unquoting
import Recast.Proofs.Text.WideText
import Recast.Scan.Extent
import Recast.Scan.Fault
import Recast.Scan.Lexeme
import Recast.Scan.Token
import Recast.Scan.TopLevel
import Recast.Scan.Word
import Recast.Scope.Binding
import Recast.Scope.Mask
import Recast.Scope.Qualify
import Recast.Source.Conversion
import Recast.Source.Import
import Recast.Stack.Attempt
import Recast.Stack.Component
import Recast.Stack.Recasting
import Recast.Stack.Scan
import Recast.Stack.Search
import Recast.Text.Base64
import Recast.Text.Basic
import Recast.Text.Blank
import Recast.Text.Case
import Recast.Text.Digit
import Recast.Text.Edit
import Recast.Text.Length
import Recast.Text.Letter
import Recast.Text.Lines
import Recast.Text.Occurrence
import Recast.Text.Printable
import Recast.Text.Quoted
import Recast.Text.Runs
import Recast.Text.Shown
import Recast.Text.Utf8
import Recast.Text.Wide

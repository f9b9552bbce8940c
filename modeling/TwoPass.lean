import TwoPass.Expression.Arithmetic
import TwoPass.Expression.Basic
import TwoPass.Expression.Bytes
import TwoPass.Expression.Error
import TwoPass.Expression.Literal
import TwoPass.Expression.Reading
import TwoPass.Text.Basic
import TwoPass.Text.Blank
import TwoPass.Text.Decimal
import TwoPass.Text.Hex
import TwoPass.Text.Lines
import TwoPass.Text.Printable
import TwoPass.Text.Quoted
import TwoPass.Text.Replace
import TwoPass.Text.Split
import TwoPass.Text.WordChar
import TwoPass.Image
import TwoPass.NameMap
import TwoPass.Symbol.Dump
import TwoPass.Event
import TwoPass.Image.HexText
import TwoPass.Instruction
import TwoPass.Line
import TwoPass.Logged
import TwoPass.StringData
import TwoPass.Assembly.Error
import TwoPass.Assembly.Listing
import TwoPass.Assembly.Run
import TwoPass.Json.Failure
import TwoPass.Json.Reading
import TwoPass.Settings
import TwoPass.Settings.Reading
import TwoPass.CommandLine.Arguments
import TwoPass.CommandLine.Disk
import TwoPass.CommandLine.Run
import TwoPass.Main
import TwoPass.Binary64
import TwoPass.Binary64.Shortest
import TwoPass.Binary64.Written
import TwoPass.Proofs.Expression.Value
import TwoPass.Proofs.Symbol.Order
import TwoPass.Proofs.Symbol.History
import TwoPass.Proofs.Assembly.Definitions
import TwoPass.Proofs.Assembly.Rebinding
import TwoPass.Proofs.Assembly.Step
import TwoPass.Proofs.Assembly.Walk
import TwoPass.Proofs.Assembly.Binding
import TwoPass.Proofs.Assembly.Agreement
import TwoPass.Proofs.Assembly.Listing
import TwoPass.Proofs.Assembly.Resolution
import TwoPass.Proofs.Assembly.Sizing
import TwoPass.Proofs.Assembly.Drift
import TwoPass.Proofs.Assembly.Numbering
import TwoPass.Proofs.Macro.Tree
import TwoPass.Proofs.Macro.Preorder
import TwoPass.Proofs.Macro.Sweep
import TwoPass.Proofs.Macro.Collection
import TwoPass.Proofs.Macro.Characters
import TwoPass.Proofs.Macro.Elimination
import TwoPass.Proofs.Text.Lines
import TwoPass.Proofs.Text.Decimal
import TwoPass.Proofs.Text.Encoding
import TwoPass.Proofs.Expression.Numeral
import TwoPass.Proofs.Expression.Grammar
import TwoPass.Proofs.Expression.Lookahead
import TwoPass.Proofs.Expression.Soundness
import TwoPass.Proofs.Expression.Completeness
import TwoPass.Proofs.Expression.BigStep
import TwoPass.Proofs.Expression.Failure
import TwoPass.Proofs.Expression.Mention
import TwoPass.Proofs.Assembly.Delivery
import TwoPass.Proofs.Assembly.Blame
import TwoPass.Proofs.Assembly.Forward
import TwoPass.Proofs.Assembly.Region
import TwoPass.Proofs.CommandLine.Disk
import TwoPass.Proofs.CommandLine.Arguments
import TwoPass.Proofs.CommandLine.Plan
import TwoPass.Proofs.CommandLine.Results
import TwoPass.Proofs.Expression.Operators
import TwoPass.Proofs.Expression.Exact
import TwoPass.Proofs.Expression.Overflow
import TwoPass.Proofs.Instruction.Decoding
import TwoPass.Proofs.Image.History
import TwoPass.Proofs.Line.Parts
import TwoPass.Proofs.Text.Parts
import TwoPass.Proofs.Line.Layout
import TwoPass.Proofs.Macro.Reading
import TwoPass.Proofs.Macro.Fixpoint
import TwoPass.Proofs.Macro.Comment
import TwoPass.Proofs.Assembly.Directives
import TwoPass.Proofs.Macro.Substitution
import TwoPass.Proofs.Text.Hex
import TwoPass.Proofs.Assembly.Columns
import TwoPass.Proofs.Image.HexText
import TwoPass.Proofs.Assembly.Overlooked
import TwoPass.Proofs.Json.Value
import TwoPass.Proofs.Json.Written
import TwoPass.Proofs.Symbol.Export
import TwoPass.Proofs.Expression.Identifiers
import TwoPass.Proofs.Expression.Completion
import TwoPass.Proofs.Expression.Cursor
import TwoPass.Proofs.Expression.Bytes
import TwoPass.Proofs.Expression.Literal
import TwoPass.Proofs.Json.Grammar
import TwoPass.Proofs.Settings.Object
import TwoPass.Proofs.Expression.Naming
import TwoPass.Proofs.Assembly.Constants

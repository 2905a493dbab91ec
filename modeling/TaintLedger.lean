import TaintLedger.Code.Body
import TaintLedger.Code.Dominators
import TaintLedger.Code.Program
import TaintLedger.Code.Signature
import TaintLedger.Code.Stmt
import TaintLedger.Code.Value
import TaintLedger.Command.Configure
import TaintLedger.Command.Consolidate
import TaintLedger.Command.Flag
import TaintLedger.Command.Hint
import TaintLedger.Command.Line
import TaintLedger.Console
import TaintLedger.Files
import TaintLedger.Flow.Consolidate
import TaintLedger.Flow.Oracle
import TaintLedger.Flow.Raw
import TaintLedger.Flow.Record
import TaintLedger.Graph.Basic
import TaintLedger.Graph.Dominator
import TaintLedger.Graph.Forest
import TaintLedger.Handle.Resolver
import TaintLedger.Handle.Search
import TaintLedger.Handle.Token
import TaintLedger.Handoff.Document
import TaintLedger.Handoff.Load
import TaintLedger.Intent.Basic
import TaintLedger.Intent.Collect
import TaintLedger.JsonText
import TaintLedger.Log
import TaintLedger.Main
import TaintLedger.Path
import TaintLedger.Proofs.Code.ControlFlow
import TaintLedger.Proofs.Code.Forest
import TaintLedger.Proofs.Code.History
import TaintLedger.Proofs.Code.Program
import TaintLedger.Proofs.Code.Renaming
import TaintLedger.Proofs.Code.Structure
import TaintLedger.Proofs.Code.Table
import TaintLedger.Proofs.Code.Walk
import TaintLedger.Proofs.Command.Artifacts
import TaintLedger.Proofs.Command.Independence
import TaintLedger.Proofs.Distinct
import TaintLedger.Proofs.Files
import TaintLedger.Proofs.Flow.Announcement
import TaintLedger.Proofs.Flow.Classification
import TaintLedger.Proofs.Flow.Consolidation
import TaintLedger.Proofs.Flow.Enrichment
import TaintLedger.Proofs.Flow.Grouping
import TaintLedger.Proofs.Flow.Identity
import TaintLedger.Proofs.Flow.Projection
import TaintLedger.Proofs.Graph.Dominance
import TaintLedger.Proofs.Graph.Forest
import TaintLedger.Proofs.Graph.Line
import TaintLedger.Proofs.Graph.Path
import TaintLedger.Proofs.Graph.Reachability
import TaintLedger.Proofs.Handle.Bound
import TaintLedger.Proofs.Handle.Display
import TaintLedger.Proofs.Handle.Forward
import TaintLedger.Proofs.Handle.Reader
import TaintLedger.Proofs.Handle.Renaming
import TaintLedger.Proofs.Handle.Resolver
import TaintLedger.Proofs.Handle.SingleAssignment
import TaintLedger.Proofs.Handle.Substitution
import TaintLedger.Proofs.Handoff.Acceptance
import TaintLedger.Proofs.Handoff.Consolidation
import TaintLedger.Proofs.Handoff.Loading
import TaintLedger.Proofs.Handoff.Reference
import TaintLedger.Proofs.Handoff.Statement
import TaintLedger.Proofs.Intent.ExtraKeys
import TaintLedger.Proofs.Intent.Setters
import TaintLedger.Proofs.Json.Document
import TaintLedger.Proofs.Json.Token
import TaintLedger.Proofs.Outcome
import TaintLedger.Proofs.Path
import TaintLedger.Proofs.Report.Emission
import TaintLedger.Proofs.Report.Rules
import TaintLedger.Proofs.Report.Sarif
import TaintLedger.Proofs.Report.Xml
import TaintLedger.Proofs.Ssa.Completeness
import TaintLedger.Proofs.Ssa.ControlFlow
import TaintLedger.Proofs.Ssa.Dominance
import TaintLedger.Proofs.Ssa.Layout
import TaintLedger.Proofs.Ssa.Paths
import TaintLedger.Proofs.Ssa.Resolution
import TaintLedger.Proofs.Text.Cut
import TaintLedger.Proofs.Text.Encoding
import TaintLedger.Proofs.Text.Integer
import TaintLedger.Proofs.Text.Ordered
import TaintLedger.Proofs.Text.Quoted
import TaintLedger.Proofs.Xml.Document
import TaintLedger.Proofs.Xml.Span
import TaintLedger.Proofs.Xml.Tag
import TaintLedger.QuickSort
import TaintLedger.Report.Emit
import TaintLedger.Report.Format
import TaintLedger.Report.Sarif
import TaintLedger.Report.Xml
import TaintLedger.Report.Yaml
import TaintLedger.Settings
import TaintLedger.Ssa.Constant
import TaintLedger.Ssa.Convert
import TaintLedger.Ssa.Directive
import TaintLedger.Ssa.Function
import TaintLedger.Ssa.Package
import TaintLedger.Ssa.Position
import TaintLedger.Ssa.Resolution
import TaintLedger.Text.Basic
import TaintLedger.Text.Binary
import TaintLedger.Text.Blank
import TaintLedger.Text.Bytes
import TaintLedger.Text.Integer
import TaintLedger.Text.Literal
import TaintLedger.Text.LowerCase
import TaintLedger.Text.Number
import TaintLedger.Text.Ordered
import TaintLedger.Text.Printable
import TaintLedger.Text.Quoted
import TaintLedger.Text.Short
import TaintLedger.Vocabulary
import TaintLedger.Xml.NameChar
import TaintLedger.Xml.Node
import TaintLedger.Xml.Printer
import TaintLedger.Xml.Reader
import TaintLedger.Xml.Token
import TaintLedger.Yaml.Base64
import TaintLedger.Yaml.Character
import TaintLedger.Yaml.Cursor
import TaintLedger.Yaml.Decode
import TaintLedger.Yaml.Key
import TaintLedger.Yaml.Lexer
import TaintLedger.Yaml.Node
import TaintLedger.Yaml.Number
import TaintLedger.Yaml.Printer
import TaintLedger.Yaml.Property
import TaintLedger.Yaml.Record
import TaintLedger.Yaml.Scalar
import TaintLedger.Yaml.ScalarText
import TaintLedger.Yaml.Timestamp
import TaintLedger.Yaml.Token
import TaintLedger.Yaml.Untyped

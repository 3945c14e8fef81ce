import TraceGraph.CommandLine.Invocation
import TraceGraph.CommandLine.Word
import TraceGraph.Compile
import TraceGraph.Decimal.Binary64
import TraceGraph.Decimal.Integer
import TraceGraph.Decimal.Layout
import TraceGraph.Decimal.Reading
import TraceGraph.Decimal.Shortest
import TraceGraph.Error
import TraceGraph.Estree.Program
import TraceGraph.Estree.Shape
import TraceGraph.Estree.Text
import TraceGraph.Evidence
import TraceGraph.Factor.Builtin
import TraceGraph.Factor.Call
import TraceGraph.Factor.Descriptor
import TraceGraph.Factor.Registry
import TraceGraph.Java.Expression
import TraceGraph.Java.SourceFile
import TraceGraph.Java.Statement
import TraceGraph.Main
import TraceGraph.Notice
import TraceGraph.Proofs.Acceptance
import TraceGraph.Proofs.Arguments
import TraceGraph.Proofs.Ascii
import TraceGraph.Proofs.Assembly
import TraceGraph.Proofs.Breakdown
import TraceGraph.Proofs.Completeness
import TraceGraph.Proofs.Conversion
import TraceGraph.Proofs.Declaration
import TraceGraph.Proofs.Decoding
import TraceGraph.Proofs.Dependence
import TraceGraph.Proofs.Dispatch
import TraceGraph.Proofs.Domain
import TraceGraph.Proofs.Doubles
import TraceGraph.Proofs.Draws
import TraceGraph.Proofs.Emission
import TraceGraph.Proofs.Encoding
import TraceGraph.Proofs.Erasure
import TraceGraph.Proofs.EvidenceForms
import TraceGraph.Proofs.FloatingLiteral
import TraceGraph.Proofs.Grammar
import TraceGraph.Proofs.Levels
import TraceGraph.Proofs.Lines
import TraceGraph.Proofs.LocalTypes
import TraceGraph.Proofs.MainMethod
import TraceGraph.Proofs.Meaning
import TraceGraph.Proofs.Memory
import TraceGraph.Proofs.NormalForm
import TraceGraph.Proofs.Observation
import TraceGraph.Proofs.Operations
import TraceGraph.Proofs.Outcome
import TraceGraph.Proofs.Pass
import TraceGraph.Proofs.Refusal
import TraceGraph.Proofs.Regeneration
import TraceGraph.Proofs.Rendering
import TraceGraph.Proofs.RoundTrip
import TraceGraph.Proofs.Rounding
import TraceGraph.Proofs.Rules
import TraceGraph.Proofs.Separation
import TraceGraph.Proofs.Shortest
import TraceGraph.Proofs.StringLiteral
import TraceGraph.Proofs.Terms
import TraceGraph.Proofs.Traversal
import TraceGraph.Proofs.Typing
import TraceGraph.Proofs.Unambiguity
import TraceGraph.Proofs.Usage
import TraceGraph.Proofs.Visits
import TraceGraph.Proofs.Wiring
import TraceGraph.Report
import TraceGraph.Script.Expressions
import TraceGraph.Script.Function
import TraceGraph.Script.Lexer
import TraceGraph.Script.Parser
import TraceGraph.Script.Reader
import TraceGraph.Script.Statements
import TraceGraph.Script.Token
import TraceGraph.Script.Tree
import TraceGraph.Session
import TraceGraph.Settings
import TraceGraph.Source
import TraceGraph.Text.Blank
import TraceGraph.Text.Identifier
import TraceGraph.Text.Join
import TraceGraph.Text.Letter
import TraceGraph.Text.Lines
import TraceGraph.Text.Printable
import TraceGraph.Text.Quoted
import TraceGraph.Text.Ranges
import TraceGraph.Text.WordPart
import TraceGraph.Trace.Node
import TraceGraph.Trace.Reading
import TraceGraph.Trace.Writing
import TraceGraph.Value
import TraceGraph.Value.Display
import TraceGraph.Value.Fields

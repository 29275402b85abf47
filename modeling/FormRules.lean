import FormRules.Artifact.Basic
import FormRules.Artifact.Decode
import FormRules.Artifact.Encode
import FormRules.Artifact.Field
import FormRules.Artifact.Logic
import FormRules.Command.Arguments
import FormRules.Command.Run
import FormRules.Decode.Fault
import FormRules.Decode.Reading
import FormRules.Decode.Record
import FormRules.Decode.Tagged
import FormRules.Decode.Value
import FormRules.Expr.Basic
import FormRules.Expr.Cursor
import FormRules.Expr.Encode
import FormRules.Expr.Level
import FormRules.Expr.Parse
import FormRules.Expr.Render
import FormRules.Expr.SyntaxError
import FormRules.Graph.Basic
import FormRules.Graph.Decode
import FormRules.Graph.Order
import FormRules.Graph.Search
import FormRules.Json.Basic
import FormRules.Json.Read
import FormRules.Json.Write
import FormRules.Keyed.Entries
import FormRules.Keyed.OrderedMap
import FormRules.Main
import FormRules.Number.Magnitude
import FormRules.Number.Shortest
import FormRules.Number.Text
import FormRules.Proofs.Graph.Reach
import FormRules.Scope.Build
import FormRules.Scope.Dependency
import FormRules.Scope.FieldPaths
import FormRules.Text.Ahead
import FormRules.Text.Blank
import FormRules.Text.CharRange
import FormRules.Text.Hex
import FormRules.Text.Letter
import FormRules.Text.Numeral
import FormRules.Text.Printable
import FormRules.Text.Quoted
import FormRules.Token.Basic
import FormRules.Token.Lexeme
import FormRules.Token.Scan
import FormRules.Toml.Basic
import FormRules.Toml.Lexeme
import FormRules.Toml.Number
import FormRules.Toml.Read
import FormRules.Typing.Environment
import FormRules.Typing.FieldType
import FormRules.Typing.Infer
import FormRules.Typing.Inference
import FormRules.Typing.Signature
import FormRules.Typing.ValueType
import FormRules.Validation.Artifact
import FormRules.Validation.Config
import FormRules.Validation.Expression
import FormRules.Validation.Form
import FormRules.Validation.Issue
import FormRules.Validation.Logic
import FormRules.Validation.Options
import FormRules.Validation.Report
import FormRules.Proofs.Graph.Operation
import FormRules.Proofs.Graph.Invariant
import FormRules.Proofs.Graph.Preservation
import FormRules.Proofs.Graph.Step
import FormRules.Proofs.Graph.Component
import FormRules.Proofs.Graph.Order
import FormRules.Proofs.Scope.Dependency
import FormRules.Proofs.Expr.Grammar
import FormRules.Proofs.Expr.Unambiguous
import FormRules.Proofs.Expr.Complete
import FormRules.Proofs.Expr.Exact
import FormRules.Proofs.Scope.Agreement
import FormRules.Proofs.Scope.Fixpoint
import FormRules.Proofs.Validation.Report
import FormRules.Proofs.Validation.Found
import FormRules.Proofs.Validation.Form
import FormRules.Proofs.Validation.Artifact
import FormRules.Proofs.Scope.Contents
import FormRules.Proofs.Scope.Shape
import FormRules.Proofs.Scope.Finished
import FormRules.Proofs.Scope.Reference
import FormRules.Proofs.Scope.Rearranged
import FormRules.Proofs.Validation.Rearranged
import FormRules.Proofs.Validation.Visited
import FormRules.Proofs.Validation.Sound
import FormRules.Proofs.Validation.WellFormed
import FormRules.Proofs.Validation.Trust
import FormRules.Proofs.Scope.Exposed
import FormRules.Proofs.Validation.Relocated
import FormRules.Proofs.Validation.Bundled
import FormRules.Proofs.Artifact.Written
import FormRules.Proofs.Decode.Record
import FormRules.Proofs.Artifact.RoundTrip
import FormRules.Proofs.Validation.Located
import FormRules.Proofs.Validation.Path
import FormRules.Proofs.Token.Spelling
import FormRules.Proofs.Token.Lexeme
import FormRules.Proofs.Token.Layout
import FormRules.Proofs.Token.Written
import FormRules.Proofs.Expr.Limits
import FormRules.Proofs.Expr.Enclosed
import FormRules.Proofs.Expr.Lexical
import FormRules.Proofs.Expr.Rendered
import FormRules.Proofs.Expr.Placed
import FormRules.Proofs.Expr.Bounded
import FormRules.Proofs.Expr.Respelled
import FormRules.Proofs.Expr.Offsets
import FormRules.Proofs.Text.Quoted
import FormRules.Proofs.Expr.Determined
import FormRules.Proofs.Typing.Order
import FormRules.Proofs.Typing.Confidence
import FormRules.Proofs.Validation.Informed
import FormRules.Proofs.Scope.Occurrence
import FormRules.Proofs.Validation.Walks
import FormRules.Proofs.Token.Misspelling
import FormRules.Proofs.Expr.Located
import FormRules.Proofs.Expr.Recursion
import FormRules.Proofs.Scope.Chain
import FormRules.Proofs.Scope.Collision
import FormRules.Proofs.Scope.Ids
import FormRules.Proofs.Validation.Guard
import FormRules.Proofs.Validation.Unrepeated
import FormRules.Proofs.Graph.Run
import FormRules.Proofs.Graph.Condensation
import FormRules.Proofs.Graph.DepthFirst
import FormRules.Proofs.Graph.Postorder
import FormRules.Proofs.Command.Verdict
import FormRules.Proofs.Decode.Agreement
import FormRules.Proofs.Artifact.Restated
import FormRules.Proofs.Artifact.Tolerance
import FormRules.Proofs.Scope.Consulted
import FormRules.Proofs.Graph.Round
import FormRules.Proofs.Graph.History
import FormRules.Proofs.Expr.Attempt
import FormRules.Proofs.Expr.Attempted
import FormRules.Proofs.Expr.Progress

import Reckon.About
import Reckon.Arithmetic
import Reckon.CommandLine
import Reckon.CommandLine.Argument
import Reckon.Cursor
import Reckon.Double.Shortest
import Reckon.Entries
import Reckon.Expr
import Reckon.Expr.Eval
import Reckon.Expr.Tree
import Reckon.Failure
import Reckon.Interpreter
import Reckon.Json.Basic
import Reckon.Json.Number
import Reckon.Json.Printer
import Reckon.Json.Reader
import Reckon.Main
import Reckon.Proofs.Answers
import Reckon.Proofs.Atomicity
import Reckon.Proofs.Balance
import Reckon.Proofs.CorrectPrefix
import Reckon.Proofs.DecimalTexts
import Reckon.Proofs.Dependence
import Reckon.Proofs.Drawing
import Reckon.Proofs.Dumps
import Reckon.Proofs.Framing
import Reckon.Proofs.FrontEnds
import Reckon.Proofs.Grammar
import Reckon.Proofs.Height
import Reckon.Proofs.JsonGrammar
import Reckon.Proofs.Labels
import Reckon.Proofs.Layout
import Reckon.Proofs.Listing
import Reckon.Proofs.Machine
import Reckon.Proofs.Messages
import Reckon.Proofs.Operators
import Reckon.Proofs.Places
import Reckon.Proofs.Positions
import Reckon.Proofs.Printing
import Reckon.Proofs.Reader
import Reckon.Proofs.Reading
import Reckon.Proofs.Runs
import Reckon.Proofs.Spacing
import Reckon.Proofs.Substitution
import Reckon.Proofs.Targets
import Reckon.Proofs.Termination
import Reckon.Proofs.Tokenization
import Reckon.Proofs.ToolCalls
import Reckon.Proofs.Writes
import Reckon.Server
import Reckon.Server.Request
import Reckon.Session
import Reckon.Settings
import Reckon.Span
import Reckon.Stmt.Dump
import Reckon.Stmt.Parser
import Reckon.Store
import Reckon.Text.Blank
import Reckon.Text.Cluster
import Reckon.Text.Cluster.Break
import Reckon.Text.Combining
import Reckon.Text.Decimal
import Reckon.Text.Front
import Reckon.Text.Lines
import Reckon.Text.Printable
import Reckon.Text.Quoted
import Reckon.Text.Ranges
import Reckon.Text.Typed
import Reckon.Token
import Reckon.Token.Lexer
import Reckon.Toml.Document
import Reckon.Toml.Reader
import Reckon.Toml.Scalar
import Reckon.Toml.Table

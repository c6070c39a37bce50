import Scriptlet.Span
import Scriptlet.Diagnostic.Basic
import Scriptlet.Diagnostic.Report
import Scriptlet.Text.Table
import Scriptlet.Text.Blank
import Scriptlet.Text.Alphabetic
import Scriptlet.Text.Line
import Scriptlet.Text.Quoted
import Scriptlet.Number.Basic
import Scriptlet.Number.Power
import Scriptlet.Number.Rounding
import Scriptlet.Number.Arithmetic
import Scriptlet.Number.Decimal
import Scriptlet.Number.Numeral
import Scriptlet.Number.Shortest
import Scriptlet.Number.Notation
import Scriptlet.Token.Basic
import Scriptlet.Token.Scan
import Scriptlet.Syntax.Basic
import Scriptlet.Syntax.Printer
import Scriptlet.Syntax.Fault
import Scriptlet.Syntax.Cursor
import Scriptlet.Syntax.Parser
import Scriptlet.Value.Basic
import Scriptlet.Value.Printer
import Scriptlet.Scope.Fault
import Scriptlet.Scope.Store
import Scriptlet.Eval.Fault
import Scriptlet.Eval.Machine
import Scriptlet.Eval.Operation
import Scriptlet.Eval.Native
import Scriptlet.Eval.Basic
import Scriptlet.Interpreter
import Scriptlet.Script
import Scriptlet.Repl
import Scriptlet.CommandLine
import Scriptlet.Main
import Scriptlet.Proofs.Token.Lexeme
import Scriptlet.Proofs.Token.Scanning
import Scriptlet.Proofs.Token.LongestMatch
import Scriptlet.Proofs.Token.Splitting
import Scriptlet.Proofs.Token.Joined
import Scriptlet.Proofs.Number.Digits
import Scriptlet.Proofs.Number.Exactness
import Scriptlet.Proofs.Number.Literal
import Scriptlet.Proofs.Syntax.Shape
import Scriptlet.Proofs.Syntax.Grammar
import Scriptlet.Proofs.Syntax.Agreement
import Scriptlet.Proofs.Syntax.Recursion
import Scriptlet.Proofs.Syntax.Reading
import Scriptlet.Proofs.Syntax.Soundness.Expression
import Scriptlet.Proofs.Syntax.Soundness.Statement
import Scriptlet.Proofs.Syntax.Completeness.Expression
import Scriptlet.Proofs.Syntax.Completeness.Statement
import Scriptlet.Proofs.Syntax.Correctness
import Scriptlet.Proofs.Syntax.Printable
import Scriptlet.Proofs.Syntax.Spelling
import Scriptlet.Proofs.Syntax.PrintedText
import Scriptlet.Proofs.Syntax.PrintedTree
import Scriptlet.Proofs.Syntax.RoundTrip
import Scriptlet.Proofs.Syntax.Moved
import Scriptlet.Proofs.Syntax.Parallel.Rules
import Scriptlet.Proofs.Syntax.Parallel.Expression
import Scriptlet.Proofs.Syntax.Parallel.Statement
import Scriptlet.Proofs.Syntax.Parallel.Program
import Scriptlet.Proofs.Syntax.Joined
import Scriptlet.Proofs.Syntax.Viable.Rules
import Scriptlet.Proofs.Syntax.Viable.Expression
import Scriptlet.Proofs.Syntax.Viable.Statement
import Scriptlet.Proofs.Syntax.Viable.Program
import Scriptlet.Proofs.Scope.Growth
import Scriptlet.Proofs.Scope.Reachability
import Scriptlet.Proofs.Scope.Enclosure
import Scriptlet.Proofs.Scope.Chain
import Scriptlet.Proofs.Value.Resemblance
import Scriptlet.Proofs.Renaming.Basic
import Scriptlet.Proofs.Renaming.Value
import Scriptlet.Proofs.Renaming.Store
import Scriptlet.Proofs.Renaming.Machine
import Scriptlet.Proofs.Eval.Steps
import Scriptlet.Proofs.Eval.ConstantLaw
import Scriptlet.Proofs.Eval.Nodes
import Scriptlet.Proofs.Eval.Contract
import Scriptlet.Proofs.Eval.Declarations
import Scriptlet.Proofs.Eval.Confinement
import Scriptlet.Proofs.Eval.Provenance
import Scriptlet.Proofs.Eval.Diagnosis
import Scriptlet.Proofs.Eval.Accord
import Scriptlet.Proofs.Eval.Locality
import Scriptlet.Proofs.Eval.Moved
import Scriptlet.Proofs.Eval.Parallel
import Scriptlet.Proofs.Interpreter.Stages
import Scriptlet.Proofs.Interpreter.Layout
import Scriptlet.Proofs.Interpreter.Joined
import Scriptlet.Proofs.Interpreter.Places
import Scriptlet.Proofs.Scope.History
import Scriptlet.Proofs.Eval.FailStop
import Scriptlet.Proofs.Syntax.Tiling.Basic
import Scriptlet.Proofs.Syntax.Tiling.Placement
import Scriptlet.Proofs.Syntax.Tiling.Expression
import Scriptlet.Proofs.Syntax.Tiling.Statement
import Scriptlet.Proofs.Syntax.Tiling.Program
import Scriptlet.Proofs.Syntax.Walk.Basic
import Scriptlet.Proofs.Syntax.Walk.Following
import Scriptlet.Proofs.Syntax.Walk.Expression
import Scriptlet.Proofs.Syntax.Walk.Statement
import Scriptlet.Proofs.Syntax.Walk.Safety
import Scriptlet.Proofs.Syntax.Usable.Rules
import Scriptlet.Proofs.Syntax.Usable.Tokens
import Scriptlet.Proofs.Syntax.Usable.Grammar
import Scriptlet.Proofs.Syntax.Usable.Program
import Scriptlet.Proofs.Eval.Acquaintance
import Scriptlet.Proofs.Eval.Unassigned
import Scriptlet.Proofs.Eval.Bounded
import Scriptlet.Proofs.Eval.Termination
import Scriptlet.Proofs.Eval.Identity.Journal
import Scriptlet.Proofs.Eval.Identity.Origin
import Scriptlet.Proofs.Eval.Identity.Recording
import Scriptlet.Proofs.Eval.Identity.Session
import Scriptlet.Proofs.Syntax.Pointing.Grammar
import Scriptlet.Proofs.Token.Faults
import Scriptlet.Proofs.Syntax.Pointing.Program
import Scriptlet.Proofs.Syntax.Precedence
import Scriptlet.Proofs.Eval.ElseIf
import Scriptlet.Proofs.Number.Equality
import Scriptlet.Proofs.Value.Equality
import Scriptlet.Proofs.Renaming.Diagonal
import Scriptlet.Proofs.Eval.FunctionOrder
import Scriptlet.Proofs.Syntax.Readable.Words
import Scriptlet.Proofs.Syntax.Readable.Reader
import Scriptlet.Proofs.Syntax.Readable.Expression
import Scriptlet.Proofs.Syntax.Readable.Statement
import Scriptlet.Proofs.Syntax.Readable.Program
import Scriptlet.Proofs.Value.Comparison
import Scriptlet.Proofs.Eval.Arguments
import Scriptlet.Proofs.Syntax.Walk.Marker
import Scriptlet.Proofs.Repl.Lines
import Scriptlet.Proofs.Eval.Appending
import Scriptlet.Proofs.Repl.Session
import Scriptlet.Proofs.Value.Entries
import Scriptlet.Proofs.Eval.ObjectLiteral
import Scriptlet.Proofs.Number.Decimal
import Scriptlet.Proofs.Number.Notation

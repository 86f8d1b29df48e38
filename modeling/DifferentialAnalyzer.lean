import DifferentialAnalyzer.Arithmetic
import DifferentialAnalyzer.Binary64
import DifferentialAnalyzer.Command.Arguments
import DifferentialAnalyzer.Command.Execute
import DifferentialAnalyzer.Command.Failure
import DifferentialAnalyzer.Decimal.Basic
import DifferentialAnalyzer.Decimal.Reader
import DifferentialAnalyzer.Decimal.Shortest
import DifferentialAnalyzer.Decimal.Text
import DifferentialAnalyzer.Description.Basic
import DifferentialAnalyzer.Description.Build
import DifferentialAnalyzer.Description.Decode
import DifferentialAnalyzer.Description.Encode
import DifferentialAnalyzer.Description.Error
import DifferentialAnalyzer.Description.Files
import DifferentialAnalyzer.Description.Validate
import DifferentialAnalyzer.Description.Variables
import DifferentialAnalyzer.Document.Basic
import DifferentialAnalyzer.Document.Json
import DifferentialAnalyzer.Document.Numeral
import DifferentialAnalyzer.Document.Plain
import DifferentialAnalyzer.Document.Quoted
import DifferentialAnalyzer.Document.Yaml
import DifferentialAnalyzer.Document.Yaml.Folded
import DifferentialAnalyzer.Document.Yaml.Layout
import DifferentialAnalyzer.Document.Yaml.Lines
import DifferentialAnalyzer.Document.Yaml.Page
import DifferentialAnalyzer.Document.Yaml.Token
import DifferentialAnalyzer.Document.Yaml.Tree
import DifferentialAnalyzer.Expr.Basic
import DifferentialAnalyzer.Expr.Bindings
import DifferentialAnalyzer.Expr.Builtin
import DifferentialAnalyzer.Expr.Compiled
import DifferentialAnalyzer.Expr.Error
import DifferentialAnalyzer.Expr.LetChain
import DifferentialAnalyzer.Expr.Parser
import DifferentialAnalyzer.Expr.Printer
import DifferentialAnalyzer.Expr.Reduce
import DifferentialAnalyzer.Expr.Token
import DifferentialAnalyzer.Fault
import DifferentialAnalyzer.Machine.Clock
import DifferentialAnalyzer.Machine.Device
import DifferentialAnalyzer.Machine.Error
import DifferentialAnalyzer.Machine.Resolution
import DifferentialAnalyzer.Machine.Runner
import DifferentialAnalyzer.Machine.Shaft
import DifferentialAnalyzer.Machine.Simulator
import DifferentialAnalyzer.Main
import DifferentialAnalyzer.Text.Blank
import DifferentialAnalyzer.Text.Literal
import DifferentialAnalyzer.Text.Radix
import DifferentialAnalyzer.Text.Unseen
import DifferentialAnalyzer.Topology.Basic
import DifferentialAnalyzer.Topology.Error
import DifferentialAnalyzer.Topology.Graph
import DifferentialAnalyzer.Topology.Keys
import DifferentialAnalyzer.Word
import DifferentialAnalyzer.Proofs.Topology.Rows
import DifferentialAnalyzer.Proofs.Machine.Path
import DifferentialAnalyzer.Proofs.Machine.Running
import DifferentialAnalyzer.Proofs.Machine.Operation
import DifferentialAnalyzer.Proofs.Machine.Law
import DifferentialAnalyzer.Proofs.Machine.Determination
import DifferentialAnalyzer.Proofs.Machine.Abort
import DifferentialAnalyzer.Proofs.Machine.Confluence
import DifferentialAnalyzer.Proofs.Fallible
import DifferentialAnalyzer.Proofs.Expr.Reduction
import DifferentialAnalyzer.Proofs.Expr.FreeNames
import DifferentialAnalyzer.Proofs.Expr.Staging
import DifferentialAnalyzer.Proofs.FloatOrder
import DifferentialAnalyzer.Proofs.FloatValue
import DifferentialAnalyzer.Proofs.FloatRounding
import DifferentialAnalyzer.Proofs.Expr.Meaning
import DifferentialAnalyzer.Proofs.Expr.Grammar
import DifferentialAnalyzer.Proofs.Expr.ParserSoundness
import DifferentialAnalyzer.Proofs.Expr.ParserSteps
import DifferentialAnalyzer.Proofs.Expr.ParserCompleteness
import DifferentialAnalyzer.Proofs.Machine.Flow
import DifferentialAnalyzer.Proofs.Machine.Playing
import DifferentialAnalyzer.Proofs.Machine.Calling
import DifferentialAnalyzer.Proofs.Machine.Scheduling
import DifferentialAnalyzer.Proofs.Machine.Arrears
import DifferentialAnalyzer.Proofs.Machine.RunError
import DifferentialAnalyzer.Proofs.Expr.Calls
import DifferentialAnalyzer.Proofs.Expr.Unknowns
import DifferentialAnalyzer.Proofs.Description.Making
import DifferentialAnalyzer.Proofs.Description.Validity
import DifferentialAnalyzer.Proofs.Description.Soundness
import DifferentialAnalyzer.Proofs.Description.Wired
import DifferentialAnalyzer.Proofs.Description.Built
import DifferentialAnalyzer.Proofs.Description.Agreement
import DifferentialAnalyzer.Proofs.Description.Fields
import DifferentialAnalyzer.Proofs.Description.Parts
import DifferentialAnalyzer.Proofs.Description.Reloaded
import DifferentialAnalyzer.Proofs.Document.Numerals
import DifferentialAnalyzer.Proofs.Document.Quotes
import DifferentialAnalyzer.Proofs.Document.Reread
import DifferentialAnalyzer.Proofs.Description.Tables
import DifferentialAnalyzer.Proofs.Machine.Positions
import DifferentialAnalyzer.Proofs.Machine.Relabelled
import DifferentialAnalyzer.Proofs.Description.Redrawn
import DifferentialAnalyzer.Proofs.Description.Layout
import DifferentialAnalyzer.Proofs.Decimal.Nearest
import DifferentialAnalyzer.Proofs.Decimal.Displayed
import DifferentialAnalyzer.Proofs.Expr.Scanning
import DifferentialAnalyzer.Proofs.Expr.Spelling
import DifferentialAnalyzer.Proofs.Expr.Displaying
import DifferentialAnalyzer.Proofs.Expr.Redisplayed
import DifferentialAnalyzer.Proofs.Topology.Naming
import DifferentialAnalyzer.Proofs.Topology.Index
import DifferentialAnalyzer.Proofs.Topology.Verdict
import DifferentialAnalyzer.Proofs.Topology.Lookup
import DifferentialAnalyzer.Proofs.Machine.Checked
import DifferentialAnalyzer.Proofs.Machine.Writing
import DifferentialAnalyzer.Proofs.Machine.InRange
import DifferentialAnalyzer.Proofs.Machine.Asking
import DifferentialAnalyzer.Proofs.Machine.Worklist
import DifferentialAnalyzer.Proofs.Machine.Tally
import DifferentialAnalyzer.Proofs.Machine.Recording
import DifferentialAnalyzer.Proofs.Expr.Patterns
import DifferentialAnalyzer.Proofs.Expr.LongestMatch
import DifferentialAnalyzer.Proofs.Expr.Tokens
import DifferentialAnalyzer.Proofs.Expr.Prefixes
import DifferentialAnalyzer.Proofs.Expr.Blame
import DifferentialAnalyzer.Proofs.Expr.Culprits
import DifferentialAnalyzer.Proofs.Expr.Chains
import DifferentialAnalyzer.Proofs.WholeNumbers
import DifferentialAnalyzer.Proofs.Expr.Ranges
import DifferentialAnalyzer.Proofs.Expr.Shrinking
import DifferentialAnalyzer.Proofs.Expr.Stack

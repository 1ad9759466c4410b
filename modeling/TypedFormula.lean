import TypedFormula.Binary64.Logarithm
import TypedFormula.Binary64.Order
import TypedFormula.Binary64.Power
import TypedFormula.Binary64.Rounding
import TypedFormula.Binary64.Sum
import TypedFormula.Binding
import TypedFormula.Command
import TypedFormula.Command.Answer
import TypedFormula.Command.Arguments
import TypedFormula.Command.BindingsFile
import TypedFormula.Command.Error
import TypedFormula.Command.Variables
import TypedFormula.CompileError
import TypedFormula.Conversion
import TypedFormula.Decimal.Layout
import TypedFormula.Decimal.Reader
import TypedFormula.Decimal.Shortest
import TypedFormula.Dict
import TypedFormula.Evaluation
import TypedFormula.Expr
import TypedFormula.Expr.Eval
import TypedFormula.Expr.Parse
import TypedFormula.Expr.Typing
import TypedFormula.Flatten
import TypedFormula.Formula
import TypedFormula.Formula.Cache
import TypedFormula.Formula.Failure
import TypedFormula.Formula.Listing
import TypedFormula.Formula.Machine
import TypedFormula.Function
import TypedFormula.Function.Argument
import TypedFormula.Json
import TypedFormula.Json.Number
import TypedFormula.Json.Read
import TypedFormula.Json.Reader
import TypedFormula.Json.Text
import TypedFormula.Kind
import TypedFormula.Library
import TypedFormula.Library.Conditions
import TypedFormula.Library.Numbers
import TypedFormula.Library.Samples
import TypedFormula.Library.Sequences
import TypedFormula.Library.Strings
import TypedFormula.Main
import TypedFormula.Number
import TypedFormula.Operator
import TypedFormula.Proofs.Assignments
import TypedFormula.Proofs.Binary64.Arithmetic
import TypedFormula.Proofs.Binary64.Compensation
import TypedFormula.Proofs.Binary64.Decimals
import TypedFormula.Proofs.Binary64.Exact
import TypedFormula.Proofs.Binary64.Finite
import TypedFormula.Proofs.Binary64.Nearest
import TypedFormula.Proofs.Binary64.Remainder
import TypedFormula.Proofs.Binary64.Rounded
import TypedFormula.Proofs.Binary64.Rounding
import TypedFormula.Proofs.Binary64.Sums
import TypedFormula.Proofs.Bindings
import TypedFormula.Proofs.Blame
import TypedFormula.Proofs.Cache
import TypedFormula.Proofs.Cache.Queue
import TypedFormula.Proofs.Code
import TypedFormula.Proofs.Comparisons
import TypedFormula.Proofs.Decimal.Positional
import TypedFormula.Proofs.Decimal.Shortest
import TypedFormula.Proofs.Declarations
import TypedFormula.Proofs.Declarations.Exact
import TypedFormula.Proofs.Equality
import TypedFormula.Proofs.Escapes
import TypedFormula.Proofs.Evaluation
import TypedFormula.Proofs.Failures
import TypedFormula.Proofs.Finite
import TypedFormula.Proofs.Finite.Runs
import TypedFormula.Proofs.FiniteSums
import TypedFormula.Proofs.Flattening
import TypedFormula.Proofs.Grammar
import TypedFormula.Proofs.Grammar.Acceptance
import TypedFormula.Proofs.Grammar.Completeness
import TypedFormula.Proofs.Grammar.Soundness
import TypedFormula.Proofs.Indentation
import TypedFormula.Proofs.IntegerVariables
import TypedFormula.Proofs.Kinds
import TypedFormula.Proofs.LetterCase
import TypedFormula.Proofs.Library
import TypedFormula.Proofs.Listing
import TypedFormula.Proofs.Matching
import TypedFormula.Proofs.Matching.UnknownKinds
import TypedFormula.Proofs.Nesting
import TypedFormula.Proofs.Nesting.Tower
import TypedFormula.Proofs.Numerals
import TypedFormula.Proofs.ParserRuns
import TypedFormula.Proofs.ParserRuns.Agreement
import TypedFormula.Proofs.ParserRuns.Progress
import TypedFormula.Proofs.Parsing
import TypedFormula.Proofs.Positions
import TypedFormula.Proofs.Positions.Errors
import TypedFormula.Proofs.Positions.Reports
import TypedFormula.Proofs.PrintedScalars
import TypedFormula.Proofs.Registrations
import TypedFormula.Proofs.Relocation
import TypedFormula.Proofs.Remainders
import TypedFormula.Proofs.Replacement
import TypedFormula.Proofs.Respelling
import TypedFormula.Proofs.Safety
import TypedFormula.Proofs.Samples
import TypedFormula.Proofs.Slices
import TypedFormula.Proofs.SourceOrder
import TypedFormula.Proofs.Spelling
import TypedFormula.Proofs.Spelling.Words
import TypedFormula.Proofs.ValueOrder
import TypedFormula.Proofs.Variables
import TypedFormula.Proofs.WholeNumbers
import TypedFormula.Proofs.WrittenJson
import TypedFormula.Registry
import TypedFormula.Signature
import TypedFormula.Text.Blank
import TypedFormula.Text.CaseTable
import TypedFormula.Text.HiddenTable
import TypedFormula.Text.LetterCase
import TypedFormula.Text.Occurrences
import TypedFormula.Text.Quoted
import TypedFormula.Text.Ranges
import TypedFormula.Token
import TypedFormula.Token.Scan
import TypedFormula.Token.Stream
import TypedFormula.Value
import TypedFormula.Value.Order

import LineBasic.Command.Arguments
import LineBasic.Command.Run
import LineBasic.Compile
import LineBasic.Diagnostic
import LineBasic.Failure
import LineBasic.Files.Compile
import LineBasic.Files.Disk
import LineBasic.Files.Path
import LineBasic.Files.Tree
import LineBasic.Main
import LineBasic.Names.Reserved
import LineBasic.Names.Similar
import LineBasic.Names.Table
import LineBasic.Options
import LineBasic.Output
import LineBasic.Pass.Expression
import LineBasic.Pass.Program
import LineBasic.Pass.Progress
import LineBasic.Pass.State
import LineBasic.Pass.Statement
import LineBasic.Proofs.Arithmetic.Translation
import LineBasic.Proofs.Arithmetic.Truncation
import LineBasic.Proofs.Arithmetic.Value
import LineBasic.Proofs.C.Expr
import LineBasic.Proofs.C.Lines
import LineBasic.Proofs.C.Literal
import LineBasic.Proofs.C.Mentions
import LineBasic.Proofs.C.Text
import LineBasic.Proofs.C.Token
import LineBasic.Proofs.C.Value
import LineBasic.Proofs.C.Words
import LineBasic.Proofs.Command.Effects
import LineBasic.Proofs.Command.ExitCode
import LineBasic.Proofs.Command.Input
import LineBasic.Proofs.Command.Outcome
import LineBasic.Proofs.Concat.Program
import LineBasic.Proofs.Concat.Scan
import LineBasic.Proofs.Concat.Tree
import LineBasic.Proofs.Diagnosis.Breach
import LineBasic.Proofs.Diagnosis.Ending
import LineBasic.Proofs.Diagnosis.Expression
import LineBasic.Proofs.Diagnosis.Language
import LineBasic.Proofs.Diagnosis.Message
import LineBasic.Proofs.Diagnosis.OnDemand
import LineBasic.Proofs.Diagnosis.Pointing
import LineBasic.Proofs.Diagnosis.Program
import LineBasic.Proofs.Diagnosis.Standing
import LineBasic.Proofs.Diagnosis.Statement
import LineBasic.Proofs.Files.Path
import LineBasic.Proofs.Files.Tree
import LineBasic.Proofs.Grammar.Rule
import LineBasic.Proofs.Grammar.Stage
import LineBasic.Proofs.Names.Breach
import LineBasic.Proofs.Names.Role
import LineBasic.Proofs.Names.Rules
import LineBasic.Proofs.Pass.Closure
import LineBasic.Proofs.Pass.Descent
import LineBasic.Proofs.Pass.Effect
import LineBasic.Proofs.Pass.Independence
import LineBasic.Proofs.Pass.Invariant
import LineBasic.Proofs.Pass.Outcome
import LineBasic.Proofs.Pass.Reached
import LineBasic.Proofs.Pass.Rounds
import LineBasic.Proofs.Pass.Stream
import LineBasic.Proofs.Pass.Termination
import LineBasic.Proofs.Source.Lines
import LineBasic.Proofs.Source.Passed
import LineBasic.Proofs.Source.Replace
import LineBasic.Proofs.Syntax.Emission
import LineBasic.Proofs.Syntax.Lines
import LineBasic.Proofs.Syntax.Names
import LineBasic.Proofs.Syntax.Places
import LineBasic.Proofs.Syntax.Rows
import LineBasic.Proofs.Syntax.Spelling
import LineBasic.Proofs.Syntax.Starts
import LineBasic.Proofs.Syntax.Tree
import LineBasic.Proofs.Syntax.Unique
import LineBasic.Proofs.Syntax.Words
import LineBasic.Proofs.Text.EditDistance
import LineBasic.Proofs.Text.Setting
import LineBasic.Proofs.Text.Utf8
import LineBasic.Proofs.Token.Acts
import LineBasic.Proofs.Token.Defect
import LineBasic.Proofs.Token.Lexeme
import LineBasic.Proofs.Token.Lossless
import LineBasic.Proofs.Token.Order
import LineBasic.Proofs.Token.Placed
import LineBasic.Proofs.Token.Printed
import LineBasic.Proofs.Token.Returns
import LineBasic.Proofs.Token.Spelling
import LineBasic.Proofs.Translation.Count
import LineBasic.Proofs.Translation.Expression
import LineBasic.Proofs.Translation.Figures
import LineBasic.Proofs.Translation.Foreign
import LineBasic.Proofs.Translation.Injective
import LineBasic.Proofs.Translation.LineEnds
import LineBasic.Proofs.Translation.Names
import LineBasic.Proofs.Translation.Options
import LineBasic.Proofs.Translation.Program
import LineBasic.Proofs.Translation.ReadBack
import LineBasic.Proofs.Translation.Statement
import LineBasic.Proofs.Translation.Strings
import LineBasic.Source.Cursor
import LineBasic.Source.Location
import LineBasic.Text.Blank
import LineBasic.Text.Casing
import LineBasic.Text.CodeRanges
import LineBasic.Text.ControlSequence
import LineBasic.Text.Digit
import LineBasic.Text.EditDistance
import LineBasic.Text.Hex
import LineBasic.Text.Integer
import LineBasic.Text.Lines
import LineBasic.Text.Lower
import LineBasic.Text.Printable
import LineBasic.Text.Quoted
import LineBasic.Text.Resemblance
import LineBasic.Text.Utf8
import LineBasic.Token.Basic
import LineBasic.Token.Kind
import LineBasic.Token.Lexeme
import LineBasic.Token.Scanner
import LineBasic.Proofs.Names.Similar
import LineBasic.Proofs.Command.Listing
import LineBasic.Proofs.C.Constant
import LineBasic.Proofs.Arithmetic.Number

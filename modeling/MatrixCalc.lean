import MatrixCalc.Builtin
import MatrixCalc.Command
import MatrixCalc.Display
import MatrixCalc.Entry
import MatrixCalc.Evaluation
import MatrixCalc.Fraction.Basic
import MatrixCalc.Fraction.Mixed
import MatrixCalc.Fraction.Text
import MatrixCalc.Grid.Basic
import MatrixCalc.Grid.Echelon
import MatrixCalc.Grid.RowOperation
import MatrixCalc.Kind
import MatrixCalc.Main
import MatrixCalc.Numeral
import MatrixCalc.Proofs.Agreement
import MatrixCalc.Proofs.Display
import MatrixCalc.Proofs.Echelon.Basic
import MatrixCalc.Proofs.Echelon.RowEquivalence
import MatrixCalc.Proofs.Echelon.Unique
import MatrixCalc.Proofs.Entry.Basic
import MatrixCalc.Proofs.Entry.Display
import MatrixCalc.Proofs.Entry.Prompts
import MatrixCalc.Proofs.Entry.Refused
import MatrixCalc.Proofs.Evaluation.Assignment
import MatrixCalc.Proofs.Evaluation.Basic
import MatrixCalc.Proofs.Evaluation.Congruence
import MatrixCalc.Proofs.Evaluation.ErrorSurface
import MatrixCalc.Proofs.Evaluation.Failures
import MatrixCalc.Proofs.Evaluation.Invariant
import MatrixCalc.Proofs.Evaluation.Keeps
import MatrixCalc.Proofs.Evaluation.KindSoundness
import MatrixCalc.Proofs.Evaluation.LastResults
import MatrixCalc.Proofs.Evaluation.Line
import MatrixCalc.Proofs.Evaluation.LineEffect
import MatrixCalc.Proofs.Evaluation.Noninterference
import MatrixCalc.Proofs.Evaluation.Representation
import MatrixCalc.Proofs.Evaluation.Requests
import MatrixCalc.Proofs.Evaluation.Runs
import MatrixCalc.Proofs.Evaluation.Signs
import MatrixCalc.Proofs.Evaluation.Simulation
import MatrixCalc.Proofs.Evaluation.StoreEffect
import MatrixCalc.Proofs.Evaluation.Variables
import MatrixCalc.Proofs.Failure
import MatrixCalc.Proofs.Fraction.Text
import MatrixCalc.Proofs.Fraction.Value
import MatrixCalc.Proofs.Grid.Clearing
import MatrixCalc.Proofs.Grid.Congruence
import MatrixCalc.Proofs.Grid.EchelonForm
import MatrixCalc.Proofs.Grid.Elimination
import MatrixCalc.Proofs.Grid.Inverse
import MatrixCalc.Proofs.Grid.Pivots
import MatrixCalc.Proofs.Grid.Value
import MatrixCalc.Proofs.History
import MatrixCalc.Proofs.Numeral
import MatrixCalc.Proofs.Opposed
import MatrixCalc.Proofs.RatMatrix.Alignment
import MatrixCalc.Proofs.RatMatrix.Box
import MatrixCalc.Proofs.RatMatrix.Columns
import MatrixCalc.Proofs.RatMatrix.Congruence
import MatrixCalc.Proofs.RatMatrix.EchelonForm
import MatrixCalc.Proofs.RatMatrix.InPlace
import MatrixCalc.Proofs.RatMatrix.Inverse
import MatrixCalc.Proofs.RatMatrix.RowEquivalence
import MatrixCalc.Proofs.RatMatrix.Rows
import MatrixCalc.Proofs.Rendering
import MatrixCalc.Proofs.Session.DigitLimit
import MatrixCalc.Proofs.Session.History
import MatrixCalc.Proofs.Session.Line
import MatrixCalc.Proofs.SlotName
import MatrixCalc.Proofs.Slots
import MatrixCalc.Proofs.Syntax.Cursor
import MatrixCalc.Proofs.Syntax.Ending
import MatrixCalc.Proofs.Syntax.Expectation
import MatrixCalc.Proofs.Syntax.Following
import MatrixCalc.Proofs.Syntax.Grammar
import MatrixCalc.Proofs.Syntax.Kinds
import MatrixCalc.Proofs.Syntax.Parser
import MatrixCalc.Proofs.Syntax.Progress
import MatrixCalc.Proofs.Syntax.Reading
import MatrixCalc.Proofs.Syntax.References
import MatrixCalc.Proofs.Syntax.Refusal
import MatrixCalc.Proofs.Syntax.RoundTrip
import MatrixCalc.Proofs.Syntax.Substitution
import MatrixCalc.Proofs.Syntax.Viable
import MatrixCalc.Proofs.Syntax.WellFormed
import MatrixCalc.Proofs.Text.Columns
import MatrixCalc.Proofs.Text.Fields
import MatrixCalc.Proofs.Text.Layout
import MatrixCalc.Proofs.Token.Lexeme
import MatrixCalc.Proofs.Token.Lossless
import MatrixCalc.Proofs.Token.Scan
import MatrixCalc.Proofs.Value
import MatrixCalc.RatMatrix.Access
import MatrixCalc.RatMatrix.Basic
import MatrixCalc.RatMatrix.Text
import MatrixCalc.Report
import MatrixCalc.Session
import MatrixCalc.Settings
import MatrixCalc.Slots
import MatrixCalc.Syntax.Basic
import MatrixCalc.Syntax.Parse
import MatrixCalc.Syntax.Text
import MatrixCalc.Terminal
import MatrixCalc.Text.Blank
import MatrixCalc.Text.CharSet
import MatrixCalc.Text.Digit
import MatrixCalc.Text.Layout
import MatrixCalc.Text.Padding
import MatrixCalc.Text.Printable
import MatrixCalc.Text.Quoted
import MatrixCalc.Text.Width
import MatrixCalc.Token.Basic
import MatrixCalc.Token.Scan
import MatrixCalc.Value
import MatrixCalc.Proofs.Token.Layout
import MatrixCalc.Proofs.Syntax.Layout
import MatrixCalc.Proofs.Fraction.Format
import MatrixCalc.Proofs.RatMatrix.Algebra

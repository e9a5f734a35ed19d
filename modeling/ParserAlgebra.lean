import ParserAlgebra.Demonstration
import ParserAlgebra.Main
import ParserAlgebra.Proofs.FailureContract
import ParserAlgebra.Proofs.PositionIndependence
import ParserAlgebra.Session.Run
import ParserAlgebra.Proofs.Shift
import ParserAlgebra.Proofs.Reading
import ParserAlgebra.Proofs.Termination
import ParserAlgebra.Proofs.Lossless
import ParserAlgebra.Proofs.Tracking
import ParserAlgebra.Proofs.Greedy
import ParserAlgebra.Proofs.Lines
import ParserAlgebra.Proofs.FirstMatch
import ParserAlgebra.Proofs.LineWalk
import ParserAlgebra.Proofs.NumeralGrammar
import ParserAlgebra.Proofs.NumeralValue
import ParserAlgebra.Proofs.Observation
import ParserAlgebra.Proofs.Recording
import ParserAlgebra.Proofs.Climbing
import ParserAlgebra.Proofs.Removal
import ParserAlgebra.Proofs.Absorption
import ParserAlgebra.Proofs.LongestOperator
import ParserAlgebra.Proofs.BlankPlacement
import ParserAlgebra.Proofs.Caret
import ParserAlgebra.Proofs.LocaleGrammar
import ParserAlgebra.Proofs.Seams
import ParserAlgebra.Proofs.EndOfInput
import ParserAlgebra.Proofs.TokenKinds
import ParserAlgebra.Proofs.Rendering
import ParserAlgebra.Proofs.Bracketing
import ParserAlgebra.Proofs.FirstRegion
import ParserAlgebra.Proofs.Locating
import ParserAlgebra.Proofs.Composition
import ParserAlgebra.Proofs.Reports
import ParserAlgebra.Proofs.Attempts

import ApplicativeParsing.Proofs.Applicative
import ApplicativeParsing.Proofs.ControlFlow
import ApplicativeParsing.Proofs.Diagnostics
import ApplicativeParsing.Proofs.EvaluationOrder
import ApplicativeParsing.Proofs.Factoring
import ApplicativeParsing.Proofs.Lookahead
import ApplicativeParsing.Proofs.Progress
import ApplicativeParsing.Proofs.Renesting
import ApplicativeParsing.Proofs.Representation
import ApplicativeParsing.Proofs.Sessions
import ApplicativeParsing.Proofs.Unparsing
import ApplicativeParsing.Proofs.Wording
import ApplicativeParsing.Session.OutcomeScript

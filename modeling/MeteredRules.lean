import MeteredRules.Host.Stock
import MeteredRules.Main
import MeteredRules.Proofs.Builtin.Division
import MeteredRules.Proofs.Concatenation
import MeteredRules.Proofs.Evaluation.Decision
import MeteredRules.Proofs.Evaluation.Failure
import MeteredRules.Proofs.Evaluation.Fallback
import MeteredRules.Proofs.Evaluation.Formula
import MeteredRules.Proofs.Evaluation.Replacement
import MeteredRules.Proofs.Evaluation.Timeless
import MeteredRules.Proofs.Evaluation.Trail
import MeteredRules.Proofs.Json.Exchange
import MeteredRules.Proofs.Program
import MeteredRules.Proofs.Reader.Position
import MeteredRules.Proofs.Session
import MeteredRules.Proofs.Session.Readings
import MeteredRules.Proofs.Binary64.Order
import MeteredRules.Proofs.Builtin.Order
import MeteredRules.Proofs.Builtin.Chain
import MeteredRules.Proofs.Builtin.Extreme
import MeteredRules.Proofs.Builtin.Equality
import MeteredRules.Proofs.Builtin.Reordering
import MeteredRules.Proofs.Decimal.Numeral
import MeteredRules.Proofs.Builtin.Conversion
import MeteredRules.Proofs.Evaluation.Time
import MeteredRules.Proofs.Builtin.Duration
import MeteredRules.Proofs.Builtin.Operands
import MeteredRules.Proofs.Environment
import MeteredRules.Proofs.Builtin.Application
import MeteredRules.Proofs.Reader.Descent

import Reckoner.Main
import Reckoner.Proofs.Chains
import Reckoner.Proofs.Composition
import Reckoner.Proofs.Evaluation.Division
import Reckoner.Proofs.Evaluation.Exactness
import Reckoner.Proofs.Evaluation.Faults
import Reckoner.Proofs.Expression.Calls
import Reckoner.Proofs.Expression.Drawn
import Reckoner.Proofs.Expression.Levels
import Reckoner.Proofs.Expression.Limit
import Reckoner.Proofs.Expression.Lossless
import Reckoner.Proofs.Expression.Missing
import Reckoner.Proofs.Expression.Notes
import Reckoner.Proofs.Expression.TooDeep
import Reckoner.Proofs.ReadBack
import Reckoner.Proofs.Session
import Reckoner.Proofs.Spacing
import Reckoner.Proofs.Stages
import Reckoner.Proofs.Strays
import Reckoner.Proofs.Token.Listing
import Reckoner.Proofs.Token.Numbers
import Reckoner.Proofs.Token.Requests
import Reckoner.Proofs.Token.Segmentation
import Reckoner.Proofs.Typing.Decision
import Reckoner.Proofs.Typing.Operators
import Reckoner.Proofs.Typing.Placeholder
import Reckoner.Proofs.Typing.ShortCircuit

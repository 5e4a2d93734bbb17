import Delegation.Config.Settings
import Delegation.Covenant.Chain
import Delegation.Decision.RateWindow
import Delegation.Json.Reader
import Delegation.Policy.Merge
import Delegation.Proofs.Covenant.Chain
import Delegation.Proofs.Covenant.Inheritance
import Delegation.Proofs.Covenant.Instant
import Delegation.Proofs.Covenant.Layout
import Delegation.Proofs.Covenant.Rates
import Delegation.Proofs.Covenant.Signature
import Delegation.Proofs.Decision.Comparability
import Delegation.Proofs.Decision.Governing
import Delegation.Proofs.Decision.Interleaving
import Delegation.Proofs.Decision.Matches
import Delegation.Proofs.Decision.Relevance
import Delegation.Proofs.Decision.Shadowing
import Delegation.Proofs.Decision.Usage
import Delegation.Proofs.Decision.Window
import Delegation.Proofs.Pattern.Completeness
import Delegation.Proofs.Pattern.Identifiers
import Delegation.Proofs.Policy.DoubleStars
import Delegation.Proofs.Policy.Effective
import Delegation.Proofs.Policy.ExactCopy
import Delegation.Proofs.Policy.Grants
import Delegation.Proofs.Policy.Interchange
import Delegation.Proofs.Policy.Obligation
import Delegation.Proofs.Policy.Restating
import Delegation.Proofs.Source.Acceptance
import Delegation.Proofs.Source.ActionText
import Delegation.Proofs.Source.Failure
import Delegation.Proofs.Source.LimitTexts
import Delegation.Proofs.Source.LineLexing
import Delegation.Proofs.Source.Lines
import Delegation.Proofs.Source.Placement
import Delegation.Proofs.Source.Refusal
import Delegation.Proofs.Source.Reparsing
import Delegation.Proofs.Source.Tightening
import Delegation.Proofs.Source.WellFormed

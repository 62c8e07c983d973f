import RiskGraph.Main
import RiskGraph.Proofs.Alias
import RiskGraph.Proofs.Amount
import RiskGraph.Proofs.Bridge
import RiskGraph.Proofs.CycleSearch
import RiskGraph.Proofs.Exactness
import RiskGraph.Proofs.Explanation
import RiskGraph.Proofs.Expression
import RiskGraph.Proofs.Frame
import RiskGraph.Proofs.IntegerText
import RiskGraph.Proofs.Interruption
import RiskGraph.Proofs.Itemwise
import RiskGraph.Proofs.Membership
import RiskGraph.Proofs.Mention
import RiskGraph.Proofs.MomentFormat
import RiskGraph.Proofs.Preparation
import RiskGraph.Proofs.Reach
import RiskGraph.Proofs.Readability
import RiskGraph.Proofs.Rejection
import RiskGraph.Proofs.Reporting
import RiskGraph.Proofs.Scoring
import RiskGraph.Proofs.Strictness
import RiskGraph.Proofs.TextKind
import RiskGraph.Proofs.Trial

import PgRoles.Core.RevokeExactness
import PgRoles.Semantics.OwnerTransfer
import PgRoles.Semantics.Additive
import PgRoles.Semantics.WildcardConvergence
import PgRoles.Operator.PromotionRecord
import PgRoles.Operator.Authority
import PgRoles.Core.CompositionOrder
import PgRoles.Core.Drawing
import PgRoles.Core.VisualText
import PgRoles.Operator.OverlayOverlap
import PgRoles.Operator.ClaimCoverage
import PgRoles.Operator.Recovery
import PgRoles.Cli.PasswordIntent
import PgRoles.Cli.CandidateFiling
import PgRoles.Inspect.DropSafety
import PgRoles.Core.DeclaredRules
import PgRoles.Core.PreservedGrants
import PgRoles.Inspect.WildcardAccess
import PgRoles.Sql.Injection
import PgRoles.Operator.RequestIndex
import PgRoles.Explorer.ReviewSecrecy
import PgRoles.Explorer.BrowserFold
import PgRoles.Explorer.ReviewFingerprint
import PgRoles.Operator.Retention
import PgRoles.Operator.PlanReplacement
import PgRoles.Operator.RequestSafety
import PgRoles.Operator.ConnectionTarget
import PgRoles.Semantics.ExportRoundTrip
import PgRoles.Core.SuggestRoundTrip
import PgRoles.Inspect.SharedInspection

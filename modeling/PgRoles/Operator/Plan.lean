import PgRoles.Core.Approval

/-!
# Plans of the operator

A plan object records the effects it was computed with (by digest), its lifecycle phase and the
decision a reviewer recorded on it. This module has the pure decisions the operator takes on
plans: what a decision reads as, whether a plan still holds the current effects, which existing
plan is reused and which ones are retired.

Timestamps are seconds; SQL artifacts, messages about sizes and retention are left out.
-/

set_option autoImplicit false

namespace PgRoles.Operator

open PgRoles.Core PgRoles.Lib

/-! ## Plan objects -/

/-- Phase of a plan. -/
inductive PlanPhase where
  | pending
  | approved
  | applying
  | applied
  | failed
  | superseded
  | rejected
  deriving DecidableEq, Repr

/-- The condition types that decisions are read from, the ones the operator adds, and any other. -/
inductive ConditionType where
  | computed
  | approved
  | denied
  | superseded
  | other (name : String)
  deriving DecidableEq, Repr

/-- A condition; `status` is whether it is `True`. -/
structure PolicyCondition where
  conditionType : ConditionType
  status : Bool
  reason : String
  deriving DecidableEq, Repr

/-- Status of a plan. -/
structure PlanStatus where
  phase : PlanPhase := .pending
  conditions : List PolicyCondition := []
  /-- The identity that recorded the decision. -/
  decidedBy : Option String := none
  changeDigest : Option String := none
  changeDigestEncoding : Option String := none
  passwordSourceDigest : Option String := none
  targetIdentity : TargetIdentity := {}
  /-- The physical identity could be read when the plan was computed; older plans have no record. -/
  physicalIdentityAvailable : Option Bool := none
  applyingSince : Option Nat := none
  appliedAt : Option Nat := none
  failedAt : Option Nat := none
  deriving DecidableEq, Repr

/-- The object that owns a plan. -/
inductive PlanOwner where
  | policy
  | candidate (uid : String)
  deriving DecidableEq, Repr

/-- The binding of a candidate-origin plan. -/
structure PlanOrigin where
  name : String
  uid : String
  contentDigest : String
  /-- The policy content the plan was computed against; older plans have none. -/
  baseContentDigest : Option String
  deriving DecidableEq, Repr

/-- A plan object. -/
structure Plan where
  name : String
  owner : PlanOwner
  origin : Option PlanOrigin
  reconciliationMode : ReconciliationMode
  creationTimestamp : Nat
  status : Option PlanStatus
  deriving DecidableEq, Repr

/-- The phase, where the status has been written. -/
def Plan.phase? (plan : Plan) : Option PlanPhase := plan.status.map (·.phase)

/-- The base pin a candidate-origin plan records. -/
def planBasePin (plan : Plan) : Option String :=
  plan.origin.bind (·.baseContentDigest)

/-! ## Decisions -/

/-- Result of reading the decision recorded on a plan. -/
inductive PlanApprovalState where
  | pending
  | approved
  | rejected
  deriving DecidableEq, Repr

/-- Identity recorded as the decider when the operator approves its own plan. -/
def autoApprovalActor : String := "system:pgroles-operator(auto-approval)"

/-- A condition of the type is true. -/
def PlanStatus.decided (status : PlanStatus) (t : ConditionType) : Bool :=
  status.conditions.any fun c => c.conditionType == t && c.status

/-- A reviewer recorded a denial. -/
def isDenied (status : PlanStatus) : Bool := status.decided .denied

/-- Read the decision recorded on a plan; a denial wins. -/
def checkPlanApproval (plan : Plan) : PlanApprovalState :=
  match plan.status with
  | none => .pending
  | some status =>
      if status.decided .denied then .rejected
      else if status.decided .approved then .approved
      else .pending

/-- A terminal decision is recorded. -/
def hasTerminalDecision (status : PlanStatus) : Bool :=
  status.conditions.any fun c =>
    (c.conditionType == .approved || c.conditionType == .denied) && c.status

/-- The stored status carries the digest under the current encoding. -/
def planMatchesDigest (status : PlanStatus) (changeDigest : String) : Bool :=
  status.changeDigestEncoding == some approvalEffectEncodingV3 &&
    status.changeDigest == some changeDigest

/-- What to do with an approved plan that has not executed. -/
inductive ApprovedPlanDecision where
  | execute
  | replace
  | clear
  deriving DecidableEq, Repr

/-- The fate of an approved plan against the effects the policy would produce now. -/
def decideApprovedPlan (planStatus : Option PlanStatus) (freshDigest : String)
    (hasChanges : Bool) : ApprovedPlanDecision :=
  if planStatus.any (planMatchesDigest · freshDigest) then .execute
  else if hasChanges then .replace
  else .clear

/-- What to do with a plan that awaits a manual decision. -/
inductive PendingPlanDecision where
  | retain
  | replace
  | clear
  deriving DecidableEq, Repr

/-- The fate of a pending plan against the effects the policy would produce now. -/
def decidePendingPlan (planStatus : Option PlanStatus) (freshDigest : String)
    (hasChanges : Bool) : PendingPlanDecision :=
  if !hasChanges then .clear
  else if planStatus.any (planMatchesDigest · freshDigest) then .retain
  else .replace

/-! ## Status writes -/

/-- Replace every condition of the type by one. -/
def setPlanCondition (conditions : List PolicyCondition) (condition : PolicyCondition) :
    List PolicyCondition :=
  conditions.filter (·.conditionType ≠ condition.conditionType) ++ [condition]

/-- Why a plan is being retired. -/
inductive SupersedeCause where
  | effectsChanged
  | passwordSourceChanged
  | effectsCleared
  | replacedByNewerPlan
  | duplicateOfActionablePlan
  | targetChanged (reason : TargetIdentityReason)
  | policyStoppedPlanning
  | supersededByPromotion
  | baseContentChanged
  deriving DecidableEq, Repr

/-- The reason that a superseded plan's condition gives. -/
def SupersedeCause.reason : SupersedeCause → String
  | .targetChanged reason => reason.asStr
  | .passwordSourceChanged => "PasswordSourceChanged"
  | .supersededByPromotion => "SupersededByPromotion"
  | .baseContentChanged => "SupersededByBaseChange"
  | _ => "Superseded"

/-- A supersede voids the plan by its phase. A recorded decision is left as it is; an undecided
plan gets the cause on its `Approved` condition too. -/
def supersededStatus (status : PlanStatus) (cause : SupersedeCause) : PlanStatus :=
  let conditions := setPlanCondition status.conditions ⟨.superseded, true, cause.reason⟩
  { status with
    phase := .superseded
    conditions :=
      if hasTerminalDecision status then conditions
      else setPlanCondition conditions ⟨.approved, false, cause.reason⟩ }

/-- The status `mark_plan_approved` writes: over a recorded decision only the phase advances,
otherwise the operator itself is the decider. A denied plan is refused. -/
def approvedStatus (status : PlanStatus) (reason : String) : Option PlanStatus :=
  if isDenied status then none
  else if hasTerminalDecision status then some { status with phase := .approved }
  else
    some { status with
      phase := .approved
      conditions := setPlanCondition status.conditions ⟨.approved, true, reason⟩
      decidedBy := status.decidedBy.or (some autoApprovalActor) }

/-- The status after the plan's SQL committed. -/
def appliedStatus (status : PlanStatus) (now : Nat) : PlanStatus :=
  { status with
    phase := .applied
    appliedAt := some now
    conditions := setPlanCondition status.conditions ⟨.approved, true, "Approved"⟩ }

/-- The status after the plan's SQL failed. -/
def failedStatus (status : PlanStatus) (now : Nat) : PlanStatus :=
  { status with phase := .failed, failedAt := some now }

/-! ## Reuse and retirement -/

/-- Pending and approved plans can still authorise something. -/
def PlanPhase.actionable : PlanPhase → Bool
  | .pending | .approved => true
  | _ => false

/-- Pending plans are always retired by a replacement, approved ones when their effects differ. -/
def supersedesAfterCreate (status : PlanStatus) (newDigest : String) : Bool :=
  match status.phase with
  | .pending => true
  | .approved => !planMatchesDigest status newDigest
  | _ => false

/-- Which existing plans a reconcile may adopt instead of creating one. -/
inductive PlanReuse where
  | pendingOnly
  | autoApproval
  deriving DecidableEq, Repr

/-- May a plan in this phase be used again? -/
def PlanReuse.allows : PlanReuse → PlanPhase → Bool
  | .pendingOnly, phase => phase == .pending
  | .autoApproval, phase => phase.actionable

/-- The plan is reusable for the digest against the base. -/
def isReusable (changeDigest : String) (expectedBase : Option String) (reuse : PlanReuse)
    (plan : Plan) : Bool :=
  plan.status.any (fun status => reuse.allows status.phase && !isDenied status &&
    planMatchesDigest status changeDigest) &&
  expectedBase.all fun base => planBasePin plan == some base

/-- Preference among reusable plans: approved, then newest, then by name. -/
def reuseRank (plan : Plan) : Nat × Nat × String :=
  ((plan.phase? == some .approved).toNat, plan.creationTimestamp, plan.name)

/-- The better of the best plan so far and the next; of equals the later. -/
def betterPlan (best : Option Plan) (plan : Plan) : Option Plan :=
  match best with
  | none => some plan
  | some b => if (compare (reuseRank b) (reuseRank plan)).isLE then some plan else some b

/-- The last of the greatest, as the source's maximum takes it. -/
def maxByRank (plans : List Plan) : Option Plan := plans.foldl betterPlan none

/-- The actionable plan that already holds the digest, if any. -/
def reusablePlan (plans : List Plan) (changeDigest : String) (expectedBase : Option String)
    (reuse : PlanReuse) : Option Plan :=
  maxByRank (plans.filter (isReusable changeDigest expectedBase reuse))

/-- Why a plan is retired now that the kept plan holds the new digest, if it is. -/
def supersedeCause (plan : Plan) (status : PlanStatus) (keptPlanName newDigest : String)
    (expectedBase : Option String) (passwordSourceDigest : String) (reuse : PlanReuse) :
    Option SupersedeCause :=
  if plan.name == keptPlanName then none
  else if status.phase.actionable && expectedBase.any (fun base => planBasePin plan != some base)
  then some .baseContentChanged
  else if reuse == .autoApproval && status.phase.actionable && planMatchesDigest status newDigest
  then some .duplicateOfActionablePlan
  else if !supersedesAfterCreate status newDigest then none
  else if status.passwordSourceDigest.any (· != passwordSourceDigest)
  then some .passwordSourceChanged
  else some .replacedByNewerPlan

/-- Seconds a failed plan blocks another with the same effects. -/
def failedPlanDedupWindowSecs : Nat := 120

/-- Seconds an applied plan with the same effects counts as not converging. -/
def appliedPlanNonconvergentWindowSecs : Nat := 120

/-- A plan with these effects failed inside the window. -/
def failedRecently (changeDigest : String) (now : Nat) (plan : Plan) : Bool :=
  plan.status.any fun status =>
    status.phase == .failed && planMatchesDigest status changeDigest &&
      (let failed := status.failedAt.getD 0
       decide (0 < failed) && decide (now < failed + failedPlanDedupWindowSecs))

/-- A plan with these effects applied inside the window, and the effects are still there. -/
def appliedRecentlyWithoutConverging (changeDigest : String) (now : Nat) (plan : Plan) : Bool :=
  plan.status.any fun status =>
    planMatchesDigest status changeDigest && status.phase == .applied &&
      (let applied := status.appliedAt.getD 0
       decide (0 < applied) && decide (applied ≤ now) &&
        decide (now < applied + appliedPlanNonconvergentWindowSecs))

/-- The plan is inside the retry back-off of a failure it recorded. -/
def retryDeferredUntilWindowExpires (plan : Plan) (now : Nat) : Bool :=
  plan.status.any fun status =>
    let failed := status.failedAt.getD 0
    let applied := status.appliedAt.getD 0
    decide (0 < failed) && decide (failed ≤ now) &&
      decide (now < failed + failedPlanDedupWindowSecs) && decide (applied ≤ failed)

end PgRoles.Operator

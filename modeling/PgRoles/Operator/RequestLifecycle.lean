import PgRoles.Operator.RequestResolution

/-!
# Reconciling an access request

A reconcile reads the request, the policies, the plans and the database, and writes: a scoped plan,
the plan's phases around one transaction, and at most one new status. It is modelled as the list of
its writes in their order; a crash leaves the writes made before it. Errors end the list, and an
error about the request itself is reported in the status.

The only SQL is the grant and the revocation of the memberships of the resolved bundle.
-/

set_option autoImplicit false

namespace PgRoles.Operator

open Std PgRoles.Core PgRoles.Lib PgRoles.Sql

/-! ## Plans and writes -/

/-- A plan of the namespace, with the fields a request's own plan is recognised by. -/
structure StoredPlan extends ScopedPlan where
  name : String
  originName : Option String
  scopeKind : Option String
  policyRef : String
  managedDatabaseIdentity : String
  /-- The label plans are listed by. -/
  policyLabel : String
  deriving DecidableEq, Repr

/-- What the reconciliation of a request writes. -/
inductive RequestWrite where
  | createPlan (plan : StoredPlan)
  | planPhase (name : String) (phase : PlanPhase)
  /-- The transaction commits. -/
  | execute (operation : ScopedPlanOperation) (changes : List Change)
  | patchStatus (status : RequestStatus)
  deriving DecidableEq

/-- The writes of a step and how it ended. -/
structure Outcome (α : Type) where
  writes : List RequestWrite := []
  result : Except EphemeralError α

/-- What is read to change the memberships of a bundle. -/
structure ExecutionReads where
  policies : ResolutionReads
  databaseIdentity : TargetPolicy → String
  /-- The pool is there and both locks are acquired. -/
  locked : Except EphemeralError Unit
  /-- The index's answer for the target policy. -/
  requests : Except EphemeralError (List EphemeralAccessRequest)
  calls : ComposeCalls
  current : Except EphemeralError RoleGraph
  sqlContext : Except EphemeralError SqlContext
  /-- Nothing, if the transaction commits. -/
  failure : Option String := none

/-- What one reconcile reads, at the times it reads the clock. -/
structure RequestPass where
  resolution : ResolutionReads
  execution : ExecutionReads
  resolveNow : Nat
  checkNow : Nat
  activateNow : Nat
  /-- The present as the status shows it. -/
  now : String

section Reconcile

variable (sha256 : ByteArray → String) (times : Timestamps) (request : AccessRequest)

/-- The request as other reconciles see it. -/
def AccessRequest.object : EphemeralAccessRequest where
  name := request.name
  ns := request.ns
  uid := request.uid
  resourceVersion := none
  accessPolicyRef := request.accessPolicyRef
  status := none

/-- A plan shows that the activation of this bundle was begun for this request. -/
def activationBegun (plans : List StoredPlan) (resolved : ResolvedAccess) : Bool :=
  plans.any fun plan => planAuthorizesActivation plan.toScopedPlan request.object
    resolved.toResolvedEphemeralAccess true

/-! ## The changes -/

/-- The pairs that other applying or active requests of the target own. -/
def activeOwnerKeys (inputs : ComposeInputs) (plans : List ScopedPlan)
    (requests : List EphemeralAccessRequest) : List (String × String) :=
  (requests.filter fun other => other.uid != some (request.uid.getD "")).flatMap fun other =>
    (composedAccess inputs plans other).toList.flatMap fun resolved =>
      resolved.memberships.map ResolvedEphemeralMembership.key

/-- The edge of a pair that was inspected. -/
def inspectedEdge (current : RoleGraph) (key : String × String) : Option MembershipEdge :=
  current.memberships.toList.reverse.find? fun edge => edge.pair == key

section Changes

variable (current durable : RoleGraph) (otherOwners : List (String × String))

/-- The grant of one membership, unless the edge is there and is the request's or another's. -/
def activateMembership (begun : Bool) (membership : ResolvedEphemeralMembership) :
    Except EphemeralError (Option Change) := do
  rejectIf (!current.roles.contains membership.role || !current.roles.contains membership.member) <|
    .invalid <| "membership roles " ++ membership.member ++ " and " ++ membership.role ++
      " must already exist in PostgreSQL"
  rejectIf (isDurable durable membership.key) <| .invalid <| "membership " ++ membership.member ++
    " -> " ++ membership.role ++ " is already durable"
  match inspectedEdge current membership.key with
  | some existing =>
      if (otherOwners.contains membership.key || begun) &&
          existing.inherit == membership.inherit && !existing.admin then return none
      else .error <| .invalid <| "membership " ++ membership.member ++ " -> " ++ membership.role ++
        " already exists without matching ephemeral ownership"
  | none => return some (.addMember membership.role membership.member membership.inherit false)

/-- The revocation of one membership, unless it is durable, another's or not there. -/
def revokeMembership (membership : ResolvedEphemeralMembership) : Option Change :=
  if isDurable durable membership.key || otherOwners.contains membership.key then none
  else if (inspectedEdge current membership.key).isSome then
    some (.removeMember membership.role membership.member none)
  else none

/-- The changes and the memberships that stay because the policy declares them itself. -/
def scopedChanges (operation : ScopedPlanOperation) (begun : Bool) (resolved : ResolvedAccess) :
    Except EphemeralError (List Change × List ResolvedEphemeralMembership) :=
  match operation with
  | .activate => do
      let changes ← resolved.memberships.mapM
        (activateMembership current durable otherOwners begun)
      return (changes.flatMap Option.toList, [])
  | .revoke =>
      .ok (resolved.memberships.filterMap (revokeMembership current durable otherOwners),
        resolved.memberships.filter fun membership => isDurable durable membership.key)

end Changes

/-- The pair a change is about. -/
def scopedChangeKey : Change → Option (String × String)
  | .addMember role member _ _ => some (role, member)
  | .removeMember role member _ => some (role, member)
  | _ => none

/-- Every change is of a membership of the bundle. -/
def checkScope (changes : List Change) (resolved : ResolvedAccess) : Except EphemeralError Unit :=
  changes.forM fun change =>
    match scopedChangeKey change with
    | none => .error (.invalid "scoped plan contained a non-membership change")
    | some key =>
        rejectIf (!(resolved.memberships.map ResolvedEphemeralMembership.key).contains key)
          (.invalid "scoped plan escaped the approved bundle")

/-- Before version 16 a membership inherits as its member does. -/
def validateMembershipSemantics (sqlContext : SqlContext) (current : RoleGraph)
    (resolved : ResolvedAccess) : Except EphemeralError Unit :=
  if sqlContext.supportsGrantWithOptions then .ok ()
  else resolved.memberships.forM fun membership =>
    match current.roles[membership.member]? with
    | none => .error <| .invalid <| "subject role " ++ membership.member ++
        " is not present in PostgreSQL"
    | some subject =>
        rejectIf (subject.inherit != membership.inherit) <| .invalid <| "PostgreSQL " ++
          toString sqlContext.pgMajorVersion ++ " cannot encode per-membership INHERIT " ++
          toString membership.inherit ++ "; subject role " ++ membership.member ++
          " has global INHERIT " ++ toString subject.inherit

/-! ## The plan -/

/-- The request controls the plan. -/
def ScopedPlan.controlledBy (plan : ScopedPlan) : Bool :=
  (plan.ownerReferences.getD []).any fun owner =>
    owner.controller == some true && owner.kind == ephemeralAccessRequestKind &&
      owner.uid == request.uid.getD ""

/-- The kind of scope of a request's plans. -/
def membershipBundleKind : String := "MembershipBundle"

/-- The plan of an operation, before its status is written. -/
def newScopedPlan (name databaseIdentity : String) (target : TargetPolicy)
    (resolved : ResolvedAccess) (operation : ScopedPlanOperation) : StoredPlan where
  name := name
  ownerReferences := request.uid.map fun uid => [⟨ephemeralAccessRequestKind, uid, some true⟩]
  origin := some ⟨ephemeralAccessRequestKind, request.uid.getD ""⟩
  originName := some request.name
  scope := some ⟨operation, resolved.bundleHash⟩
  scopeKind := some membershipBundleKind
  phase := none
  policyRef := target.name
  managedDatabaseIdentity := databaseIdentity
  policyLabel := LabelValue.sanitize target.name

/-- A plan of that name is this request's, for this operation. -/
def validateExistingScopedPlan (plan : StoredPlan) (targetName databaseIdentity : String)
    (resolved : ResolvedAccess) (operation : ScopedPlanOperation) : Except EphemeralError Unit :=
  let originMatches := plan.origin.any (fun origin => origin.kind == ephemeralAccessRequestKind &&
    origin.uid == request.uid.getD "") && plan.originName == some request.name
  let scopeMatches := plan.scope.any (fun scope => scope.operation == operation &&
    scope.bundleHash == resolved.bundleHash) && plan.scopeKind == some membershipBundleKind
  rejectIf (!plan.toScopedPlan.controlledBy request || !originMatches || !scopeMatches ||
      plan.policyRef != targetName || plan.managedDatabaseIdentity != databaseIdentity) <|
    .invalid <| "existing scoped plan " ++ plan.name ++ " does not belong to request UID " ++
      request.uid.getD "" ++ " and its resolved scope"

/-- The plan that is there under the name of an operation's plan. -/
def existingScopedPlan (plans : List StoredPlan) (name databaseIdentity : String)
    (target : TargetPolicy) (resolved : ResolvedAccess) (operation : ScopedPlanOperation) :
    Except EphemeralError (Option StoredPlan) :=
  match plans.find? fun existing => existing.name == name with
  | some existing => do
      validateExistingScopedPlan request existing target.name databaseIdentity resolved operation
      return some existing
  | none => .ok none

/-! ## One operation -/

/-- Everything that is decided before the first write. -/
structure ScopedExecution where
  changes : List Change
  retained : List ResolvedEphemeralMembership
  existing : Option StoredPlan
  plan : StoredPlan

section Apply

variable (reads : ExecutionReads) (plans : List StoredPlan) (resolved : ResolvedAccess)
  (operation : ScopedPlanOperation)

/-- The target policy, if both policies and the database are the ones that were resolved. -/
def resolvedTarget : Except EphemeralError TargetPolicy := do
  rejectIf request.ns.isNone (.invalid "resource has no namespace")
  let policy ← reads.policies.accessPolicy request.accessPolicyRef
  rejectIf (policy.uid != some resolved.accessPolicyUid)
    (.invalid "access policy UID no longer matches resolved access")
  let target ← reads.policies.target policy.postgresPolicyRef
  rejectIf (target.uid != some resolved.targetPolicyUid)
    (.invalid "target policy UID no longer matches resolved access")
  let fingerprint ← reads.policies.fingerprint target
  rejectIf (fingerprint != resolved.targetDatabaseFingerprint) <| .invalid <|
    "target database changed after request resolution; restore the original host, port, and " ++
      "database before activation or revocation"
  return target

/-- The graph the target policy declares, with the memberships of all running requests laid over
it. Only the declared graph is used further; the overlay has to compose. -/
def composedTarget (target : TargetPolicy) (requests : List EphemeralAccessRequest) :
    Except EphemeralError RoleGraph := do
  let manifest := target.content.toPolicyManifest
  let expanded ← (expandManifest manifest).mapError fun _ =>
    .other "the manifest of the target policy is not valid"
  let durable ← (RoleGraph.fromExpanded expanded manifest.defaultOwner).mapError fun _ =>
    .other "the manifest of the target policy is not valid"
  let inputs : ComposeInputs :=
    ⟨sha256, reads.calls, target.uid, resolved.targetDatabaseFingerprint⟩
  let listed := plans.filter fun plan => plan.policyLabel == LabelValue.sanitize target.name
  let _ ← (composeEffectiveGraph inputs durable requests (listed.map (·.toScopedPlan))).1.mapError
    fun _ => .other "the effective graph cannot be composed"
  return durable

/-- What is executed, and under which plan. -/
def prepareScoped : Except EphemeralError ScopedExecution := do
  rejectIf (!resolved.hasValidBundleHash sha256)
    (.invalid "resolved bundle hash does not match its canonical payload")
  rejectIf (operation == .revoke && !activationBegun request plans resolved)
    (.invalid "refusing scoped revocation without a matching request-owned activation plan")
  let target ← resolvedTarget request reads resolved
  reads.locked
  let requests ← reads.requests
  let durable ← composedTarget sha256 reads plans resolved target requests
  let current ← reads.current
  let inputs : ComposeInputs :=
    ⟨sha256, reads.calls, target.uid, resolved.targetDatabaseFingerprint⟩
  let listed := plans.filter fun plan => plan.policyLabel == LabelValue.sanitize target.name
  let otherOwners := activeOwnerKeys request inputs (listed.map (·.toScopedPlan)) requests
  let (changes, retained) ← scopedChanges current durable otherOwners operation
    (activationBegun request listed resolved) resolved
  checkScope changes resolved
  let sqlContext ← reads.sqlContext
  (if operation = .activate then validateMembershipSemantics sqlContext current resolved
    else .ok ())
  let name ← (scopedPlanName request.name request.uid resolved.bundleHash operation).mapError
    .invalid
  let _ ← (renderBatchWithContext changes sqlContext).mapError fun _ =>
    .other "the changes cannot be rendered"
  let identity := reads.databaseIdentity target
  let existing ← existingScopedPlan request plans name identity target resolved operation
  return ⟨changes, retained, existing,
    newScopedPlan request name identity target resolved operation⟩

/-- The plan is made, unless it is there. -/
def createScoped (execution : ScopedExecution) : List RequestWrite :=
  match execution.existing with
  | some _ => []
  | none => [.createPlan execution.plan, .planPhase execution.plan.name .applying]

/-- Write the plan, run the transaction and record how it ended. A plan that was applied before is
not executed again. -/
def executeScoped (operation : ScopedPlanOperation) (failure : Option String)
    (execution : ScopedExecution) : Outcome (List ResolvedEphemeralMembership) :=
  let created := createScoped execution
  if execution.existing.any fun plan => plan.phase == some .applied then
    ⟨created, .ok execution.retained⟩
  else
    match failure with
    | none => ⟨created ++ [.execute operation execution.changes,
        .planPhase execution.plan.name .applied], .ok execution.retained⟩
    | some message =>
        ⟨created ++ [.planPhase execution.plan.name .failed], .error (.other message)⟩

/-- Grant or revoke the memberships of the bundle; the memberships that stay are returned. -/
def applyScopedMemberships : Outcome (List ResolvedEphemeralMembership) :=
  match prepareScoped sha256 request reads plans resolved operation with
  | .error e => ⟨[], .error e⟩
  | .ok execution => executeScoped operation reads.failure execution

end Apply

/-! ## Statuses -/

/-- A phase as the status spells it. -/
def EphemeralAccessRequestPhase.name : EphemeralAccessRequestPhase → String
  | .pending => "Pending"
  | .pendingApproval => "PendingApproval"
  | .applying => "Applying"
  | .active => "Active"
  | .revoking => "Revoking"
  | .ended => "Ended"
  | .revoked => "Revoked"
  | .cancelled => "Cancelled"
  | .denied => "Denied"
  | .approvalExpired => "ApprovalExpired"
  | .failed => "Failed"

/-- Is the request done? -/
def EphemeralAccessRequestPhase.isTerminal : EphemeralAccessRequestPhase → Bool
  | .ended | .revoked | .cancelled | .denied | .approvalExpired | .failed => true
  | _ => false

/-- The status in another phase. -/
def RequestStatus.transition (status : RequestStatus) (phase : EphemeralAccessRequestPhase)
    (now : String) : RequestStatus :=
  { status with
    phase := phase
    lastError := none
    conditions := setCondition status.conditions
      (accessCondition "Ready" true phase.name "Request lifecycle is progressing normally" now) }

/-- The status with an error about the request. -/
def RequestStatus.validationError (status : RequestStatus) (message now : String) :
    RequestStatus :=
  { status with
    lastError := some (truncateUtf8 message 4096 "")
    conditions := setCondition status.conditions
      (accessCondition "Ready" false "InvalidRequestState" message now) }

/-- The status of a request that cannot be resolved. -/
def RequestStatus.resolutionFailure (status : RequestStatus) (message now : String) :
    RequestStatus :=
  let reason := if containsText message "suspended" then "Suspended" else "InvalidRequest"
  { status with
    lastError := some (truncateUtf8 message 4096 "")
    conditions := setCondition status.conditions
      (accessCondition "Resolved" false reason message now) }

/-- Start the time the access is granted for, once. -/
def persistActivationDeadline (status : RequestStatus) (resolved : ResolvedAccess) (now : Nat) :
    Except EphemeralError RequestStatus :=
  if status.activatedAt.isSome && status.expiresAt.isSome then .ok status
  else do
    let duration ← readDuration resolved.grantedDuration
    rejectIf (wordLimit ≤ now + duration)
      (.invalid "access expiry exceeds the supported range")
    let activatedAt ← times.fromSecond now
    let expiresAt ← times.fromSecond (now + duration)
    return { status with activatedAt := some activatedAt, expiresAt := some expiresAt }

/-! ## The reconcile -/

section Steps

variable (pass : RequestPass) (plans : List StoredPlan) (status : RequestStatus)

/-- The first status with a snapshot. -/
def resolvedStatus (resolution : Resolution) : Except EphemeralError RequestStatus := do
  let approvalExpiresAt ← times.fromSecond resolution.approvalDeadline
  let phase := match resolution.mode with
    | .automatic => .applying
    | .required => .pendingApproval
  let conditions := setCondition (setCondition status.conditions
      (accessCondition "Resolved" true "AccessPolicyResolved" "Immutable access bundle resolved"
        pass.now))
    (accessCondition "Ready" true "Resolved" "Request is ready to progress" pass.now)
  let next := { status with
    resolvedAccess := some resolution.resolved
    lastError := none
    approvalExpiresAt := some approvalExpiresAt
    phase := phase
    conditions := conditions }
  if resolution.mode = .automatic then
    persistActivationDeadline times next resolution.resolved pass.activateNow
  else .ok next

/-- Resolve a request that has no snapshot yet. -/
def resolveStep : Outcome Unit :=
  match resolveRequest sha256 times pass.resolution pass.resolveNow request
      status.approvalExpiresAt with
  | .error (.invalid message) => ⟨[.patchStatus (status.resolutionFailure message pass.now)], .ok ()⟩
  | .error e => ⟨[], .error e⟩
  | .ok resolution =>
      if resolution.suspended then
        ⟨[.patchStatus (status.resolutionFailure
          "access policy or target PostgresPolicy is suspended" pass.now)], .ok ()⟩
      else
        match resolvedStatus times pass status resolution with
        | .error e => ⟨[], .error e⟩
        | .ok next => ⟨[.patchStatus next], .ok ()⟩

/-- Go to a last phase, revoking the bundle first where asked to. -/
def endRequest (resolved : ResolvedAccess) (revoke : Bool) (phase : EphemeralAccessRequestPhase) :
    Outcome Unit :=
  if revoke then
    let revocation := applyScopedMemberships sha256 request pass.execution plans resolved .revoke
    match revocation.result with
    | .error e => ⟨revocation.writes, .error e⟩
    | .ok retained =>
        let ended := { status with retainedMemberships := retained, endedAt := some pass.now }
        ⟨revocation.writes ++ [.patchStatus (ended.transition phase pass.now)], .ok ()⟩
  else ⟨[.patchStatus (status.transition phase pass.now)], .ok ()⟩

/-- The mode the snapshot was made under: requests that were decided, or wait to be, need a
decision. -/
def snapshotMode : EphemeralApprovalMode :=
  if status.phase = .pendingApproval || (decisionCondition status "Approved").isSome ||
      (decisionCondition status "Denied").isSome then .required
  else .automatic

/-- The policies resolve to something other than the snapshot. -/
def resolutionChanged (resolved : ResolvedAccess) (resolution : Resolution) : Bool :=
  resolution.resolved.accessPolicyUid != resolved.accessPolicyUid ||
    resolution.resolved.targetPolicyUid != resolved.targetPolicyUid ||
    resolution.resolved.computeBundleHash sha256 != resolved.bundleHash ||
    resolution.resolved.grantedDuration != resolved.grantedDuration ||
    resolution.mode != snapshotMode status

/-- The approval is of the snapshot's bundle and duration. -/
def attests (resolved : ResolvedAccess) (condition : EphemeralAccessCondition) : Bool :=
  condition.bundleHash == some resolved.bundleHash &&
    condition.grantedDuration == some resolved.grantedDuration

/-- The error of an approval that is of another snapshot. -/
def notAttested : EphemeralError :=
  .invalid "approval does not attest to the resolved bundle hash and duration"

/-- Wait for an approval until the deadline, then begin to apply. -/
def pendingStep (resolved : ResolvedAccess) (resolution : Resolution) : Outcome Unit :=
  match status.approvalExpiresAt.bind times.parse with
  | none => ⟨[], .error (.invalid "invalid approval deadline")⟩
  | some deadline =>
      if deadline ≤ pass.checkNow then
        ⟨[.patchStatus (status.transition .approvalExpired pass.now)], .ok ()⟩
      else if resolution.suspended then ⟨[], .ok ()⟩
      else
        match decisionCondition status "Approved" with
        | none => ⟨[], .ok ()⟩
        | some approved =>
            if resolution.mode != .required || !attests resolved approved then
              ⟨[], .error notAttested⟩
            else
              match persistActivationDeadline times status resolved pass.activateNow with
              | .error e => ⟨[], .error e⟩
              | .ok started => ⟨[.patchStatus (started.transition .applying pass.now)], .ok ()⟩

/-- An approval is there where one is required. -/
def checkAttested (resolved : ResolvedAccess) (mode : EphemeralApprovalMode) :
    Except EphemeralError Unit :=
  if mode = .required then
    match decisionCondition status "Approved" with
    | none => .error (.invalid "Required request cannot apply without Approved=True")
    | some approved => rejectIf (!attests resolved approved) notAttested
  else .ok ()

/-- Grant the memberships, or end if the time is over. -/
def applyingStep (resolved : ResolvedAccess) (mode : EphemeralApprovalMode) : Outcome Unit :=
  match checkAttested status resolved mode with
  | .error e => ⟨[], .error e⟩
  | .ok () =>
      match status.expiresAt.bind times.parse with
      | none => ⟨[], .error (.invalid "invalid access expiry")⟩
      | some expiresAt =>
          if expiresAt ≤ pass.checkNow then
            let started := activationBegun request plans resolved
            endRequest sha256 request pass plans status resolved started
              (if started then .ended else .cancelled)
          else
            let activation :=
              applyScopedMemberships sha256 request pass.execution plans resolved .activate
            match activation.result with
            | .error e => ⟨activation.writes, .error e⟩
            | .ok _ =>
                let applied := { status with
                  conditions := setCondition status.conditions (accessCondition "Applied" true
                    "MembershipsGranted" "Ephemeral memberships are active" pass.now) }
                ⟨activation.writes ++ [.patchStatus (applied.transition .active pass.now)], .ok ()⟩

/-- Check the snapshot against the policies, then wait or apply. -/
def unfinishedStep (resolved : ResolvedAccess) : Outcome Unit :=
  match resolveRequest sha256 times pass.resolution pass.resolveNow request
      status.approvalExpiresAt with
  | .error e => ⟨[], .error e⟩
  | .ok resolution =>
      if resolutionChanged sha256 status resolved resolution ||
          (resolution.suspended && status.phase == .applying) then
        endRequest sha256 request pass plans status resolved
          (status.phase == .applying && activationBegun request plans resolved) .cancelled
      else if status.phase = .pendingApproval then pendingStep times pass status resolved resolution
      else applyingStep sha256 times request pass plans status resolved resolution.mode

/-- Wait until the access expires. -/
def activeStep : Outcome Unit :=
  match status.expiresAt.bind times.parse with
  | none => ⟨[], .error (.invalid "invalid access expiry")⟩
  | some expiresAt =>
      if pass.checkNow < expiresAt then ⟨[], .ok ()⟩
      else ⟨[.patchStatus (status.transition .revoking pass.now)], .ok ()⟩

/-- One step of a request that has a snapshot. -/
def resolvedStep (resolved : ResolvedAccess) : Outcome Unit :=
  if !resolved.hasValidBundleHash sha256 then
    ⟨[], .error (.invalid "resolved bundle hash does not match its canonical payload")⟩
  else if status.phase.isTerminal then ⟨[], .ok ()⟩
  else if (decisionCondition status "Denied").isSome then
    endRequest sha256 request pass plans status resolved
      (status.phase == .active ||
        (status.phase == .applying && activationBegun request plans resolved)) .denied
  else
    match status.phase with
    | .pendingApproval | .applying => unfinishedStep sha256 times request pass plans status resolved
    | .active => activeStep times pass status
    | .revoking => endRequest sha256 request pass plans status resolved true .ended
    | _ => ⟨[], .ok ()⟩

/-- One reconciliation of a request: resolve it, or carry on with its snapshot. -/
def reconcileAccessRequestApply : Outcome Unit :=
  match status.resolvedAccess with
  | none => resolveStep sha256 times request pass status
  | some resolved => resolvedStep sha256 times request pass plans status resolved

/-- The writes of a reconcile. An error about the request is reported, others are tried again. -/
def reconcileAccessRequest : List RequestWrite :=
  let outcome := reconcileAccessRequestApply sha256 times request pass plans status
  match outcome.result with
  | .error (.invalid message) =>
      outcome.writes ++ [.patchStatus (status.validationError message pass.now)]
  | _ => outcome.writes

/-- The writes of the finalizer: a running request's bundle is revoked before the object goes. -/
def reconcileAccessRequestCleanup : List RequestWrite :=
  match status.resolvedAccess with
  | none => []
  | some resolved =>
      if !(status.phase == .applying || status.phase == .active || status.phase == .revoking) then []
      else if !resolved.hasValidBundleHash sha256 then []
      else if activationBegun request plans resolved then
        (applyScopedMemberships sha256 request pass.execution plans resolved .revoke).writes
      else []

end Steps

end Reconcile

end PgRoles.Operator

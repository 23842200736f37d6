import PgRoles.Operator.RequestLifecycle

/-!
# Runs of an access request

Reviewers decide the request, the policies and the database change, and the operator reconciles the
request: it reads some version of it, possibly an old one, and makes its writes one at a time, with
decisions and deletions of plans in between and a crash at any point. A status is written over the
version that was read or not at all, and only if the rules of the resource type admit it.

`Follows` says how a status may change from one version to the next and `Sound` what is true of every
version. `PassSpec` says what each write of a reconcile is, and `Backed` what its writes rely on in
their order, so that no proof about runs opens the reconcile itself.
-/

set_option autoImplicit false

namespace PgRoles.Operator

open Std PgRoles.Core PgRoles.Lib PgRoles.Sql

/-! ## Statuses on the API server -/

/-- The decisions that were taken. -/
def RequestStatus.decisions (status : RequestStatus) : List EphemeralAccessCondition :=
  status.conditions.filter fun c =>
    (c.conditionType == "Approved" || c.conditionType == "Denied") && c.status == "True"

/-- The types of the conditions on a request. -/
def requestConditionTypes : List String := ["Approved", "Denied", "Resolved", "Ready", "Applied"]

/-- The validation rules of the status. Without an old status the rules that compare do not apply. -/
def admits (old : Option RequestStatus) (new : RequestStatus) : Bool :=
  (old.all fun old => old.resolvedAccess.isNone || new.resolvedAccess == old.resolvedAccess) &&
    !((decisionCondition new "Approved").isSome && (decisionCondition new "Denied").isSome) &&
    (old.all fun old => old.decisions.isEmpty || new.decisions == old.decisions) &&
    (old.all fun old => old.decidedBy.isNone || new.decidedBy == old.decidedBy) &&
    (!new.decisions.isEmpty == new.decidedBy.isSome) &&
    new.conditions.all fun c => requestConditionTypes.contains c.conditionType

/-- A merge patch leaves what it omits; an absent error is sent as null. -/
def RequestStatus.merge (old : RequestStatus) (patch : RequestStatus) : RequestStatus :=
  { patch with
    resolvedAccess := patch.resolvedAccess.orElse fun _ => old.resolvedAccess
    decidedBy := patch.decidedBy.orElse fun _ => old.decidedBy
    approvalExpiresAt := patch.approvalExpiresAt.orElse fun _ => old.approvalExpiresAt
    activatedAt := patch.activatedAt.orElse fun _ => old.activatedAt
    expiresAt := patch.expiresAt.orElse fun _ => old.expiresAt
    endedAt := patch.endedAt.orElse fun _ => old.endedAt }

/-- Reviewers own the decisions; the conditions of the operator stay as they are. -/
def keepsOperatorConditions (old new : List EphemeralAccessCondition) : Bool :=
  ["Resolved", "Ready", "Applied"].all fun conditionType =>
    (new.filter fun c => c.conditionType == conditionType) ==
      old.filter fun c => c.conditionType == conditionType

/-! ## States and actions -/

/-- A reconcile that was begun: the version of the request and the plans it read. -/
structure BegunPass where
  version : Nat
  pass : RequestPass
  plans : List StoredPlan
  /-- The finalizer runs, not the reconcile. -/
  cleanup : Bool

/-- A committed transaction and the reconcile that ran it. -/
structure RequestExecution where
  begun : BegunPass
  operation : ScopedPlanOperation
  changes : List Change

/-- What happened so far: the versions of the request, oldest first, and what the operator has begun
and executed. -/
structure RequestRecord where
  history : List (Option RequestStatus) := [none]
  passes : List BegunPass := []
  executed : List RequestExecution := []

/-- The record, the plans of the namespace, and what is left of the reconcile that runs. -/
structure RequestState extends RequestRecord where
  plans : List StoredPlan := []
  inFlight : Option (BegunPass × List RequestWrite) := none

/-- The status that is stored now. -/
def RequestRecord.current (s : RequestRecord) : Option RequestStatus := s.history.getLast?.join

/-- The status a reconcile read. -/
def RequestRecord.statusAt (s : RequestRecord) (version : Nat) : RequestStatus :=
  (s.history[version]?.join).getD {}

/-- What may happen to a request next. -/
inductive RequestAction where
  /-- A reviewer writes conditions and an identity. -/
  | decide (conditions : List EphemeralAccessCondition) (decidedBy : Option DecisionActor)
  | begin (pass : RequestPass) (version : Nat) (cleanup : Bool)
  /-- The next write of the reconcile. -/
  | advance
  | crash
  | deletePlan (name : String)
  /-- Another request creates a plan. -/
  | otherPlan (plan : StoredPlan)

section Steps

variable (sha256 : ByteArray → String) (times : Timestamps) (request : AccessRequest)

/-- The state after a write of a pass; creating a plan fails where its name is taken. -/
def RequestState.applyWrite (s : RequestState) (begun : BegunPass) :
    RequestWrite → Option RequestState
  | .createPlan plan =>
      if s.plans.any (·.name == plan.name) then none
      else some { s with plans := s.plans ++ [plan] }
  | .planPhase name phase =>
      if s.plans.any (·.name == name) then
        some { s with plans := s.plans.map fun p =>
          if p.name = name then { p with phase := some phase } else p }
      else none
  | .execute operation changes =>
      some { s with executed := s.executed ++ [⟨begun, operation, changes⟩] }
  | .patchStatus patch =>
      let merged := (s.current.getD {}).merge patch
      if begun.version + 1 = s.history.length ∧ admits s.current merged = true then
        some { s with history := s.history ++ [some merged] }
      else none

/-- The writes a reconcile of that version sets out to make. -/
def BegunPass.writes (begun : BegunPass) (status : RequestStatus) : List RequestWrite :=
  if begun.cleanup then
    reconcileAccessRequestCleanup sha256 request begun.pass begun.plans status
  else reconcileAccessRequest sha256 times request begun.pass begun.plans status

/-- One action. A write that fails ends the reconcile. -/
def requestStep (s : RequestState) : RequestAction → Option RequestState
  | .decide conditions decidedBy =>
      let old := s.current.getD {}
      let new := { old with conditions := conditions, decidedBy := decidedBy }
      if admits s.current new = true ∧
          keepsOperatorConditions old.conditions conditions = true then
        some { s with history := s.history ++ [some new] }
      else none
  | .begin pass version cleanup =>
      if s.inFlight.isSome ∨ s.history.length ≤ version then none
      else
        let begun : BegunPass := ⟨version, pass, s.plans, cleanup⟩
        some { s with
          passes := s.passes ++ [begun]
          inFlight := some (begun, begun.writes sha256 times request (s.statusAt version)) }
  | .advance =>
      match s.inFlight with
      | none => none
      | some (_, []) => some { s with inFlight := none }
      | some (begun, w :: ws) =>
          match s.applyWrite begun w with
          | none => some { s with inFlight := none }
          | some next => some { next with inFlight := some (begun, ws) }
  | .crash => some { s with inFlight := none }
  | .deletePlan name => some { s with plans := s.plans.filter (·.name != name) }
  | .otherPlan plan =>
      if plan.toScopedPlan.controlledBy request = true ∨
          s.plans.any (·.name == plan.name) = true then none
      else some { s with plans := s.plans ++ [plan] }

/-- The states that are reached from a new request. -/
inductive RequestRun : RequestState → Prop
  | start : RequestRun {}
  | step {s s' : RequestState} {a : RequestAction} (run : RequestRun s)
      (next : requestStep sha256 times request s a = some s') : RequestRun s'

end Steps

/-! ## What is true of every version -/

/-- The phases a request goes through after another. -/
def EphemeralAccessRequestPhase.leadsTo (a b : EphemeralAccessRequestPhase) : Bool :=
  a == b ||
    match a with
    | .pending => b != .revoked && b != .failed
    | .pendingApproval => b != .pending && b != .revoked && b != .failed
    | .applying => [.active, .revoking, .ended, .cancelled, .denied].contains b
    | .active => [.revoking, .ended, .denied].contains b
    | .revoking => [.ended, .denied].contains b
    | _ => false

theorem EphemeralAccessRequestPhase.leadsTo_refl (a : EphemeralAccessRequestPhase) :
    a.leadsTo a = true := by
  cases a <;> rfl

theorem EphemeralAccessRequestPhase.leadsTo_trans {a b c : EphemeralAccessRequestPhase}
    (hab : a.leadsTo b = true) (hbc : b.leadsTo c = true) : a.leadsTo c = true := by
  cases a <;> cases b <;> (try cases hab) <;> cases c <;> first | rfl | cases hbc

theorem EphemeralAccessRequestPhase.eq_of_leadsTo_of_isTerminal
    {a b : EphemeralAccessRequestPhase} (h : a.leadsTo b = true) (ha : a.isTerminal = true) :
    b = a := by
  cases a <;> cases ha <;> cases b <;> first | rfl | cases h

/-- The memberships may be in the database. -/
def EphemeralAccessRequestPhase.started (phase : EphemeralAccessRequestPhase) : Bool :=
  [.applying, .active, .revoking, .ended].contains phase

/-- How a later version differs from an earlier one. -/
structure Follows (old new : RequestStatus) : Prop where
  phase : old.phase.leadsTo new.phase = true
  resolved : ∀ r, old.resolvedAccess = some r → new.resolvedAccess = some r
  activatedAt : ∀ t, old.activatedAt = some t → new.activatedAt = some t
  expiresAt : ∀ t, old.expiresAt = some t → new.expiresAt = some t
  decisions : old.decisions ≠ [] → new.decisions = old.decisions

theorem Follows.refl (status : RequestStatus) : Follows status status where
  phase := status.phase.leadsTo_refl
  resolved _ h := h
  activatedAt _ h := h
  expiresAt _ h := h
  decisions _ := rfl

theorem Follows.trans {a b c : RequestStatus} (hab : Follows a b) (hbc : Follows b c) :
    Follows a c where
  phase := EphemeralAccessRequestPhase.leadsTo_trans hab.phase hbc.phase
  resolved r h := hbc.resolved r (hab.resolved r h)
  activatedAt t h := hbc.activatedAt t (hab.activatedAt t h)
  expiresAt t h := hbc.expiresAt t (hab.expiresAt t h)
  decisions h := by
    have hsame := hab.decisions h
    rw [← hsame] at h ⊢
    exact hbc.decisions h

/-! ## What a reconcile writes -/

section Spec

variable (sha256 : ByteArray → String) (times : Timestamps) (request : AccessRequest)

/-- The access was started: its end is its start and the duration that was granted. -/
def StartedFor (status : RequestStatus) : Prop :=
  ∃ r start granted activatedAt expiresAt, status.resolvedAccess = some r ∧
    parseDuration r.grantedDuration = .ok granted ∧
    times.fromSecond start = .ok activatedAt ∧ times.fromSecond (start + granted) = .ok expiresAt ∧
    status.activatedAt = some activatedAt ∧ status.expiresAt = some expiresAt

/-- A request is pending until it has a snapshot, and no time runs until it is applied. -/
structure Sound (status : RequestStatus) : Prop where
  pending : status.phase = .pending ↔ status.resolvedAccess = none
  waiting : status.phase = .pending ∨ status.phase = .pendingApproval →
    status.activatedAt = none ∧ status.expiresAt = none
  timed : status.activatedAt = none ∧ status.expiresAt = none ∨ StartedFor times status
  started : status.phase.started = true → StartedFor times status

/-- The snapshot was approved, exactly as it is. -/
def Approved (status : RequestStatus) (r : ResolvedAccess) : Prop :=
  ∃ c, decisionCondition status "Approved" = some c ∧ attests r c = true

/-- The reconcile resolved the request to this snapshot. -/
def ResolvedBy (begun : BegunPass) (r : ResolvedAccess) (mode : EphemeralApprovalMode) : Prop :=
  ∃ deadline resolution, resolveRequest sha256 times begun.pass.resolution begun.pass.resolveNow
    request deadline = .ok resolution ∧ resolution.resolved = r ∧ resolution.mode = mode ∧
      resolution.suspended = false

/-- The reconcile may grant the bundle: it read a request that applies and was not denied, whose
snapshot is intact and is what the policies resolve to, which nobody suspended, which is approved
where that is required, and whose time is not over. -/
structure Authorised (status : RequestStatus) (pass : RequestPass) (r : ResolvedAccess) : Prop where
  applying : status.phase = .applying
  snapshot : status.resolvedAccess = some r
  intact : r.hasValidBundleHash sha256 = true
  notDenied : decisionCondition status "Denied" = none
  current : ∃ deadline resolution, resolveRequest sha256 times pass.resolution pass.resolveNow
    request deadline = .ok resolution ∧ resolution.suspended = false ∧
      resolution.resolved.accessPolicyUid = r.accessPolicyUid ∧
      resolution.resolved.targetPolicyUid = r.targetPolicyUid ∧
      resolution.resolved.computeBundleHash sha256 = r.bundleHash ∧
      resolution.resolved.grantedDuration = r.grantedDuration ∧
      (resolution.mode = .automatic ∨ Approved status r)
  inTime : ∃ text secs, status.expiresAt = some text ∧ times.parse text = some secs ∧
    pass.checkNow < secs

/-- The changes are grants of the bundle without the admin option, or revocations of it. -/
def Scoped (operation : ScopedPlanOperation) (r : ResolvedAccess) (changes : List Change) : Prop :=
  ∀ change ∈ changes, ∃ m ∈ r.memberships,
    match operation with
    | .activate => change = .addMember m.role m.member m.inherit false
    | .revoke => change = .removeMember m.role m.member none

/-- What an operation compares the bundle with: the graph the target policy declares, the one that was
inspected, the pairs other running requests own, and whether a listed plan shows that the activation
was begun. -/
def Inspected (begun : BegunPass) (r : ResolvedAccess) (durable current : RoleGraph)
    (others : List (String × String)) (marked : Bool) : Prop :=
  ∃ target requests,
    resolvedTarget request begun.pass.execution r = .ok target ∧
    begun.pass.execution.requests = .ok requests ∧
    composedTarget sha256 begun.pass.execution begun.plans r target requests = .ok durable ∧
    begun.pass.execution.current = .ok current ∧
    let listed := begun.plans.filter fun plan => plan.policyLabel == LabelValue.sanitize target.name
    others = activeOwnerKeys request
      ⟨sha256, begun.pass.execution.calls, target.uid, r.targetDatabaseFingerprint⟩
      (listed.map (·.toScopedPlan)) requests ∧
    marked = activationBegun request listed r

/-- The transaction leaves no membership of the bundle out. A grant finds it ungranted, or granted as
it is to be and owned by a request; a revocation leaves what the policy declares itself, what another
running request owns and what is not in the database. -/
def Covers (begun : BegunPass) (operation : ScopedPlanOperation) (r : ResolvedAccess)
    (changes : List Change) : Prop :=
  ∃ durable current others marked,
    Inspected sha256 request begun r durable current others marked ∧
    ∀ m ∈ r.memberships,
      match operation with
      | .activate => isDurable durable m.key = false ∧
          (.addMember m.role m.member m.inherit false ∈ changes ∨
            ∃ edge, inspectedEdge current m.key = some edge ∧ edge.inherit = m.inherit ∧
              edge.admin = false ∧ (m.key ∈ others ∨ marked = true))
      | .revoke => .removeMember m.role m.member none ∈ changes ∨
          isDurable durable m.key = true ∨ m.key ∈ others ∨ inspectedEdge current m.key = none

/-- A status that may be written over the one that was read. -/
structure Patch (begun : BegunPass) (old new : RequestStatus) : Prop where
  phase : old.phase.leadsTo new.phase = true
  conditions : new.decisions = old.decisions
  resolved : ∀ r, old.resolvedAccess = some r → new.resolvedAccess = some r
  /-- The times are kept once the access was started. -/
  activatedAt : old.phase ≠ .pending → old.phase ≠ .pendingApproval →
    new.activatedAt = old.activatedAt
  expiresAt : old.phase ≠ .pending → old.phase ≠ .pendingApproval → new.expiresAt = old.expiresAt
  sound : Sound times old → Sound times new
  origin : ∀ r, old.resolvedAccess = none → new.resolvedAccess = some r →
    ∃ mode, ResolvedBy sha256 times request begun r mode ∧
      (new.phase.started = true → mode = .automatic)
  approved : old.phase = .pendingApproval → new.phase.started = true →
    ∃ r, old.resolvedAccess = some r ∧ Approved old r

/-- What a write of a reconcile that read this status is. -/
def PassSpec (begun : BegunPass) (status : RequestStatus) : RequestWrite → Prop
  | .createPlan plan => ∃ r operation, plan.scope = some ⟨operation, r.bundleHash⟩ ∧
      (operation = .activate → Authorised sha256 times request status begun.pass r)
  | .planPhase _ _ => True
  | .execute operation changes => ∃ r, status.resolvedAccess = some r ∧
      Scoped operation r changes ∧ Covers sha256 request begun operation r changes ∧
      match operation with
      | .activate => Authorised sha256 times request status begun.pass r
      | .revoke => activationBegun request begun.plans r = true
  | .patchStatus new => Patch sha256 times request begun status new

/-! ## The order of the writes -/

/-- The phase an operation leads to. -/
def settledPhase : ScopedPlanOperation → EphemeralAccessRequestPhase
  | .activate => .active
  | .revoke => .ended

section Order

variable (begun : BegunPass) (status : RequestStatus) (operation : ScopedPlanOperation)

/-- What the reconcile decided before the first write of the operation. -/
def Prepared (r : ResolvedAccess) (execution : ScopedExecution) : Prop :=
  status.resolvedAccess = some r ∧
    prepareScoped sha256 request begun.pass.execution begun.plans r operation = .ok execution

/-- What the writes that are left rely on, `done` telling whether the transaction of the operation has
committed: a plan is applied behind it, and the phase it leads to is written behind it or over a plan
that was applied before. -/
def Backed (done : Bool) : List RequestWrite → Prop
  | [] => True
  | .createPlan plan :: ws =>
      (∃ r execution, Prepared sha256 request begun status operation r execution ∧
        plan = execution.plan) ∧ Backed done ws
  | .planPhase name phase :: ws =>
      (phase = .applied → done = true ∧ ∃ r execution,
        Prepared sha256 request begun status operation r execution ∧ name = execution.plan.name) ∧
        Backed done ws
  | .execute executed _ :: ws => executed = operation ∧ Backed true ws
  | .patchStatus new :: ws =>
      (∀ settled, new.phase = settledPhase settled → status.phase ≠ new.phase →
        settled = operation ∧ (done = true ∨ ∃ r execution plan,
          Prepared sha256 request begun status operation r execution ∧
            execution.existing = some plan ∧ plan.phase = some .applied)) ∧
        Backed done ws

end Order

end Spec

end PgRoles.Operator

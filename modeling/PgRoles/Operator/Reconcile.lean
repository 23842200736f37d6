import PgRoles.Operator.Cluster

/-!
# The writes of a reconcile

`reconcile` is the part of a policy's reconcile that runs under its locks, once inspection, diff
and guards have produced the changes: recovery of a stuck plan, recognition of a promotion, and
the observe, auto-approved or manually approved flow up to execution and bookkeeping.
`candidatePass` plans the open candidates afterwards. Each of them lists the writes it makes from
the state it finds; a later part reads the state the earlier writes left behind.

What the passes take from outside the cluster (changes, target, clock, outcomes of SQL and of
calls that may fail) are the fields of `Pass` and `CandidatePlan`.
-/

set_option autoImplicit false

namespace PgRoles.Operator

open PgRoles.Core PgRoles.Lib

/-! ## Plan creation -/

/-- What a plan is created or deduplicated for. -/
structure PlanRequest where
  owner : PlanOwner
  origin : Option PlanOrigin := none
  /-- The base a candidate plan must be pinned to, unless the base is the candidate's own
  content. -/
  expectedBase : Option String := none
  reconciliationMode : ReconciliationMode
  changeDigest : String
  passwordSourceDigest : String
  targetIdentity : TargetIdentity
  reuse : PlanReuse
  detectNonconvergentApply : Bool
  now : Nat
  planName : String

/-- Result of plan creation. -/
inductive PlanCreationResult where
  | created (name : String)
  | deduplicated (name : String)
  | deduplicatedFailed (name : String)
  | deduplicatedNonConvergent (name : String)
  deriving DecidableEq, Repr

/-- The plan that the result is about. -/
def PlanCreationResult.planName : PlanCreationResult → String
  | .created name | .deduplicated name | .deduplicatedFailed name
  | .deduplicatedNonConvergent name => name

/-- The status of a freshly computed plan: pending, no decision. -/
def computedStatus (req : PlanRequest) : PlanStatus where
  conditions := [⟨.computed, true, "PlanComputed"⟩, ⟨.approved, false, "PendingApproval"⟩]
  changeDigest := some req.changeDigest
  changeDigestEncoding := some approvalEffectEncodingV3
  passwordSourceDigest := some req.passwordSourceDigest
  targetIdentity := req.targetIdentity
  physicalIdentityAvailable := some req.targetIdentity.hasPhysical

/-- Retire the plans replaced by the kept plan. Under auto-approval a denied pending plan is
rejected instead. -/
def supersedeStalePlans (existing : List Plan) (kept : String) (req : PlanRequest) : List Write :=
  existing.filterMap fun plan =>
    match plan.status with
    | none => none
    | some status =>
        if req.reuse == .autoApproval && status.phase == .pending && isDenied status then
          some (.planStatus plan.name .reject)
        else
          (supersedeCause plan status kept req.changeDigest req.expectedBase
            req.passwordSourceDigest req.reuse).map fun cause =>
              .planStatus plan.name (.supersede cause)

/-- The plan object a creation writes first, without a status. -/
def newPlan (req : PlanRequest) : Plan where
  name := req.planName
  owner := req.owner
  origin := req.origin
  reconciliationMode := req.reconciliationMode
  creationTimestamp := req.now
  status := none

/-- The stored plan is the one this creation was interrupted at. -/
def canResumePlanCreation (existing : Plan) (req : PlanRequest) : Bool :=
  existing.origin == req.origin && existing.reconciliationMode == req.reconciliationMode &&
    existing.status.all fun status =>
      status.phase == .pending && status.changeDigest.isNone && !hasTerminalDecision status

/-- Create or deduplicate a plan; `none` is a name collision with another plan. -/
def createOrUpdatePlan (s : Cluster) (req : PlanRequest) :
    Option (PlanCreationResult × List Write) :=
  let existing := s.plansOf req.owner
  match reusablePlan existing req.changeDigest req.expectedBase req.reuse with
  | some plan => some (.deduplicated plan.name, supersedeStalePlans existing plan.name req)
  | none =>
      match existing.find? (failedRecently req.changeDigest req.now) with
      | some plan => some (.deduplicatedFailed plan.name, [])
      | none =>
          match existing.find? fun plan => req.detectNonconvergentApply &&
              appliedRecentlyWithoutConverging req.changeDigest req.now plan with
          | some plan => some (.deduplicatedNonConvergent plan.name, [])
          | none =>
              let statusWrite := Write.planStatus req.planName (.compute (computedStatus req))
              let retire := supersedeStalePlans existing req.planName req
              match s.findPlan req.planName with
              | none => some (.created req.planName,
                  .createPlan (newPlan req) :: statusWrite :: retire)
              | some found =>
                  if found.owner == req.owner && canResumePlanCreation found req then
                    some (.created req.planName, statusWrite :: retire)
                  else none

/-! ## Recognition -/

/-- What recognition reports on candidates. -/
def recognitionReports : PromotionAction → List Write
  | .ignore | .executeApprovedPlan _ _ => []
  | .withoutApproval candidate => [.report candidate "PromotedWithoutApproval"]
  | .notExecuted candidate => [.report candidate "PromotionNotExecuted"]
  | .mismatch candidates _ => candidates.map (.report · "PromotionDigestMismatch")
  | .baseChanged candidates _ => candidates.map (.report · "PromotionBaseChanged")

/-- What the policy's content means in this state. -/
def recognizedAction (s : Cluster) : PromotionAction :=
  promotionAction (decidePromotion s.policy.content s.policy.statusContentDigest s.facts)
    s.policy.mode s.policy.effectiveApproval

/-- The plan recognition hands to the executor: the live plan of the candidate, if it still is the
plan the facts named. -/
def adoptedPlan (s : Cluster) : Option Plan :=
  match recognizedAction s with
  | .executeApprovedPlan candidate plan => (s.planOf candidate).filter (·.name = plan)
  | _ => none

/-- Recognise what the content means and record it; the digest is remembered last. -/
def recognize (s : Cluster) : Option Plan × List Write :=
  (adoptedPlan s,
    recognitionReports (recognizedAction s) ++
      if s.policy.statusContentDigest == some s.policy.content then []
      else [.stampContentDigest s.policy.content])

/-! ## Bookkeeping -/

/-- Retire the live plan of a candidate, if it has one. -/
def supersedeLivePlan (s : Cluster) (candidate : String) : List Write :=
  match s.planOf candidate with
  | none => []
  | some plan => [.planStatus plan.name (.supersede .supersededByPromotion)]

/-- Retire a stranded approval and tell its candidate. -/
def supersedeStranded (s : Cluster) (candidate : String) : List Write :=
  match s.planOf candidate with
  | none => []
  | some plan => [.planStatus plan.name (.supersede .supersededByPromotion),
      .report candidate "SupersededByPromotion"]

/-- The writes after the policy executed its content: duplicates and stranded approvals first,
the promotion last. -/
def recordPromotion (s : Cluster) (contentDigest : String) : List Write :=
  match promotionRecord s.facts contentDigest with
  | none => []
  | some record =>
      record.duplicates.flatMap (fun name => supersedeLivePlan s name ++ [.markSuperseded name]) ++
      record.stranded.flatMap (supersedeStranded s) ++
      if record.newlyPromoted then [.markPromoted record.promoted] else []

/-- Retire every actionable plan of the policy's own. -/
def retireActionablePlans (s : Cluster) : List Write :=
  s.actionablePolicyPlans.map fun plan =>
    .planStatus plan.name (.supersede .policyStoppedPlanning)

/-! ## The reconcile -/

/-- What one reconcile takes from outside the cluster. -/
structure Pass where
  changes : List Change
  inputs : EffectDigestInputs
  passwordSourceDigest : String := ""
  now : Nat
  planName : String
  /-- The candidates could not be read. -/
  lookupFails : Bool := false
  /-- The executor lacks the authority for the changes. -/
  authorityBlocked : Bool := false
  /-- Creating a generated secret failed. -/
  materializeFails : Bool := false
  /-- Verifiers rebuilt from secrets that another writer created first. -/
  rebuiltVerifiers : BTreeMap String String := ∅
  sqlSucceeds : Bool := true

variable (hash : ByteArray → String)

/-- Parts of a reconcile in sequence; the second reads what the first left. -/
def andThen (first : List Write) (second : Cluster → List Write) (s : Cluster) : List Write :=
  first ++ second (s.writes first)

/-- The request for the policy's own plan. -/
def policyRequest (pass : Pass) (digest : String) (reuse : PlanReuse) (detect : Bool) :
    PlanRequest where
  owner := .policy
  reconciliationMode := pass.inputs.reconciliationMode
  changeDigest := digest
  passwordSourceDigest := pass.passwordSourceDigest
  targetIdentity := pass.inputs.targetIdentity
  reuse
  detectNonconvergentApply := detect
  now := pass.now
  planName := pass.planName

/-- The changes once generated secrets exist: only verifiers are rebuilt. -/
def materializePendingGeneratedSecrets (rebuilt : BTreeMap String String)
    (changes : List Change) : List Change :=
  changes.map fun
    | .setPassword name verifier => .setPassword name (rebuilt[name]?.getD verifier)
    | c => c

/-- Run a plan's SQL and record the outcome. `after` follows a success. -/
def executePlan (policy : Policy) (pass : Pass) (name : String) (after : Cluster → List Write)
    (s : Cluster) : List Write :=
  match s.findPlan name with
  | none => []
  | some plan =>
      if pass.materializeFails then [.planStatus name (.fail pass.now)]
      else if retryDeferredUntilWindowExpires plan pass.now then []
      else if !pass.sqlSucceeds then
        [.planStatus name (.startApplying pass.now), .planStatus name (.fail pass.now)]
      else
        let changes := materializePendingGeneratedSecrets pass.rebuiltVerifiers pass.changes
        andThen [.planStatus name (.startApplying pass.now),
          .execute ⟨plan, policy, changes, pass.inputs⟩,
          .planStatus name (.finishApplied pass.now)] after s

/-- A plan that was denied is not approved; otherwise it is approved and executed. -/
def approveAndExecute (policy : Policy) (pass : Pass) (plan : Plan) (reason : String)
    (after : Cluster → List Write) : Cluster → List Write :=
  if plan.status.any isDenied then fun _ => []
  else andThen [.planStatus plan.name (.approve reason)] fun s =>
    if pass.authorityBlocked then [] else executePlan policy pass plan.name after s

/-- Auto-approval: create the plan, approve it, execute it. -/
def reconcileAuto (policy : Policy) (pass : Pass) (s : Cluster) : List Write :=
  if pass.changes.isEmpty then
    andThen (recordPromotion s policy.content) (fun s => retireActionablePlans s) s
  else
    match computeChangeDigest hash pass.changes pass.inputs with
    | .error _ => []
    | .ok digest =>
        match createOrUpdatePlan s (policyRequest pass digest .autoApproval true) with
        | none => []
        | some (.deduplicatedFailed _, ws) => ws
        | some (.deduplicatedNonConvergent _, ws) => ws
        | some (result, ws) =>
            andThen ws (fun s =>
              -- Missing authority stops before the approval is recorded.
              if pass.authorityBlocked then []
              else
                match s.findPlan result.planName with
                | none => []
                | some plan => approveAndExecute policy pass plan "AutoApproved"
                    (fun s => recordPromotion s policy.content) s) s

/-- Create the policy's plan for review. -/
def planForReview (pass : Pass) (digest : String) (s : Cluster) : List Write :=
  match createOrUpdatePlan s (policyRequest pass digest .pendingOnly false) with
  | none => []
  | some (_, ws) => ws

/-- No changes are left: the content is the database's state. -/
def settleNoChanges (policy : Policy) (s : Cluster) : List Write :=
  andThen (recordPromotion s policy.content) (fun s => retireActionablePlans s) s

/-- An approved plan: execute it if its digest and target are still current, otherwise retire or
replace it. -/
def reconcileApproved (policy : Policy) (pass : Pass) (plan : Plan) (digest : String)
    (s : Cluster) : List Write :=
  let verdict := evaluateTargetIdentity ((plan.status.map (·.targetIdentity)).getD {})
    pass.inputs.targetIdentity policy.requirePhysicalIdentity
  let decision :=
    match decideApprovedPlan plan.status digest (!pass.changes.isEmpty) with
    | .execute => if verdict = TargetIdentityVerdict.proceed then ApprovedPlanDecision.execute
        else .replace
    | decision => decision
  match decision with
  | .execute => approveAndExecute policy pass plan "ManuallyApproved"
      (fun s => recordPromotion s policy.content) s
  | .replace => planForReview pass digest s
  | .clear =>
      let cause :=
        match verdict with
        | .superseded reason | .blocked reason => SupersedeCause.targetChanged reason
        | .proceed => .effectsCleared
      andThen [.planStatus plan.name (.supersede cause)] (settleNoChanges policy) s

/-- Manual approval: act on the current plan, adopted or the policy's own, or open one. -/
def reconcileManual (policy : Policy) (pass : Pass) (adopted : Option Plan) (s : Cluster) :
    List Write :=
  match adopted.or s.currentActionablePlan with
  | none =>
      if pass.changes.isEmpty then settleNoChanges policy s
      else
        match computeChangeDigest hash pass.changes pass.inputs with
        | .error _ => []
        | .ok digest => planForReview pass digest s
  | some plan =>
      match checkPlanApproval plan with
      | .rejected => [.planStatus plan.name .reject]
      | .approved =>
          match computeChangeDigest hash pass.changes pass.inputs with
          | .error _ => []
          | .ok digest => reconcileApproved policy pass plan digest s
      | .pending =>
          match computeChangeDigest hash pass.changes pass.inputs with
          | .error _ => []
          | .ok digest =>
              match decidePendingPlan plan.status digest (!pass.changes.isEmpty) with
              | .clear => andThen [.planStatus plan.name (.supersede .effectsCleared)]
                  (settleNoChanges policy) s
              | .replace => planForReview pass digest s
              | .retain => []

/-- Observe mode: publish a plan for the changes, or retire the plans nothing is left for. -/
def reconcileObserve (pass : Pass) (s : Cluster) : List Write :=
  if pass.changes.isEmpty then retireActionablePlans s
  else
    match computeChangeDigest hash pass.changes pass.inputs with
    | .error _ => []
    | .ok digest => planForReview pass digest s

/-- Seconds after which an applying plan counts as stuck. -/
def stuckThresholdSecs : Nat := 300

/-- The policy's newest applying plan fails when it has been applying for too long. -/
def recoverStuckPlan (s : Cluster) (now : Nat) : List Write :=
  let applying := ((s.plansOf .policy).filter (·.phase? == some .applying)).insertionSort
    fun a b => b.creationTimestamp ≤ a.creationTimestamp
  match applying.head? with
  | none => []
  | some plan =>
      match plan.status.bind (·.applyingSince) with
      | none => []
      | some since =>
          if now - since > stuckThresholdSecs then [.planStatus plan.name (.fail now)] else []

/-- What a reconcile recognises; nothing when the candidates could not be read. -/
def recognized (pass : Pass) (s : Cluster) : Option Plan × List Write :=
  if pass.lookupFails then (none, []) else recognize s

/-- The flow the policy's execution mode selects. -/
def reconcileMode (policy : Policy) (pass : Pass) (adopted : Option Plan) (s : Cluster) :
    List Write :=
  if policy.mode.neverExecutes then reconcileObserve hash pass s
  else
    match policy.effectiveApproval with
    | .auto => reconcileAuto hash policy pass s
    | .manual => reconcileManual hash policy pass adopted s

/-- The writes of a policy's reconcile under its locks. The policy is the object as read at the
start. -/
def reconcile (pass : Pass) (s : Cluster) : List Write :=
  andThen (recoverStuckPlan s pass.now) (fun s₁ =>
    andThen (recognized pass s₁).2
      (reconcileMode hash s.policy pass (recognized pass s₁).1) s₁) s

/-! ## Candidate planning -/

/-- Whether the parent's just-finished reconcile permits candidate planning. -/
inductive ParentOutcome where
  | converged
  | executionBlocked
  | unstable
  deriving DecidableEq, Repr

/-- May the candidates be planned after what became of the policy's own plan? -/
def parentGateOpen (parent : ParentOutcome) (hasActionablePlan : Bool) : Bool :=
  match parent with
  | .unstable => false
  | .executionBlocked => true
  | .converged => !hasActionablePlan

/-- What planning one candidate takes from outside the cluster. -/
structure CandidateEffects where
  changes : List Change
  inputs : EffectDigestInputs
  passwordSourceDigest : String := ""
  now : Nat
  planName : String

/-- What a pass finds for one candidate. -/
inductive CandidateInput where
  /-- Adopting it or reading its plans failed. -/
  | unavailable
  /-- Undecided past its time to live. -/
  | expired
  | overBudget
  /-- Its content does not expand or inspection fails. -/
  | planningFailed
  | effects (effects : CandidateEffects)

/-- The request for a candidate's plan: pinned to the content the policy carries, and demanding
that pin of a plan it reuses unless the policy carries the candidate's own content. -/
def candidateRequest (policy : Policy) (c : Candidate) (e : CandidateEffects) (digest : String) :
    PlanRequest where
  owner := .candidate c.uid
  origin := some ⟨c.name, c.uid, c.content, some policy.content⟩
  expectedBase := if policy.content ≠ c.content then some policy.content else none
  reconciliationMode := e.inputs.reconciliationMode
  changeDigest := digest
  passwordSourceDigest := e.passwordSourceDigest
  targetIdentity := e.inputs.targetIdentity
  reuse := .pendingOnly
  detectNonconvergentApply := false
  now := e.now
  planName := e.planName

/-- Plan one candidate against the policy's content. -/
def planCandidate (c : Candidate) (e : CandidateEffects) (s : Cluster) : List Write :=
  if e.changes.isEmpty then
    ((s.plansOf (.candidate c.uid)).filter (·.live)).map
        (fun plan => .planStatus plan.name (.supersede .effectsCleared)) ++
      [.markPlanned c.name none]
  else
    match computeChangeDigest hash e.changes e.inputs with
    | .error _ => []
    | .ok digest =>
        match createOrUpdatePlan s (candidateRequest s.policy c e digest) with
        | none => []
        | some (result, ws) => ws ++ [.markPlanned c.name (some result.planName)]

/-- A plan of the candidate was denied or rejected. -/
def planWasDenied (s : Cluster) (c : Candidate) : Bool :=
  (s.plansOf (.candidate c.uid)).any fun plan =>
    checkPlanApproval plan == .rejected || plan.phase? == some .rejected

/-- The part of a candidate pass that is about one candidate. -/
def reconcileCandidate (parent : ParentOutcome) (c : Candidate) (input : CandidateInput)
    (s : Cluster) : List Write :=
  match input with
  | .unavailable => []
  | input =>
      andThen (if c.contentDigest == some c.content then [] else [.adopt c.name]) (fun s =>
        if c.phase.isTerminal then []
        else
          match input with
          | .unavailable | .overBudget => []
          | .expired => [.markSuperseded c.name]
          | input =>
              if planWasDenied s c then [.markSuperseded c.name]
              else if !parentGateOpen parent s.currentActionablePlan.isSome then []
              else
                match input with
                | .effects e => planCandidate hash c e s
                | _ => []) s

/-- Predecessors named by a candidate with a plan are superseded. -/
def applyReplacements (s : Cluster) : List Write :=
  let replaced := (s.candidates.filter (·.planRef.isSome)).filterMap (·.replaces)
  (s.candidates.filter fun c => c.name ∈ replaced ∧ !c.phase.isTerminal).map fun c =>
    .markSuperseded c.name

end PgRoles.Operator

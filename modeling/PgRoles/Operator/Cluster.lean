import PgRoles.Operator.Promotion

/-!
# The cluster a policy is reconciled in

The objects a policy's reconcile reads and writes: the policy itself, its candidates and the
plans, with the executions against the database. A reconcile is a list of writes; the operator may
stop between any two of them, so that what a run sees is some number of the first writes.

A status patch is modelled by what it does to the stored status. The reconcile holds the policy's
locks and is the only writer of these objects besides reviewers and authors, who act between
reconciles.
-/

set_option autoImplicit false

namespace PgRoles.Operator

open PgRoles.Core PgRoles.Lib

/-! ## Objects -/

/-- Printable lifecycle summary for a candidate. -/
inductive CandidatePhase where
  | pending
  | planned
  | promoted
  | superseded
  | stale
  deriving DecidableEq, Repr

/-- A terminal candidate is never planned again. -/
def CandidatePhase.isTerminal : CandidatePhase → Bool
  | .promoted | .superseded => true
  | _ => false

/-- A candidate of the policy. The specification is immutable. -/
structure Candidate where
  name : String
  uid : String
  /-- Digest of the proposed content. -/
  content : String
  /-- Name of an earlier candidate this one replaces. -/
  replaces : Option String := none
  /-- The digest recorded in the status on first touch. -/
  contentDigest : Option String := none
  phase : CandidatePhase := .pending
  planRef : Option String := none
  /-- Status and reason of the `Promoted` condition. -/
  promotedCondition : Option (Bool × String) := none
  deriving DecidableEq, Repr

/-- The policy: its content by digest, how it executes, and the digest its status remembers. -/
structure Policy where
  content : String
  mode : PolicyMode := .apply
  approval : Option ApprovalMode := none
  requirePhysicalIdentity : Bool := false
  statusContentDigest : Option String := none
  deriving DecidableEq, Repr

/-- The approval mode of a policy, with its default by the reconciliation mode. -/
def Policy.effectiveApproval (policy : Policy) : ApprovalMode :=
  Operator.effectiveApproval policy.approval policy.mode

/-- One run of a plan's SQL: the plan as it was fetched, the policy as the reconcile read it, the
executed changes and what their digest binds. -/
structure Execution where
  plan : Plan
  policy : Policy
  changes : List Change
  inputs : EffectDigestInputs

/-- The stored objects that reconciliation reads and writes. -/
structure Cluster where
  policy : Policy
  candidates : List Candidate := []
  plans : List Plan := []
  /-- The executions so far, latest first. -/
  executions : List Execution := []

/-! ## Reads -/

/-- A plan that can still authorise something. -/
def Plan.live (plan : Plan) : Bool := plan.status.any (·.phase.actionable)

/-- The plans of an owner. -/
def Cluster.plansOf (s : Cluster) (owner : PlanOwner) : List Plan :=
  s.plans.filter (·.owner = owner)

/-- The live plan of a candidate. -/
def Cluster.livePlan (s : Cluster) (c : Candidate) : Option Plan :=
  (s.plansOf (.candidate c.uid)).find? (·.live)

/-- The plan of a name. -/
def Cluster.findPlan (s : Cluster) (name : String) : Option Plan :=
  s.plans.find? (·.name = name)

/-- The candidate of a name. -/
def Cluster.findCandidate (s : Cluster) (name : String) : Option Candidate :=
  s.candidates.find? (·.name = name)

/-- The facts about one candidate. -/
def Cluster.candidateFacts (s : Cluster) (c : Candidate) : CandidateFacts where
  name := c.name
  contentDigest := c.contentDigest
  terminal := c.phase.isTerminal
  plan := (s.livePlan c).map fun plan =>
    { name := plan.name
      approved := checkPlanApproval plan == .approved
      baseContentDigest := planBasePin plan }
  ownsAppliedPlan :=
    (s.plansOf (.candidate c.uid)).any fun plan => plan.status.any (·.phase == .applied)
  promoted := c.phase == .promoted

/-- What promotion reads of the candidates. -/
def Cluster.facts (s : Cluster) : List CandidateFacts := s.candidates.map s.candidateFacts

/-- The live plan of the candidate of that name. -/
def Cluster.planOf (s : Cluster) (name : String) : Option Plan :=
  (s.findCandidate name).bind s.livePlan

/-- The policy's own actionable plans, newest first. -/
def Cluster.actionablePolicyPlans (s : Cluster) : List Plan :=
  ((s.plansOf .policy).filter (·.live)).insertionSort fun a b =>
    b.creationTimestamp ≤ a.creationTimestamp

/-- The plan of the policy that is waiting or may be executed. -/
def Cluster.currentActionablePlan (s : Cluster) : Option Plan := s.actionablePolicyPlans.head?

/-! ## Writes -/

/-- What a status patch does to a plan. -/
inductive PlanWrite where
  /-- The status of a freshly computed plan. -/
  | compute (status : PlanStatus)
  | supersede (cause : SupersedeCause)
  | approve (reason : String)
  | reject
  | startApplying (now : Nat)
  | finishApplied (now : Nat)
  | fail (now : Nat)

/-- A timestamp in a hand-built status patch. The stored status spells its fields in camel case, and
the API server drops a field that the schema does not declare. -/
def PlanStatus.patchTimestamp (status : PlanStatus) (field : String) (now : Nat) : PlanStatus :=
  match field with
  | "applyingSince" => { status with applyingSince := some now }
  | "appliedAt" => { status with appliedAt := some now }
  | "failedAt" => { status with failedAt := some now }
  | _ => status

/-- The status `update_plan_phase` leaves when a plan starts to apply. -/
def applyingStatus (status : PlanStatus) (now : Nat) : PlanStatus :=
  { status with phase := .applying }.patchTimestamp "applying_since" now

/-- The date that execution writes is dropped, for the schema declares no such field. -/
@[simp] theorem applyingStatus_eq (status : PlanStatus) (now : Nat) :
    applyingStatus status now = { status with phase := .applying } := rfl

/-- A plan's status after a write. -/
def PlanWrite.apply : PlanWrite → Option PlanStatus → Option PlanStatus
  | .compute status, _ => some status
  | .supersede cause, old => some (supersededStatus (old.getD {}) cause)
  | .approve reason, old => (approvedStatus (old.getD {}) reason).or old
  | .reject, old => some { old.getD {} with phase := .rejected }
  | .startApplying now, old => some (applyingStatus (old.getD {}) now)
  | .finishApplied now, old => some (appliedStatus (old.getD {}) now)
  | .fail now, old => some (failedStatus (old.getD {}) now)

/-- One write of the operator. -/
inductive Write where
  | stampContentDigest (digest : String)
  | createPlan (plan : Plan)
  | planStatus (name : String) (write : PlanWrite)
  /-- First touch of a candidate: record the digest of its content. -/
  | adopt (candidate : String)
  | markPlanned (candidate : String) (planRef : Option String)
  /-- `Promoted=False` on a candidate. -/
  | report (candidate reason : String)
  | markSuperseded (candidate : String)
  | markPromoted (candidate : String)
  /-- The transaction with the plan's SQL. -/
  | execute (execution : Execution)

/-- Apply a function to the plan of that name. -/
def updatePlan (name : String) (f : Plan → Plan) (plans : List Plan) : List Plan :=
  plans.map fun plan => if plan.name = name then f plan else plan

/-- Apply a function to the candidate of that name, unless the candidate is terminal: a status
write never lands on a finished candidate. -/
def updateCandidate (name : String) (f : Candidate → Candidate) (candidates : List Candidate) :
    List Candidate :=
  candidates.map fun c => if c.name = name ∧ !c.phase.isTerminal then f c else c

/-- A status write on the candidate of that name. -/
def Cluster.onCandidate (s : Cluster) (name : String) (f : Candidate → Candidate) : Cluster :=
  { s with candidates := updateCandidate name f s.candidates }

/-- A status write on the plan of that name. -/
def Cluster.onPlan (s : Cluster) (name : String) (write : PlanWrite) : Cluster :=
  { s with plans := updatePlan name (fun p => { p with status := write.apply p.status }) s.plans }

/-- The objects after a write. -/
def Write.apply (s : Cluster) : Write → Cluster
  | .stampContentDigest digest =>
      { s with policy := { s.policy with statusContentDigest := some digest } }
  | .createPlan plan => { s with plans := s.plans ++ [plan] }
  | .planStatus name write => s.onPlan name write
  | .adopt name => s.onCandidate name fun c => { c with contentDigest := some c.content }
  | .markPlanned name planRef =>
      s.onCandidate name fun c => { c with phase := .planned, planRef := planRef }
  | .report name reason =>
      s.onCandidate name fun c => { c with promotedCondition := some (false, reason) }
  | .markSuperseded name => s.onCandidate name fun c => { c with phase := .superseded }
  | .markPromoted name =>
      s.onCandidate name fun c =>
        { c with phase := .promoted, promotedCondition := some (true, "Promoted") }
  | .execute execution => { s with executions := execution :: s.executions }

/-- The state after a list of writes. -/
def Cluster.writes (s : Cluster) (ws : List Write) : Cluster := ws.foldl Write.apply s

@[simp] theorem Cluster.writes_nil (s : Cluster) : s.writes [] = s := rfl

@[simp] theorem Cluster.writes_cons (s : Cluster) (w : Write) (ws : List Write) :
    s.writes (w :: ws) = (w.apply s).writes ws := rfl

/-- Writes in a row are made one after the other. -/
theorem Cluster.writes_append (s : Cluster) (ws ws' : List Write) :
    s.writes (ws ++ ws') = (s.writes ws).writes ws' :=
  List.foldl_append

/-! ## What writes do to one candidate -/

/-- What of a candidate no write changes. -/
def Candidate.identity (c : Candidate) : String × String × String := (c.name, c.uid, c.content)

/-- A status write as one candidate sees it. -/
def Write.toCandidate (w : Write) (c : Candidate) : Candidate :=
  let landed (name : String) (new : Candidate) : Candidate :=
    if c.name = name ∧ !c.phase.isTerminal then new else c
  match w with
  | .adopt name => landed name { c with contentDigest := some c.content }
  | .markPlanned name planRef => landed name { c with phase := .planned, planRef := planRef }
  | .report name reason => landed name { c with promotedCondition := some (false, reason) }
  | .markSuperseded name => landed name { c with phase := .superseded }
  | .markPromoted name =>
      landed name { c with phase := .promoted, promotedCondition := some (true, "Promoted") }
  | _ => c

/-- The candidate after a list of writes. -/
def Candidate.after (c : Candidate) (ws : List Write) : Candidate :=
  ws.foldl (fun c w => w.toCandidate c) c

/-- A write acts on each candidate by itself. -/
theorem candidates_apply (s : Cluster) (w : Write) :
    (w.apply s).candidates = s.candidates.map w.toCandidate := by
  cases w <;> first | rfl | exact (List.map_id _).symm

/-- So do writes in a row. -/
theorem candidates_writes (s : Cluster) (ws : List Write) :
    (s.writes ws).candidates = s.candidates.map (·.after ws) := by
  induction ws generalizing s with
  | nil => exact (List.map_id _).symm
  | cons w ws ih => rw [Cluster.writes_cons, ih, candidates_apply, List.map_map]; rfl

theorem identity_toCandidate (w : Write) (c : Candidate) :
    (w.toCandidate c).identity = c.identity := by
  cases w <;> simp only [Write.toCandidate] <;> split_ifs <;> rfl

/-- No write changes a candidate's identity. -/
theorem identity_after (c : Candidate) (ws : List Write) : (c.after ws).identity = c.identity := by
  induction ws generalizing c with
  | nil => rfl
  | cons w ws ih => exact (ih (w.toCandidate c)).trans (identity_toCandidate w c)

end PgRoles.Operator

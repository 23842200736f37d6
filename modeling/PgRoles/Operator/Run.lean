import PgRoles.Operator.Reconcile

/-!
# Runs of a policy

Authors edit the policy and file candidates, reviewers decide plans, objects are deleted, and the
operator reconciles the policy and its candidates, stopping after any number of writes. `step` is
one of these actions, `RunsTo` the states a run reaches whose steps all meet a condition.

Properties of a run are proved write by write: `AllWrites` says that each write of a list meets a
condition in the state it is made in, and the lemmas below say what the writes of a reconcile are,
so that no proof about runs opens the reconcile itself.
-/

set_option autoImplicit false

namespace PgRoles.Operator

open PgRoles.Core PgRoles.Lib

/-! ## Actions and runs -/

/-- A run's state: the cluster, and the content the policy carried before its present one. -/
structure RunState where
  cluster : Cluster
  replaced : Option String := none

/-- What may happen to the objects next. -/
inductive Action where
  /-- An author changes the policy's specification. -/
  | edit (content : String) (mode : PolicyMode) (approval : Option ApprovalMode)
      (requirePhysicalIdentity : Bool)
  | file (name uid content : String) (replaces : Option String)
  /-- A reviewer records a decision on a plan. -/
  | decide (plan : String) (approve : Bool) (actor : String)
  | deleteCandidate (name : String)
  | deletePlan (name : String)
  /-- A reconcile of the policy that stops after so many writes. -/
  | reconcile (pass : Pass) (completed : Nat)
  | reconcileCandidate (name : String) (parent : ParentOutcome) (input : CandidateInput)
      (completed : Nat)
  | applyReplacements (completed : Nat)

/-- The reviewer's decision, recorded with the reviewer's identity. -/
def decidedStatus (status : PlanStatus) (approve : Bool) (actor : String) : PlanStatus :=
  { status with
    conditions := setPlanCondition status.conditions
      ⟨if approve then .approved else .denied, true, "Decided"⟩
    decidedBy := some actor }

/-- The specification after an edit. -/
def editedPolicy (policy : Policy) (content : String) (mode : PolicyMode)
    (approval : Option ApprovalMode) (requirePhysicalIdentity : Bool) : Policy :=
  { policy with content, mode, approval, requirePhysicalIdentity }

variable (hash : ByteArray → String)

/-- Record a decision on the plan of that name. -/
def recordDecision (s : Cluster) (name : String) (status : PlanStatus) : Cluster :=
  { s with plans := updatePlan name (fun p => { p with status := some status }) s.plans }

/-- Delete a candidate with the plans it owns. -/
def deleteCandidate (s : Cluster) (name : String) : Cluster :=
  let gone := s.candidates.filter (·.name = name)
  { s with
    candidates := s.candidates.filter (·.name ≠ name)
    plans := s.plans.filter fun p => gone.all fun c => p.owner ≠ .candidate c.uid }

/-- One action. A decision is admitted only on an undecided plan and only from somebody other than
the operator; names and identifiers of new objects are new. -/
def step (s : RunState) : Action → Option RunState
  | .edit content mode approval required =>
      let policy := s.cluster.policy
      some
        { cluster := { s.cluster with policy := editedPolicy policy content mode approval required }
          replaced := if content = policy.content then s.replaced else some policy.content }
  | .file name uid content replaces =>
      if s.cluster.candidates.any (fun c => c.name = name ∨ c.uid = uid) ∨
          s.cluster.plans.any (·.owner = .candidate uid) ∨
          s.cluster.executions.any (·.plan.owner = .candidate uid) then none
      else
        let filed := s.cluster.candidates ++ [{ name, uid, content, replaces }]
        some { s with cluster := { s.cluster with candidates := filed } }
  | .decide name approve actor =>
      match (s.cluster.findPlan name).bind (·.status) with
      | none => none
      | some status =>
          if hasTerminalDecision status ∨ actor = autoApprovalActor then none
          else
            let decided := decidedStatus status approve actor
            some { s with cluster := recordDecision s.cluster name decided }
  | .deleteCandidate name => some { s with cluster := deleteCandidate s.cluster name }
  | .deletePlan name =>
      let plans := s.cluster.plans.filter (·.name ≠ name)
      some { s with cluster := { s.cluster with plans := plans } }
  | .reconcile pass completed =>
      some { s with cluster := s.cluster.writes ((reconcile hash pass s.cluster).take completed) }
  | .reconcileCandidate name parent input completed =>
      match s.cluster.findCandidate name with
      | none => none
      | some c =>
          let ws := (reconcileCandidate hash parent c input s.cluster).take completed
          some { s with cluster := s.cluster.writes ws }
  | .applyReplacements completed =>
      some { s with cluster := s.cluster.writes ((applyReplacements s.cluster).take completed) }

/-- The states reached from a new policy by steps that meet the condition. -/
inductive RunsTo (Meets : RunState → Action → Prop) : RunState → Prop
  | start (policy : Policy) : RunsTo Meets ⟨{ policy }, none⟩
  | step {s s' : RunState} {a : Action} (run : RunsTo Meets s) (meets : Meets s a)
      (next : step hash s a = some s') : RunsTo Meets s'

/-- Run a list of actions that meet the condition. -/
def runActions (Meets : RunState → Action → Prop) [∀ s a, Decidable (Meets s a)] (s : RunState) :
    List Action → Option RunState
  | [] => some s
  | a :: actions =>
      if Meets s a then (step hash s a).bind (runActions Meets · actions) else none

/-- A run goes on with any actions whose condition holds. -/
theorem RunsTo.actions {Meets : RunState → Action → Prop} [∀ s a, Decidable (Meets s a)]
    {s s' : RunState} {actions : List Action} (run : RunsTo hash Meets s)
    (h : runActions hash Meets s actions = some s') : RunsTo hash Meets s' := by
  induction actions generalizing s with
  | nil =>
    cases h
    exact run
  | cons a actions ih =>
    rw [runActions] at h
    split_ifs at h with hmeets
    obtain ⟨next, hnext, hrest⟩ := Option.bind_eq_some_iff.1 h
    exact ih (.step run hmeets hnext) hrest

/-! ## Conditions on a list of writes -/

/-- Each write of the list meets the condition in the state it is made in. -/
def AllWrites (P : Cluster → Write → Prop) : Cluster → List Write → Prop
  | _, [] => True
  | s, w :: ws => P s w ∧ AllWrites P (w.apply s) ws

section AllWrites

variable {P : Cluster → Write → Prop} {s : Cluster} {ws ws' : List Write}

theorem allWrites_append : AllWrites P s (ws ++ ws') ↔
    AllWrites P s ws ∧ AllWrites P (s.writes ws) ws' := by
  induction ws generalizing s with
  | nil => simp [AllWrites]
  | cons w ws ih => simp [AllWrites, ih, and_assoc]

theorem AllWrites.take (h : AllWrites P s ws) (n : Nat) : AllWrites P s (ws.take n) := by
  rw [← List.take_append_drop n ws, allWrites_append] at h
  exact h.1

theorem allWrites_of_forall (h : ∀ w ∈ ws, ∀ t, P t w) : AllWrites P s ws := by
  induction ws generalizing s with
  | nil => trivial
  | cons w ws ih =>
    exact ⟨h w List.mem_cons_self s, ih fun w' hw' => h w' (List.mem_cons_of_mem _ hw')⟩

theorem allWrites_andThen {second : Cluster → List Write} :
    AllWrites P s (andThen ws second s) ↔
      AllWrites P s ws ∧ AllWrites P (s.writes ws) (second (s.writes ws)) :=
  allWrites_append

/-- An invariant of writes that meet the condition holds after the list. -/
theorem AllWrites.invariant {Inv : Cluster → Prop}
    (hstep : ∀ t w, Inv t → P t w → Inv (w.apply t)) (hs : Inv s) (h : AllWrites P s ws) :
    Inv (s.writes ws) := by
  induction ws generalizing s with
  | nil => exact hs
  | cons w ws ih => exact ih (hstep s w hs h.1) h.2

end AllWrites

/-! ## What a reconcile may write -/

/-- A write that retires a plan or a candidate, moves a plan's phase or reports. -/
def Write.quiet : Write → Bool
  | .planStatus _ (.compute _) | .planStatus _ (.approve _) => false
  | .planStatus _ _ | .report _ _ | .markSuperseded _ => true
  | _ => false

/-- The policy executes what the operator approves itself. -/
def Policy.autoExecutes (policy : Policy) : Bool :=
  !policy.mode.neverExecutes && policy.effectiveApproval == .auto

/-- The plan may be approved by the operator: it is an auto-approved policy's own, or it carries an
approval already. -/
def Approvable (policy : Policy) (plan : Plan) : Prop :=
  plan.owner = .policy ∧ policy.autoExecutes = true ∨
    checkPlanApproval plan = .approved ∧ plan.live = true

/-- The operator remembers the content the policy carries. A new plan has a new name and no
status, a computed status goes over no decision and has none, and the operator approves only what
it may. A candidate is promoted for the content the policy carries. -/
def Permitted (s : Cluster) : Write → Prop
  | .stampContentDigest digest => digest = s.policy.content
  | .createPlan plan => plan.status = none ∧ ∀ q ∈ s.plans, q.name ≠ plan.name
  | .planStatus name (.compute status) => (∃ req, status = computedStatus req) ∧
      ∀ q ∈ s.plans, q.name = name → q.status.any hasTerminalDecision = false
  | .planStatus name (.approve _) => ∃ plan ∈ s.plans, plan.name = name ∧
      Approvable s.policy plan
  | .markPromoted name => ∃ c ∈ s.candidates, c.name = name ∧
      c.contentDigest = some s.policy.content
  | _ => True

theorem permitted_of_quiet {s : Cluster} {w : Write} (h : w.quiet = true) : Permitted s w := by
  unfold Write.quiet at h
  split at h <;> simp_all [Permitted]

theorem allWrites_permitted_of_quiet {s : Cluster} {ws : List Write}
    (h : ∀ w ∈ ws, w.quiet = true) : AllWrites Permitted s ws :=
  allWrites_of_forall fun w hw _ => permitted_of_quiet (h w hw)

/-- Superseding plans is quiet. -/
theorem quiet_supersedeStalePlans {existing : List Plan} {kept : String} {req : PlanRequest} :
    ∀ w ∈ supersedeStalePlans existing kept req, w.quiet = true := by
  intro w hw
  obtain ⟨plan, -, hplan⟩ := List.mem_filterMap.1 hw
  split at hplan
  · cases hplan
  · split at hplan
    · cases hplan
      rfl
    · obtain ⟨cause, -, rfl⟩ := Option.map_eq_some_iff.1 hplan
      rfl

theorem quiet_recognitionReports {action : PromotionAction} :
    ∀ w ∈ recognitionReports action, w.quiet = true := by
  intro w hw
  unfold recognitionReports at hw
  split at hw <;> simp at hw
  · subst hw; rfl
  · subst hw; rfl
  · obtain ⟨c, -, rfl⟩ := hw; rfl
  · obtain ⟨c, -, rfl⟩ := hw; rfl

/-- The bookkeeping retires and reports, and promotes at most one candidate, last, that records the
content. -/
theorem recordPromotion_eq (s : Cluster) (digest : String) :
    ∃ retired promoted, recordPromotion s digest = retired ++ promoted ∧
      (∀ w ∈ retired, w.quiet = true) ∧
      (promoted = [] ∨ ∃ c ∈ s.candidates, c.contentDigest = some digest ∧
        promoted = [.markPromoted c.name]) := by
  unfold recordPromotion
  split
  · exact ⟨[], [], rfl, by simp, .inl rfl⟩
  · rename_i record hrecord
    refine ⟨_, _, rfl, fun w hw => ?_, ?_⟩
    · rcases List.mem_append.1 hw with hw | hw
      · obtain ⟨name, -, hw⟩ := List.mem_flatMap.1 hw
        unfold supersedeLivePlan at hw
        split at hw <;> simp at hw
        · subst hw; rfl
        · rcases hw with rfl | rfl <;> rfl
      · obtain ⟨name, -, hw⟩ := List.mem_flatMap.1 hw
        unfold supersedeStranded at hw
        split at hw <;> simp at hw
        rcases hw with rfl | rfl <;> rfl
    · split
      · rename_i hnew
        obtain ⟨f, hf, hname, hdigest⟩ := exists_of_newlyPromoted hrecord hnew
        obtain ⟨c, hc, rfl⟩ := List.mem_map.1 hf
        exact .inr ⟨c, hc, hdigest, by rw [hname]; rfl⟩
      · exact .inl rfl

theorem quiet_retireActionablePlans {s : Cluster} :
    ∀ w ∈ retireActionablePlans s, w.quiet = true := by
  intro w hw
  obtain ⟨plan, -, rfl⟩ := List.mem_map.1 hw
  rfl

theorem quiet_recoverStuckPlan {s : Cluster} {now : Nat} :
    ∀ w ∈ recoverStuckPlan s now, w.quiet = true := by
  intro w hw
  unfold recoverStuckPlan at hw
  simp only at hw
  split at hw
  · simp at hw
  · split at hw
    · simp at hw
    · split at hw <;> simp at hw
      subst hw
      rfl

theorem quiet_applyReplacements {s : Cluster} :
    ∀ w ∈ applyReplacements s, w.quiet = true := by
  intro w hw
  obtain ⟨c, -, rfl⟩ := List.mem_map.1 hw
  rfl

/-! ## The specification -/

/-- What of the policy no write changes. -/
def Policy.spec (policy : Policy) : String × PolicyMode × Option ApprovalMode × Bool :=
  (policy.content, policy.mode, policy.approval, policy.requirePhysicalIdentity)

theorem spec_apply (s : Cluster) (w : Write) : (w.apply s).policy.spec = s.policy.spec := by
  cases w <;> rfl

theorem spec_writes (s : Cluster) (ws : List Write) :
    (s.writes ws).policy.spec = s.policy.spec := by
  induction ws generalizing s with
  | nil => rfl
  | cons w ws ih => rw [Cluster.writes_cons, ih, spec_apply]

theorem autoExecutes_congr {p q : Policy} (h : p.spec = q.spec) :
    p.autoExecutes = q.autoExecutes := by
  simp only [Policy.spec, Prod.mk.injEq] at h
  simp [Policy.autoExecutes, Policy.effectiveApproval, h.2.1, h.2.2.1]

/-- Quiet writes leave the digest a candidate records. -/
theorem contentDigest_after {ws : List Write} (h : ∀ w ∈ ws, w.quiet = true) (c : Candidate) :
    (c.after ws).contentDigest = c.contentDigest := by
  induction ws generalizing c with
  | nil => rfl
  | cons w ws ih =>
    refine (ih (fun w' hw' => h w' (List.mem_cons_of_mem _ hw')) (w.toCandidate c)).trans ?_
    have hw := h w List.mem_cons_self
    cases w with
    | report name reason =>
      simp only [Write.toCandidate]
      split_ifs <;> rfl
    | markSuperseded name =>
      simp only [Write.toCandidate]
      split_ifs <;> rfl
    | planStatus name write => rfl
    | _ => cases hw

/-- The record of a promotion is permitted where it carries the policy's own content. -/
theorem permitted_recordPromotion {s : Cluster} {digest : String}
    (hdigest : digest = s.policy.content) : AllWrites Permitted s (recordPromotion s digest) := by
  obtain ⟨retired, promoted, heq, hquiet, hcase⟩ := recordPromotion_eq s digest
  rw [heq]
  refine allWrites_append.2 ⟨allWrites_permitted_of_quiet hquiet, ?_⟩
  rcases hcase with rfl | ⟨c, hc, hrecorded, rfl⟩
  · trivial
  · refine ⟨⟨c.after retired, ?_, congrArg Prod.fst (identity_after c retired), ?_⟩, trivial⟩
    · rw [candidates_writes]
      exact List.mem_map_of_mem hc
    · rw [contentDigest_after hquiet, hrecorded, hdigest]
      exact congrArg (fun spec => some spec.1) (spec_writes s retired).symm

theorem permitted_settleNoChanges {policy : Policy} {s : Cluster}
    (hcontent : policy.content = s.policy.content) :
    AllWrites Permitted s (settleNoChanges policy s) :=
  allWrites_andThen.2 ⟨permitted_recordPromotion hcontent,
    allWrites_permitted_of_quiet quiet_retireActionablePlans⟩

/-- Running a plan is permitted when what follows is. -/
theorem permitted_executePlan {policy : Policy} {pass : Pass} {name : String}
    {after : Cluster → List Write} {s : Cluster}
    (hafter : ∀ t, t.policy.spec = s.policy.spec → AllWrites Permitted t (after t)) :
    AllWrites Permitted s (executePlan policy pass name after s) := by
  unfold executePlan
  split
  · trivial
  · split
    · exact ⟨trivial, trivial⟩
    · split
      · trivial
      · split
        · exact ⟨trivial, trivial, trivial⟩
        · exact allWrites_andThen.2
            ⟨⟨trivial, trivial, trivial, trivial⟩, hafter _ (spec_writes s _)⟩

/-! ## Identities of plans -/

/-- What of a plan no write changes. -/
def Plan.identity (plan : Plan) : String × PlanOwner × Option PlanOrigin :=
  (plan.name, plan.owner, plan.origin)

/-- No two plans share a name. -/
def NodupNames (s : Cluster) : Prop := (s.plans.map Plan.name).Nodup

theorem map_identity_updatePlan (n : String) {f : Plan → Plan}
    (hf : ∀ p, (f p).identity = p.identity) (plans : List Plan) :
    (updatePlan n f plans).map Plan.identity = plans.map Plan.identity := by
  rw [updatePlan, List.map_map]
  refine List.map_congr_left fun p _ => ?_
  by_cases hp : p.name = n
  · simp [hp, hf]
  · simp [hp]

theorem map_name_updatePlan {name : String} {f : Plan → Plan}
    (hf : ∀ p, (f p).identity = p.identity) (plans : List Plan) :
    (updatePlan name f plans).map Plan.name = plans.map Plan.name := by
  have hnames := congrArg (List.map Prod.fst) (map_identity_updatePlan name hf plans)
  rw [List.map_map, List.map_map] at hnames
  exact hnames

/-- A write keeps the identities and may append one plan. -/
theorem map_identity_apply (s : Cluster) (w : Write) :
    (w.apply s).plans.map Plan.identity = s.plans.map Plan.identity ++
      (match w with
        | .createPlan plan => [plan.identity]
        | _ => []) := by
  cases w with
  | createPlan plan => simp [Write.apply]
  | planStatus name write =>
    rw [List.append_nil]
    refine map_identity_updatePlan name ?_ s.plans
    intro p
    rfl
  | _ => simp [Write.apply, Cluster.onCandidate]

theorem mem_identity_writes {s : Cluster} {ws : List Write}
    {d : String × PlanOwner × Option PlanOrigin}
    (h : d ∈ s.plans.map Plan.identity) : d ∈ (s.writes ws).plans.map Plan.identity := by
  induction ws generalizing s with
  | nil => exact h
  | cons w ws ih =>
    refine ih ?_
    rw [map_identity_apply]
    exact List.mem_append_left _ h

/-- A permitted write leaves the names of plans distinct. -/
theorem NodupNames.apply {s : Cluster} {w : Write} (hs : NodupNames s) (hw : Permitted s w) :
    NodupNames (w.apply s) := by
  have hnames : ∀ t : Cluster, t.plans.map Plan.name =
      (t.plans.map Plan.identity).map Prod.fst := by
    intro t
    rw [List.map_map]
    rfl
  rw [NodupNames, hnames, map_identity_apply, List.map_append, ← hnames]
  cases w with
  | createPlan plan =>
    refine List.nodup_append.2 ⟨hs, by simp, ?_⟩
    intro a ha b hb
    obtain ⟨q, hq, rfl⟩ := List.mem_map.1 ha
    rw [List.map_singleton, List.mem_singleton] at hb
    rw [hb]
    exact hw.2 q hq
  | _ =>
    rw [List.map_nil, List.append_nil]
    exact hs

theorem NodupNames.writes {s : Cluster} {ws : List Write} (hs : NodupNames s)
    (h : AllWrites Permitted s ws) : NodupNames (s.writes ws) :=
  h.invariant (fun _ _ hs hw => hs.apply hw) hs

theorem mem_of_findPlan {s : Cluster} {name : String} {plan : Plan}
    (h : s.findPlan name = some plan) : plan ∈ s.plans ∧ plan.name = name :=
  ⟨List.mem_of_find?_eq_some h, by simpa using List.find?_some h⟩

/-- Plans with one name are one plan. -/
theorem NodupNames.eq_of_name {s : Cluster} (hs : NodupNames s) {p q : Plan} (hp : p ∈ s.plans)
    (hq : q ∈ s.plans) (h : p.name = q.name) : p = q :=
  List.inj_on_of_nodup_map hs hp hq h

/-- The plan found under a name has the identity recorded for that name. -/
theorem NodupNames.identity_of_findPlan {s : Cluster} (hs : NodupNames s) {name : String}
    {plan : Plan} {d : String × PlanOwner × Option PlanOrigin}
    (hd : d ∈ s.plans.map Plan.identity) (hname : d.1 = name)
    (h : s.findPlan name = some plan) : plan.identity = d := by
  obtain ⟨q, hq, rfl⟩ := List.mem_map.1 hd
  obtain ⟨hplan, hplanName⟩ := mem_of_findPlan h
  rw [hs.eq_of_name hplan hq (hplanName.trans hname.symm)]

/-! ## Standing approvals -/

/-- A live plan with an approval. -/
def standing (plan : Plan) : Prop := plan.live = true ∧ checkPlanApproval plan = .approved

instance (plan : Plan) : Decidable (standing plan) :=
  inferInstanceAs (Decidable (_ ∧ _))

/-- The identity that decided the plan. -/
def Plan.decidedBy? (plan : Plan) : Option String := plan.status.bind (·.decidedBy)

/-- An approved plan is decided, and not denied. -/
theorem decided_of_approved {status : PlanStatus} {plan : Plan} (hstatus : plan.status = some status)
    (h : checkPlanApproval plan = .approved) :
    isDenied status = false ∧ hasTerminalDecision status = true := by
  rw [checkPlanApproval, hstatus] at h
  simp only at h
  split_ifs at h with hdenied happroved
  refine ⟨by simpa [isDenied] using hdenied, ?_⟩
  obtain ⟨c, hc, hcase⟩ := List.any_eq_true.1 happroved
  rw [Bool.and_eq_true] at hcase
  exact List.any_eq_true.2 ⟨c, hc, by simp [hcase.1, hcase.2]⟩

/-- An approval over an approved plan moves its phase only. -/
theorem approve_apply_of_approved {status : PlanStatus} {plan : Plan}
    (hstatus : plan.status = some status) (h : checkPlanApproval plan = .approved)
    (reason : String) :
    (PlanWrite.approve reason).apply plan.status = some { status with phase := .approved } := by
  obtain ⟨hdenied, hterminal⟩ := decided_of_approved hstatus h
  simp [PlanWrite.apply, hstatus, approvedStatus, hdenied, hterminal]

/-- An approval that stands after the write stood before it, by the same decision, or the operator
recorded it on a plan of an auto-approved policy. -/
theorem standing_of_apply {s : Cluster} (hs : NodupNames s) {w : Write} (hw : Permitted s w)
    {plan : Plan} (hplan : plan ∈ (w.apply s).plans) (hstanding : standing plan) :
    (∃ old ∈ s.plans, old.identity = plan.identity ∧ standing old ∧
      old.decidedBy? = plan.decidedBy?) ∨
    plan.owner = .policy ∧ s.policy.autoExecutes = true := by
  cases w with
  | createPlan new =>
    rcases List.mem_append.1 hplan with hplan | hplan
    · exact .inl ⟨plan, hplan, rfl, hstanding, rfl⟩
    · rw [List.mem_singleton] at hplan
      subst hplan
      have hlive := hstanding.1
      simp [Plan.live, hw.1] at hlive
  | planStatus name write =>
    obtain ⟨old, hold, rfl⟩ := List.mem_map.1 hplan
    by_cases hname : old.name = name
    · rw [if_pos hname] at hstanding ⊢
      cases write with
      | compute status =>
        obtain ⟨⟨req, rfl⟩, -⟩ := hw
        have hpending : PlanApprovalState.pending = .approved := hstanding.2
        cases hpending
      | approve reason =>
        obtain ⟨approved, hmem, happroved, hcase⟩ := hw
        obtain rfl := hs.eq_of_name hmem hold (happroved.trans hname.symm)
        rcases hcase with hauto | ⟨hdecided, hlive⟩
        · exact .inr hauto
        · refine .inl ⟨approved, hold, rfl, ⟨hlive, hdecided⟩, ?_⟩
          cases hstatus : approved.status with
          | none =>
            rw [checkPlanApproval, hstatus] at hdecided
            cases hdecided
          | some status =>
            have hwritten := approve_apply_of_approved hstatus hdecided reason
            calc approved.decidedBy?
                _ = status.decidedBy := by rw [Plan.decidedBy?, hstatus, Option.bind_some]
                _ = ((PlanWrite.approve reason).apply approved.status).bind (·.decidedBy) := by
                  rw [hwritten, Option.bind_some]
      | _ =>
        have hlive := hstanding.1
        simp [Plan.live, PlanWrite.apply, supersededStatus, appliedStatus, failedStatus,
          PlanPhase.actionable] at hlive
    · rw [if_neg hname] at hstanding ⊢
      exact .inl ⟨old, hold, rfl, hstanding, rfl⟩
  | _ => exact .inl ⟨plan, hplan, rfl, hstanding, rfl⟩

/-- A decision on a plan: what stands afterwards stood before, by the same decision, or is the plan
just approved. -/
theorem standing_of_recordDecision {s : Cluster} (hs : NodupNames s) {name actor : String}
    {approve : Bool} {decided : Plan} {status : PlanStatus} (hfind : s.findPlan name = some decided)
    (hwritten : decided.status = some status) {plan : Plan}
    (hplan : plan ∈ (recordDecision s name (decidedStatus status approve actor)).plans)
    (hstanding : standing plan) :
    ∃ old ∈ s.plans, old.identity = plan.identity ∧
      (standing old ∧ old.decidedBy? = plan.decidedBy? ∨
        approve = true ∧ old.name = name ∧ old.live = true ∧ plan.decidedBy? = some actor) := by
  obtain ⟨hmem, hname⟩ := mem_of_findPlan hfind
  obtain ⟨old, hold, rfl⟩ := List.mem_map.1 hplan
  by_cases hold_name : old.name = name
  · obtain rfl := hs.eq_of_name hmem hold (hname.trans hold_name.symm)
    rw [if_pos hold_name] at hstanding ⊢
    refine ⟨decided, hmem, rfl, .inr ⟨?_, hold_name, ?_, rfl⟩⟩
    · cases approve with
      | true => rfl
      | false =>
        have happroved := hstanding.2
        simp [checkPlanApproval, PlanStatus.decided, decidedStatus, setPlanCondition] at happroved
    · have hlive := hstanding.1
      rw [Plan.live, hwritten]
      exact hlive
  · rw [if_neg hold_name] at hstanding ⊢
    exact ⟨old, hold, rfl, .inl ⟨hstanding, rfl⟩⟩

/-! ## Identities of candidates -/

/-- What a status write does to a candidate: it keeps the identity, never reopens a terminal
candidate and records no digest but that of the content. -/
structure CandidateStep (old new : Candidate) : Prop where
  identity : new.identity = old.identity
  terminal : old.phase.isTerminal = true → new = old
  digest : new.contentDigest = old.contentDigest ∨ new.contentDigest = some old.content

theorem CandidateStep.refl (c : Candidate) : CandidateStep c c := ⟨rfl, fun _ => rfl, .inl rfl⟩

/-- An update of one candidate is a step of every candidate. -/
theorem candidateStep_onCandidate {name : String} {f : Candidate → Candidate}
    (hf : ∀ c, (f c).identity = c.identity)
    (hd : ∀ c, (f c).contentDigest = c.contentDigest ∨ (f c).contentDigest = some c.content)
    (candidates : List Candidate) :
    List.Forall₂ CandidateStep candidates (updateCandidate name f candidates) := by
  rw [updateCandidate, List.forall₂_map_right_iff, List.forall₂_same]
  intro c _
  split_ifs with hc
  · refine ⟨hf c, fun hterminal => ?_, hd c⟩
    rw [hterminal] at hc
    exact absurd hc.2 (by decide)
  · exact .refl c

/-- Every write steps each candidate. -/
theorem candidateStep_apply (s : Cluster) (w : Write) :
    List.Forall₂ CandidateStep s.candidates (w.apply s).candidates := by
  have hsame : List.Forall₂ CandidateStep s.candidates s.candidates :=
    List.forall₂_same.2 fun c _ => .refl c
  cases w with
  | adopt name =>
    refine candidateStep_onCandidate ?_ ?_ _ <;> intro c
    · rfl
    · exact .inr rfl
  | markPlanned name planRef =>
    refine candidateStep_onCandidate ?_ ?_ _ <;> intro c
    · rfl
    · exact .inl rfl
  | report name reason =>
    refine candidateStep_onCandidate ?_ ?_ _ <;> intro c
    · rfl
    · exact .inl rfl
  | markSuperseded name =>
    refine candidateStep_onCandidate ?_ ?_ _ <;> intro c
    · rfl
    · exact .inl rfl
  | markPromoted name =>
    refine candidateStep_onCandidate ?_ ?_ _ <;> intro c
    · rfl
    · exact .inl rfl
  | _ => exact hsame

/-- A candidate after the write was there before it. -/
theorem candidate_of_apply {s : Cluster} {w : Write} {c : Candidate}
    (hc : c ∈ (w.apply s).candidates) : ∃ old ∈ s.candidates, CandidateStep old c := by
  have hstep := candidateStep_apply s w
  generalize s.candidates = olds at hstep ⊢
  generalize (w.apply s).candidates = news at hstep hc
  induction hstep with
  | nil => cases hc
  | cons hhead _ ih =>
    rcases List.mem_cons.1 hc with rfl | hc
    · exact ⟨_, List.mem_cons_self, hhead⟩
    · obtain ⟨old, hold, hstep⟩ := ih hc
      exact ⟨old, List.mem_cons_of_mem _ hold, hstep⟩

theorem CandidateStep.open_of_open {old new : Candidate} (h : CandidateStep old new)
    (hopen : new.phase.isTerminal = false) : old.phase.isTerminal = false := by
  cases hterminal : old.phase.isTerminal with
  | false => rfl
  | true =>
    rw [h.terminal hterminal, hterminal] at hopen
    exact hopen

theorem map_candidateIdentity_apply (s : Cluster) (w : Write) :
    (w.apply s).candidates.map Candidate.identity = s.candidates.map Candidate.identity := by
  have hstep := candidateStep_apply s w
  generalize s.candidates = old at hstep ⊢
  generalize (w.apply s).candidates = new at hstep ⊢
  induction hstep with
  | nil => rfl
  | cons hhead _ ih => rw [List.map_cons, List.map_cons, hhead.identity, ih]

/-- Names and identifiers tell objects apart. -/
structure WellNamed (s : Cluster) : Prop where
  plans : NodupNames s
  names : (s.candidates.map Candidate.name).Nodup
  uids : (s.candidates.map Candidate.uid).Nodup

/-- A permitted write leaves the names well formed. -/
theorem WellNamed.apply {s : Cluster} {w : Write} (hs : WellNamed s) (hw : Permitted s w) :
    WellNamed (w.apply s) := by
  have hproject : ∀ (f : String × String × String → String),
      (w.apply s).candidates.map (fun c => f c.identity) =
        s.candidates.map fun c => f c.identity := by
    intro f
    have hmap := congrArg (List.map f) (map_candidateIdentity_apply s w)
    rw [List.map_map, List.map_map] at hmap
    exact hmap
  exact ⟨hs.plans.apply hw, (hproject Prod.fst).symm ▸ hs.names,
    (hproject (·.2.1)).symm ▸ hs.uids⟩

theorem WellNamed.writes {s : Cluster} {ws : List Write} (hs : WellNamed s)
    (h : AllWrites Permitted s ws) : WellNamed (s.writes ws) :=
  h.invariant (fun _ _ hs hw => hs.apply hw) hs

/-- The candidate of a name is found under it. -/
theorem WellNamed.findCandidate {s : Cluster} (hs : WellNamed s) {c : Candidate}
    (hc : c ∈ s.candidates) : s.findCandidate c.name = some c := by
  cases hfind : s.findCandidate c.name with
  | none =>
    have hne := List.find?_eq_none.1 hfind c hc
    simp at hne
  | some d =>
    have hd : d ∈ s.candidates := List.mem_of_find?_eq_some hfind
    have hname : d.name = c.name := by simpa using List.find?_some hfind
    rw [List.inj_on_of_nodup_map hs.names hd hc hname]

theorem mem_livePlan {s : Cluster} {c : Candidate} {plan : Plan} (h : s.livePlan c = some plan) :
    plan ∈ s.plans ∧ plan.owner = .candidate c.uid ∧ plan.live = true := by
  have hmem := List.mem_of_find?_eq_some h
  have hlive := List.find?_some h
  simp only [Cluster.plansOf, List.mem_filter, decide_eq_true_eq] at hmem
  exact ⟨hmem.1, hmem.2, hlive⟩

/-! ## Adopted plans -/

/-- An adopted plan is the live, approved plan of an open candidate that holds the policy's
content, and its base is fresh. -/
theorem adoptedPlan_spec {s : Cluster} (hs : WellNamed s) {plan : Plan}
    (h : adoptedPlan s = some plan) :
    ∃ c ∈ s.candidates, c.phase.isTerminal = false ∧ c.contentDigest = some s.policy.content ∧
      plan ∈ s.plans ∧ plan.owner = .candidate c.uid ∧ plan.live = true ∧
      checkPlanApproval plan = .approved ∧
      ∃ pin, planBasePin plan = some pin ∧ (s.policy.statusContentDigest = some pin ∨
        s.policy.statusContentDigest = some s.policy.content) := by
  unfold adoptedPlan at h
  split at h
  · rename_i name planName haction
    -- Only an approved promotion leads to an adopted plan.
    obtain ⟨⟨superseded, hdecide⟩, -⟩ := promotionAction_eq_executeApprovedPlan haction
    obtain ⟨matched, hfind, hname⟩ := exists_of_decidePromotion_eq_approved hdecide
    obtain ⟨c, hc, rfl⟩ := List.mem_map.1 (List.mem_of_find?_eq_some hfind)
    have hadopt := List.find?_some hfind
    rw [hname, Cluster.planOf, show (s.candidateFacts c).name = c.name from rfl,
      hs.findCandidate hc, Option.bind_some] at h
    obtain ⟨hlive, -⟩ := Option.filter_eq_some_iff.1 h
    obtain ⟨hmemPlan, howner, hlive'⟩ := mem_livePlan hlive
    simp only [adoptable, CandidateFacts.matchesContent, CandidateFacts.approvedPlan,
      Cluster.candidateFacts, hlive, Option.map_some, Bool.and_eq_true, Bool.not_eq_true',
      beq_iff_eq] at hadopt
    obtain ⟨⟨hopen, hdigest⟩, happroved⟩ := hadopt
    rw [Option.filter_some] at happroved
    split_ifs at happroved with hdecided
    · have hpin : ∃ pin, planBasePin plan = some pin ∧
          (s.policy.statusContentDigest = some pin ∨
            s.policy.statusContentDigest = some s.policy.content) := by
        simpa [baseIsFresh, Option.any_eq_true] using happroved
      exact ⟨c, hc, hopen, hdigest, hmemPlan, howner, hlive', by simpa using hdecided, hpin⟩
    · simp at happroved
  · cases h

/-! ## The writes of a reconcile are permitted -/

theorem betterPlan_eq {best : Option Plan} {plan p : Plan} (h : betterPlan best plan = some p) :
    p = plan ∨ best = some p := by
  unfold betterPlan at h
  split at h
  · exact .inl (Option.some.inj h).symm
  · split_ifs at h
    · exact .inl (Option.some.inj h).symm
    · exact .inr h

/-- The plan of the highest rank is one of the plans. -/
theorem mem_maxByRank {plans : List Plan} {plan : Plan} (h : maxByRank plans = some plan) :
    plan ∈ plans := by
  have hfold : ∀ (l : List Plan) (best : Option Plan) (p : Plan),
      l.foldl betterPlan best = some p → best = some p ∨ p ∈ l := by
    intro l
    induction l with
    | nil => exact fun best p hp => .inl hp
    | cons q l ih =>
      intro best p hp
      rcases ih _ p hp with hbest | hmem
      · rcases betterPlan_eq hbest with rfl | hbest
        · exact .inr List.mem_cons_self
        · exact .inl hbest
      · exact .inr (List.mem_cons_of_mem _ hmem)
  rcases hfold plans none plan h with hnone | hmem
  · cases hnone
  · exact hmem

theorem mem_reusablePlan {s : Cluster} {owner : PlanOwner} {digest : String}
    {base : Option String} {reuse : PlanReuse} {plan : Plan}
    (h : reusablePlan (s.plansOf owner) digest base reuse = some plan) :
    plan ∈ s.plans ∧ plan.owner = owner := by
  have hmem := (List.mem_filter.1 (mem_maxByRank h)).1
  simpa [Cluster.plansOf] using hmem

/-- The writes of a plan creation are permitted. -/
theorem permitted_createOrUpdatePlan {s : Cluster} (hs : NodupNames s) {req : PlanRequest}
    {result : PlanCreationResult} {ws : List Write}
    (h : createOrUpdatePlan s req = some (result, ws)) : AllWrites Permitted s ws := by
  have hretire : ∀ (t : Cluster) existing kept,
      AllWrites Permitted t (supersedeStalePlans existing kept req) := fun _ _ _ =>
    allWrites_permitted_of_quiet quiet_supersedeStalePlans
  unfold createOrUpdatePlan at h
  simp only at h
  split at h
  · cases h
    exact hretire _ _ _
  · split at h
    · cases h
      trivial
    · split at h
      · cases h
        trivial
      · split at h
        · rename_i hfind
          cases h
          have hnew : ∀ q ∈ s.plans, q.name ≠ req.planName := by
            simpa using List.find?_eq_none.1 hfind
          refine ⟨⟨rfl, hnew⟩, ⟨⟨req, rfl⟩, fun q hq hname => ?_⟩, hretire _ _ _⟩
          rcases List.mem_append.1 hq with hq | hq
          · exact absurd hname (hnew q hq)
          · rw [List.mem_singleton.1 hq]
            rfl
        · rename_i found hfind
          split_ifs at h with hresume
          cases h
          refine ⟨⟨⟨req, rfl⟩, fun q hq hname => ?_⟩, hretire _ _ _⟩
          -- The one plan of that name is the interrupted creation, which has no decision.
          obtain ⟨hmem, hfound⟩ := mem_of_findPlan hfind
          obtain rfl := hs.eq_of_name hq hmem (hname.trans hfound.symm)
          rw [canResumePlanCreation, Bool.and_eq_true, Bool.and_eq_true] at hresume
          have hundecided := hresume.2.2
          cases hstatus : q.status with
          | none => rfl
          | some status =>
            rw [hstatus, Option.all_some, Bool.and_eq_true, Bool.not_eq_true'] at hundecided
            exact hundecided.2

/-- The plan a creation names, new or reused, belongs to the owner it was requested for. -/
theorem identity_createOrUpdatePlan {s : Cluster} {req : PlanRequest} {result : PlanCreationResult}
    {ws : List Write} (h : createOrUpdatePlan s req = some (result, ws)) :
    ∃ d ∈ (s.writes ws).plans.map Plan.identity, d.1 = result.planName ∧ d.2.1 = req.owner := by
  have hold : ∀ plan, plan ∈ s.plans → plan.owner = req.owner → ∀ ws',
      ∃ d ∈ (s.writes ws').plans.map Plan.identity, d.1 = plan.name ∧ d.2.1 = req.owner :=
    fun plan hmem howner ws' =>
      ⟨plan.identity, mem_identity_writes (List.mem_map_of_mem hmem), rfl, howner⟩
  have hfound : ∀ f plan, (s.plansOf req.owner).find? f = some plan →
      plan ∈ s.plans ∧ plan.owner = req.owner := by
    intro f plan hfind
    simpa [Cluster.plansOf] using List.mem_of_find?_eq_some hfind
  unfold createOrUpdatePlan at h
  simp only at h
  split at h
  · rename_i plan hreuse
    cases h
    exact hold plan (mem_reusablePlan hreuse).1 (mem_reusablePlan hreuse).2 _
  · split at h
    · rename_i plan hfailed
      cases h
      exact hold plan (hfound _ _ hfailed).1 (hfound _ _ hfailed).2 _
    · split at h
      · rename_i plan happlied
        cases h
        exact hold plan (hfound _ _ happlied).1 (hfound _ _ happlied).2 _
      · split at h
        · cases h
          refine ⟨(newPlan req).identity, ?_, rfl, rfl⟩
          rw [Cluster.writes_cons]
          apply mem_identity_writes
          rw [map_identity_apply]
          exact List.mem_append_right _ List.mem_cons_self
        · rename_i found hfind
          split_ifs at h with hresume
          cases h
          obtain ⟨hmem, hname⟩ := mem_of_findPlan hfind
          rw [Bool.and_eq_true, beq_iff_eq] at hresume
          obtain ⟨d, hd, hdname, hdowner⟩ := hold found hmem hresume.1
            (.planStatus req.planName (.compute (computedStatus req)) ::
              supersedeStalePlans (s.plansOf req.owner) req.planName req)
          exact ⟨d, hd, hdname.trans hname, hdowner⟩

theorem permitted_planForReview {pass : Pass} {digest : String} {s : Cluster} (hs : NodupNames s) :
    AllWrites Permitted s (planForReview pass digest s) := by
  unfold planForReview
  split
  · trivial
  · rename_i result ws hcreate
    exact permitted_createOrUpdatePlan hs hcreate

/-- Approving and executing a plan that may be approved makes permitted writes. -/
theorem permitted_approveAndExecute {policy : Policy} {pass : Pass} {plan : Plan} {reason : String}
    {s : Cluster} (hmem : plan ∈ s.plans) (hplan : Approvable s.policy plan)
    {after : Cluster → List Write}
    (hafter : ∀ t, t.policy.spec = s.policy.spec → AllWrites Permitted t (after t)) :
    AllWrites Permitted s (approveAndExecute policy pass plan reason after s) := by
  unfold approveAndExecute
  split
  · trivial
  · refine allWrites_andThen.2 ⟨⟨⟨plan, hmem, rfl, hplan⟩, trivial⟩, ?_⟩
    split
    · trivial
    · exact permitted_executePlan fun t ht => hafter t (ht.trans (spec_writes s _))

/-- A pass that approves by itself makes permitted writes. -/
theorem permitted_reconcileAuto {policy : Policy} {pass : Pass} {s : Cluster} (hs : WellNamed s)
    (hspec : policy.spec = s.policy.spec) (hauto : s.policy.autoExecutes = true) :
    AllWrites Permitted s (reconcileAuto hash policy pass s) := by
  unfold reconcileAuto
  split
  · exact permitted_settleNoChanges (congrArg Prod.fst hspec)
  · split
    · trivial
    · rename_i digest hdigest
      split
      · trivial
      · rename_i hcreate
        exact permitted_createOrUpdatePlan hs.plans hcreate
      · rename_i hcreate
        exact permitted_createOrUpdatePlan hs.plans hcreate
      · rename_i result ws hcreate
        have hws := permitted_createOrUpdatePlan hs.plans hcreate
        refine allWrites_andThen.2 ⟨hws, ?_⟩
        split
        · trivial
        · split
          · trivial
          · rename_i plan hplan
            -- The plan found under the created name is the policy's own.
            obtain ⟨d, hd, hname, howner⟩ := identity_createOrUpdatePlan hcreate
            have hidentity := (hs.plans.writes hws).identity_of_findPlan hd hname hplan
            have hpolicy : plan.owner = .policy := by
              rw [← hidentity] at howner
              exact howner
            exact permitted_approveAndExecute (mem_of_findPlan hplan).1
              (.inl ⟨hpolicy, (autoExecutes_congr (spec_writes s _)).trans hauto⟩)
              fun t ht => permitted_recordPromotion
                (congrArg Prod.fst (hspec.trans (ht.trans (spec_writes s _)).symm))

/-- A pass over an approved plan makes permitted writes. -/
theorem permitted_reconcileApproved {policy : Policy} {pass : Pass} {plan : Plan} {digest : String}
    {s : Cluster} (hs : NodupNames s) (hspec : policy.spec = s.policy.spec)
    (hmem : plan ∈ s.plans) (hplan : checkPlanApproval plan = .approved ∧ plan.live = true) :
    AllWrites Permitted s (reconcileApproved policy pass plan digest s) := by
  unfold reconcileApproved
  simp only
  split
  · exact permitted_approveAndExecute hmem (.inr hplan) fun t ht =>
      permitted_recordPromotion (congrArg Prod.fst (hspec.trans ht.symm))
  · exact permitted_planForReview hs
  · exact allWrites_andThen.2
      ⟨⟨trivial, trivial⟩, permitted_settleNoChanges (congrArg Prod.fst hspec)⟩

/-- The actionable plan is a live plan of the policy. -/
theorem mem_currentActionablePlan {s : Cluster} {plan : Plan}
    (h : s.currentActionablePlan = some plan) :
    plan ∈ s.plans ∧ plan.owner = .policy ∧ plan.live = true := by
  have hmem := List.mem_of_head? h
  rw [Cluster.actionablePolicyPlans, List.mem_insertionSort] at hmem
  obtain ⟨hmem, hlive⟩ := List.mem_filter.1 hmem
  obtain ⟨hmem, howner⟩ := List.mem_filter.1 hmem
  exact ⟨hmem, by simpa using howner, hlive⟩

/-- A pass that waits for approvals makes permitted writes. -/
theorem permitted_reconcileManual {policy : Policy} {pass : Pass} {adopted : Option Plan}
    {s : Cluster} (hs : NodupNames s) (hspec : policy.spec = s.policy.spec)
    (hadopted : ∀ plan, adopted = some plan → plan ∈ s.plans ∧ plan.live = true) :
    AllWrites Permitted s (reconcileManual hash policy pass adopted s) := by
  have hsettle : ∀ ws, AllWrites Permitted (s.writes ws)
      (settleNoChanges policy (s.writes ws)) := fun ws =>
    permitted_settleNoChanges (congrArg Prod.fst (hspec.trans (spec_writes s ws).symm))
  unfold reconcileManual
  split
  · split_ifs
    · exact hsettle []
    · split
      · trivial
      · exact permitted_planForReview hs
  · rename_i plan hcurrent
    have hplan : plan ∈ s.plans ∧ plan.live = true := by
      rcases Option.or_eq_some_iff.1 hcurrent with hplan | ⟨-, hplan⟩
      · exact hadopted plan hplan
      · obtain ⟨hmem, -, hlive⟩ := mem_currentActionablePlan hplan
        exact ⟨hmem, hlive⟩
    split
    · exact ⟨trivial, trivial⟩
    · rename_i happroved
      split
      · trivial
      · exact permitted_reconcileApproved hs hspec hplan.1 ⟨happroved, hplan.2⟩
    · split
      · trivial
      · split
        · exact allWrites_andThen.2 ⟨⟨trivial, trivial⟩, hsettle _⟩
        · exact permitted_planForReview hs
        · trivial

theorem permitted_reconcileObserve {pass : Pass} {s : Cluster} (hs : NodupNames s) :
    AllWrites Permitted s (reconcileObserve hash pass s) := by
  unfold reconcileObserve
  split_ifs
  · exact allWrites_permitted_of_quiet quiet_retireActionablePlans
  · split
    · trivial
    · exact permitted_planForReview hs

/-- Reports leave the plans and the policy alone. -/
theorem writes_recognitionReports (action : PromotionAction) (t : Cluster) :
    (t.writes (recognitionReports action)).plans = t.plans ∧
      (t.writes (recognitionReports action)).policy = t.policy := by
  have hreports : ∀ (names : List String) (reason : String) (t : Cluster),
      (t.writes (names.map (Write.report · reason))).plans = t.plans ∧
        (t.writes (names.map (Write.report · reason))).policy = t.policy := by
    intro names reason
    induction names with
    | nil => exact fun t => ⟨rfl, rfl⟩
    | cons name names ih => exact fun t => ih _
  cases action with
  | mismatch names suspended => exact hreports names _ t
  | baseChanged names suspended => exact hreports names _ t
  | _ => exact ⟨rfl, rfl⟩

theorem permitted_recognized {pass : Pass} {s : Cluster} :
    AllWrites Permitted s (recognized pass s).2 := by
  unfold recognized
  split
  · trivial
  · refine allWrites_append.2
      ⟨allWrites_permitted_of_quiet quiet_recognitionReports, ?_⟩
    split
    · trivial
    · exact ⟨(congrArg Policy.content (writes_recognitionReports _ s).2).symm, trivial⟩

/-- An adopted plan comes from recognition. -/
theorem adoptedPlan_of_recognized {pass : Pass} {s : Cluster} {plan : Plan}
    (h : (recognized pass s).1 = some plan) : adoptedPlan s = some plan := by
  unfold recognized at h
  split at h
  · cases h
  · exact h

theorem plans_writes_recognized {pass : Pass} {s : Cluster} :
    (s.writes (recognized pass s).2).plans = s.plans := by
  unfold recognized
  split
  · rfl
  · rw [recognize, Cluster.writes_append]
    rw [← (writes_recognitionReports (recognizedAction s) s).1]
    split <;> rfl

/-- Recovery touches plans only. -/
theorem writes_recoverStuckPlan (s : Cluster) (now : Nat) :
    (s.writes (recoverStuckPlan s now)).policy = s.policy ∧
      (s.writes (recoverStuckPlan s now)).candidates = s.candidates := by
  unfold recoverStuckPlan
  simp only
  split
  · exact ⟨rfl, rfl⟩
  · split
    · exact ⟨rfl, rfl⟩
    · split <;> exact ⟨rfl, rfl⟩

/-- The writes of a reconcile before the flow of the policy's mode. -/
def openingWrites (pass : Pass) (s : Cluster) : List Write :=
  recoverStuckPlan s pass.now ++ (recognized pass (s.writes (recoverStuckPlan s pass.now))).2

/-- The plan recognition hands to the executor. -/
def handedOver (pass : Pass) (s : Cluster) : Option Plan :=
  (recognized pass (s.writes (recoverStuckPlan s pass.now))).1

theorem reconcile_eq (pass : Pass) (s : Cluster) :
    reconcile hash pass s = andThen (openingWrites pass s)
      (reconcileMode hash s.policy pass (handedOver pass s)) s := by
  simp only [reconcile, openingWrites, handedOver, andThen, Cluster.writes_append,
    List.append_assoc]

theorem permitted_openingWrites (pass : Pass) (s : Cluster) :
    AllWrites Permitted s (openingWrites pass s) :=
  allWrites_append.2 ⟨allWrites_permitted_of_quiet quiet_recoverStuckPlan, permitted_recognized⟩

/-- The plan handed over is stored, and it is the live, approved plan of an open candidate that
holds the policy's content. -/
theorem handedOver_spec {pass : Pass} {s : Cluster} (hs : WellNamed s) {plan : Plan}
    (h : handedOver pass s = some plan) :
    plan ∈ (s.writes (openingWrites pass s)).plans ∧
      plan.live = true ∧ checkPlanApproval plan = .approved ∧
      ∃ c ∈ (s.writes (recoverStuckPlan s pass.now)).candidates, c.phase.isTerminal = false ∧
        c.contentDigest = some s.policy.content ∧ plan.owner = .candidate c.uid := by
  obtain ⟨c, hc, hopen, hdigest, hmem, howner, hlive, happroved, -⟩ :=
    adoptedPlan_spec (hs.writes (allWrites_permitted_of_quiet quiet_recoverStuckPlan))
      (adoptedPlan_of_recognized h)
  rw [openingWrites, Cluster.writes_append, plans_writes_recognized]
  refine ⟨hmem, hlive, happroved, c, hc, hopen, ?_, howner⟩
  rw [hdigest]
  exact congrArg (fun spec => some spec.1) (spec_writes s _)

/-- Every write of a reconcile is permitted where it is made. -/
theorem permitted_reconcile {pass : Pass} {s : Cluster} (hs : WellNamed s) :
    AllWrites Permitted s (reconcile hash pass s) := by
  rw [reconcile_eq]
  have hopening := permitted_openingWrites pass s
  refine allWrites_andThen.2 ⟨hopening, ?_⟩
  have hs₂ := hs.writes hopening
  unfold reconcileMode
  split
  · exact permitted_reconcileObserve hash hs₂.plans
  · rename_i hexecutes
    split
    · rename_i happroval
      refine permitted_reconcileAuto hash hs₂ (spec_writes s _).symm ?_
      rw [autoExecutes_congr (spec_writes s _)]
      simp [Policy.autoExecutes, happroval, hexecutes]
    · refine permitted_reconcileManual hash hs₂.plans (spec_writes s _).symm fun plan hplan => ?_
      obtain ⟨hmem, hlive, -⟩ := handedOver_spec hs hplan
      exact ⟨hmem, hlive⟩

/-- Planning a candidate makes permitted writes. -/
theorem permitted_planCandidate {c : Candidate} {e : CandidateEffects} {s : Cluster}
    (hs : NodupNames s) :
    AllWrites Permitted s (planCandidate hash c e s) := by
  unfold planCandidate
  split_ifs
  · refine allWrites_append.2 ⟨allWrites_permitted_of_quiet fun w hw => ?_, trivial, trivial⟩
    obtain ⟨plan, -, rfl⟩ := List.mem_map.1 hw
    rfl
  · split
    · trivial
    · split
      · trivial
      · rename_i result ws hcreate
        exact allWrites_append.2 ⟨permitted_createOrUpdatePlan hs hcreate, trivial, trivial⟩

/-- A candidate's pass makes permitted writes. -/
theorem permitted_reconcileCandidate {parent : ParentOutcome} {c : Candidate}
    {input : CandidateInput} {s : Cluster} (hs : NodupNames s) :
    AllWrites Permitted s (reconcileCandidate hash parent c input s) := by
  have hadopt : AllWrites Permitted s
      (if c.contentDigest == some c.content then [] else [.adopt c.name]) := by
    split
    · trivial
    · exact ⟨trivial, trivial⟩
  unfold reconcileCandidate
  split
  · trivial
  · refine allWrites_andThen.2 ⟨hadopt, ?_⟩
    have hs₁ := hs.writes hadopt
    generalize s.writes _ = s₁ at hs₁ ⊢
    split
    · trivial
    · split
      · trivial
      · trivial
      · exact ⟨trivial, trivial⟩
      · split
        · exact ⟨trivial, trivial⟩
        · split
          · trivial
          · split
            · exact permitted_planCandidate hash hs₁
            · trivial

/-! ## Steps -/

/-- What a step does: an action of an author or a reviewer, or permitted writes of the
operator. -/
inductive StepCase (s : RunState) : Action → RunState → Prop
  | edit (content : String) (mode : PolicyMode) (approval : Option ApprovalMode)
      (required : Bool) :
      StepCase s (.edit content mode approval required)
        { cluster := { s.cluster with
            policy := editedPolicy s.cluster.policy content mode approval required }
          replaced := if content = s.cluster.policy.content then s.replaced
            else some s.cluster.policy.content }
  | file (name uid content : String) (replaces : Option String)
      (newCandidate : ∀ c ∈ s.cluster.candidates, c.name ≠ name ∧ c.uid ≠ uid)
      (noPlan : ∀ p ∈ s.cluster.plans, p.owner ≠ .candidate uid)
      (noExecution : ∀ e ∈ s.cluster.executions, e.plan.owner ≠ .candidate uid) :
      StepCase s (.file name uid content replaces)
        { s with cluster := { s.cluster with
            candidates := s.cluster.candidates ++ [{ name, uid, content, replaces }] } }
  | decide (name : String) (approve : Bool) (actor : String) (plan : Plan) (status : PlanStatus)
      (found : s.cluster.findPlan name = some plan) (written : plan.status = some status)
      (undecided : hasTerminalDecision status = false) (human : actor ≠ autoApprovalActor) :
      StepCase s (.decide name approve actor)
        { s with cluster :=
            recordDecision s.cluster name (decidedStatus status approve actor) }
  | deleteCandidate (name : String) :
      StepCase s (.deleteCandidate name) { s with cluster := deleteCandidate s.cluster name }
  | deletePlan (name : String) :
      StepCase s (.deletePlan name)
        { s with cluster := { s.cluster with
            plans := s.cluster.plans.filter (·.name ≠ name) } }
  | operator (a : Action) (ws : List Write) (permitted : AllWrites Permitted s.cluster ws) :
      StepCase s a { s with cluster := s.cluster.writes ws }

/-- Every step is one of these. -/
theorem step_cases {s s' : RunState} {a : Action} (hs : WellNamed s.cluster)
    (h : step hash s a = some s') : StepCase s a s' := by
  cases a with
  | edit content mode approval required =>
    cases h
    exact .edit content mode approval required
  | file name uid content replaces =>
    simp only [step] at h
    split_ifs at h with hnew
    cases h
    rw [not_or, not_or, List.any_eq_true, List.any_eq_true, List.any_eq_true] at hnew
    refine .file name uid content replaces (fun c hc => ?_) (fun p hp howner => ?_)
      fun e he howner => ?_
    · have hc' := fun hcase => hnew.1 ⟨c, hc, hcase⟩
      simpa [not_or] using hc'
    · exact hnew.2.1 ⟨p, hp, by simpa using howner⟩
    · exact hnew.2.2 ⟨e, he, by simpa using howner⟩
  | decide name approve actor =>
    simp only [step] at h
    split at h
    · cases h
    · rename_i status hstatus
      split_ifs at h with hterminal
      cases h
      obtain ⟨plan, hplan, hwritten⟩ := Option.bind_eq_some_iff.1 hstatus
      rw [not_or] at hterminal
      exact .decide name approve actor plan status hplan hwritten (by simpa using hterminal.1)
        hterminal.2
  | deleteCandidate name =>
    cases h
    exact .deleteCandidate name
  | deletePlan name =>
    cases h
    exact .deletePlan name
  | reconcile pass completed =>
    cases h
    exact .operator _ _ ((permitted_reconcile hash hs).take completed)
  | reconcileCandidate name parent input completed =>
    simp only [step] at h
    split at h
    · cases h
    · cases h
      exact .operator _ _ ((permitted_reconcileCandidate hash hs.plans).take completed)
  | applyReplacements completed =>
    cases h
    exact .operator _ _
      ((allWrites_permitted_of_quiet quiet_applyReplacements).take completed)

/-- A step leaves the names well formed. -/
theorem WellNamed.step {s s' : RunState} {a : Action} (hs : WellNamed s.cluster)
    (h : step hash s a = some s') : WellNamed s'.cluster := by
  cases step_cases hash hs h with
  | edit content mode approval required => exact ⟨hs.plans, hs.names, hs.uids⟩
  | file name uid content replaces newCandidate =>
    refine ⟨hs.plans, ?_, ?_⟩
    · rw [List.map_append, List.nodup_append]
      refine ⟨hs.names, by simp, fun a ha b hb => ?_⟩
      obtain ⟨c, hc, rfl⟩ := List.mem_map.1 ha
      rw [List.map_singleton, List.mem_singleton] at hb
      exact hb ▸ (newCandidate c hc).1
    · rw [List.map_append, List.nodup_append]
      refine ⟨hs.uids, by simp, fun a ha b hb => ?_⟩
      obtain ⟨c, hc, rfl⟩ := List.mem_map.1 ha
      rw [List.map_singleton, List.mem_singleton] at hb
      exact hb ▸ (newCandidate c hc).2
  | decide name approve actor plan status found written undecided human =>
    have hnames : (recordDecision s.cluster name (decidedStatus status approve actor)).plans.map
        Plan.name = s.cluster.plans.map Plan.name := by
      refine map_name_updatePlan ?_ _
      intro p
      rfl
    have hplans : NodupNames
        (recordDecision s.cluster name (decidedStatus status approve actor)) := by
      rw [NodupNames, hnames]
      exact hs.plans
    exact ⟨hplans, hs.names, hs.uids⟩
  | deleteCandidate name =>
    exact ⟨hs.plans.sublist (List.filter_sublist.map _), hs.names.sublist
      (List.filter_sublist.map _), hs.uids.sublist (List.filter_sublist.map _)⟩
  | deletePlan name =>
    exact ⟨hs.plans.sublist (List.filter_sublist.map _), hs.names, hs.uids⟩
  | operator _ ws permitted => exact hs.writes permitted

/-- Objects keep their own names along a run. -/
theorem RunsTo.wellNamed {Meets : RunState → Action → Prop} {s : RunState}
    (run : RunsTo hash Meets s) : WellNamed s.cluster := by
  induction run with
  | start policy => exact ⟨List.nodup_nil, List.nodup_nil, List.nodup_nil⟩
  | step _ _ next ih => exact ih.step hash next

/-- A candidate records no digest but that of its content. -/
def OwnDigests (s : Cluster) : Prop :=
  ∀ c ∈ s.candidates, ∀ d, c.contentDigest = some d → d = c.content

theorem CandidateStep.content_eq {old new : Candidate} (h : CandidateStep old new) :
    new.content = old.content :=
  congrArg (·.2.2) h.identity

theorem CandidateStep.uid_eq {old new : Candidate} (h : CandidateStep old new) :
    new.uid = old.uid :=
  congrArg (·.2.1) h.identity

/-- A write leaves every recorded digest that of the candidate's own content. -/
theorem OwnDigests.apply {s : Cluster} (h : OwnDigests s) (w : Write) : OwnDigests (w.apply s) := by
  intro c hc d hd
  obtain ⟨c₀, hc₀, hstep⟩ := candidate_of_apply hc
  rcases hstep.digest with hsame | hnew
  · exact (h c₀ hc₀ d (hsame.symm.trans hd)).trans hstep.content_eq.symm
  · rw [hnew] at hd
    exact (Option.some.inj hd).symm.trans hstep.content_eq.symm

theorem OwnDigests.writes {s : Cluster} (h : OwnDigests s) (ws : List Write) :
    OwnDigests (s.writes ws) := by
  induction ws generalizing s with
  | nil => exact h
  | cons w ws ih => exact ih (h.apply w)

/-- So does a step. -/
theorem OwnDigests.step {s s' : RunState} {a : Action} (hs : WellNamed s.cluster)
    (h : OwnDigests s.cluster) (next : step hash s a = some s') : OwnDigests s'.cluster := by
  cases step_cases hash hs next with
  | file name uid content replaces =>
    intro c hc d hd
    rcases List.mem_append.1 hc with hc | hc
    · exact h c hc d hd
    · rw [List.mem_singleton.1 hc] at hd
      cases hd
  | deleteCandidate name => exact fun c hc => h c (List.mem_of_mem_filter hc)
  | operator _ ws permitted => exact h.writes ws
  | edit | decide | deletePlan => exact h

theorem RunsTo.ownDigests {Meets : RunState → Action → Prop} {s : RunState}
    (run : RunsTo hash Meets s) : OwnDigests s.cluster := by
  induction run with
  | start policy => exact fun _ hc => absurd hc List.not_mem_nil
  | step run _ next ih => exact ih.step hash (run.wellNamed hash) next

end PgRoles.Operator

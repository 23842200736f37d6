import PgRoles.Operator.Execution
import PgRoles.Operator.PromotionBase

/-!
# Execution only with authority

Authority to execute is spread over a plan's phase, its conditions, the recorded decider and digest
and the policy's present settings. A manually approved policy reads the `Approved` condition and
not who set it, so a plan the operator approved itself, before the policy was switched to manual
approval, still runs (`autoApproval_survives_switch`).

`executes_with_authority` holds in every run in which manual approval is not switched on over a
live plan that the operator approved itself.
-/

set_option autoImplicit false

namespace PgRoles.Operator

open PgRoles.Core PgRoles.Lib

variable (hash : ByteArray → String)

/-! ## The condition -/

/-- The policy executes, and only what a reviewer approved. -/
def Policy.requiresReview (policy : Policy) : Bool :=
  !policy.mode.neverExecutes && policy.effectiveApproval == .manual

/-- Somebody other than the operator decided the plan. -/
def decidedByReviewer (plan : Plan) : Prop :=
  ∃ actor, plan.decidedBy? = some actor ∧ actor ≠ autoApprovalActor

instance (plan : Plan) : Decidable (decidedByReviewer plan) :=
  decidable_of_iff (plan.decidedBy?.any (· ≠ autoApprovalActor) = true) <| by
    simp [decidedByReviewer, Option.any_eq_true]

/-- An edit that switches manual approval on finds no standing approval of the operator on a plan
of the policy's own. -/
def KeepsAuthority (s : RunState) : Action → Prop
  | .edit content mode approval required =>
      s.cluster.policy.requiresReview = false →
      (editedPolicy s.cluster.policy content mode approval required).requiresReview = true →
      ∀ plan ∈ s.cluster.plans, plan.owner = .policy → standing plan → decidedByReviewer plan
  | _ => True

instance (s : RunState) : (a : Action) → Decidable (KeepsAuthority s a)
  | .edit content mode approval required =>
      inferInstanceAs (Decidable (s.cluster.policy.requiresReview = false →
        (editedPolicy s.cluster.policy content mode approval required).requiresReview = true →
        ∀ plan ∈ s.cluster.plans, plan.owner = .policy → standing plan → decidedByReviewer plan))
  | .file .. | .decide .. | .deleteCandidate .. | .deletePlan .. | .reconcile ..
  | .reconcileCandidate .. | .applyReplacements .. => inferInstanceAs (Decidable True)

/-! ## The invariant -/

/-- A standing approval is a reviewer's, or the operator's on a plan of the policy's own while the
policy requires no review. -/
def ApprovalsAuthorised (s : Cluster) : Prop :=
  ∀ plan ∈ s.plans, standing plan →
    decidedByReviewer plan ∨ plan.owner = .policy ∧ s.policy.requiresReview = false

theorem requiresReview_congr {p q : Policy} (h : p.spec = q.spec) :
    p.requiresReview = q.requiresReview := by
  simp only [Policy.spec, Prod.mk.injEq] at h
  simp [Policy.requiresReview, Policy.effectiveApproval, h.2.1, h.2.2.1]

theorem requiresReview_eq_false_of_autoExecutes {policy : Policy}
    (h : policy.autoExecutes = true) : policy.requiresReview = false := by
  rw [Policy.autoExecutes, Bool.and_eq_true, beq_iff_eq] at h
  simp [Policy.requiresReview, h.2]

theorem decidedByReviewer_congr {plan plan' : Plan} (h : plan.decidedBy? = plan'.decidedBy?) :
    decidedByReviewer plan ↔ decidedByReviewer plan' := by
  rw [decidedByReviewer, decidedByReviewer, h]

theorem ApprovalsAuthorised.apply {s : Cluster} (hs : NodupNames s) (h : ApprovalsAuthorised s)
    {w : Write} (hw : Permitted s w) : ApprovalsAuthorised (w.apply s) := by
  intro plan hplan hstanding
  rw [requiresReview_congr (spec_apply s w)]
  rcases standing_of_apply hs hw hplan hstanding with ⟨old, hold, hidentity, hstood, hsame⟩ | hauto
  · have howner : old.owner = plan.owner := congrArg (·.2.1) hidentity
    rw [← decidedByReviewer_congr hsame, ← howner]
    exact h old hold hstood
  · exact .inr ⟨hauto.1, requiresReview_eq_false_of_autoExecutes hauto.2⟩

theorem ApprovalsAuthorised.writes {s : Cluster} {ws : List Write} (hs : WellNamed s)
    (h : ApprovalsAuthorised s) (hws : AllWrites Permitted s ws) :
    ApprovalsAuthorised (s.writes ws) := by
  have hinv : ∀ t w, WellNamed t ∧ ApprovalsAuthorised t → Permitted t w →
      WellNamed (w.apply t) ∧ ApprovalsAuthorised (w.apply t) := fun t w ht hw =>
    ⟨ht.1.apply hw, ht.2.apply ht.1.plans hw⟩
  exact (hws.invariant hinv ⟨hs, h⟩).2

theorem ApprovalsAuthorised.step {s s' : RunState} {a : Action} (hs : WellNamed s.cluster)
    (h : ApprovalsAuthorised s.cluster) (hmeets : KeepsAuthority s a)
    (next : step hash s a = some s') : ApprovalsAuthorised s'.cluster := by
  cases step_cases hash hs next with
  | edit content mode approval required =>
    intro plan hplan hstanding
    rcases h plan hplan hstanding with hreviewer | ⟨howner, hreview⟩
    · exact .inl hreviewer
    · cases hnew : (editedPolicy s.cluster.policy content mode approval required).requiresReview with
      | false => exact .inr ⟨howner, rfl⟩
      | true => exact .inl (hmeets hreview hnew plan hplan howner hstanding)
  | decide name approve actor decided status found written undecided human =>
    intro plan hplan hstanding
    obtain ⟨old, hold, hidentity, hcase⟩ :=
      standing_of_recordDecision hs.plans found written hplan hstanding
    rcases hcase with ⟨hstood, hsame⟩ | ⟨-, -, -, hactor⟩
    · have howner : old.owner = plan.owner := congrArg (·.2.1) hidentity
      rw [← decidedByReviewer_congr hsame, ← howner]
      exact h old hold hstood
    · exact .inl ⟨actor, hactor, human⟩
  | deleteCandidate name => exact fun plan hplan => h plan (List.mem_of_mem_filter hplan)
  | deletePlan name => exact fun plan hplan => h plan (List.mem_of_mem_filter hplan)
  | file => exact h
  | operator _ ws permitted => exact h.writes hs permitted

theorem RunsTo.approvalsAuthorised {s : RunState} (run : RunsTo hash KeepsAuthority s) :
    ApprovalsAuthorised s.cluster := by
  induction run with
  | start policy => exact fun _ hplan => absurd hplan List.not_mem_nil
  | step run meets next ih => exact ih.step hash (run.wellNamed hash) meets next

/-! ## Denials -/

/-- The plan carries a denial. -/
def denied (plan : Plan) : Prop := plan.status.any isDenied = true

/-- A condition of another type is not touched. -/
theorem decided_setPlanCondition {conditions : List PolicyCondition} {c : PolicyCondition}
    {t : ConditionType} (hne : c.conditionType ≠ t) :
    (setPlanCondition conditions c).any (fun c => c.conditionType == t && c.status) =
      conditions.any fun c => c.conditionType == t && c.status := by
  rw [setPlanCondition, List.any_append, List.any_filter]
  have hlast : ([c].any fun c => c.conditionType == t && c.status) = false := by
    simp [hne]
  rw [hlast, Bool.or_false]
  congr 1
  funext d
  by_cases hd : d.conditionType = t
  · have hother : d.conditionType ≠ c.conditionType := fun h => hne (h.symm.trans hd)
    simp [hd, Ne.symm hne]
  · simp [hd]

theorem isDenied_supersededStatus (status : PlanStatus) (cause : SupersedeCause) :
    isDenied (supersededStatus status cause) = isDenied status := by
  unfold supersededStatus isDenied PlanStatus.decided
  simp only
  split
  · exact decided_setPlanCondition (by simp)
  · rw [decided_setPlanCondition (by simp), decided_setPlanCondition (by simp)]

theorem isDenied_appliedStatus (status : PlanStatus) (now : Nat) :
    isDenied (appliedStatus status now) = isDenied status :=
  decided_setPlanCondition (by simp)

/-- No write of the operator removes a denial. -/
theorem denied_apply {s : Cluster} {w : Write} (hw : Permitted s w) {plan plan' : Plan}
    (hplan : plan ∈ s.plans) (hs : NodupNames s) (hdenied : denied plan)
    (hplan' : plan' ∈ (w.apply s).plans) (hname : plan'.name = plan.name) : denied plan' := by
  have hsame : ∀ old ∈ s.plans, old.name = plan.name → denied old := by
    intro old hold holdName
    rw [hs.eq_of_name hold hplan holdName]
    exact hdenied
  cases w with
  | createPlan new =>
    rcases List.mem_append.1 hplan' with hplan' | hplan'
    · exact hsame plan' hplan' hname
    · rw [List.mem_singleton] at hplan'
      rw [hplan'] at hname
      exact absurd hname.symm (hw.2 plan hplan)
  | planStatus name write =>
    obtain ⟨old, hold, rfl⟩ := List.mem_map.1 hplan'
    by_cases hwritten : old.name = name
    · rw [if_pos hwritten] at hname ⊢
      have holdDenied := hsame old hold hname
      cases hstatus : old.status with
      | none =>
        rw [denied, hstatus] at holdDenied
        cases holdDenied
      | some status =>
        rw [denied, hstatus, Option.any_some] at holdDenied
        cases write with
        | compute new =>
          -- A status is computed over no decision, and a denial is one.
          have hundecided := hw.2 old hold hwritten
          rw [hstatus, Option.any_some] at hundecided
          obtain ⟨c, hc, hcase⟩ := List.any_eq_true.1 holdDenied
          rw [Bool.and_eq_true] at hcase
          have hterminal : hasTerminalDecision status = true :=
            List.any_eq_true.2 ⟨c, hc, by simp [hcase.1, hcase.2]⟩
          rw [hterminal] at hundecided
          cases hundecided
        | supersede cause =>
          simpa [denied, PlanWrite.apply, hstatus, isDenied_supersededStatus] using holdDenied
        | approve reason =>
          simp [denied, PlanWrite.apply, hstatus, approvedStatus, holdDenied]
        | finishApplied now =>
          simpa [denied, PlanWrite.apply, hstatus, isDenied_appliedStatus] using holdDenied
        | reject | startApplying | fail =>
          simpa [denied, PlanWrite.apply, hstatus, failedStatus, isDenied, PlanStatus.decided]
            using holdDenied
    · rw [if_neg hwritten] at hname ⊢
      exact hsame old hold hname
  | _ => exact hsame plan' hplan' hname

/-- A denied plan of the name is stored. -/
def DeniedNamed (name : String) (s : Cluster) : Prop := ∃ plan ∈ s.plans, plan.name = name ∧ denied plan

theorem DeniedNamed.apply {s : Cluster} {name : String} (hs : NodupNames s)
    (h : DeniedNamed name s) {w : Write} (hw : Permitted s w) : DeniedNamed name (w.apply s) := by
  obtain ⟨plan, hplan, hname, hdenied⟩ := h
  -- The plan is still stored under its name.
  have hstored : plan.identity ∈ (w.apply s).plans.map Plan.identity := by
    rw [map_identity_apply]
    exact List.mem_append_left _ (List.mem_map_of_mem hplan)
  obtain ⟨plan', hplan', hidentity⟩ := List.mem_map.1 hstored
  have hname' : plan'.name = plan.name := congrArg Prod.fst hidentity
  exact ⟨plan', hplan', hname'.trans hname, denied_apply hw hplan hs hdenied hplan' hname'⟩

/-- A step keeps a denial as long as the plan exists. -/
theorem denied_step {s s' : RunState} {a : Action} (hs : WellNamed s.cluster)
    (next : step hash s a = some s') {plan plan' : Plan} (hplan : plan ∈ s.cluster.plans)
    (hdenied : denied plan) (hplan' : plan' ∈ s'.cluster.plans)
    (hname : plan'.name = plan.name) : denied plan' := by
  have hsame : ∀ old ∈ s.cluster.plans, old.name = plan.name → denied old := by
    intro old hold holdName
    rw [hs.plans.eq_of_name hold hplan holdName]
    exact hdenied
  cases step_cases hash hs next with
  | operator _ ws permitted =>
    have hinv : ∀ t w, WellNamed t ∧ DeniedNamed plan.name t → Permitted t w →
        WellNamed (w.apply t) ∧ DeniedNamed plan.name (w.apply t) := fun t w ht hw =>
      ⟨ht.1.apply hw, ht.2.apply ht.1.plans hw⟩
    obtain ⟨hnames, stored, hstored, hstoredName, hstoredDenied⟩ :=
      permitted.invariant hinv ⟨hs, plan, hplan, rfl, hdenied⟩
    rw [hnames.plans.eq_of_name hplan' hstored (hname.trans hstoredName.symm)]
    exact hstoredDenied
  | decide name approve actor decided status found written undecided human =>
    obtain ⟨old, hold, rfl⟩ := List.mem_map.1 hplan'
    by_cases hwritten : old.name = name
    · rw [if_pos hwritten] at hname
      -- Only an undecided plan is decided.
      obtain ⟨hmem, hfound⟩ := mem_of_findPlan found
      have hdecided := hsame decided hmem (hfound.trans (hwritten.symm.trans hname))
      rw [denied, written, Option.any_some] at hdecided
      obtain ⟨c, hc, hcase⟩ := List.any_eq_true.1 hdecided
      rw [Bool.and_eq_true] at hcase
      have hterminal : hasTerminalDecision status = true :=
        List.any_eq_true.2 ⟨c, hc, by simp [hcase.1, hcase.2]⟩
      rw [hterminal] at undecided
      cases undecided
    · rw [if_neg hwritten] at hname ⊢
      exact hsame old hold hname
  | deleteCandidate name => exact hsame plan' (List.mem_of_mem_filter hplan') hname
  | deletePlan name => exact hsame plan' (List.mem_of_mem_filter hplan') hname
  | edit | file => exact hsame plan' hplan' hname

/-! ## Executions -/

/-- Secrets that were generated meanwhile leave the digest alone: a password is bound by its
source. -/
theorem computeChangeDigest_materialize (rebuilt : BTreeMap String String) (changes : List Change)
    (inputs : EffectDigestInputs) :
    computeChangeDigest hash (materializePendingGeneratedSecrets rebuilt changes) inputs =
      computeChangeDigest hash changes inputs := by
  unfold computeChangeDigest canonicalChangeSetBytes materializePendingGeneratedSecrets
  rw [List.mapM_map]
  congr 3
  funext c
  cases c <;> rfl

theorem isDenied_of_approvedStatus {status new : PlanStatus} {reason : String}
    (h : approvedStatus status reason = some new) : isDenied new = false := by
  unfold approvedStatus at h
  split_ifs at h with hdenied hterminal
  · cases h
    exact eq_false_of_ne_true hdenied
  · cases h
    exact (decided_setPlanCondition (by simp)).trans (eq_false_of_ne_true hdenied)

/-- The plan as the executor fetched it carries no denial. -/
theorem not_denied_executionOf {policy : Policy} {pass : Pass} {plan : Plan} {reason : String}
    (h : plan.status.any isDenied = false) :
    ¬ denied (executionOf policy pass plan reason).plan := by
  intro hdenied
  rw [denied, executionOf, PlanWrite.apply] at hdenied
  cases happroved : approvedStatus (plan.status.getD {}) reason with
  | none =>
    rw [happroved, Option.none_or, h] at hdenied
    cases hdenied
  | some new =>
    rw [happroved, Option.some_or, Option.any_some, isDenied_of_approvedStatus happroved] at hdenied
    cases hdenied

/-- In every run that keeps authority, a reconcile executes only outside observe mode and never
through a denied plan; under manual approval the plan carries the approval of a reviewer and the
digest of what is executed. A denial stays with its plan. -/
theorem executes_with_authority {s : RunState} (run : RunsTo hash KeepsAuthority s) :
    (∀ pass e, .execute e ∈ reconcile hash pass s.cluster →
      s.cluster.policy.mode.neverExecutes = false ∧ ¬ denied e.plan ∧
      (s.cluster.policy.effectiveApproval = .manual →
        ∃ status digest, e.plan.status = some status ∧ status.decided .approved = true ∧
          decidedByReviewer e.plan ∧ computeChangeDigest hash e.changes e.inputs = .ok digest ∧
          planMatchesDigest status digest = true)) ∧
    ∀ a s', step hash s a = some s' → ∀ plan ∈ s.cluster.plans, denied plan →
      ∀ plan' ∈ s'.cluster.plans, plan'.name = plan.name → denied plan' := by
  have hs := run.wellNamed hash
  refine ⟨fun pass e he => ?_, fun a s' next plan hplan hdenied plan' hplan' hname =>
    denied_step hash hs next hplan hdenied hplan' hname⟩
  obtain ⟨plan, reason, pre, hexecutes, hrun⟩ := execute_mem_reconcile hash hs he
  refine ⟨hexecutes.executes, hexecutes.execution ▸ not_denied_executionOf hexecutes.undenied,
    fun hmanual => ?_⟩
  rcases hrun with ⟨hauto, -⟩ | ⟨-, rfl, hfrom, happroved, digest, hdigest, hmatch⟩
  · rw [hmanual] at hauto
    cases hauto
  · have hlive : plan.live = true := by
      rcases hfrom with hhanded | hcurrent
      · exact (handedOver_spec hs hhanded).2.1
      · exact (mem_currentActionablePlan hcurrent).2.2
    obtain ⟨status, hstatus, hmatches⟩ := (Option.any_eq_true _ _).1 hmatch
    have hwritten := approve_apply_of_approved hstatus happroved reason
    have hreview : (s.cluster.writes (openingWrites pass s.cluster)).policy.requiresReview =
        true := by
      rw [requiresReview_congr (spec_writes s.cluster _)]
      simp [Policy.requiresReview, hexecutes.executes, hmanual]
    -- The plan stands when it is picked, so its approval is a reviewer's.
    have hreviewer : decidedByReviewer plan := by
      rcases (run.approvalsAuthorised hash).writes hs hexecutes.permitted plan hexecutes.stored
        ⟨hlive, happroved⟩ with hreviewer | ⟨-, hfree⟩
      · exact hreviewer
      · rw [hreview] at hfree
        cases hfree
    have happrovedCondition : status.decided .approved = true := by
      rw [checkPlanApproval, hstatus] at happroved
      simp only at happroved
      split_ifs at happroved with hdenied hcondition
      exact hcondition
    rw [hexecutes.execution]
    refine ⟨{ status with phase := .approved }, digest, hwritten, happrovedCondition, ?_,
      (computeChangeDigest_materialize hash _ _ _).trans hdigest, hmatches⟩
    refine (decidedByReviewer_congr ?_).2 hreviewer
    rw [Plan.decidedBy?, Plan.decidedBy?, hstatus]
    exact congrArg (Option.bind · (·.decidedBy)) hwritten

/-- A reviewed plan of the policy's own runs with the reviewer's authority. -/
theorem reviewedPlan_executes : ∃ s pass e status actor,
    RunsTo retireOldHash KeepsAuthority s ∧
    .execute e ∈ reconcile retireOldHash pass s.cluster ∧
    s.cluster.policy.effectiveApproval = .manual ∧ e.plan.status = some status ∧
    status.decidedBy = some actor ∧ actor ≠ autoApprovalActor := by
  have hrun : (runActions retireOldHash KeepsAuthority reviewedPolicy
      [.reconcile (retireOldPass [.dropRole "old"] 1000) 10,
        .decide "policy-plan" true "alice"]).any (fun s =>
      decide (s.cluster.policy.effectiveApproval = .manual) &&
      (reconcile retireOldHash (retireOldPass [.dropRole "old"] 1100) s.cluster).any
        fun w => match w with
          | .execute _ => true
          | _ => false) = true := by
    decide +kernel
  obtain ⟨s, hs, hrest⟩ := (Option.any_eq_true _ _).1 hrun
  rw [Bool.and_eq_true, decide_eq_true_iff] at hrest
  obtain ⟨hmanual, hexecutes⟩ := hrest
  obtain ⟨w, hw, hcase⟩ := List.any_eq_true.1 hexecutes
  cases w with
  | execute e =>
    have run := (RunsTo.start reviewedPolicy.cluster.policy).actions retireOldHash hs
    obtain ⟨status, digest, hstatus, -, ⟨actor, hactor, hreviewer⟩, -⟩ :=
      ((executes_with_authority retireOldHash run).1 _ e hw).2.2 hmanual
    rw [Plan.decidedBy?, hstatus, Option.bind_some] at hactor
    exact ⟨s, _, e, status, actor, run, hw, hmanual, hstatus, hactor, hreviewer⟩
  | _ => cases hcase

/-- The operator approves its own plan and stops before it executes; the policy is switched to
manual approval; the next reconcile executes, and nobody but the operator has decided. -/
theorem autoApproval_survives_switch : ∃ s pass e,
    RunsTo retireOldHash (fun _ _ => True) s ∧
    .execute e ∈ reconcile retireOldHash pass s.cluster ∧
    s.cluster.policy.mode = .apply ∧ s.cluster.policy.effectiveApproval = .manual ∧
    e.plan.decidedBy? = some autoApprovalActor := by
  have hrun : (runActions retireOldHash (fun _ _ => True) ⟨{ policy := { content := "base" } }, none⟩
      [.reconcile (retireOldPass [.dropRole "old"] 1000) 4, merge "base"]).any (fun s =>
      decide (s.cluster.policy.mode = .apply ∧ s.cluster.policy.effectiveApproval = .manual) &&
      (reconcile retireOldHash (retireOldPass [.dropRole "old"] 1100) s.cluster).any
        fun w => match w with
          | .execute e => e.plan.decidedBy? = some autoApprovalActor
          | _ => false) = true := by
    decide +kernel
  obtain ⟨s, hs, hrest⟩ := (Option.any_eq_true _ _).1 hrun
  rw [Bool.and_eq_true, decide_eq_true_iff] at hrest
  obtain ⟨⟨hmode, hmanual⟩, hexecutes⟩ := hrest
  obtain ⟨w, hw, hcase⟩ := List.any_eq_true.1 hexecutes
  cases w with
  | execute e =>
    exact ⟨s, _, e, (RunsTo.start { content := "base" }).actions retireOldHash hs, hw, hmode,
      hmanual, of_decide_eq_true hcase⟩
  | _ => cases hcase

end PgRoles.Operator

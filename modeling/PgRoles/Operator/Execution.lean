import PgRoles.Operator.Run

/-!
# How a reconcile comes to execute

Every transaction of a reconcile is made in one way: the plan is approved, marked as applying, run
and marked as applied, and the promotion bookkeeping follows. `execute_mem_reconcile` says which
plan that can be in each mode of the policy. Properties of executions are derived from it.
-/

set_option autoImplicit false

namespace PgRoles.Operator

open PgRoles.Core PgRoles.Lib

variable (hash : ByteArray → String)

/-! ## Lists of writes without a transaction -/

/-- The list runs no SQL. -/
def NoExecution (ws : List Write) : Prop := ∀ e, Write.execute e ∉ ws

theorem noExecution_nil : NoExecution [] := fun _ => List.not_mem_nil

theorem noExecution_of_quiet {ws : List Write} (h : ∀ w ∈ ws, w.quiet = true) :
    NoExecution ws := by
  intro e he
  cases h _ he

theorem NoExecution.append {ws ws' : List Write} (h : NoExecution ws) (h' : NoExecution ws') :
    NoExecution (ws ++ ws') := by
  intro e he
  rcases List.mem_append.1 he with he | he
  · exact h e he
  · exact h' e he

/-- Creating or updating a plan executes nothing. -/
theorem noExecution_createOrUpdatePlan {s : Cluster} {req : PlanRequest}
    {result : PlanCreationResult} {ws : List Write}
    (h : createOrUpdatePlan s req = some (result, ws)) : NoExecution ws := by
  have hretire : ∀ existing kept, NoExecution (supersedeStalePlans existing kept req) :=
    fun _ _ => noExecution_of_quiet quiet_supersedeStalePlans
  unfold createOrUpdatePlan at h
  simp only at h
  split at h
  · cases h
    exact hretire _ _
  · split at h
    · cases h
      exact noExecution_nil
    · split at h
      · cases h
        exact noExecution_nil
      · split at h
        · cases h
          intro e he
          simp only [List.mem_cons, reduceCtorEq, false_or] at he
          exact hretire _ _ e he
        · split_ifs at h
          cases h
          intro e he
          simp only [List.mem_cons, reduceCtorEq, false_or] at he
          exact hretire _ _ e he

theorem noExecution_planForReview {pass : Pass} {digest : String} {s : Cluster} :
    NoExecution (planForReview pass digest s) := by
  unfold planForReview
  split
  · exact noExecution_nil
  · rename_i result ws hcreate
    exact noExecution_createOrUpdatePlan hcreate

/-- Recording a promotion executes nothing. -/
theorem noExecution_recordPromotion {s : Cluster} {digest : String} :
    NoExecution (recordPromotion s digest) := by
  obtain ⟨retired, promoted, heq, hquiet, hcase⟩ := recordPromotion_eq s digest
  rw [heq]
  refine (noExecution_of_quiet hquiet).append ?_
  rcases hcase with rfl | ⟨c, -, -, rfl⟩
  · exact noExecution_nil
  · exact fun e he => by simp at he

theorem noExecution_settleNoChanges {policy : Policy} {s : Cluster} :
    NoExecution (settleNoChanges policy s) :=
  noExecution_recordPromotion.append (noExecution_of_quiet quiet_retireActionablePlans)

theorem noExecution_reconcileObserve {pass : Pass} {s : Cluster} :
    NoExecution (reconcileObserve hash pass s) := by
  unfold reconcileObserve
  split
  · exact noExecution_of_quiet quiet_retireActionablePlans
  · split
    · exact noExecution_nil
    · exact noExecution_planForReview

theorem noExecution_recognized {pass : Pass} {s : Cluster} :
    NoExecution (recognized pass s).2 := by
  unfold recognized
  split
  · exact noExecution_nil
  · refine (noExecution_of_quiet quiet_recognitionReports).append ?_
    intro e he
    split at he <;> simp at he

theorem noExecution_openingWrites (pass : Pass) (s : Cluster) :
    NoExecution (openingWrites pass s) :=
  (noExecution_of_quiet quiet_recoverStuckPlan).append noExecution_recognized

/-! ## The transaction -/

/-- The writes that run a plan: approval, the transaction between its two phases. -/
def runWrites (name reason : String) (now : Nat) (e : Execution) : List Write :=
  [.planStatus name (.approve reason), .planStatus name (.startApplying now), .execute e,
    .planStatus name (.finishApplied now)]

/-- The plan as the executor fetches it, and what is run. -/
def executionOf (policy : Policy) (pass : Pass) (plan : Plan) (reason : String) : Execution where
  plan := { plan with status := (PlanWrite.approve reason).apply plan.status }
  policy
  changes := materializePendingGeneratedSecrets pass.rebuiltVerifiers pass.changes
  inputs := pass.inputs

/-- The stored plan after a status write. -/
theorem findPlan_onPlan {s : Cluster} (hs : NodupNames s) {plan : Plan} (hmem : plan ∈ s.plans)
    (write : PlanWrite) :
    (s.onPlan plan.name write).findPlan plan.name =
      some { plan with status := write.apply plan.status } := by
  have hstored : { plan with status := write.apply plan.status } ∈
      (s.onPlan plan.name write).plans :=
    List.mem_map.2 ⟨plan, hmem, if_pos rfl⟩
  cases hfind : (s.onPlan plan.name write).findPlan plan.name with
  | none =>
    have hne := List.find?_eq_none.1 hfind _ hstored
    simp at hne
  | some found =>
    obtain ⟨hfound, hname⟩ := mem_of_findPlan hfind
    obtain ⟨old, hold, rfl⟩ := List.mem_map.1 hfound
    by_cases hsame : old.name = plan.name
    · rw [if_pos hsame, hs.eq_of_name hold hmem hsame]
    · rw [if_neg hsame] at hname
      exact absurd hname hsame

/-- What an execution runs is the plan it was called with. -/
theorem execute_mem_executePlan {policy : Policy} {pass : Pass} {name : String}
    {after : Cluster → List Write} (hafter : ∀ s, NoExecution (after s)) {s : Cluster}
    {e : Execution} (h : .execute e ∈ executePlan policy pass name after s) :
    ∃ plan, s.findPlan name = some plan ∧
      e = ⟨plan, policy, materializePendingGeneratedSecrets pass.rebuiltVerifiers pass.changes,
        pass.inputs⟩ ∧
      executePlan policy pass name after s =
        andThen [.planStatus name (.startApplying pass.now), .execute e,
          .planStatus name (.finishApplied pass.now)] after s := by
  unfold executePlan at h ⊢
  split at h
  · cases h
  · rename_i plan hplan
    split_ifs at h with hfails hdeferred hsql
    · simp at h
    · simp at h
    · simp at h
    · rcases List.mem_append.1 h with h | h
      · simp only [List.mem_cons, reduceCtorEq, Write.execute.injEq, List.not_mem_nil, or_false,
          false_or] at h
        refine ⟨plan, hplan, h, ?_⟩
        simp only [hfails, hdeferred, hsql, if_false, h, Bool.false_eq_true]
      · exact absurd h (hafter _ e)

/-- What runs after an approval is the approved plan. -/
theorem execute_mem_approveAndExecute {policy : Policy} {pass : Pass} {plan : Plan}
    {reason : String} {after : Cluster → List Write} (hafter : ∀ s, NoExecution (after s))
    {s : Cluster} (hs : NodupNames s) (hmem : plan ∈ s.plans) {e : Execution}
    (h : .execute e ∈ approveAndExecute policy pass plan reason after s) :
    plan.status.any isDenied = false ∧ e = executionOf policy pass plan reason ∧
      approveAndExecute policy pass plan reason after s =
        andThen (runWrites plan.name reason pass.now e) after s := by
  unfold approveAndExecute at h ⊢
  split at h
  · cases h
  · rename_i hdenied
    rw [if_neg hdenied]
    rcases List.mem_append.1 h with h | h
    · simp at h
    · split at h
      · cases h
      · rename_i hauthority
        obtain ⟨found, hfind, he, hwrites⟩ := execute_mem_executePlan hafter h
        rw [show (s.writes [.planStatus plan.name (.approve reason)]).findPlan plan.name = _ from
          findPlan_onPlan hs hmem _] at hfind
        refine ⟨by simpa using hdenied, ?_, ?_⟩
        · rw [he, ← Option.some.inj hfind]
          rfl
        · rw [andThen, if_neg hauthority, hwrites]
          rfl

/-! ## The plan that is run -/

/-- Under auto-approval the operator runs a plan of the policy's own. -/
theorem execute_mem_reconcileAuto {policy : Policy} {pass : Pass} {s : Cluster} (hs : WellNamed s)
    {e : Execution} (h : .execute e ∈ reconcileAuto hash policy pass s) :
    ∃ plan reason pre, AllWrites Permitted s pre ∧ NoExecution pre ∧ plan ∈ (s.writes pre).plans ∧
      plan.owner = .policy ∧ plan.status.any isDenied = false ∧
      e = executionOf policy pass plan reason ∧
      reconcileAuto hash policy pass s = andThen pre (andThen
        (runWrites plan.name reason pass.now e) fun s => recordPromotion s policy.content) s := by
  unfold reconcileAuto at h ⊢
  split at h
  · exact absurd h (noExecution_settleNoChanges e)
  · rename_i hchanges
    rw [if_neg hchanges]
    split at h
    · cases h
    · split at h
      · cases h
      · rename_i hcreate
        exact absurd h (noExecution_createOrUpdatePlan hcreate e)
      · rename_i hcreate
        exact absurd h (noExecution_createOrUpdatePlan hcreate e)
      · rename_i result pre _ _ hcreate
        have hpre := permitted_createOrUpdatePlan hs.plans hcreate
        have hquiet := noExecution_createOrUpdatePlan hcreate
        rcases List.mem_append.1 h with h | h
        · exact absurd h (hquiet e)
        · split at h
          · cases h
          · rename_i hauthority
            dsimp only at h
            split at h
            · cases h
            · rename_i plan hplan
              -- The plan found under the created name is the policy's own.
              obtain ⟨d, hd, hname, howner⟩ := identity_createOrUpdatePlan hcreate
              have hidentity := (hs.plans.writes hpre).identity_of_findPlan hd hname hplan
              obtain ⟨hdenied, he, hwrites⟩ := execute_mem_approveAndExecute
                (fun _ => noExecution_recordPromotion) (hs.plans.writes hpre)
                (mem_of_findPlan hplan).1 h
              refine ⟨plan, _, pre, hpre, hquiet, (mem_of_findPlan hplan).1, ?_, hdenied, he, ?_⟩
              · rw [← hidentity] at howner
                exact howner
              · rw [andThen, if_neg hauthority]
                simp only [hplan, hwrites]
                rfl

/-- Under manual approval the operator runs the current plan, when it is approved and its recorded
digest and target are the current ones. -/
theorem execute_mem_reconcileManual {policy : Policy} {pass : Pass} {adopted : Option Plan}
    {s : Cluster} (hs : NodupNames s) (hadopted : ∀ plan, adopted = some plan → plan ∈ s.plans)
    {e : Execution} (h : .execute e ∈ reconcileManual hash policy pass adopted s) :
    ∃ plan digest, adopted.or s.currentActionablePlan = some plan ∧
      checkPlanApproval plan = .approved ∧
      computeChangeDigest hash pass.changes pass.inputs = .ok digest ∧
      plan.status.any (planMatchesDigest · digest) = true ∧
      e = executionOf policy pass plan "ManuallyApproved" ∧
      reconcileManual hash policy pass adopted s = andThen
        (runWrites plan.name "ManuallyApproved" pass.now e)
        (fun s => recordPromotion s policy.content) s := by
  unfold reconcileManual at h ⊢
  split at h
  · split at h
    · exact absurd h (noExecution_settleNoChanges e)
    · split at h
      · cases h
      · exact absurd h (noExecution_planForReview e)
  · rename_i plan hcurrent
    have hmem : plan ∈ s.plans := by
      rcases Option.or_eq_some_iff.1 hcurrent with hplan | ⟨-, hplan⟩
      · exact hadopted plan hplan
      · exact (mem_currentActionablePlan hplan).1
    split at h
    · simp at h
    · rename_i happroved
      split at h
      · cases h
      · rename_i digest hdigest
        unfold reconcileApproved at h ⊢
        simp only at h ⊢
        split at h
        · rename_i hdecision
          obtain ⟨hdenied, he, hwrites⟩ := execute_mem_approveAndExecute
            (fun _ => noExecution_recordPromotion) hs hmem h
          have hmatch : plan.status.any (planMatchesDigest · digest) = true := by
            by_contra hmismatch
            rw [decideApprovedPlan, if_neg hmismatch] at hdecision
            split_ifs at hdecision
          exact ⟨plan, digest, hcurrent, happroved, hdigest, hmatch, he, hwrites⟩
        · exact absurd h (noExecution_planForReview e)
        · rcases List.mem_append.1 h with h | h
          · simp at h
          · exact absurd h (noExecution_settleNoChanges e)
    · split at h
      · cases h
      · split at h
        · rcases List.mem_append.1 h with h | h
          · simp at h
          · exact absurd h (noExecution_settleNoChanges e)
        · exact absurd h (noExecution_planForReview e)
        · cases h

/-- The reconcile runs the plan after the first writes, and records the promotion afterwards. -/
structure Executes (pass : Pass) (s : Cluster) (e : Execution) (plan : Plan) (reason : String)
    (pre : List Write) : Prop where
  permitted : AllWrites Permitted s pre
  quiet : NoExecution pre
  stored : plan ∈ (s.writes pre).plans
  undenied : plan.status.any isDenied = false
  executes : s.policy.mode.neverExecutes = false
  execution : e = executionOf s.policy pass plan reason
  writes : reconcile hash pass s = andThen pre (andThen (runWrites plan.name reason pass.now e)
    fun t => recordPromotion t s.policy.content) s

/-- The plan an auto-approved policy runs is its own. -/
def AutoRun (s : Cluster) (plan : Plan) : Prop :=
  s.policy.effectiveApproval = .auto ∧ plan.owner = .policy

/-- The plan a manually approved policy runs is the adopted one or else its newest actionable one,
and it is approved with the digest of the changes found. -/
def ManualRun (pass : Pass) (s : Cluster) (plan : Plan) (pre : List Write) : Prop :=
  s.policy.effectiveApproval = .manual ∧
    pre = openingWrites pass s ∧
    (handedOver pass s = some plan ∨ (s.writes pre).currentActionablePlan = some plan) ∧
    checkPlanApproval plan = .approved ∧
    ∃ digest, computeChangeDigest hash pass.changes pass.inputs = .ok digest ∧
      plan.status.any (planMatchesDigest · digest) = true

/-- An approved plan is not denied. -/
theorem isDenied_eq_false_of_approved {plan : Plan} (h : checkPlanApproval plan = .approved) :
    plan.status.any isDenied = false := by
  unfold checkPlanApproval at h
  split at h
  · cases h
  · rename_i status hstatus
    split_ifs at h with hdenied
    rw [hstatus]
    simpa [isDenied] using hdenied

/-- Every transaction of a reconcile is made in one of these ways. -/
theorem execute_mem_reconcile {pass : Pass} {s : Cluster} (hs : WellNamed s) {e : Execution}
    (h : .execute e ∈ reconcile hash pass s) :
    ∃ plan reason pre, Executes hash pass s e plan reason pre ∧
      (AutoRun s plan ∨ ManualRun hash pass s plan pre) := by
  have hpre := permitted_openingWrites pass s
  have hs₂ := hs.writes hpre
  have hquiet := noExecution_openingWrites pass s
  rw [reconcile_eq] at h
  rcases List.mem_append.1 h with h | h
  · exact absurd h (hquiet e)
  unfold reconcileMode at h
  split at h
  · exact absurd h (noExecution_reconcileObserve hash e)
  · rename_i hexecutes
    split at h
    · rename_i happroval
      obtain ⟨plan, reason, ws, hws, hwsQuiet, hmem, howner, hdenied, he, hwrites⟩ :=
        execute_mem_reconcileAuto hash hs₂ h
      refine ⟨plan, reason, openingWrites pass s ++ ws,
        ⟨allWrites_append.2 ⟨hpre, hws⟩, hquiet.append hwsQuiet, ?_, hdenied,
          by simpa using hexecutes, he, ?_⟩, .inl ⟨happroval, howner⟩⟩
      · rw [Cluster.writes_append]
        exact hmem
      · rw [reconcile_eq, andThen, reconcileMode, if_neg hexecutes, happroval]
        simp only [hwrites, andThen, Cluster.writes_append, List.append_assoc]
    · rename_i happroval
      obtain ⟨plan, digest, hcurrent, happroved, hdigest, hmatch, he, hwrites⟩ :=
        execute_mem_reconcileManual hash hs₂.plans (fun plan hplan => (handedOver_spec hs hplan).1) h
      have hfrom : handedOver pass s = some plan ∨
          (s.writes (openingWrites pass s)).currentActionablePlan = some plan := by
        rcases Option.or_eq_some_iff.1 hcurrent with hplan | ⟨-, hplan⟩
        · exact .inl hplan
        · exact .inr hplan
      have hmem : plan ∈ (s.writes (openingWrites pass s)).plans := by
        rcases hfrom with hplan | hplan
        · exact (handedOver_spec hs hplan).1
        · exact (mem_currentActionablePlan hplan).1
      refine ⟨plan, "ManuallyApproved", openingWrites pass s,
        ⟨hpre, hquiet, hmem, isDenied_eq_false_of_approved happroved, by simpa using hexecutes, he,
          ?_⟩, .inr ⟨happroval, rfl, hfrom, happroved, digest, hdigest, hmatch⟩⟩
      rw [reconcile_eq, andThen, reconcileMode, if_neg hexecutes, happroval]
      simp only [hwrites, andThen]

end PgRoles.Operator

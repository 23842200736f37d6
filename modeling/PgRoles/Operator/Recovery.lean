import PgRoles.Operator.PromotionBase

/-!
# Recovery of interrupted executions

A plan carries the phase `Applying` between the write that starts its execution and the write that
records the outcome. The operator may stop in between; a later reconcile is meant to find the plan
and to mark it failed once it has been applying for `stuckThresholdSecs`.

No plan ever records when it started to apply (`NeverDated`), so recovery has nothing to go by: a
state in which some plan is applying is never recovered. Runs in which the operator never stops
inside an execution have no such state, because the writes of a reconcile bracket each execution
(`Bracketed`).
-/

set_option autoImplicit false

namespace PgRoles.Operator

open PgRoles.Core PgRoles.Lib

/-! ## What recovery is for -/

/-- Every applying plan records when it started to apply, and a complete reconcile made more than
the threshold later marks it failed. `entered` is the time of a plan's last transition. -/
def Recovered (hash : ByteArray → String) (entered : String → Nat) (s : Cluster) : Prop :=
  ∀ plan ∈ s.plans, plan.phase? = some .applying →
    plan.status.bind (·.applyingSince) = some (entered plan.name) ∧
      ∀ pass : Pass, pass.now - entered plan.name > stuckThresholdSecs →
        Write.planStatus plan.name (.fail pass.now) ∈ reconcile hash pass s

/-- No plan is applying. -/
def NoneApplying (s : Cluster) : Prop := ∀ plan ∈ s.plans, plan.phase? ≠ some .applying

/-! ## Applying plans are never dated -/

/-- No plan records when it started to apply. -/
def NeverDated (s : Cluster) : Prop := ∀ plan ∈ s.plans, plan.status.bind (·.applyingSince) = none

section StatusWrites

variable {status : PlanStatus} {w : PlanWrite} {old : Option PlanStatus}

theorem approvedStatus_applyingSince {reason : String} {new : PlanStatus}
    (h : approvedStatus status reason = some new) : new.applyingSince = status.applyingSince := by
  unfold approvedStatus at h
  split_ifs at h <;> cases h <;> rfl

theorem approvedStatus_phase {reason : String} {new : PlanStatus}
    (h : approvedStatus status reason = some new) : new.phase = .approved := by
  unfold approvedStatus at h
  split_ifs at h <;> cases h <;> rfl

/-- Only a computed status could date a plan: the patch that starts an execution spells the field
in snake case. -/
theorem applyingSince_planWrite (hcompute : ∀ new, w = .compute new → new.applyingSince = none)
    (hold : old.bind (·.applyingSince) = none) :
    (w.apply old).bind (·.applyingSince) = none := by
  have hdefault : (old.getD {}).applyingSince = none := by
    cases old with
    | none => rfl
    | some status => exact hold
  cases w with
  | compute new => exact hcompute new rfl
  | approve reason =>
    rw [PlanWrite.apply]
    cases happroved : approvedStatus (old.getD {}) reason with
    | none => exact hold
    | some new => exact (approvedStatus_applyingSince happroved).trans hdefault
  | supersede cause => exact hdefault
  | reject => exact hdefault
  | startApplying now => exact hdefault
  | finishApplied now => exact hdefault
  | fail now => exact hdefault

end StatusWrites

/-- A plan after a status write is one of the plans before, written if it has the name. -/
theorem mem_updatePlan {name : String} {f : Plan → Plan} {plans : List Plan} {plan : Plan}
    (h : plan ∈ updatePlan name f plans) :
    ∃ old ∈ plans, (old.name = name ∧ plan = f old) ∨ (old.name ≠ name ∧ plan = old) := by
  obtain ⟨old, hold, rfl⟩ := List.mem_map.1 h
  refine ⟨old, hold, ?_⟩
  by_cases hname : old.name = name
  · exact .inl ⟨hname, if_pos hname⟩
  · exact .inr ⟨hname, if_neg hname⟩

/-- No write that is permitted stores a date in a plan. -/
theorem NeverDated.apply {s : Cluster} {w : Write} (hs : NeverDated s) (hw : Permitted s w) :
    NeverDated (w.apply s) := by
  cases w with
  | createPlan created =>
    intro plan hplan
    rcases List.mem_append.1 hplan with hplan | hplan
    · exact hs plan hplan
    · rw [List.mem_singleton.1 hplan, hw.1]
      rfl
  | planStatus name write =>
    intro plan hplan
    obtain ⟨old, hold, ⟨-, rfl⟩ | ⟨-, rfl⟩⟩ := mem_updatePlan hplan
    · refine applyingSince_planWrite ?_ (hs old hold)
      rintro new rfl
      obtain ⟨⟨req, rfl⟩, -⟩ := hw
      rfl
    · exact hs plan hold
  | _ => exact hs

/-- Nor does a step. -/
theorem NeverDated.step {hash : ByteArray → String} {s s' : RunState} {a : Action}
    (hs : WellNamed s.cluster) (h : NeverDated s.cluster) (next : step hash s a = some s') :
    NeverDated s'.cluster := by
  cases step_cases hash hs next with
  | decide name approve actor decided status found written =>
    intro plan hplan
    obtain ⟨old, hold, ⟨-, rfl⟩ | ⟨-, rfl⟩⟩ := mem_updatePlan hplan
    · -- The decision goes over the found plan's status, which is not dated.
      have hdecided := h decided (mem_of_findPlan found).1
      rw [written] at hdecided
      exact hdecided
    · exact h plan hold
  | deleteCandidate name => exact fun plan hplan => h plan (List.mem_of_mem_filter hplan)
  | deletePlan name => exact fun plan hplan => h plan (List.mem_of_mem_filter hplan)
  | operator _ ws permitted =>
    exact permitted.invariant (fun _ _ ht hw => ht.apply hw) h
  | edit | file => exact h

/-- Along every run no plan records when it started to apply. -/
theorem RunsTo.neverDated {hash : ByteArray → String} {Meets : RunState → Action → Prop}
    {s : RunState} (run : RunsTo hash Meets s) : NeverDated s.cluster := by
  induction run with
  | start policy => exact fun _ hplan => absurd hplan List.not_mem_nil
  | step run _ next ih => exact ih.step (run.wellNamed hash) next

theorem NeverDated.recovered_iff {hash : ByteArray → String} {entered : String → Nat} {s : Cluster}
    (hs : NeverDated s) : Recovered hash entered s ↔ NoneApplying s := by
  constructor
  · intro h plan hplan happlying
    have hdated := (h plan hplan happlying).1
    rw [hs plan hplan] at hdated
    cases hdated
  · intro h plan hplan happlying
    exact absurd happlying (h plan hplan)

/-! ## Executions are bracketed -/

/-- A write that neither starts an execution nor belongs to one. -/
def Write.idle : Write → Bool
  | .createPlan plan => plan.phase? != some .applying
  | .planStatus _ (.compute status) => status.phase != .applying
  | .planStatus _ (.startApplying _) | .execute _ => false
  | _ => true

/-- Every execution of the list is of a stored plan, and ends in the list by a failure or a
success. -/
inductive Bracketed : Cluster → List Write → Prop
  | nil {s : Cluster} : Bracketed s []
  | idle {s : Cluster} {w : Write} {ws : List Write} (idle : w.idle = true)
      (rest : Bracketed (w.apply s) ws) : Bracketed s (w :: ws)
  | failed {s : Cluster} {ws : List Write} (name : String) (started now : Nat)
      (stored : ∃ plan ∈ s.plans, plan.name = name)
      (rest : Bracketed ((s.onPlan name (.startApplying started)).onPlan name (.fail now)) ws) :
      Bracketed s
        (.planStatus name (.startApplying started) :: .planStatus name (.fail now) :: ws)
  | applied {s : Cluster} {ws : List Write} (name : String) (started now : Nat)
      (execution : Execution) (stored : ∃ plan ∈ s.plans, plan.name = name)
      (rest : Bracketed (s.writes [.planStatus name (.startApplying started),
        .execute execution, .planStatus name (.finishApplied now)]) ws) :
      Bracketed s (.planStatus name (.startApplying started) :: .execute execution ::
        .planStatus name (.finishApplied now) :: ws)

/-- The writes stop inside an execution: it was started, and its outcome is not recorded. -/
def stopsInside (ws : List Write) : Bool :=
  match ws.getLast? with
  | some (.planStatus _ (.startApplying _)) | some (.execute _) => true
  | _ => false

theorem stopsInside_cons_cons (w w' : Write) (ws : List Write) :
    stopsInside (w :: w' :: ws) = stopsInside (w' :: ws) := by
  rw [stopsInside, stopsInside, List.getLast?_cons_cons]

/-- A write outside of executions does not change where the list stops. -/
theorem stopsInside_cons {w : Write} (h : stopsInside [w] = false) (ws : List Write) :
    stopsInside (w :: ws) = stopsInside ws := by
  cases ws with
  | nil => exact h
  | cons w' ws => exact stopsInside_cons_cons w w' ws

theorem stopsInside_of_idle {w : Write} (h : w.idle = true) : stopsInside [w] = false := by
  cases w with
  | planStatus name write =>
    cases write with
    | startApplying now => cases h
    | _ => rfl
  | execute execution => cases h
  | _ => rfl

/-- Bracketed writes in a row are bracketed. -/
theorem Bracketed.append {s : Cluster} {ws ws' : List Write} (h : Bracketed s ws)
    (h' : Bracketed (s.writes ws) ws') : Bracketed s (ws ++ ws') := by
  induction h with
  | nil => exact h'
  | idle idle _ ih => exact .idle idle (ih h')
  | failed name started now stored _ ih => exact .failed name started now stored (ih h')
  | applied name started now execution stored _ ih =>
    exact .applied name started now execution stored (ih h')

theorem Bracketed.andThen {s : Cluster} {ws : List Write} {second : Cluster → List Write}
    (h : Bracketed s ws) (h' : Bracketed (s.writes ws) (second (s.writes ws))) :
    Bracketed s (andThen ws second s) :=
  h.append h'

theorem bracketed_of_idle {s : Cluster} {ws : List Write} (h : ∀ w ∈ ws, w.idle = true) :
    Bracketed s ws := by
  induction ws generalizing s with
  | nil => exact .nil
  | cons w ws ih =>
    exact .idle (h w List.mem_cons_self) (ih fun w' hw' => h w' (List.mem_cons_of_mem _ hw'))

/-! ## What brackets leave applying -/

/-- No plan other than those of that name is applying. -/
def OnlyApplying (name : String) (s : Cluster) : Prop :=
  ∀ plan ∈ s.plans, plan.name ≠ name → plan.phase? ≠ some .applying

theorem NoneApplying.onlyApplying {s : Cluster} (h : NoneApplying s) (name : String) :
    OnlyApplying name s := fun plan hplan _ => h plan hplan

theorem OnlyApplying.onPlan {name : String} {s : Cluster} (h : OnlyApplying name s)
    (write : PlanWrite) : OnlyApplying name (s.onPlan name write) := by
  intro plan hplan hname
  obtain ⟨old, hold, ⟨hold', rfl⟩ | ⟨-, rfl⟩⟩ := mem_updatePlan hplan
  · exact absurd hold' hname
  · exact h plan hold hname

/-- A write to another phase leaves nothing of that name applying. -/
theorem OnlyApplying.ended {name : String} {s : Cluster} {write : PlanWrite}
    (h : OnlyApplying name s)
    (hwrite : ∀ old, (write.apply old).map (·.phase) ≠ some .applying) :
    NoneApplying (s.onPlan name write) := by
  intro plan hplan
  obtain ⟨old, hold, ⟨-, rfl⟩ | ⟨hname, rfl⟩⟩ := mem_updatePlan hplan
  · exact hwrite old.status
  · exact h plan hold hname

/-- A started plan is applying. -/
theorem not_noneApplying_started {name : String} {s : Cluster} {started : Nat}
    (stored : ∃ plan ∈ s.plans, plan.name = name) :
    ¬ NoneApplying (s.onPlan name (.startApplying started)) := by
  intro h
  obtain ⟨plan, hplan, hname⟩ := stored
  refine h { plan with status := PlanWrite.apply (.startApplying started) plan.status } ?_ rfl
  exact List.mem_map.2 ⟨plan, hplan, if_pos hname⟩

/-- A write that starts no execution leaves the plan out of it. -/
theorem NoneApplying.planWrite {w : PlanWrite} {old : Option PlanStatus}
    (hcompute : ∀ new, w = .compute new → new.phase ≠ .applying)
    (hstart : ∀ now, w ≠ .startApplying now) (hold : old.map (·.phase) ≠ some .applying) :
    (w.apply old).map (·.phase) ≠ some .applying := by
  cases w with
  | compute new => exact fun heq => hcompute new rfl (Option.some.inj heq)
  | approve reason =>
    rw [PlanWrite.apply]
    cases happroved : approvedStatus (old.getD {}) reason with
    | none => exact hold
    | some new =>
      rw [Option.some_or, Option.map_some, approvedStatus_phase happroved]
      decide
  | startApplying now => exact absurd rfl (hstart now)
  | supersede cause => exact fun heq => by cases heq
  | reject => exact fun heq => by cases heq
  | finishApplied now => exact fun heq => by cases heq
  | fail now => exact fun heq => by cases heq

/-- After an idle write no plan is applying. -/
theorem NoneApplying.apply {s : Cluster} {w : Write} (h : NoneApplying s) (hw : w.idle = true) :
    NoneApplying (w.apply s) := by
  cases w with
  | createPlan created =>
    intro plan hplan
    rcases List.mem_append.1 hplan with hplan | hplan
    · exact h plan hplan
    · rw [List.mem_singleton.1 hplan]
      simpa [Write.idle] using hw
  | planStatus name write =>
    intro plan hplan
    obtain ⟨old, hold, ⟨-, rfl⟩ | ⟨-, rfl⟩⟩ := mem_updatePlan hplan
    · refine NoneApplying.planWrite ?_ ?_ (h old hold)
      · rintro new rfl
        simpa [Write.idle] using hw
      · rintro now rfl
        cases hw
    · exact h plan hold
  | _ => exact h

/-- Stopping anywhere in bracketed writes leaves a plan applying exactly when it is inside an
execution. -/
theorem Bracketed.noneApplying_take_iff {s : Cluster} {ws : List Write} (h : Bracketed s ws)
    (hs : NoneApplying s) (n : Nat) :
    NoneApplying (s.writes (ws.take n)) ↔ stopsInside (ws.take n) = false := by
  induction h generalizing n with
  | nil => simpa [stopsInside] using hs
  | @idle s w ws idle rest ih =>
    cases n with
    | zero => simpa [stopsInside] using hs
    | succ n =>
      rw [List.take_succ_cons, stopsInside_cons (stopsInside_of_idle idle)]
      exact ih (hs.apply idle) n
  | @failed s ws name started now stored rest ih =>
    match n with
    | 0 => simpa [stopsInside] using hs
    | 1 => exact iff_of_false (not_noneApplying_started stored) (by simp [stopsInside])
    | n + 2 =>
      rw [List.take_succ_cons, List.take_succ_cons, stopsInside_cons_cons, stopsInside_cons rfl]
      refine ih (((hs.onlyApplying name).onPlan _).ended ?_) n
      intro old heq
      cases heq
  | @applied s ws name started now execution stored rest ih =>
    match n with
    | 0 => simpa [stopsInside] using hs
    | 1 => exact iff_of_false (not_noneApplying_started stored) (by simp [stopsInside])
    | 2 => exact iff_of_false (not_noneApplying_started stored) (by simp [stopsInside])
    | n + 3 =>
      rw [List.take_succ_cons, List.take_succ_cons, List.take_succ_cons, stopsInside_cons_cons,
        stopsInside_cons_cons, stopsInside_cons rfl]
      refine ih (OnlyApplying.ended (((hs.onlyApplying name).onPlan _)) ?_) n
      intro old heq
      cases heq

/-! ## The writes of a reconcile are bracketed -/

section Pieces

variable {s : Cluster} {policy : Policy} {pass : Pass}

theorem idle_supersedeStalePlans {existing : List Plan} {kept : String} {req : PlanRequest} :
    ∀ w ∈ supersedeStalePlans existing kept req, w.idle = true := by
  intro w hw
  obtain ⟨plan, -, hplan⟩ := List.mem_filterMap.1 hw
  split at hplan
  · cases hplan
  · split at hplan
    · cases hplan
      rfl
    · obtain ⟨cause, -, rfl⟩ := Option.map_eq_some_iff.1 hplan
      rfl

/-- Creating or updating a plan is idle. -/
theorem idle_createOrUpdatePlan {req : PlanRequest} {result : PlanCreationResult}
    {ws : List Write} (h : createOrUpdatePlan s req = some (result, ws)) :
    ∀ w ∈ ws, w.idle = true := by
  unfold createOrUpdatePlan at h
  simp only at h
  split at h
  · cases h
    exact idle_supersedeStalePlans
  · split at h
    · cases h
      simp
    · split at h
      · cases h
        simp
      · split at h
        · cases h
          exact List.forall_mem_cons.2 ⟨rfl, List.forall_mem_cons.2 ⟨rfl, idle_supersedeStalePlans⟩⟩
        · split_ifs at h
          cases h
          exact List.forall_mem_cons.2 ⟨rfl, idle_supersedeStalePlans⟩

theorem idle_recognitionReports {action : PromotionAction} :
    ∀ w ∈ recognitionReports action, w.idle = true := by
  intro w hw
  unfold recognitionReports at hw
  split at hw <;> simp at hw
  · subst hw; rfl
  · subst hw; rfl
  · obtain ⟨c, -, rfl⟩ := hw; rfl
  · obtain ⟨c, -, rfl⟩ := hw; rfl

theorem idle_recognized : ∀ w ∈ (recognized pass s).2, w.idle = true := by
  unfold recognized
  split
  · simp
  · intro w hw
    rcases List.mem_append.1 hw with hw | hw
    · exact idle_recognitionReports w hw
    · split_ifs at hw
      · simp at hw
      · rw [List.mem_singleton.1 hw]
        rfl

theorem idle_recordPromotion {digest : String} : ∀ w ∈ recordPromotion s digest, w.idle = true := by
  unfold recordPromotion
  split
  · simp
  · intro w hw
    rw [List.mem_append, List.mem_append] at hw
    rcases hw with (hw | hw) | hw
    · obtain ⟨name, -, hw⟩ := List.mem_flatMap.1 hw
      unfold supersedeLivePlan at hw
      split at hw <;> simp at hw
      · subst hw; rfl
      · rcases hw with rfl | rfl <;> rfl
    · obtain ⟨name, -, hw⟩ := List.mem_flatMap.1 hw
      unfold supersedeStranded at hw
      split at hw <;> simp at hw
      rcases hw with rfl | rfl <;> rfl
    · split_ifs at hw
      · rw [List.mem_singleton.1 hw]
        rfl
      · simp at hw

theorem idle_retireActionablePlans : ∀ w ∈ retireActionablePlans s, w.idle = true := by
  intro w hw
  obtain ⟨plan, -, rfl⟩ := List.mem_map.1 hw
  rfl

theorem idle_recoverStuckPlan {now : Nat} : ∀ w ∈ recoverStuckPlan s now, w.idle = true := by
  intro w hw
  unfold recoverStuckPlan at hw
  simp only at hw
  split at hw
  · simp at hw
  · split at hw
    · simp at hw
    · split at hw <;> simp at hw
      subst hw
      rfl

theorem idle_applyReplacements : ∀ w ∈ applyReplacements s, w.idle = true := by
  intro w hw
  obtain ⟨c, -, rfl⟩ := List.mem_map.1 hw
  rfl

theorem bracketed_settleNoChanges : Bracketed s (settleNoChanges policy s) :=
  (bracketed_of_idle idle_recordPromotion).andThen (bracketed_of_idle idle_retireActionablePlans)

theorem bracketed_planForReview {digest : String} : Bracketed s (planForReview pass digest s) := by
  unfold planForReview
  split
  · exact .nil
  · rename_i ws hcreate
    exact bracketed_of_idle (idle_createOrUpdatePlan hcreate)

/-- An execution is bracketed by its own writes. -/
theorem bracketed_executePlan {name : String} {after : Cluster → List Write}
    (hafter : ∀ t, Bracketed t (after t)) : Bracketed s (executePlan policy pass name after s) := by
  unfold executePlan
  split
  · exact .nil
  · rename_i plan hfind
    have stored : ∃ plan ∈ s.plans, plan.name = name := ⟨plan, mem_of_findPlan hfind⟩
    split_ifs
    · exact .idle rfl .nil
    · exact .nil
    · exact .failed name _ _ stored .nil
    · exact (Bracketed.applied name _ _ _ stored .nil).andThen (hafter _)

theorem bracketed_approveAndExecute {plan : Plan} {reason : String}
    {after : Cluster → List Write} (hafter : ∀ t, Bracketed t (after t)) :
    Bracketed s (approveAndExecute policy pass plan reason after s) := by
  unfold approveAndExecute
  split
  · exact .nil
  · refine (Bracketed.idle rfl .nil).andThen ?_
    split
    · exact .nil
    · exact bracketed_executePlan hafter

variable (hash : ByteArray → String)

/-- A pass that approves by itself is bracketed. -/
theorem bracketed_reconcileAuto : Bracketed s (reconcileAuto hash policy pass s) := by
  unfold reconcileAuto
  split
  · exact bracketed_settleNoChanges
  · split
    · exact .nil
    · split
      · exact .nil
      · rename_i hcreate
        exact bracketed_of_idle (idle_createOrUpdatePlan hcreate)
      · rename_i hcreate
        exact bracketed_of_idle (idle_createOrUpdatePlan hcreate)
      · rename_i hcreate
        refine (bracketed_of_idle (idle_createOrUpdatePlan hcreate)).andThen ?_
        split
        · exact .nil
        · split
          · exact .nil
          · exact bracketed_approveAndExecute fun t => bracketed_of_idle idle_recordPromotion

theorem bracketed_reconcileApproved {plan : Plan} {digest : String} :
    Bracketed s (reconcileApproved policy pass plan digest s) := by
  unfold reconcileApproved
  simp only
  split
  · exact bracketed_approveAndExecute fun t => bracketed_of_idle idle_recordPromotion
  · exact bracketed_planForReview
  · exact (Bracketed.idle rfl .nil).andThen bracketed_settleNoChanges

/-- A pass that waits for approvals is bracketed. -/
theorem bracketed_reconcileManual {adopted : Option Plan} :
    Bracketed s (reconcileManual hash policy pass adopted s) := by
  unfold reconcileManual
  split
  · split
    · exact bracketed_settleNoChanges
    · split
      · exact .nil
      · exact bracketed_planForReview
  · split
    · exact .idle rfl .nil
    · split
      · exact .nil
      · exact bracketed_reconcileApproved
    · split
      · exact .nil
      · split
        · exact (Bracketed.idle rfl .nil).andThen bracketed_settleNoChanges
        · exact bracketed_planForReview
        · exact .nil

theorem bracketed_reconcileObserve : Bracketed s (reconcileObserve hash pass s) := by
  unfold reconcileObserve
  split
  · exact bracketed_of_idle idle_retireActionablePlans
  · split
    · exact .nil
    · exact bracketed_planForReview

/-- A reconcile brackets its executions, whatever it finds. -/
theorem bracketed_reconcile : Bracketed s (reconcile hash pass s) := by
  refine (bracketed_of_idle idle_recoverStuckPlan).andThen ?_
  refine (bracketed_of_idle idle_recognized).andThen ?_
  unfold reconcileMode
  split
  · exact bracketed_reconcileObserve hash
  · split
    · exact bracketed_reconcileAuto hash
    · exact bracketed_reconcileManual hash

/-- Planning a candidate is idle. -/
theorem idle_planCandidate {c : Candidate} {e : CandidateEffects} :
    ∀ w ∈ planCandidate hash c e s, w.idle = true := by
  intro w hw
  unfold planCandidate at hw
  split at hw
  · rcases List.mem_append.1 hw with hw | hw
    · obtain ⟨plan, -, rfl⟩ := List.mem_map.1 hw
      rfl
    · rw [List.mem_singleton.1 hw]
      rfl
  · split at hw
    · simp at hw
    · split at hw
      · simp at hw
      · rename_i hcreate
        rcases List.mem_append.1 hw with hw | hw
        · exact idle_createOrUpdatePlan hcreate w hw
        · rw [List.mem_singleton.1 hw]
          rfl

theorem idle_andThen {ws : List Write} {second : Cluster → List Write}
    (h : ∀ w ∈ ws, w.idle = true) (h' : ∀ t, ∀ w ∈ second t, w.idle = true) :
    ∀ w ∈ andThen ws second s, w.idle = true :=
  List.forall_mem_append.2 ⟨h, h' _⟩

/-- Candidates are planned and retired, never executed. -/
theorem idle_reconcileCandidate {parent : ParentOutcome} {c : Candidate} {input : CandidateInput} :
    ∀ w ∈ reconcileCandidate hash parent c input s, w.idle = true := by
  unfold reconcileCandidate
  split
  · simp
  · refine idle_andThen ?_ fun t => ?_
    · split <;> simp [Write.idle]
    · split
      · simp
      · split
        · simp
        · simp
        · simp [Write.idle]
        · split
          · simp [Write.idle]
          · split
            · simp
            · split
              · exact idle_planCandidate hash
              · simp

end Pieces

/-! ## Runs -/

/-- A reconcile of the policy does not stop between the start of an execution and the record of its
outcome. -/
def Uninterrupted (hash : ByteArray → String) (s : RunState) : Action → Prop
  | .reconcile pass completed =>
      stopsInside ((reconcile hash pass s.cluster).take completed) = false
  | _ => True

instance (hash : ByteArray → String) (s : RunState) :
    (a : Action) → Decidable (Uninterrupted hash s a)
  | .reconcile pass completed =>
      inferInstanceAs (Decidable
        (stopsInside ((reconcile hash pass s.cluster).take completed) = false))
  | .edit .. | .file .. | .decide .. | .deleteCandidate _ | .deletePlan _
  | .reconcileCandidate .. | .applyReplacements _ => instDecidableTrue

section Runs

variable {hash : ByteArray → String} {s s' : RunState} {a : Action}

/-- At whatever idle write it stops, no plan is applying. -/
theorem NoneApplying.writes {s : Cluster} {ws : List Write} (h : NoneApplying s)
    (hidle : ∀ w ∈ ws, w.idle = true) (n : Nat) : NoneApplying (s.writes (ws.take n)) := by
  induction ws generalizing s n with
  | nil => simpa using h
  | cons w ws ih =>
    cases n with
    | zero => exact h
    | succ n =>
      exact ih (h.apply (hidle w List.mem_cons_self))
        (fun w' hw' => hidle w' (List.mem_cons_of_mem _ hw')) n

/-- A decision leaves the phase. -/
theorem NoneApplying.recordDecision {s : Cluster} {name actor : String} {approve : Bool}
    {plan : Plan} {status : PlanStatus} (h : NoneApplying s) (found : s.findPlan name = some plan)
    (written : plan.status = some status) :
    NoneApplying (recordDecision s name (decidedStatus status approve actor)) := by
  intro decided hdecided
  obtain ⟨old, hold, ⟨-, rfl⟩ | ⟨-, rfl⟩⟩ := mem_updatePlan hdecided
  · have hplan := h plan (mem_of_findPlan found).1
    rw [Plan.phase?, written] at hplan
    exact hplan
  · exact h decided hold

/-- From a state without applying plans a step leaves one exactly when it stops inside an
execution. -/
theorem NoneApplying.step_iff (h : NoneApplying s.cluster) (next : step hash s a = some s') :
    NoneApplying s'.cluster ↔ Uninterrupted hash s a := by
  cases a with
  | reconcile pass completed =>
    cases next
    exact (bracketed_reconcile hash).noneApplying_take_iff h completed
  | reconcileCandidate name parent input completed =>
    simp only [step] at next
    split at next
    · cases next
    · cases next
      exact iff_of_true (h.writes (idle_reconcileCandidate hash) completed) trivial
  | applyReplacements completed =>
    cases next
    exact iff_of_true (h.writes idle_applyReplacements completed) trivial
  | edit content mode approval required =>
    cases next
    exact iff_of_true h trivial
  | file name uid content replaces =>
    simp only [step] at next
    split_ifs at next
    cases next
    exact iff_of_true h trivial
  | decide name approve actor =>
    simp only [step] at next
    split at next
    · cases next
    · rename_i status hstatus
      split_ifs at next
      cases next
      obtain ⟨plan, found, written⟩ := Option.bind_eq_some_iff.1 hstatus
      exact iff_of_true (h.recordDecision found written) trivial
  | deleteCandidate name =>
    cases next
    exact iff_of_true (fun plan hplan => h plan (List.mem_of_mem_filter hplan)) trivial
  | deletePlan name =>
    cases next
    exact iff_of_true (fun plan hplan => h plan (List.mem_of_mem_filter hplan)) trivial

/-- A run that never stops inside an execution leaves no plan applying. -/
theorem RunsTo.noneApplying (run : RunsTo hash (Uninterrupted hash) s) :
    NoneApplying s.cluster := by
  induction run with
  | start policy => exact fun _ hplan => absurd hplan List.not_mem_nil
  | step _ meets next ih => exact (ih.step_iff next).2 meets

/-- Interrupted executions are recovered along runs that never stop inside one, and the first step
that does leaves a state that is not: a state is recovered only while no plan is applying. -/
theorem recovered_iff_uninterrupted (hash : ByteArray → String) (entered : String → Nat) :
    (∀ s, RunsTo hash (Uninterrupted hash) s → Recovered hash entered s.cluster ∧
      ∀ a s', step hash s a = some s' →
        (Recovered hash entered s'.cluster ↔ Uninterrupted hash s a)) ∧
    ∀ s, RunsTo hash (fun _ _ => True) s →
      (Recovered hash entered s.cluster ↔ NoneApplying s.cluster) := by
  refine ⟨fun s run => ?_, fun s run => run.neverDated.recovered_iff⟩
  have hnone := run.noneApplying
  refine ⟨run.neverDated.recovered_iff.2 hnone, fun a s' next => ?_⟩
  have hnext := run.neverDated.step (run.wellNamed hash) next
  exact hnext.recovered_iff.trans (hnone.step_iff next)

end Runs

/-- A new policy whose plans the operator approves. -/
def unattendedPolicy : RunState where
  cluster := { policy := { content := "base" } }

/-- The reconcile that runs to its end has executed its plan, and nothing is left to recover. -/
theorem completeReconcile_recovered : ∃ s, RunsTo retireOldHash (Uninterrupted retireOldHash) s ∧
    s.cluster.executions ≠ [] ∧ Recovered retireOldHash (fun _ => 1000) s.cluster := by
  have hrun : (runActions retireOldHash (Uninterrupted retireOldHash) unattendedPolicy
      [.reconcile (retireOldPass [.dropRole "old"] 1000) 10]).any (fun s =>
        !s.cluster.executions.isEmpty) = true := by
    decide +kernel
  obtain ⟨s, hs, hexecuted⟩ := (Option.any_eq_true _ _).1 hrun
  have run := (RunsTo.start unattendedPolicy.cluster.policy).actions retireOldHash hs
  exact ⟨s, run, by simpa using hexecuted,
    ((recovered_iff_uninterrupted retireOldHash fun _ => 1000).1 s run).1⟩

/-- The operator stops right after it has started to apply at time 1000. The plan is not dated, and
a complete reconcile at time 2000 leaves it applying. -/
theorem interruptedPlan_staysApplying : ∃ s s' plan plan',
    RunsTo retireOldHash (fun _ _ => True) s ∧
    s.cluster.findPlan "policy-plan" = some plan ∧ plan.phase? = some .applying ∧
    plan.owner = .policy ∧ plan.status.bind (·.applyingSince) = none ∧
    step retireOldHash s (.reconcile (retireOldPass [.dropRole "old"] 2000) 10) = some s' ∧
    s'.cluster.findPlan "policy-plan" = some plan' ∧ plan'.phase? = some .applying ∧
    ¬ Recovered retireOldHash (fun _ => 1000) s.cluster := by
  have hrun : (runActions retireOldHash (fun _ _ => True) unattendedPolicy
      [.reconcile (retireOldPass [.dropRole "old"] 1000) 5]).any (fun s =>
      ((s.cluster.findPlan "policy-plan").any fun plan =>
        decide (plan.phase? = some .applying ∧ plan.owner = .policy ∧
          plan.status.bind (·.applyingSince) = none)) &&
      (step retireOldHash s (.reconcile (retireOldPass [.dropRole "old"] 2000) 10)).any fun s' =>
        (s'.cluster.findPlan "policy-plan").any fun plan' =>
          plan'.phase? = some .applying) = true := by
    decide +kernel
  obtain ⟨s, hs, hrest⟩ := (Option.any_eq_true _ _).1 hrun
  rw [Bool.and_eq_true] at hrest
  obtain ⟨plan, hplan, hfacts⟩ := (Option.any_eq_true _ _).1 hrest.1
  obtain ⟨happlying, howner, hundated⟩ := of_decide_eq_true hfacts
  obtain ⟨s', hs', hlater⟩ := (Option.any_eq_true _ _).1 hrest.2
  obtain ⟨plan', hplan', happlying'⟩ := (Option.any_eq_true _ _).1 hlater
  refine ⟨s, s', plan, plan', (RunsTo.start unattendedPolicy.cluster.policy).actions _ hs, hplan,
    happlying, howner, hundated, hs', hplan', by simpa using happlying', fun h => ?_⟩
  have hdated := (h plan (mem_of_findPlan hplan).1 happlying).1
  rw [hundated] at hdated
  cases hdated

end PgRoles.Operator

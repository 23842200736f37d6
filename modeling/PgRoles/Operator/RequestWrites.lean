import PgRoles.Operator.RequestRun

/-!
# The writes of a reconcile

Every write of a reconcile and of the finalizer is as `PassSpec` says (`passSpec_writes`), whatever
they read; and a plan is marked as applied, and the phase an operation leads to is written, only behind
the transaction of that operation (`backed_writes`).
-/

set_option autoImplicit false

namespace PgRoles.Operator

open Std PgRoles.Core PgRoles.Lib PgRoles.Sql

/-! ## Conditions and statuses -/

/-- The operator's conditions leave the decisions. -/
theorem filter_setCondition {p : EphemeralAccessCondition → Bool}
    {conditions : List EphemeralAccessCondition} {condition : EphemeralAccessCondition}
    (hp : ∀ c, p c = true → c.conditionType ≠ condition.conditionType) :
    (setCondition conditions condition).filter p = conditions.filter p := by
  have hwritten : ∀ c, c.conditionType = condition.conditionType → p c = false := by
    intro c hc
    by_contra hne
    exact hp c (Bool.eq_true_of_not_eq_false hne) hc
  unfold setCondition
  rw [List.filter_append, List.filter_filter]
  have hsingle : ∀ c : EphemeralAccessCondition, c.conditionType = condition.conditionType →
      [c].filter p = [] := by
    intro c hc
    rw [List.filter_singleton, hwritten c hc]
    rfl
  rw [hsingle, List.append_nil]
  · refine List.filter_congr fun c _ => ?_
    cases hpc : p c with
    | false => rfl
    | true => simpa using hp c hpc
  · split
    · split_ifs <;> rfl
    · rfl

theorem isDecision_iff {c : EphemeralAccessCondition} :
    ((c.conditionType == "Approved" || c.conditionType == "Denied") && c.status == "True") = true ↔
      (c.conditionType = "Approved" ∨ c.conditionType = "Denied") ∧ c.status = "True" := by
  simp

/-- Setting another condition leaves the decisions as they are. -/
theorem decisions_setCondition {conditions : List EphemeralAccessCondition}
    {conditionType : String} (happroved : conditionType ≠ "Approved" := by decide)
    (hdenied : conditionType ≠ "Denied" := by decide) {value : Bool}
    {reason message now : String} :
    ((setCondition conditions (accessCondition conditionType value reason message now)).filter
      fun c => (c.conditionType == "Approved" || c.conditionType == "Denied") &&
        c.status == "True") =
      conditions.filter fun c =>
        (c.conditionType == "Approved" || c.conditionType == "Denied") && c.status == "True" := by
  refine filter_setCondition fun c hc heq => ?_
  rcases (isDecision_iff.1 hc).1 with h | h
  · exact happroved (heq.symm.trans h)
  · exact hdenied (heq.symm.trans h)

/-- A decision is read off the decisions alone. -/
theorem decisionCondition_eq {status : RequestStatus} {conditionType : String}
    (h : conditionType = "Approved" ∨ conditionType = "Denied") :
    decisionCondition status conditionType = status.decisions.find? fun c =>
      c.conditionType == conditionType && c.status == "True" := by
  unfold decisionCondition RequestStatus.decisions
  rw [List.find?_filter]
  congr 1
  funext c
  rcases h with rfl | rfl <;> cases c.conditionType == "Approved" <;>
    cases c.conditionType == "Denied" <;> cases c.status == "True" <;> rfl

theorem decisionCondition_congr {a b : RequestStatus} {conditionType : String}
    (h : conditionType = "Approved" ∨ conditionType = "Denied") (hab : a.decisions = b.decisions) :
    decisionCondition a conditionType = decisionCondition b conditionType := by
  rw [decisionCondition_eq h, decisionCondition_eq h, hab]

theorem Approved.congr {a b : RequestStatus} {r : ResolvedAccess} (h : Approved a r)
    (hab : b.decisions = a.decisions) : Approved b r := by
  obtain ⟨c, hc, hattests⟩ := h
  exact ⟨c, (decisionCondition_congr (.inl rfl) hab).trans hc, hattests⟩

@[simp] theorem phase_transition (status : RequestStatus) (phase : EphemeralAccessRequestPhase)
    (now : String) : (status.transition phase now).phase = phase := rfl

@[simp] theorem decisions_transition (status : RequestStatus) (phase : EphemeralAccessRequestPhase)
    (now : String) : (status.transition phase now).decisions = status.decisions :=
  decisions_setCondition

@[simp] theorem decisions_validationError (status : RequestStatus) (message now : String) :
    (status.validationError message now).decisions = status.decisions :=
  decisions_setCondition

@[simp] theorem decisions_resolutionFailure (status : RequestStatus) (message now : String) :
    (status.resolutionFailure message now).decisions = status.decisions :=
  decisions_setCondition

/-! ## One operation -/

/-- What was decided before the first write. -/
structure PreparedSpec (sha256 : ByteArray → String) (request : AccessRequest) (begun : BegunPass)
    (operation : ScopedPlanOperation) (r : ResolvedAccess) (execution : ScopedExecution) : Prop where
  activated : operation = .revoke → activationBegun request begun.plans r = true
  changes : Scoped operation r execution.changes
  covers : Covers sha256 request begun operation r execution.changes
  scope : execution.plan.scope = some ⟨operation, r.bundleHash⟩
  phase : execution.plan.phase = none
  existing : ∃ target identity, existingScopedPlan request begun.plans execution.plan.name identity
    target r operation = .ok execution.existing

section Apply

variable {sha256 : ByteArray → String} {times : Timestamps} {request : AccessRequest}
  {begun : BegunPass} {r : ResolvedAccess} {operation : ScopedPlanOperation}

/-- A membership that is to be granted is not declared, and is granted now or was by a request. -/
theorem activateMembership_eq_ok {current durable : RoleGraph}
    {otherOwners : List (String × String)} {begun : Bool} {m : ResolvedEphemeralMembership}
    {found : Option Change} (h : activateMembership current durable otherOwners begun m = .ok found) :
    isDurable durable m.key = false ∧ (found = some (.addMember m.role m.member m.inherit false) ∨
      found = none ∧ ∃ edge, inspectedEdge current m.key = some edge ∧ edge.inherit = m.inherit ∧
        edge.admin = false ∧ (m.key ∈ otherOwners ∨ begun = true)) := by
  unfold activateMembership at h
  obtain ⟨-, h⟩ := check_bind_eq_ok.1 h
  obtain ⟨hdurable, h⟩ := check_bind_eq_ok.1 h
  refine ⟨rejectIf_eq_ok.1 hdurable, ?_⟩
  split at h
  · rename_i edge hedge
    split_ifs at h with howned
    cases h
    simp only [Bool.and_eq_true, Bool.or_eq_true, List.contains_iff_mem, beq_iff_eq,
      Bool.not_eq_true'] at howned
    obtain ⟨⟨howner, hinherit⟩, hadmin⟩ := howned
    exact .inr ⟨rfl, edge, hedge, hinherit, hadmin, howner⟩
  · cases h
    exact .inl rfl

/-- A membership is left in place only where something else calls for it, or it is gone. -/
theorem revokeMembership_eq_none {current durable : RoleGraph}
    {otherOwners : List (String × String)} {m : ResolvedEphemeralMembership}
    (h : revokeMembership current durable otherOwners m = none) :
    isDurable durable m.key = true ∨ m.key ∈ otherOwners ∨ inspectedEdge current m.key = none := by
  unfold revokeMembership at h
  split_ifs at h with hleft hedge
  · rw [Bool.or_eq_true, List.contains_iff_mem] at hleft
    exact hleft.imp_right .inl
  · rw [Option.not_isSome_iff_eq_none] at hedge
    exact .inr (.inr hedge)

theorem revokeMembership_eq_some {current durable : RoleGraph}
    {otherOwners : List (String × String)} {m : ResolvedEphemeralMembership} {change : Change}
    (h : revokeMembership current durable otherOwners m = some change) :
    change = .removeMember m.role m.member none := by
  unfold revokeMembership at h
  split_ifs at h
  cases h
  rfl

/-- The changes are of the bundle, each as the operation makes it. -/
theorem scoped_scopedChanges {current durable : RoleGraph} {otherOwners : List (String × String)}
    {begun : Bool} {changes : List Change} {retained : List ResolvedEphemeralMembership}
    (h : scopedChanges current durable otherOwners operation begun r = .ok (changes, retained)) :
    Scoped operation r changes := by
  intro change hchange
  cases operation with
  | activate =>
      obtain ⟨found, hfound, h⟩ := bind_eq_ok.1 h
      cases h
      obtain ⟨o, ho, hmem⟩ := List.mem_flatMap.1 hchange
      obtain ⟨m, hm, heq⟩ := exists_of_mem_mapM hfound ho
      rw [Option.mem_toList] at hmem
      subst hmem
      obtain ⟨-, hadd | ⟨hnone, -⟩⟩ := activateMembership_eq_ok heq
      · exact ⟨m, hm, Option.some.inj hadd⟩
      · cases hnone
  | revoke =>
      cases h
      obtain ⟨m, hm, heq⟩ := List.mem_filterMap.1 hchange
      exact ⟨m, hm, revokeMembership_eq_some heq⟩

/-- The changes of an operation and what it retains cover the snapshot. -/
theorem covers_scopedChanges {current durable : RoleGraph} {otherOwners : List (String × String)}
    {marked : Bool} {changes : List Change} {retained : List ResolvedEphemeralMembership}
    (hinspected : Inspected sha256 request begun r durable current otherOwners marked)
    (h : scopedChanges current durable otherOwners operation marked r = .ok (changes, retained)) :
    Covers sha256 request begun operation r changes := by
  refine ⟨durable, current, otherOwners, marked, hinspected, fun m hm => ?_⟩
  cases operation with
  | activate =>
      obtain ⟨found, hfound, h⟩ := bind_eq_ok.1 h
      cases h
      obtain ⟨o, ho, heq⟩ := exists_of_mem_of_mapM hfound hm
      obtain ⟨hdurable, hgranted⟩ := activateMembership_eq_ok heq
      refine ⟨hdurable, hgranted.imp (fun hadd => ?_) fun hleft => hleft.2⟩
      exact List.mem_flatMap.2 ⟨o, ho, Option.mem_toList.2 hadd⟩
  | revoke =>
      cases h
      cases hrevoke : revokeMembership current durable otherOwners m with
      | none => exact .inr (revokeMembership_eq_none hrevoke)
      | some change =>
          left
          rw [← revokeMembership_eq_some hrevoke]
          exact List.mem_filterMap.2 ⟨m, hm, hrevoke⟩

/-- What is known of a prepared execution. -/
theorem preparedSpec_prepareScoped {execution : ScopedExecution}
    (h : prepareScoped sha256 request begun.pass.execution begun.plans r operation =
      .ok execution) : PreparedSpec sha256 request begun operation r execution := by
  unfold prepareScoped at h
  obtain ⟨-, h⟩ := check_bind_eq_ok.1 h
  obtain ⟨hbegun, h⟩ := check_bind_eq_ok.1 h
  obtain ⟨target, htarget, h⟩ := bind_eq_ok.1 h
  obtain ⟨-, h⟩ := check_bind_eq_ok.1 h
  obtain ⟨requests, hrequests, h⟩ := bind_eq_ok.1 h
  obtain ⟨durable, hdurable, h⟩ := bind_eq_ok.1 h
  obtain ⟨current, hcurrent, h⟩ := bind_eq_ok.1 h
  obtain ⟨⟨changes, retained⟩, hchanges, h⟩ := bind_eq_ok.1 h
  obtain ⟨-, h⟩ := check_bind_eq_ok.1 h
  obtain ⟨sqlContext, -, h⟩ := bind_eq_ok.1 h
  obtain ⟨-, h⟩ := check_bind_eq_ok.1 h
  obtain ⟨name, -, h⟩ := bind_eq_ok.1 h
  obtain ⟨statements, -, h⟩ := bind_eq_ok.1 h
  obtain ⟨existing, hexisting, h⟩ := bind_eq_ok.1 h
  cases h
  rw [rejectIf_eq_ok, Bool.and_eq_false_iff] at hbegun
  exact
    { activated := fun hrevoke => by
        rcases hbegun with hne | hbegun
        · rw [hrevoke] at hne
          exact absurd hne (by decide)
        · simpa using hbegun
      changes := scoped_scopedChanges hchanges
      covers := covers_scopedChanges
        ⟨target, requests, htarget, hrequests, hdurable, hcurrent, rfl, rfl⟩ hchanges
      scope := rfl
      phase := rfl
      existing := ⟨target, _, hexisting⟩ }

theorem mem_createScoped {execution : ScopedExecution} {w : RequestWrite}
    (h : w ∈ createScoped execution) :
    w = .createPlan execution.plan ∨ w = .planPhase execution.plan.name .applying := by
  unfold createScoped at h
  split at h
  · exact absurd h List.not_mem_nil
  · exact List.mem_pair.1 h

/-- A plan that is there under the name belongs to the request and to the operation. -/
theorem existingScopedPlan_eq_ok {plans : List StoredPlan} {name identity : String}
    {target : TargetPolicy} {existing : Option StoredPlan}
    (h : existingScopedPlan request plans name identity target r operation = .ok existing) :
    plans.find? (fun plan => plan.name == name) = existing ∧ ∀ plan, existing = some plan →
      plan.toScopedPlan.controlledBy request = true ∧
        plan.scope = some ⟨operation, r.bundleHash⟩ := by
  unfold existingScopedPlan at h
  split at h
  · rename_i found hfound
    obtain ⟨hvalid, h⟩ := check_bind_eq_ok.1 h
    cases h
    refine ⟨hfound, fun plan hplan => ?_⟩
    cases hplan
    unfold validateExistingScopedPlan at hvalid
    simp only [rejectIf_eq_ok, Bool.or_eq_false_iff, Bool.not_eq_false', Bool.and_eq_true] at hvalid
    obtain ⟨⟨⟨⟨hcontrolled, -⟩, hscope, -⟩, -⟩, -⟩ := hvalid
    obtain ⟨scope, hsome, hmatches⟩ := (Option.any_eq_true _ _).1 hscope
    rw [Bool.and_eq_true, beq_iff_eq, beq_iff_eq] at hmatches
    obtain ⟨hoperation, hhash⟩ := hmatches
    refine ⟨hcontrolled, hsome.trans (congrArg some ?_)⟩
    rw [← hoperation, ← hhash]
  · rename_i hnone
    cases h
    exact ⟨hnone, fun plan hplan => by cases hplan⟩

/-- The writes of one operation. -/
theorem mem_writes_applyScopedMemberships {w : RequestWrite}
    (h : w ∈ (applyScopedMemberships sha256 request begun.pass.execution begun.plans r
      operation).writes) :
    ∃ execution, PreparedSpec sha256 request begun operation r execution ∧
      (w = .createPlan execution.plan ∨ (∃ phase, w = .planPhase execution.plan.name phase) ∨
        w = .execute operation execution.changes) := by
  unfold applyScopedMemberships at h
  split at h
  · exact absurd h List.not_mem_nil
  · rename_i execution hprepare
    refine ⟨execution, preparedSpec_prepareScoped hprepare, ?_⟩
    have hcreated : w ∈ createScoped execution → w = .createPlan execution.plan ∨
        (∃ phase, w = .planPhase execution.plan.name phase) ∨
        w = .execute operation execution.changes := fun hw =>
      (mem_createScoped hw).imp_right fun hphase => .inl ⟨_, hphase⟩
    unfold executeScoped at h
    dsimp only at h
    split_ifs at h
    · exact hcreated h
    · split at h
      · rcases List.mem_append.1 h with h | h
        · exact hcreated h
        · rcases List.mem_pair.1 h with h | h
          · exact .inr (.inr h)
          · exact .inr (.inl ⟨_, h⟩)
      · rcases List.mem_append.1 h with h | h
        · exact hcreated h
        · exact .inr (.inl ⟨_, List.mem_singleton.1 h⟩)

end Apply

/-! ## The steps -/

section Patches

variable {sha256 : ByteArray → String} {times : Timestamps} {request : AccessRequest}
  {begun : BegunPass} {old new : RequestStatus}

/-- The snapshot, the times and the decisions are the same. -/
structure SameRecord (old new : RequestStatus) : Prop where
  resolved : new.resolvedAccess = old.resolvedAccess
  activatedAt : new.activatedAt = old.activatedAt
  expiresAt : new.expiresAt = old.expiresAt
  decisions : new.decisions = old.decisions

theorem StartedFor.congr (h : StartedFor times old) (hsame : SameRecord old new) :
    StartedFor times new := by
  obtain ⟨r, start, granted, activatedAt, expiresAt, hr, hgranted, ha, he, hactivated, hexpires⟩ := h
  exact ⟨r, start, granted, activatedAt, expiresAt, hsame.resolved.trans hr, hgranted, ha, he,
    hsame.activatedAt.trans hactivated, hsame.expiresAt.trans hexpires⟩

/-- A phase that a request with the same record may go to: it waits or runs only if it did. -/
structure PhaseMove (a b : EphemeralAccessRequestPhase) : Prop where
  order : a.leadsTo b = true
  pending : b = .pending ↔ a = .pending
  waiting : b = .pendingApproval → a = .pendingApproval
  started : b.started = true → a.started = true

theorem phaseMove_iff {a b : EphemeralAccessRequestPhase} : PhaseMove a b ↔
    a.leadsTo b = true ∧ (b = .pending ↔ a = .pending) ∧
      (b = .pendingApproval → a = .pendingApproval) ∧ (b.started = true → a.started = true) :=
  ⟨fun h => ⟨h.order, h.pending, h.waiting, h.started⟩, fun h => ⟨h.1, h.2.1, h.2.2.1, h.2.2.2⟩⟩

instance (a b : EphemeralAccessRequestPhase) : Decidable (PhaseMove a b) :=
  decidable_of_iff' _ phaseMove_iff

theorem PhaseMove.refl (a : EphemeralAccessRequestPhase) : PhaseMove a a where
  order := a.leadsTo_refl
  pending := Iff.rfl
  waiting h := h
  started h := h

/-- A status with the same record, further on in its phases, is sound as well. -/
theorem Sound.congr (h : Sound times old) (hsame : SameRecord old new)
    (hphase : PhaseMove old.phase new.phase) : Sound times new where
  pending := by rw [hphase.pending, h.pending, hsame.resolved]
  waiting hwaiting := by
    rw [hsame.activatedAt, hsame.expiresAt]
    exact h.waiting (hwaiting.imp hphase.pending.1 hphase.waiting)
  timed := by
    rw [hsame.activatedAt, hsame.expiresAt]
    exact h.timed.imp_right fun hstarted => hstarted.congr hsame
  started hstarted := (h.started (hphase.started hstarted)).congr hsame

/-- A status with the same record, further on in its phases, may be patched in. -/
theorem Patch.of_same (hsame : SameRecord old new) (hphase : PhaseMove old.phase new.phase) :
    Patch sha256 times request begun old new where
  phase := hphase.order
  conditions := hsame.decisions
  resolved r h := hsame.resolved.trans h
  activatedAt _ _ := hsame.activatedAt
  expiresAt _ _ := hsame.expiresAt
  sound h := h.congr hsame hphase
  origin r hnone hsome := by
    rw [hsame.resolved, hnone] at hsome
    cases hsome
  approved hpending hstarted := by
    have hwas := hphase.started hstarted
    rw [hpending] at hwas
    cases hwas

theorem sameRecord_transition (status : RequestStatus) (phase : EphemeralAccessRequestPhase)
    (now : String) : SameRecord status (status.transition phase now) where
  resolved := rfl
  activatedAt := rfl
  expiresAt := rfl
  decisions := decisions_transition status phase now

theorem sameRecord_ended (status : RequestStatus) (phase : EphemeralAccessRequestPhase)
    (retained : List ResolvedEphemeralMembership) (endedAt : Option String) (now : String) :
    SameRecord status (RequestStatus.transition
      { status with retainedMemberships := retained, endedAt := endedAt } phase now) where
  resolved := rfl
  activatedAt := rfl
  expiresAt := rfl
  decisions := decisions_setCondition

end Patches

section StepSpecs

variable {sha256 : ByteArray → String} {times : Timestamps} {request : AccessRequest}
  {begun : BegunPass} {status : RequestStatus} {r : ResolvedAccess}

/-- The writes of an operation are those of a bundle, and grants need authority. -/
theorem passSpec_apply {operation : ScopedPlanOperation} (hr : status.resolvedAccess = some r)
    (hauthority : operation = .activate →
      Authorised sha256 times request status begun.pass r) {w : RequestWrite}
    (h : w ∈ (applyScopedMemberships sha256 request begun.pass.execution begun.plans r
      operation).writes) : PassSpec sha256 times request begun status w := by
  obtain ⟨execution, hspec, rfl | ⟨phase, rfl⟩ | rfl⟩ := mem_writes_applyScopedMemberships h
  · exact ⟨r, operation, hspec.scope, hauthority⟩
  · trivial
  · cases operation with
    | activate => exact ⟨r, hr, hspec.changes, hspec.covers, hauthority rfl⟩
    | revoke => exact ⟨r, hr, hspec.changes, hspec.covers, hspec.activated rfl⟩

/-- What is known of the writes that end a request. -/
theorem passSpec_endRequest {revoke : Bool} {phase : EphemeralAccessRequestPhase}
    (hr : status.resolvedAccess = some r) (hphase : PhaseMove status.phase phase) {w : RequestWrite}
    (h : w ∈ (endRequest sha256 request begun.pass begun.plans status r revoke phase).writes) :
    PassSpec sha256 times request begun status w := by
  have hrevocation : ∀ w ∈ (applyScopedMemberships sha256 request begun.pass.execution begun.plans
      r .revoke).writes, PassSpec sha256 times request begun status w :=
    fun w hw => passSpec_apply hr (fun hno => by cases hno) hw
  unfold endRequest at h
  split_ifs at h with hrevoke
  · dsimp only at h
    split at h
    · exact hrevocation w h
    · rename_i retained hretained
      rcases List.mem_append.1 h with h | h
      · exact hrevocation w h
      · rw [List.mem_singleton.1 h]
        exact Patch.of_same (sameRecord_ended status phase retained _ _) hphase
  · rw [List.mem_singleton.1 h]
    exact Patch.of_same (sameRecord_transition status phase _) hphase

/-- Writing a condition of the operator's, and the error beside it. -/
theorem passSpec_report {new : RequestStatus} (hphase : new.phase = status.phase)
    (hresolved : new.resolvedAccess = status.resolvedAccess)
    (hactivated : new.activatedAt = status.activatedAt)
    (hexpires : new.expiresAt = status.expiresAt) (hdecisions : new.decisions = status.decisions) :
    PassSpec sha256 times request begun status (.patchStatus new) := by
  refine Patch.of_same ⟨hresolved, hactivated, hexpires, hdecisions⟩ ?_
  rw [hphase]
  exact PhaseMove.refl status.phase

/-- The deadline starts with the duration of the snapshot. -/
theorem persistActivationDeadline_eq_ok {new : RequestStatus} {now : Nat}
    (h : persistActivationDeadline times status r now = .ok new)
    (hnone : status.activatedAt = none) (hr : status.resolvedAccess = some r) :
    StartedFor times new ∧ new.phase = status.phase ∧
      new.resolvedAccess = status.resolvedAccess ∧ new.conditions = status.conditions := by
  unfold persistActivationDeadline at h
  rw [hnone, Option.isSome_none, Bool.false_and, if_neg Bool.false_ne_true] at h
  obtain ⟨granted, hgranted, h⟩ := bind_eq_ok.1 h
  obtain ⟨-, h⟩ := check_bind_eq_ok.1 h
  obtain ⟨activatedAt, hactivated, h⟩ := bind_eq_ok.1 h
  obtain ⟨expiresAt, hexpires, h⟩ := bind_eq_ok.1 h
  cases h
  exact ⟨⟨r, now, granted, activatedAt, expiresAt, hr, readDuration_eq_ok.1 hgranted, hactivated,
    hexpires, rfl, rfl⟩, rfl, rfl, rfl⟩

end StepSpecs

section LifecycleSpecs

variable {sha256 : ByteArray → String} {times : Timestamps} {request : AccessRequest}
  {begun : BegunPass} {status : RequestStatus} {r : ResolvedAccess}

/-- The first snapshot is what the reconcile resolved, and time runs at once only where no approval
is required. -/
theorem patch_resolvedStatus {resolution : Resolution} {new : RequestStatus}
    (hsound : Sound times status) (hnone : status.resolvedAccess = none)
    (hresolved : resolveRequest sha256 times begun.pass.resolution begun.pass.resolveNow request
      status.approvalExpiresAt = .ok resolution) (hrunning : resolution.suspended = false)
    (h : resolvedStatus times begun.pass status resolution = .ok new) :
    Patch sha256 times request begun status new := by
  have hpending := hsound.pending.2 hnone
  obtain ⟨hactivated, hexpires⟩ := hsound.waiting (.inl hpending)
  unfold resolvedStatus at h
  obtain ⟨approvalExpiresAt, -, h⟩ := bind_eq_ok.1 h
  have horigin : ∀ (r : ResolvedAccess), some resolution.resolved = some r →
      ResolvedBy sha256 times request begun r resolution.mode := fun r hr =>
    ⟨_, resolution, hresolved, Option.some.inj hr, rfl, hrunning⟩
  have hdecisions : ∀ value reason message value' reason' message' now,
      ((setCondition (setCondition status.conditions
        (accessCondition "Resolved" value reason message now))
        (accessCondition "Ready" value' reason' message' now)).filter fun c =>
          (c.conditionType == "Approved" || c.conditionType == "Denied") && c.status == "True") =
        status.decisions := by
    intro value reason message value' reason' message' now
    rw [decisions_setCondition, decisions_setCondition]
    rfl
  cases hmode : resolution.mode with
  | required =>
      simp only [hmode, reduceCtorEq, if_false] at h
      cases h
      exact
        { phase := by rw [hpending]; rfl
          conditions := hdecisions _ _ _ _ _ _ _
          resolved := fun r hr => by rw [hnone] at hr; cases hr
          activatedAt := fun hno => absurd hpending hno
          expiresAt := fun hno => absurd hpending hno
          sound := fun _ =>
            { pending := ⟨fun hno => (by cases hno), fun hno => (by cases hno)⟩
              waiting := fun _ => ⟨hactivated, hexpires⟩
              timed := .inl ⟨hactivated, hexpires⟩
              started := fun hno => by cases hno }
          origin := fun r _ hr => ⟨_, horigin r hr, fun hno => (by cases hno)⟩
          approved := fun hno => by rw [hpending] at hno; cases hno }
  | automatic =>
      simp only [hmode, if_true] at h
      obtain ⟨hstarted, hphase, hsnapshot, hconditions⟩ :=
        persistActivationDeadline_eq_ok h hactivated rfl
      exact
        { phase := by rw [hpending, hphase]; rfl
          conditions := by
            rw [RequestStatus.decisions, hconditions]
            exact hdecisions _ _ _ _ _ _ _
          resolved := fun r hr => by rw [hnone] at hr; cases hr
          activatedAt := fun hno => absurd hpending hno
          expiresAt := fun hno => absurd hpending hno
          sound := fun _ =>
            { pending := by
                rw [hphase, hsnapshot]
                exact ⟨fun hno => (by cases hno), fun hno => (by cases hno)⟩
              waiting := fun hno => by rw [hphase] at hno; rcases hno with hno | hno <;> cases hno
              timed := .inr hstarted
              started := fun _ => hstarted }
          origin := fun r _ hr => ⟨_, horigin r (hsnapshot.symm.trans hr), fun _ => hmode⟩
          approved := fun hno => by rw [hpending] at hno; cases hno }

/-- What is known of the writes that resolve a request. -/
theorem passSpec_resolveStep (hsound : Sound times status)
    (hnone : status.resolvedAccess = none) {w : RequestWrite}
    (h : w ∈ (resolveStep sha256 times request begun.pass status).writes) :
    PassSpec sha256 times request begun status w := by
  unfold resolveStep at h
  split at h
  · rw [List.mem_singleton.1 h]
    exact passSpec_report rfl rfl rfl rfl (decisions_resolutionFailure status _ _)
  · exact absurd h List.not_mem_nil
  · rename_i resolution hresolution
    split_ifs at h with hsuspended
    · rw [List.mem_singleton.1 h]
      exact passSpec_report rfl rfl rfl rfl (decisions_resolutionFailure status _ _)
    · split at h
      · exact absurd h List.not_mem_nil
      · rename_i new hnew
        rw [List.mem_singleton.1 h]
        exact patch_resolvedStatus hsound hnone hresolution (Bool.eq_false_iff.2 hsuspended) hnew

/-- What is known of the writes while a request waits for its approval. -/
theorem passSpec_pendingStep {resolution : Resolution} (hsound : Sound times status)
    (hr : status.resolvedAccess = some r) (hphase : status.phase = .pendingApproval)
    {w : RequestWrite}
    (h : w ∈ (pendingStep times begun.pass status r resolution).writes) :
    PassSpec sha256 times request begun status w := by
  unfold pendingStep at h
  split at h
  · exact absurd h List.not_mem_nil
  · split_ifs at h
    · rw [List.mem_singleton.1 h]
      refine Patch.of_same (sameRecord_transition status _ _) ?_
      rw [hphase]
      exact (by decide : PhaseMove .pendingApproval .approvalExpired)
    · exact absurd h List.not_mem_nil
    · split at h
      · exact absurd h List.not_mem_nil
      · rename_i approved happroved
        split_ifs at h with hattested
        · exact absurd h List.not_mem_nil
        · rw [Bool.or_eq_true, not_or, Bool.not_eq_true, Bool.not_eq_true,
            Bool.not_eq_false'] at hattested
          split at h
          · exact absurd h List.not_mem_nil
          · rename_i started hstarted
            obtain ⟨hactivated, -⟩ := hsound.waiting (.inr hphase)
            obtain ⟨hfor, -, hsnapshot, hconditions⟩ :=
              persistActivationDeadline_eq_ok hstarted hactivated hr
            have hsame := sameRecord_transition started .applying begun.pass.now
            rw [List.mem_singleton.1 h]
            exact
              { phase := by rw [hphase]; rfl
                conditions := by
                  rw [hsame.decisions, RequestStatus.decisions, hconditions, RequestStatus.decisions]
                resolved := fun r' hr' => hsame.resolved.trans (hsnapshot.trans hr')
                activatedAt := fun _ hno => absurd hphase hno
                expiresAt := fun _ hno => absurd hphase hno
                sound := fun _ =>
                  { pending := by
                      rw [hsame.resolved, hsnapshot, hr]
                      exact ⟨fun hno => (by cases hno), fun hno => (by cases hno)⟩
                    waiting := fun hno => by rcases hno with hno | hno <;> cases hno
                    timed := .inr (hfor.congr hsame)
                    started := fun _ => hfor.congr hsame }
                origin := fun r' hno => by rw [hr] at hno; cases hno
                approved := fun _ _ => ⟨r, hr, approved, happroved, hattested.2⟩ }

theorem attested_of_checkAttested {mode : EphemeralApprovalMode}
    (h : checkAttested status r mode = .ok ()) : mode = .automatic ∨ Approved status r := by
  unfold checkAttested at h
  cases mode with
  | automatic => exact .inl rfl
  | required =>
      rw [if_pos rfl] at h
      split at h
      · cases h
      · rename_i approved happroved
        rw [rejectIf_eq_ok, Bool.not_eq_false'] at h
        exact .inr ⟨approved, happroved, h⟩

/-- What is known of the writes that activate a request. -/
theorem passSpec_applyingStep {mode : EphemeralApprovalMode} (hr : status.resolvedAccess = some r)
    (hphase : status.phase = .applying)
    (hauthority : (∃ text secs, status.expiresAt = some text ∧ times.parse text = some secs ∧
        begun.pass.checkNow < secs) →
      (mode = .automatic ∨ Approved status r) →
      Authorised sha256 times request status begun.pass r) {w : RequestWrite}
    (h : w ∈ (applyingStep sha256 times request begun.pass begun.plans status r mode).writes) :
    PassSpec sha256 times request begun status w := by
  unfold applyingStep at h
  split at h
  · exact absurd h List.not_mem_nil
  · rename_i hattested
    split at h
    · exact absurd h List.not_mem_nil
    · rename_i expiresAt hexpires
      split_ifs at h with htime
      · dsimp only at h
        cases hbegun : activationBegun request begun.plans r with
        | true =>
            rw [hbegun, if_pos rfl] at h
            refine passSpec_endRequest hr ?_ h
            rw [hphase]
            decide
        | false =>
            rw [hbegun, if_neg Bool.false_ne_true] at h
            refine passSpec_endRequest hr ?_ h
            rw [hphase]
            decide
      · have happly : ∀ w ∈ (applyScopedMemberships sha256 request begun.pass.execution begun.plans
            r .activate).writes, PassSpec sha256 times request begun status w := by
          refine fun w hw => passSpec_apply hr (fun _ => ?_) hw
          obtain ⟨text, htext, hsecs⟩ := Option.bind_eq_some_iff.1 hexpires
          exact hauthority ⟨text, expiresAt, htext, hsecs, Nat.not_le.1 htime⟩
            (attested_of_checkAttested hattested)
        dsimp only at h
        split at h
        · exact happly w h
        · rcases List.mem_append.1 h with h | h
          · exact happly w h
          · rw [List.mem_singleton.1 h]
            refine Patch.of_same ⟨rfl, rfl, rfl, ?_⟩ ?_
            · rw [decisions_transition]
              exact decisions_setCondition
            · rw [hphase]
              exact (by decide : PhaseMove .applying .active)

/-- What stands between a request that applies and the grant of its bundle. -/
theorem passSpec_unfinishedStep (hsound : Sound times status) (hr : status.resolvedAccess = some r)
    (hvalid : r.hasValidBundleHash sha256 = true)
    (hdenied : decisionCondition status "Denied" = none)
    (hphase : status.phase = .pendingApproval ∨ status.phase = .applying) {w : RequestWrite}
    (h : w ∈ (unfinishedStep sha256 times request begun.pass begun.plans status r).writes) :
    PassSpec sha256 times request begun status w := by
  have hcancel : PhaseMove status.phase .cancelled := by
    rcases hphase with hphase | hphase <;> rw [hphase] <;> decide
  unfold unfinishedStep at h
  split at h
  · exact absurd h List.not_mem_nil
  · rename_i resolution hresolution
    split_ifs at h with hchanged hpending
    · exact passSpec_endRequest hr hcancel h
    · exact passSpec_pendingStep hsound hr hpending h
    · have happlying : status.phase = .applying := hphase.resolve_left hpending
      refine passSpec_applyingStep hr happlying (fun hintime hattested => ?_) h
      rw [Bool.or_eq_true, not_or, Bool.not_eq_true, Bool.not_eq_true] at hchanged
      obtain ⟨hsame, hrunning⟩ := hchanged
      rw [happlying, beq_self_eq_true, Bool.and_true] at hrunning
      simp only [resolutionChanged, Bool.or_eq_false_iff, bne_eq_false_iff_eq, and_assoc] at hsame
      obtain ⟨haccess, htarget, hbundle, hduration, -⟩ := hsame
      exact
        { applying := happlying
          snapshot := hr
          intact := hvalid
          notDenied := hdenied
          current := ⟨_, resolution, hresolution, hrunning, haccess, htarget, hbundle, hduration,
            hattested⟩
          inTime := hintime }

/-- What is known of the writes while a request is active. -/
theorem passSpec_activeStep (hphase : status.phase = .active) {w : RequestWrite}
    (h : w ∈ (activeStep times begun.pass status).writes) :
    PassSpec sha256 times request begun status w := by
  unfold activeStep at h
  split at h
  · exact absurd h List.not_mem_nil
  · split_ifs at h
    · exact absurd h List.not_mem_nil
    · rw [List.mem_singleton.1 h]
      refine Patch.of_same (sameRecord_transition status _ _) ?_
      rw [hphase]
      exact (by decide : PhaseMove .active .revoking)

/-- What is known of the writes after resolution. -/
theorem passSpec_resolvedStep (hsound : Sound times status) (hr : status.resolvedAccess = some r)
    {w : RequestWrite}
    (h : w ∈ (resolvedStep sha256 times request begun.pass begun.plans status r).writes) :
    PassSpec sha256 times request begun status w := by
  have hstarted : status.phase ≠ .pending := fun hno => by
    have hnone := hsound.pending.1 hno
    rw [hr] at hnone
    cases hnone
  unfold resolvedStep at h
  split_ifs at h with hinvalid hterminal hdenied
  · exact absurd h List.not_mem_nil
  · exact absurd h List.not_mem_nil
  · refine passSpec_endRequest hr ?_ h
    cases hphase : status.phase <;> first
      | decide
      | exact absurd hphase hstarted
      | (rw [hphase] at hterminal; exact absurd rfl hterminal)
  · have hvalid : r.hasValidBundleHash sha256 = true := by
      rwa [Bool.not_eq_true, Bool.not_eq_false'] at hinvalid
    have hnot : decisionCondition status "Denied" = none := by
      rwa [Bool.not_eq_true, Option.isSome_eq_false_iff, Option.isNone_iff_eq_none] at hdenied
    split at h
    · rename_i hphase
      exact passSpec_unfinishedStep hsound hr hvalid hnot (.inl hphase) h
    · rename_i hphase
      exact passSpec_unfinishedStep hsound hr hvalid hnot (.inr hphase) h
    · rename_i hphase
      exact passSpec_activeStep hphase h
    · rename_i hphase
      refine passSpec_endRequest hr ?_ h
      rw [hphase]
      decide
    · exact absurd h List.not_mem_nil

/-- Every write of a reconcile and of the finalizer, whatever was read. -/
theorem passSpec_writes (hsound : Sound times status) {w : RequestWrite}
    (h : w ∈ begun.writes sha256 times request status) :
    PassSpec sha256 times request begun status w := by
  have happly : ∀ w ∈ (reconcileAccessRequestApply sha256 times request begun.pass begun.plans
      status).writes, PassSpec sha256 times request begun status w := by
    intro w hw
    unfold reconcileAccessRequestApply at hw
    split at hw
    · rename_i hnone
      exact passSpec_resolveStep hsound hnone hw
    · rename_i r hr
      exact passSpec_resolvedStep hsound hr hw
  unfold BegunPass.writes at h
  split_ifs at h
  · unfold reconcileAccessRequestCleanup at h
    split at h
    · exact absurd h List.not_mem_nil
    · rename_i r hr
      split_ifs at h
      · exact absurd h List.not_mem_nil
      · exact absurd h List.not_mem_nil
      · exact passSpec_apply hr (fun hno => by cases hno) h
      · exact absurd h List.not_mem_nil
  · unfold reconcileAccessRequest at h
    dsimp only at h
    split at h
    · rcases List.mem_append.1 h with h | h
      · exact happly w h
      · rw [List.mem_singleton.1 h]
        exact passSpec_report rfl rfl rfl rfl (decisions_validationError status _ _)
    · exact happly w h

end LifecycleSpecs

/-! ## The order of the writes -/

section Backed

variable {sha256 : ByteArray → String} {times : Timestamps} {request : AccessRequest}
  {begun : BegunPass} {status : RequestStatus} {r : ResolvedAccess}
  {operation : ScopedPlanOperation}

/-- A patch that settles nothing may follow. -/
theorem Backed.append_patch {done : Bool} {ws : List RequestWrite} {new : RequestStatus}
    (hnew : ∀ settled, new.phase = settledPhase settled → status.phase = new.phase)
    (h : Backed sha256 request begun status operation done ws) :
    Backed sha256 request begun status operation done (ws ++ [.patchStatus new]) := by
  induction ws generalizing done with
  | nil => exact ⟨fun settled hsettled hne => absurd (hnew settled hsettled) hne, trivial⟩
  | cons w ws ih =>
      cases w with
      | createPlan plan => exact ⟨h.1, ih h.2⟩
      | planPhase name phase => exact ⟨h.1, ih h.2⟩
      | execute executed changes => exact ⟨h.1, ih h.2⟩
      | patchStatus patch => exact ⟨h.1, ih h.2⟩

theorem backed_createScoped {execution : ScopedExecution} {done : Bool} {ws : List RequestWrite}
    (hprepared : Prepared sha256 request begun status operation r execution)
    (h : Backed sha256 request begun status operation done ws) :
    Backed sha256 request begun status operation done (createScoped execution ++ ws) := by
  unfold createScoped
  split
  · exact h
  · exact ⟨⟨r, execution, hprepared, rfl⟩, fun hno => (by cases hno), h⟩

/-- What follows an operation that went through finds its transaction committed, now or before. -/
theorem backed_apply (hr : status.resolvedAccess = some r) {tail : List RequestWrite}
    (hok : ∀ done, (done = true ∨ ∃ r execution plan,
        Prepared sha256 request begun status operation r execution ∧
          execution.existing = some plan ∧ plan.phase = some .applied) →
      Backed sha256 request begun status operation done tail)
    (herror : ∀ e, (applyScopedMemberships sha256 request begun.pass.execution begun.plans r
      operation).result = .error e → tail = []) :
    Backed sha256 request begun status operation false
      ((applyScopedMemberships sha256 request begun.pass.execution begun.plans r
        operation).writes ++ tail) := by
  cases hprepare : prepareScoped sha256 request begun.pass.execution begun.plans r operation with
  | error e =>
      simp only [applyScopedMemberships, hprepare] at herror ⊢
      rw [herror e rfl]
      trivial
  | ok execution =>
      have hprepared : Prepared sha256 request begun status operation r execution := ⟨hr, hprepare⟩
      simp only [applyScopedMemberships, hprepare, executeScoped] at herror ⊢
      split_ifs at herror ⊢ with happlied
      · obtain ⟨plan, hplan, hphase⟩ := (Option.any_eq_true _ _).1 happlied
        have hnothing : createScoped execution = [] := by rw [createScoped, hplan]
        rw [hnothing]
        exact hok false (.inr ⟨r, execution, plan, hprepared, hplan, eq_of_beq hphase⟩)
      · cases hfailure : begun.pass.execution.failure with
        | none =>
            rw [List.append_assoc]
            refine backed_createScoped hprepared ⟨rfl, fun _ => ⟨rfl, r, execution, hprepared, rfl⟩, ?_⟩
            exact hok true (.inl rfl)
        | some message =>
            rw [hfailure] at herror
            rw [herror _ rfl, List.append_nil]
            exact backed_createScoped hprepared ⟨fun hno => (by cases hno), trivial⟩

theorem backed_writes_apply (hr : status.resolvedAccess = some r) :
    Backed sha256 request begun status operation false
      (applyScopedMemberships sha256 request begun.pass.execution begun.plans r
        operation).writes := by
  rw [← List.append_nil (applyScopedMemberships sha256 request begun.pass.execution begun.plans r
    operation).writes]
  exact backed_apply hr (fun _ _ => trivial) fun _ _ => rfl

theorem backed_patch {new : RequestStatus}
    (hnew : ∀ settled, new.phase = settledPhase settled → status.phase = new.phase) :
    ∃ operation, Backed sha256 request begun status operation false [.patchStatus new] :=
  ⟨.activate, fun settled hsettled hne => absurd (hnew settled hsettled) hne, trivial⟩

/-- The writes that end a request are backed. -/
theorem backed_endRequest {revoke : Bool} {phase : EphemeralAccessRequestPhase}
    (hr : status.resolvedAccess = some r) (hactive : phase ≠ .active)
    (hended : phase = .ended → revoke = true) :
    ∃ operation, Backed sha256 request begun status operation false
      (endRequest sha256 request begun.pass begun.plans status r revoke phase).writes := by
  unfold endRequest
  split_ifs with hrevoke
  · refine ⟨.revoke, ?_⟩
    dsimp only
    split
    · exact backed_writes_apply hr
    · rename_i retained hretained
      refine backed_apply hr (fun done hdone => ⟨fun settled hsettled _ => ⟨?_, hdone⟩, trivial⟩) ?_
      · cases settled with
        | activate => exact absurd hsettled hactive
        | revoke => rfl
      · intro e he
        rw [hretained] at he
        cases he
  · refine backed_patch fun settled hsettled => ?_
    cases settled with
    | activate => exact absurd hsettled hactive
    | revoke => exact absurd (hended hsettled) hrevoke

theorem phase_persistActivationDeadline {new : RequestStatus} {now : Nat}
    (h : persistActivationDeadline times status r now = .ok new) : new.phase = status.phase := by
  unfold persistActivationDeadline at h
  split_ifs at h
  · cases h
    rfl
  · obtain ⟨granted, -, h⟩ := bind_eq_ok.1 h
    obtain ⟨-, h⟩ := check_bind_eq_ok.1 h
    obtain ⟨activatedAt, -, h⟩ := bind_eq_ok.1 h
    obtain ⟨expiresAt, -, h⟩ := bind_eq_ok.1 h
    cases h
    rfl

theorem phase_resolvedStatus {resolution : Resolution} {new : RequestStatus}
    (h : resolvedStatus times begun.pass status resolution = .ok new) :
    new.phase = .applying ∨ new.phase = .pendingApproval := by
  unfold resolvedStatus at h
  obtain ⟨approvalExpiresAt, -, h⟩ := bind_eq_ok.1 h
  cases hmode : resolution.mode with
  | automatic =>
      simp only [hmode, if_true] at h
      exact .inl (phase_persistActivationDeadline h)
  | required =>
      simp only [hmode, reduceCtorEq, if_false] at h
      cases h
      exact .inr rfl

/-- No operation leads to these phases. -/
theorem not_settledPhase {phase : EphemeralAccessRequestPhase} (hactive : phase ≠ .active)
    (hended : phase ≠ .ended) (settled : ScopedPlanOperation) : phase ≠ settledPhase settled := by
  cases settled with
  | activate => exact hactive
  | revoke => exact hended

theorem backed_transition {old : RequestStatus} {phase : EphemeralAccessRequestPhase}
    (hactive : phase ≠ .active) (hended : phase ≠ .ended) :
    ∃ operation, Backed sha256 request begun status operation false
      [.patchStatus (old.transition phase begun.pass.now)] :=
  backed_patch fun settled hsettled => absurd hsettled (not_settledPhase hactive hended settled)

theorem backed_resolveStep :
    ∃ operation, Backed sha256 request begun status operation false
      (resolveStep sha256 times request begun.pass status).writes := by
  unfold resolveStep
  split
  · exact backed_patch fun _ _ => rfl
  · exact ⟨.activate, trivial⟩
  · split_ifs
    · exact backed_patch fun _ _ => rfl
    · split
      · exact ⟨.activate, trivial⟩
      · rename_i new hnew
        refine backed_patch fun settled hsettled => absurd hsettled ?_
        rcases phase_resolvedStatus hnew with hphase | hphase <;> rw [hphase] <;>
          exact not_settledPhase (by decide) (by decide) settled

theorem backed_pendingStep {resolution : Resolution} :
    ∃ operation, Backed sha256 request begun status operation false
      (pendingStep times begun.pass status r resolution).writes := by
  have hidle : ∃ operation, Backed sha256 request begun status operation false [] :=
    ⟨.activate, trivial⟩
  unfold pendingStep
  split
  · exact hidle
  · split_ifs
    · exact backed_transition (by decide) (by decide)
    · exact hidle
    · split
      · exact hidle
      · split_ifs
        · exact hidle
        · split
          · exact hidle
          · exact backed_transition (by decide) (by decide)

theorem backed_applyingStep {mode : EphemeralApprovalMode} (hr : status.resolvedAccess = some r) :
    ∃ operation, Backed sha256 request begun status operation false
      (applyingStep sha256 times request begun.pass begun.plans status r mode).writes := by
  unfold applyingStep
  split
  · exact ⟨.activate, trivial⟩
  · split
    · exact ⟨.activate, trivial⟩
    · split_ifs
      · refine backed_endRequest hr ?_ fun hended => ?_
        · split_ifs <;> decide
        · by_contra hnot
          rw [if_neg hnot] at hended
          cases hended
      · refine ⟨.activate, ?_⟩
        dsimp only
        split
        · exact backed_writes_apply hr
        · rename_i retained hretained
          refine backed_apply hr (fun done hdone => ⟨fun settled hsettled _ => ⟨?_, hdone⟩, trivial⟩) ?_
          · cases settled with
            | activate => rfl
            | revoke => cases hsettled
          · intro e he
            rw [hretained] at he
            cases he

theorem backed_resolvedStep (hr : status.resolvedAccess = some r) :
    ∃ operation, Backed sha256 request begun status operation false
      (resolvedStep sha256 times request begun.pass begun.plans status r).writes := by
  have hidle : ∃ operation, Backed sha256 request begun status operation false [] :=
    ⟨.activate, trivial⟩
  have hunfinished : ∃ operation, Backed sha256 request begun status operation false
      (unfinishedStep sha256 times request begun.pass begun.plans status r).writes := by
    unfold unfinishedStep
    split
    · exact hidle
    · split_ifs
      · exact backed_endRequest hr (by decide) fun hno => by cases hno
      · exact backed_pendingStep
      · exact backed_applyingStep hr
  unfold resolvedStep
  split_ifs
  · exact hidle
  · exact hidle
  · exact backed_endRequest hr (by decide) fun hno => by cases hno
  · split
    · exact hunfinished
    · exact hunfinished
    · unfold activeStep
      split
      · exact hidle
      · split_ifs
        · exact hidle
        · exact backed_transition (by decide) (by decide)
    · exact backed_endRequest hr (by decide) fun _ => rfl
    · exact hidle

/-- The writes of every reconcile and of the finalizer, whatever was read, come in an order in which
each finds what it relies on. -/
theorem backed_writes : ∃ operation, Backed sha256 request begun status operation false
    (begun.writes sha256 times request status) := by
  unfold BegunPass.writes
  split_ifs
  · unfold reconcileAccessRequestCleanup
    split
    · exact ⟨.activate, trivial⟩
    · rename_i r hr
      split_ifs
      · exact ⟨.activate, trivial⟩
      · exact ⟨.activate, trivial⟩
      · exact ⟨.revoke, backed_writes_apply hr⟩
      · exact ⟨.activate, trivial⟩
  · have happly : ∃ operation, Backed sha256 request begun status operation false
        (reconcileAccessRequestApply sha256 times request begun.pass begun.plans status).writes := by
      unfold reconcileAccessRequestApply
      split
      · exact backed_resolveStep
      · rename_i r hr
        exact backed_resolvedStep hr
    unfold reconcileAccessRequest
    dsimp only
    split
    · exact happly.imp fun _ h => h.append_patch fun _ _ => rfl
    · exact happly

end Backed

end PgRoles.Operator

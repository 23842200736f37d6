import PgRoles.Operator.Run

/-!
# Plan replacement

Creating or reusing a plan retires the plans of the same owner that it replaces. What is left is one
live plan for the new effects; an approval of the same effects may stand beside it where a reviewer
decides, and never where the operator does. A plan that is retired keeps the decision recorded on
it, so that the API server's rules for plan statuses admit the write.
-/

set_option autoImplicit false

namespace PgRoles.Operator

open Std PgRoles.Core PgRoles.Lib

/-! ## The rules of the plan status -/

/-- The condition records a decision. -/
def PolicyCondition.isDecision (c : PolicyCondition) : Bool :=
  (c.conditionType == .approved || c.conditionType == .denied) && c.status

/-- The decisions recorded on a plan. -/
def PlanStatus.decisions (status : PlanStatus) : List PolicyCondition :=
  status.conditions.filter PolicyCondition.isDecision

/-- A value that is set stays. -/
def WriteOnce {α : Type} (old new : Option α) : Prop :=
  ∀ value, old = some value → new = some value

/-- The rules that compare a status with the stored one. -/
structure AdmitsUpdate (old new : PlanStatus) : Prop where
  decisions : old.decisions.map (·.conditionType) = new.decisions.map (·.conditionType) ∨
    old.decisions.length = 0
  decidedBy : WriteOnce old.decidedBy new.decidedBy
  changeDigest : WriteOnce old.changeDigest new.changeDigest
  changeDigestEncoding : WriteOnce old.changeDigestEncoding new.changeDigestEncoding
  targetPhysicalIdentity : WriteOnce old.targetIdentity.physical new.targetIdentity.physical
  targetLogicalFingerprint : WriteOnce old.targetIdentity.logical new.targetIdentity.logical
  physicalIdentityAvailable :
    WriteOnce old.physicalIdentityAvailable new.physicalIdentityAvailable

/-- The rules about one status: no two opposite decisions, and a decision has a decider. -/
structure AdmitsStatus (status : PlanStatus) : Prop where
  exclusive : ¬ (status.decided .approved = true ∧ status.decided .denied = true)
  paired : hasTerminalDecision status = status.decidedBy.isSome

/-- The decisions, the decider and the fields written once are the same. -/
structure KeepsRecord (old new : PlanStatus) : Prop where
  decisions : new.decisions = old.decisions
  decidedBy : new.decidedBy = old.decidedBy
  changeDigest : new.changeDigest = old.changeDigest
  changeDigestEncoding : new.changeDigestEncoding = old.changeDigestEncoding
  targetIdentity : new.targetIdentity = old.targetIdentity
  physicalIdentityAvailable : new.physicalIdentityAvailable = old.physicalIdentityAvailable

theorem hasTerminalDecision_eq (status : PlanStatus) :
    hasTerminalDecision status = !status.decisions.isEmpty := by
  unfold hasTerminalDecision PlanStatus.decisions
  rw [← Bool.not_inj_iff, Bool.not_not, List.not_any_eq_all_not, Bool.eq_iff_iff, List.all_eq_true,
    List.isEmpty_iff, List.filter_eq_nil_iff]
  simp only [PolicyCondition.isDecision, Bool.not_eq_true', Bool.not_eq_true]

/-- A decision of a type is among the decisions. -/
theorem decided_eq {status : PlanStatus} {t : ConditionType} (h : t = .approved ∨ t = .denied) :
    status.decided t = status.decisions.any fun c => c.conditionType == t := by
  unfold PlanStatus.decided PlanStatus.decisions
  rw [List.any_filter]
  congr 1
  funext c
  rcases h with rfl | rfl <;> unfold PolicyCondition.isDecision <;>
    cases c.conditionType == .approved <;> cases c.conditionType == .denied <;> cases c.status <;>
    rfl

/-- A status that keeps the record of the stored one is admitted over it. -/
theorem KeepsRecord.admitsUpdate {old new : PlanStatus} (h : KeepsRecord old new) :
    AdmitsUpdate old new where
  decisions := Or.inl (by rw [h.decisions])
  decidedBy := fun _ hvalue => h.decidedBy.trans hvalue
  changeDigest := fun _ hvalue => h.changeDigest.trans hvalue
  changeDigestEncoding := fun _ hvalue => h.changeDigestEncoding.trans hvalue
  targetPhysicalIdentity := fun _ hvalue => by rw [h.targetIdentity, hvalue]
  targetLogicalFingerprint := fun _ hvalue => by rw [h.targetIdentity, hvalue]
  physicalIdentityAvailable := fun _ hvalue => h.physicalIdentityAvailable.trans hvalue

theorem KeepsRecord.admitsStatus {old new : PlanStatus} (h : KeepsRecord old new)
    (hold : AdmitsStatus old) : AdmitsStatus new where
  exclusive := by
    rw [decided_eq (Or.inl rfl), decided_eq (Or.inr rfl), h.decisions, ← decided_eq (Or.inl rfl),
      ← decided_eq (Or.inr rfl)]
    exact hold.exclusive
  paired := by
    rw [hasTerminalDecision_eq, h.decisions, ← hasTerminalDecision_eq, h.decidedBy]
    exact hold.paired

/-! ## Retirement keeps the record -/

/-- Setting a condition that is no decision over none of its type leaves the decisions. -/
theorem decisions_setPlanCondition {conditions : List PolicyCondition} {condition : PolicyCondition}
    (hnew : condition.isDecision = false)
    (hold : ∀ c ∈ conditions, c.isDecision = true → c.conditionType ≠ condition.conditionType) :
    (setPlanCondition conditions condition).filter PolicyCondition.isDecision =
      conditions.filter PolicyCondition.isDecision := by
  unfold setPlanCondition
  rw [List.filter_append, List.filter_filter, List.filter_singleton, hnew, cond_false,
    List.append_nil]
  refine List.filter_congr fun c hc => ?_
  cases hdecision : c.isDecision with
  | false => rfl
  | true => simpa using hold c hc hdecision

/-- A retired plan keeps its record: only an undecided plan gets another `Approved` condition. -/
theorem keepsRecord_supersededStatus (status : PlanStatus) (cause : SupersedeCause) :
    KeepsRecord status (supersededStatus status cause) := by
  have hsuperseded : (setPlanCondition status.conditions ⟨.superseded, true, cause.reason⟩).filter
      PolicyCondition.isDecision = status.decisions := by
    refine decisions_setPlanCondition rfl fun c _ hdecision heq => ?_
    rw [PolicyCondition.isDecision, heq] at hdecision
    cases hdecision
  have hdecisions : (supersededStatus status cause).decisions = status.decisions := by
    unfold supersededStatus PlanStatus.decisions
    dsimp only
    split_ifs with hterminal
    · exact hsuperseded
    · have hnone : status.decisions = [] := by
        rw [hasTerminalDecision_eq, Bool.not_eq_true', Bool.not_eq_false] at hterminal
        exact List.isEmpty_iff.1 hterminal
      refine (decisions_setPlanCondition rfl fun c hc hdecision => ?_).trans hsuperseded
      -- an undecided plan has no decision that the condition could replace
      have hmem := List.mem_filter.2 ⟨hc, hdecision⟩
      rw [hsuperseded, hnone] at hmem
      cases hmem
  exact ⟨hdecisions, rfl, rfl, rfl, rfl, rfl⟩

/-! ## What retirement does to one plan -/

/-- The write that retires a plan, if it is one of those replaced. -/
def retirement (kept : String) (req : PlanRequest) (plan : Plan) : Option PlanWrite :=
  match plan.status with
  | none => none
  | some status =>
      if req.reuse == .autoApproval && status.phase == .pending && isDenied status then some .reject
      else
        (supersedeCause plan status kept req.changeDigest req.expectedBase
          req.passwordSourceDigest req.reuse).map .supersede

theorem supersedeStalePlans_cons (q : Plan) (existing : List Plan) (kept : String)
    (req : PlanRequest) :
    supersedeStalePlans (q :: existing) kept req =
      ((retirement kept req q).map (.planStatus q.name ·)).toList ++
        supersedeStalePlans existing kept req := by
  unfold supersedeStalePlans retirement
  rw [List.filterMap_cons]
  cases q.status with
  | none => rfl
  | some status =>
    dsimp only
    split_ifs
    · rfl
    · cases supersedeCause q status kept req.changeDigest req.expectedBase
        req.passwordSourceDigest req.reuse <;> rfl

/-- A write as one plan sees it. -/
def Write.toPlan (w : Write) (plan : Plan) : Plan :=
  match w with
  | .planStatus name write =>
      if plan.name = name then { plan with status := write.apply plan.status } else plan
  | _ => plan

/-- The plan after a list of writes. -/
def Plan.after (plan : Plan) (ws : List Write) : Plan := ws.foldl (fun p w => w.toPlan p) plan

/-- The plan after its own retirement. -/
def Plan.retired (kept : String) (req : PlanRequest) (plan : Plan) : Plan :=
  match retirement kept req plan with
  | none => plan
  | some write => { plan with status := write.apply plan.status }

theorem identity_toPlan (w : Write) (plan : Plan) : (w.toPlan plan).identity = plan.identity := by
  cases w with
  | planStatus name write =>
    unfold Write.toPlan
    dsimp only
    split_ifs <;> rfl
  | _ => rfl

theorem Plan.after_append (plan : Plan) (ws ws' : List Write) :
    plan.after (ws ++ ws') = (plan.after ws).after ws' :=
  List.foldl_append

/-- The write that retires a plan as another plan sees it. -/
theorem after_retirement {kept : String} {req : PlanRequest} {plan q : Plan} :
    plan.after ((retirement kept req q).map (.planStatus q.name ·)).toList =
      match retirement kept req q with
      | some write =>
          if plan.name = q.name then { plan with status := write.apply plan.status } else plan
      | none => plan := by
  cases retirement kept req q <;> rfl

/-- Retirement moves the plans that are there. -/
theorem plans_writes_supersedeStalePlans (s : Cluster) (existing : List Plan) (kept : String)
    (req : PlanRequest) :
    (s.writes (supersedeStalePlans existing kept req)).plans =
      s.plans.map (·.after (supersedeStalePlans existing kept req)) := by
  induction existing generalizing s with
  | nil => exact (List.map_id _).symm
  | cons q existing ih =>
    rw [supersedeStalePlans_cons, Cluster.writes_append, ih]
    simp only [Plan.after_append]
    cases retirement kept req q with
    | none => rfl
    | some write => exact List.map_map

/-- A plan that shares no name with one that is retired is left. -/
theorem after_supersedeStalePlans_of_kept {existing : List Plan} {kept : String}
    {req : PlanRequest} {plan : Plan}
    (h : ∀ q ∈ existing, q.name = plan.name → retirement kept req q = none) :
    plan.after (supersedeStalePlans existing kept req) = plan := by
  induction existing with
  | nil => rfl
  | cons q existing ih =>
    have hrest := ih fun q' hq' => h q' (List.mem_cons_of_mem _ hq')
    rw [supersedeStalePlans_cons, Plan.after_append, after_retirement]
    cases hq : retirement kept req q with
    | none => exact hrest
    | some write =>
      have hne : plan.name ≠ q.name := by
        intro heq
        rw [h q List.mem_cons_self heq.symm] at hq
        cases hq
      dsimp only
      rw [if_neg hne, hrest]

/-- A plan of the list sees its own retirement. -/
theorem after_supersedeStalePlans {existing : List Plan}
    (hnodup : (existing.map Plan.name).Nodup) {kept : String} {req : PlanRequest} {plan : Plan}
    (hmem : plan ∈ existing) :
    plan.after (supersedeStalePlans existing kept req) = plan.retired kept req := by
  induction existing with
  | nil => exact absurd hmem List.not_mem_nil
  | cons q existing ih =>
    rw [List.map_cons, List.nodup_cons] at hnodup
    rw [supersedeStalePlans_cons, Plan.after_append, after_retirement]
    rcases List.mem_cons.1 hmem with rfl | hmem
    · -- no later plan has the name of the first
      have hlater : ∀ p : Plan, p.name = plan.name →
          p.after (supersedeStalePlans existing kept req) = p := fun p hp =>
        after_supersedeStalePlans_of_kept fun q' hq' heq =>
          absurd (List.mem_map.2 ⟨q', hq', heq.trans hp⟩) hnodup.1
      unfold Plan.retired
      cases retirement kept req plan with
      | none => exact hlater plan rfl
      | some write =>
        dsimp only
        rw [if_pos rfl]
        exact hlater _ rfl
    · have hne : plan.name ≠ q.name := fun heq =>
        hnodup.1 (List.mem_map.2 ⟨plan, hmem, heq⟩)
      have hfirst : (match retirement kept req q with
          | some write =>
              if plan.name = q.name then { plan with status := write.apply plan.status } else plan
          | none => plan) = plan := by
        cases retirement kept req q with
        | none => rfl
        | some write => exact if_neg hne
      rw [hfirst]
      exact ih hnodup.2 hmem

/-! ## What is left -/

/-- The plan is live, holds the digest and carries the expected base. -/
structure Holds (digest : String) (expectedBase : Option String) (plan : Plan)
    (status : PlanStatus) : Prop where
  status_eq : plan.status = some status
  digest : planMatchesDigest status digest = true
  base : ∀ base, expectedBase = some base → planBasePin plan = some base

/-- What a plan of the list has become once another plan is kept. -/
structure Replaced (req : PlanRequest) (old new : Plan) : Prop where
  identity : new.identity = old.identity
  /-- Only an approval of the same effects stays live, and only where a reviewer decides. -/
  live : new.live = true → req.reuse = .pendingOnly ∧
    ∃ status, Holds req.changeDigest req.expectedBase new status ∧ status.phase = .approved
  untouched : old.live = false → new = old
  /-- The record is kept, so that the rules admit the write over the stored status. -/
  record : ∀ status', new.status = some status' →
    ∃ status, old.status = some status ∧ KeepsRecord status status' ∧
      AdmitsUpdate status status' ∧ (AdmitsStatus status → AdmitsStatus status')

/-- Rejecting a denied plan moves its phase only. -/
theorem keepsRecord_reject (status : PlanStatus) :
    KeepsRecord status { status with phase := .rejected } :=
  ⟨rfl, rfl, rfl, rfl, rfl, rfl⟩

theorem KeepsRecord.admitted {old new : PlanStatus} (h : KeepsRecord old new) :
    KeepsRecord old new ∧ AdmitsUpdate old new ∧ (AdmitsStatus old → AdmitsStatus new) :=
  ⟨h, h.admitsUpdate, h.admitsStatus⟩

theorem KeepsRecord.refl (status : PlanStatus) : KeepsRecord status status :=
  ⟨rfl, rfl, rfl, rfl, rfl, rfl⟩

/-- A live plan that nothing retires is an approval of the same effects, against the same base,
that a reviewer's decision is left to. -/
theorem of_supersedeCause_eq_none {kept : String} {req : PlanRequest} {plan : Plan}
    {status : PlanStatus} (hstatus : plan.status = some status) (hne : plan.name ≠ kept)
    (hlive : status.phase.actionable = true)
    (h : supersedeCause plan status kept req.changeDigest req.expectedBase
      req.passwordSourceDigest req.reuse = none) :
    req.reuse = .pendingOnly ∧ Holds req.changeDigest req.expectedBase plan status ∧
      status.phase = .approved := by
  unfold supersedeCause at h
  split_ifs at h with hname hbase hduplicate hstays
  · exact absurd (beq_iff_eq.1 hname) hne
  · rw [hlive, Bool.true_and, Option.any_eq_true] at hbase
    rw [hlive, Bool.and_true] at hduplicate
    rw [Bool.not_eq_true'] at hstays
    have happroved : status.phase = .approved ∧
        planMatchesDigest status req.changeDigest = true := by
      unfold supersedesAfterCreate at hstays
      cases hphase : status.phase <;> rw [hphase] at hstays hlive
      case approved => exact ⟨rfl, by simpa using hstays⟩
      case pending => cases hstays
      all_goals cases hlive
    refine ⟨?_, ⟨hstatus, happroved.2, fun base hexpected => ?_⟩, happroved.1⟩
    · cases hreuse : req.reuse with
      | pendingOnly => rfl
      | autoApproval =>
        rw [hreuse, happroved.2] at hduplicate
        exact absurd rfl hduplicate
    · by_contra hpin
      exact hbase ⟨base, hexpected, by simpa using hpin⟩

/-- A plan that is not live is not retired. -/
theorem supersedeCause_of_not_live {kept : String} {req : PlanRequest} {plan : Plan}
    {status : PlanStatus} (hlive : status.phase.actionable = false) :
    supersedeCause plan status kept req.changeDigest req.expectedBase
      req.passwordSourceDigest req.reuse = none := by
  have hstays : supersedesAfterCreate status req.changeDigest = false := by
    unfold supersedesAfterCreate
    cases hphase : status.phase <;> rw [hphase] at hlive <;> first | rfl | cases hlive
  unfold supersedeCause
  rw [hlive, hstays, Bool.false_and, Bool.and_false, Bool.false_and, if_neg Bool.false_ne_true,
    if_neg Bool.false_ne_true, Bool.not_false, if_pos rfl, ite_self]

/-- What retirement makes of a plan of the list other than the one kept. -/
theorem replaced_retired {kept : String} {req : PlanRequest} {plan : Plan}
    (hne : plan.name ≠ kept) : Replaced req plan (plan.retired kept req) := by
  cases hstatus : plan.status with
  | none =>
    have hsame : plan.retired kept req = plan := by
      unfold Plan.retired retirement
      rw [hstatus]
    rw [hsame]
    refine ⟨rfl, fun hlive => ?_, fun _ => rfl, fun status' hstatus' => ?_⟩
    · rw [Plan.live, hstatus] at hlive
      cases hlive
    · rw [hstatus] at hstatus'
      cases hstatus'
  | some status =>
    have hlive : plan.live = status.phase.actionable := by rw [Plan.live, hstatus]; rfl
    by_cases hdenied :
        (req.reuse == .autoApproval && status.phase == .pending && isDenied status) = true
    · -- the operator records the denial that nobody else reads
      have hrejected : plan.retired kept req =
          { plan with status := some { status with phase := .rejected } } := by
        unfold Plan.retired retirement
        rw [hstatus]
        dsimp only
        rw [if_pos hdenied]
        rfl
      rw [Bool.and_eq_true, Bool.and_eq_true, beq_iff_eq, beq_iff_eq] at hdenied
      rw [hrejected]
      refine ⟨rfl, fun hnew => absurd hnew Bool.false_ne_true, fun hdead => ?_,
        fun status' hstatus' => ?_⟩
      · rw [hlive, hdenied.1.2] at hdead
        cases hdead
      · cases hstatus'
        exact ⟨status, hstatus, (keepsRecord_reject status).admitted⟩
    · have hretired : plan.retired kept req =
          (supersedeCause plan status kept req.changeDigest req.expectedBase
            req.passwordSourceDigest req.reuse).elim plan
              fun cause => { plan with status := some (supersededStatus status cause) } := by
        unfold Plan.retired retirement
        rw [hstatus]
        dsimp only
        rw [if_neg hdenied]
        cases supersedeCause plan status kept req.changeDigest req.expectedBase
          req.passwordSourceDigest req.reuse <;> rfl
      rw [hretired]
      cases hcause : supersedeCause plan status kept req.changeDigest req.expectedBase
          req.passwordSourceDigest req.reuse with
      | none =>
        rw [Option.elim_none]
        refine ⟨rfl, fun hnew => ?_, fun _ => rfl, fun status' hstatus' => ?_⟩
        · obtain ⟨hreuse, hholds, hphase⟩ :=
            of_supersedeCause_eq_none hstatus hne (hlive ▸ hnew) hcause
          exact ⟨hreuse, status, hholds, hphase⟩
        · rw [hstatus] at hstatus'
          cases hstatus'
          exact ⟨status, hstatus, (KeepsRecord.refl status).admitted⟩
      | some cause =>
        rw [Option.elim_some]
        refine ⟨rfl, fun hnew => absurd hnew Bool.false_ne_true, fun hdead => ?_,
          fun status' hstatus' => ?_⟩
        · rw [hlive] at hdead
          rw [supersedeCause_of_not_live hdead] at hcause
          cases hcause
        · cases hstatus'
          exact ⟨status, hstatus, (keepsRecord_supersededStatus status cause).admitted⟩

/-! ## One plan is kept -/

/-- What is left of the plans of an owner once the plan of that name holds the requested effects. -/
structure PlansReplaced (s s' : Cluster) (req : PlanRequest) (k : String) : Prop where
  kept : ∃ plan ∈ s'.plansOf req.owner, plan.name = k ∧
    ∃ status, Holds req.changeDigest req.expectedBase plan status ∧
      status.phase.actionable = true ∧ isDenied status = false
  /-- The plan kept was live or had no status yet. -/
  before : ∀ old ∈ s.plansOf req.owner, old.name = k →
    ∀ status, old.status = some status → status.phase.actionable = true
  others : ∀ new ∈ s'.plansOf req.owner, new.name ≠ k →
    ∃ old ∈ s.plansOf req.owner, Replaced req old new
  stay : ∀ old ∈ s.plansOf req.owner, old.name ≠ k →
    ∃ new ∈ s'.plansOf req.owner, Replaced req old new
  foreign : ∀ plan ∈ s.plans, plan.owner ≠ req.owner → plan ∈ s'.plans

theorem identity_plan_after (plan : Plan) (ws : List Write) :
    (plan.after ws).identity = plan.identity := by
  induction ws generalizing plan with
  | nil => rfl
  | cons w ws ih => exact (ih (w.toPlan plan)).trans (identity_toPlan w plan)

theorem mem_plansOf {s : Cluster} {owner : PlanOwner} {plan : Plan} :
    plan ∈ s.plansOf owner ↔ plan ∈ s.plans ∧ plan.owner = owner := by
  unfold Cluster.plansOf
  rw [List.mem_filter, decide_eq_true_eq]

/-- The plan kept is not retired: it has the name, and is not denied. -/
theorem retirement_of_kept {kept : String} {req : PlanRequest} {q : Plan} (hname : q.name = kept)
    (hdenied : ∀ status, q.status = some status → isDenied status = false) :
    retirement kept req q = none := by
  unfold retirement
  cases hstatus : q.status with
  | none => rfl
  | some status =>
    dsimp only
    rw [hdenied status hstatus, Bool.and_false, if_neg Bool.false_ne_true]
    unfold supersedeCause
    rw [if_pos (beq_iff_eq.2 hname)]
    rfl

/-- The cluster holds the plan to keep; the other plans are those of the list. -/
structure Keeps (s t : Cluster) (req : PlanRequest) (k : String) : Prop where
  kept : ∃ plan ∈ t.plansOf req.owner, plan.name = k ∧
    ∃ status, Holds req.changeDigest req.expectedBase plan status ∧
      status.phase.actionable = true ∧ isDenied status = false
  others : ∀ plan, plan.name ≠ k → (plan ∈ t.plans ↔ plan ∈ s.plans)
  before : ∀ plan ∈ s.plans, plan.name = k → plan.owner = req.owner ∧
    ∀ status, plan.status = some status → status.phase.actionable = true ∧ isDenied status = false

/-- Retiring the plans of the list over a cluster that holds the plan to keep. -/
theorem Keeps.plansReplaced {s t : Cluster} {req : PlanRequest} {k : String} (h : Keeps s t req k)
    (hs : NodupNames s) :
    PlansReplaced s (t.writes (supersedeStalePlans (s.plansOf req.owner) k req)) req k := by
  have hnodup : ((s.plansOf req.owner).map Plan.name).Nodup :=
    hs.sublist (List.Sublist.map _ List.filter_sublist)
  have hplans : ∀ {new}, new ∈ (t.writes (supersedeStalePlans (s.plansOf req.owner) k req)).plans ↔
      ∃ old ∈ t.plans, old.after (supersedeStalePlans (s.plansOf req.owner) k req) = new := by
    intro new
    rw [plans_writes_supersedeStalePlans]
    exact List.mem_map
  have hown : ∀ {q}, q ∈ s.plansOf req.owner → q.name = k → retirement k req q = none := by
    intro q hq hname
    obtain ⟨-, hbefore⟩ := h.before q (mem_plansOf.1 hq).1 hname
    exact retirement_of_kept hname fun status hstatus => (hbefore status hstatus).2
  refine ⟨?_, ?_, ?_, ?_, ?_⟩
  · obtain ⟨plan, hmem, hname, hholds⟩ := h.kept
    obtain ⟨hplan, howner⟩ := mem_plansOf.1 hmem
    refine ⟨plan, mem_plansOf.2 ⟨hplans.2 ⟨plan, hplan, ?_⟩, howner⟩, hname, hholds⟩
    exact after_supersedeStalePlans_of_kept fun q hq hsame => hown hq (hsame.trans hname)
  · intro old hold hname status hstatus
    exact ((h.before old (mem_plansOf.1 hold).1 hname).2 status hstatus).1
  · intro new hnew hname
    obtain ⟨hmem, howner⟩ := mem_plansOf.1 hnew
    obtain ⟨old, hold, rfl⟩ := hplans.1 hmem
    have hidentity := identity_plan_after old (supersedeStalePlans (s.plansOf req.owner) k req)
    simp only [Plan.identity, Prod.mk.injEq] at hidentity
    rw [hidentity.1] at hname
    have hlisted : old ∈ s.plansOf req.owner :=
      mem_plansOf.2 ⟨(h.others old hname).1 hold, hidentity.2.1.symm.trans howner⟩
    refine ⟨old, hlisted, ?_⟩
    rw [after_supersedeStalePlans hnodup hlisted]
    exact replaced_retired hname
  · intro old hold hname
    obtain ⟨hmem, howner⟩ := mem_plansOf.1 hold
    have hreplaced : Replaced req old (old.retired k req) := replaced_retired hname
    have hidentity := hreplaced.identity
    simp only [Plan.identity, Prod.mk.injEq] at hidentity
    refine ⟨old.retired k req, mem_plansOf.2 ⟨hplans.2 ⟨old, (h.others old hname).2 hmem, ?_⟩, ?_⟩,
      hreplaced⟩
    · exact after_supersedeStalePlans hnodup hold
    · exact hidentity.2.1.trans howner
  · intro plan hmem howner
    have hname : plan.name ≠ k := fun heq => howner (h.before plan hmem heq).1
    refine hplans.2 ⟨plan, (h.others plan hname).2 hmem, ?_⟩
    refine after_supersedeStalePlans_of_kept fun q hq hsame => ?_
    obtain ⟨hq, hqowner⟩ := mem_plansOf.1 hq
    rw [hs.eq_of_name hq hmem hsame] at hqowner
    exact absurd hqowner howner

/-! ## Creation keeps one plan -/

/-- The candidate a plan is computed for, with its content and the content it is planned against. -/
structure CandidatePlanBinding where
  name : String
  uid : String
  contentDigest : String
  baseContentDigest : String

/-- The request for a plan of the policy, or of the candidate it is bound to. The base is demanded
unless it is the candidate's own content. -/
def PlanRequest.boundTo (req : PlanRequest) : Option CandidatePlanBinding → PlanRequest
  | none => { req with owner := .policy, origin := none, expectedBase := none }
  | some b =>
      { req with
        owner := .candidate b.uid
        origin := some ⟨b.name, b.uid, b.contentDigest, some b.baseContentDigest⟩
        expectedBase :=
          if b.baseContentDigest ≠ b.contentDigest then some b.baseContentDigest else none }

theorem policyRequest_boundTo (pass : Pass) (digest : String) (reuse : PlanReuse) (detect : Bool) :
    (policyRequest pass digest reuse detect).boundTo none =
      policyRequest pass digest reuse detect := rfl

theorem candidateRequest_boundTo (policy : Policy) (c : Candidate) (e : CandidateEffects)
    (digest : String) :
    (candidateRequest policy c e digest).boundTo (some ⟨c.name, c.uid, c.content, policy.content⟩) =
      candidateRequest policy c e digest := rfl

/-- A plan created for the request carries the expected base. -/
def PlanRequest.Pinned (req : PlanRequest) : Prop :=
  ∀ base, req.expectedBase = some base → req.origin.bind (·.baseContentDigest) = some base

theorem pinned_boundTo (req : PlanRequest) (binding : Option CandidatePlanBinding) :
    (req.boundTo binding).Pinned := by
  intro base h
  cases binding with
  | none => cases h
  | some b =>
    simp only [PlanRequest.boundTo, Option.ite_none_right_eq_some] at h
    exact h.2

/-- The plan that now holds the effects, new or reused. -/
def PlanCreationResult.replacement : PlanCreationResult → Option String
  | .created name | .deduplicated name => some name
  | .deduplicatedFailed _ | .deduplicatedNonConvergent _ => none

/-- A reusable plan is live, holds the digest and the base, and is not denied. -/
theorem of_isReusable {digest : String} {expectedBase : Option String} {reuse : PlanReuse}
    {plan : Plan} (h : isReusable digest expectedBase reuse plan = true) :
    ∃ status, Holds digest expectedBase plan status ∧ status.phase.actionable = true ∧
      isDenied status = false := by
  unfold isReusable at h
  rw [Bool.and_eq_true, Option.any_eq_true] at h
  obtain ⟨⟨status, hstatus, hreusable⟩, hbase⟩ := h
  rw [Bool.and_eq_true, Bool.and_eq_true, Bool.not_eq_true'] at hreusable
  obtain ⟨⟨hphase, hdenied⟩, hdigest⟩ := hreusable
  refine ⟨status, ⟨hstatus, hdigest, fun base hexpected => ?_⟩, ?_, hdenied⟩
  · rw [hexpected] at hbase
    simpa using hbase
  · cases reuse with
    | pendingOnly =>
      rw [show status.phase = .pending by simpa [PlanReuse.allows] using hphase]
      rfl
    | autoApproval => exact hphase

/-- A reused plan is kept as it stands. -/
theorem keeps_of_reusablePlan {s : Cluster} (hs : NodupNames s) {req : PlanRequest} {plan : Plan}
    (h : reusablePlan (s.plansOf req.owner) req.changeDigest req.expectedBase req.reuse =
      some plan) : Keeps s s req plan.name := by
  obtain ⟨hlisted, hreusable⟩ := List.mem_filter.1 (mem_maxByRank h)
  obtain ⟨status, hholds, hphase, hdenied⟩ := of_isReusable hreusable
  obtain ⟨hmem, howner⟩ := mem_plansOf.1 hlisted
  refine ⟨⟨plan, hlisted, rfl, status, hholds, hphase, hdenied⟩, fun _ _ => Iff.rfl, ?_⟩
  intro q hq hname
  rw [hs.eq_of_name hq hmem hname]
  refine ⟨howner, fun status' hstatus' => ?_⟩
  rw [hholds.status_eq] at hstatus'
  cases hstatus'
  exact ⟨hphase, hdenied⟩

/-- Writing the computed status to the plan of that name, where it is for the request and nothing
else of that name stands in the way. -/
theorem keeps_of_compute {s t : Cluster} {req : PlanRequest} {plan : Plan} (hpin : req.Pinned)
    (hmem : plan ∈ t.plans) (hname : plan.name = req.planName) (howner : plan.owner = req.owner)
    (horigin : plan.origin = req.origin)
    (hothers : ∀ q, q.name ≠ req.planName → (q ∈ t.plans ↔ q ∈ s.plans))
    (hbefore : ∀ q ∈ s.plans, q.name = req.planName → q.owner = req.owner ∧
      ∀ status, q.status = some status →
        status.phase.actionable = true ∧ isDenied status = false) :
    Keeps s (t.onPlan req.planName (.compute (computedStatus req))) req req.planName := by
  refine ⟨?_, fun q hq => ?_, hbefore⟩
  · refine ⟨{ plan with status := some (computedStatus req) }, mem_plansOf.2 ⟨?_, howner⟩, hname,
      computedStatus req, ⟨rfl, ?_, fun base hexpected => ?_⟩, rfl, rfl⟩
    · refine List.mem_map.2 ⟨plan, hmem, ?_⟩
      rw [if_pos hname]
      rfl
    · unfold planMatchesDigest computedStatus
      rw [Bool.and_eq_true]
      exact ⟨beq_self_eq_true _, beq_self_eq_true _⟩
    · unfold planBasePin
      rw [horigin]
      exact hpin base hexpected
  · rw [← hothers q hq]
    constructor
    · intro hwritten
      obtain ⟨old, hold, rfl⟩ := List.mem_map.1 hwritten
      by_cases heq : old.name = req.planName
      · rw [if_pos heq] at hq
        exact absurd heq hq
      · rw [if_neg heq]
        exact hold
    · intro hmem
      refine List.mem_map.2 ⟨q, hmem, ?_⟩
      rw [if_neg hq]

/-- A plan whose creation can be resumed is for the request, pending and undecided. -/
theorem of_canResumePlanCreation {found : Plan} {req : PlanRequest}
    (h : canResumePlanCreation found req = true) :
    found.origin = req.origin ∧ ∀ status, found.status = some status →
      status.phase.actionable = true ∧ isDenied status = false := by
  unfold canResumePlanCreation at h
  rw [Bool.and_eq_true, Bool.and_eq_true, beq_iff_eq] at h
  refine ⟨h.1.1, fun status hstatus => ?_⟩
  have hresume := h.2
  rw [hstatus, Option.all_some, Bool.and_eq_true, Bool.and_eq_true, beq_iff_eq,
    Bool.not_eq_true'] at hresume
  obtain ⟨⟨hphase, -⟩, hundecided⟩ := hresume
  refine ⟨by rw [hphase]; rfl, ?_⟩
  -- a denial would be a terminal decision
  cases hdenied : isDenied status with
  | false => rfl
  | true =>
    obtain ⟨c, hc, hdecision⟩ := List.any_eq_true.1 hdenied
    rw [Bool.and_eq_true] at hdecision
    have hterminal : hasTerminalDecision status = true :=
      List.any_eq_true.2 ⟨c, hc, by rw [hdecision.1, hdecision.2, Bool.or_true]; rfl⟩
    rw [hundecided] at hterminal
    cases hterminal

/-- After a creation or a reuse one plan is kept. -/
theorem plansReplaced_of_createOrUpdatePlan {s : Cluster} (hs : NodupNames s) {req : PlanRequest}
    (hpin : req.Pinned) {result : PlanCreationResult} {ws : List Write} {k : String}
    (h : createOrUpdatePlan s req = some (result, ws)) (hk : result.replacement = some k) :
    PlansReplaced s (s.writes ws) req k := by
  unfold createOrUpdatePlan at h
  dsimp only at h
  split at h
  · rename_i plan hreuse
    cases h
    cases hk
    exact (keeps_of_reusablePlan hs hreuse).plansReplaced hs
  · split at h
    · cases h
      cases hk
    · split at h
      · cases h
        cases hk
      · split at h
        · rename_i hfind
          cases h
          cases hk
          have hfresh : ∀ q ∈ s.plans, q.name ≠ req.planName := by
            simpa [Cluster.findPlan] using hfind
          have hkeeps : Keeps s ((Write.createPlan (newPlan req)).apply s |>.onPlan req.planName
              (.compute (computedStatus req))) req req.planName := by
            refine keeps_of_compute hpin (List.mem_append_right _ List.mem_cons_self) rfl rfl rfl
              (fun q hq => ?_) fun q hq hname => absurd hname (hfresh q hq)
            refine ⟨fun hmem => ?_, List.mem_append_left _⟩
            rcases List.mem_append.1 hmem with hmem | hmem
            · exact hmem
            · rw [List.mem_singleton.1 hmem] at hq
              exact absurd rfl hq
          exact hkeeps.plansReplaced hs
        · rename_i found hfind
          split_ifs at h with hresume
          cases h
          cases hk
          rw [Bool.and_eq_true, beq_iff_eq] at hresume
          obtain ⟨hmem, hname⟩ := mem_of_findPlan hfind
          obtain ⟨horigin, hstatus⟩ := of_canResumePlanCreation hresume.2
          have hkeeps : Keeps s (s.onPlan req.planName (.compute (computedStatus req))) req
              req.planName := by
            refine keeps_of_compute hpin hmem hname hresume.1 horigin (fun _ _ => Iff.rfl)
              fun q hq hq' => ?_
            rw [hs.eq_of_name hq hmem (hq'.trans hname.symm)]
            exact ⟨hresume.1, hstatus⟩
          exact hkeeps.plansReplaced hs

/-! ## The choice does not depend on the order -/

/-- The plan is of the list and none of the list ranks above it. -/
structure IsBest (plans : List Plan) (plan : Plan) : Prop where
  mem : plan ∈ plans
  best : ∀ q ∈ plans, (compare (reuseRank q) (reuseRank plan)).isLE = true

theorem isBest_of_foldl {plans : List Plan} {best plan : Plan}
    (h : plans.foldl betterPlan (some best) = some plan) : IsBest (best :: plans) plan := by
  induction plans generalizing best with
  | nil =>
    cases h
    refine ⟨List.mem_cons_self, fun q hq => ?_⟩
    rw [List.mem_singleton.1 hq]
    exact ReflOrd.isLE_rfl
  | cons q plans ih =>
    rw [List.foldl_cons, betterPlan] at h
    split_ifs at h with hle
    · obtain ⟨hmem, hbest⟩ := ih h
      refine ⟨List.mem_cons_of_mem _ hmem, List.forall_mem_cons.2 ⟨?_, hbest⟩⟩
      exact TransCmp.isLE_trans hle (hbest q List.mem_cons_self)
    · obtain ⟨hmem, hbest⟩ := ih h
      obtain ⟨hfirst, hrest⟩ := List.forall_mem_cons.1 hbest
      refine ⟨?_, List.forall_mem_cons.2 ⟨hfirst, List.forall_mem_cons.2 ⟨?_, hrest⟩⟩⟩
      · rcases List.mem_cons.1 hmem with rfl | hmem
        · exact List.mem_cons_self
        · exact List.mem_cons_of_mem _ (List.mem_cons_of_mem _ hmem)
      · -- the next plan ranks below the best so far
        have hbelow : compare (reuseRank q) (reuseRank best) = .lt :=
          OrientedCmp.lt_of_not_isLE hle
        exact TransCmp.isLE_trans (Ordering.isLE_of_eq_lt hbelow) hfirst

theorem isBest_of_maxByRank {plans : List Plan} {plan : Plan} (h : maxByRank plans = some plan) :
    IsBest plans plan := by
  cases plans with
  | nil => cases h
  | cons q plans => exact isBest_of_foldl h

theorem exists_maxByRank {plans : List Plan} (h : plans ≠ []) :
    ∃ plan, maxByRank plans = some plan := by
  have hfold : ∀ (l : List Plan) (best : Plan),
      ∃ plan, l.foldl betterPlan (some best) = some plan := by
    intro l
    induction l with
    | nil => exact fun best => ⟨best, rfl⟩
    | cons q l ih =>
      intro best
      rw [List.foldl_cons, betterPlan]
      split_ifs
      · exact ih q
      · exact ih best
  cases plans with
  | nil => exact absurd rfl h
  | cons q plans => exact hfold plans q

/-- Of plans with distinct names at most one is best. -/
theorem IsBest.eq {plans plans' : List Plan} (hperm : plans.Perm plans')
    (hnodup : (plans.map Plan.name).Nodup) {p q : Plan} (hp : IsBest plans p)
    (hq : IsBest plans' q) : p = q := by
  have hrank : reuseRank p = reuseRank q := by
    apply LawfulEqOrd.eq_of_compare
    exact OrientedCmp.isLE_antisymm (hq.best p (hperm.mem_iff.1 hp.mem))
      (hp.best q (hperm.mem_iff.2 hq.mem))
  simp only [reuseRank, Prod.mk.injEq] at hrank
  exact List.inj_on_of_nodup_map hnodup hp.mem (hperm.mem_iff.2 hq.mem) hrank.2.2

/-- Which plan is reused does not depend on the order of the list. -/
theorem reusablePlan_perm {plans plans' : List Plan} (hperm : plans.Perm plans')
    (hnodup : (plans.map Plan.name).Nodup) (digest : String) (expectedBase : Option String)
    (reuse : PlanReuse) :
    reusablePlan plans digest expectedBase reuse =
      reusablePlan plans' digest expectedBase reuse := by
  have hfilter : (plans.filter (isReusable digest expectedBase reuse)).Perm
      (plans'.filter (isReusable digest expectedBase reuse)) := hperm.filter _
  have hnames : ((plans.filter (isReusable digest expectedBase reuse)).map Plan.name).Nodup :=
    hnodup.sublist (List.Sublist.map _ List.filter_sublist)
  unfold reusablePlan
  generalize plans.filter (isReusable digest expectedBase reuse) = l at hfilter hnames
  generalize plans'.filter (isReusable digest expectedBase reuse) = l' at hfilter
  by_cases hempty : l = []
  · rw [hempty] at hfilter
    rw [hempty, hfilter.nil_eq]
  · have hempty' : l' ≠ [] := fun hnil => hempty (by rw [hnil] at hfilter; exact hfilter.eq_nil)
    obtain ⟨p, hp⟩ := exists_maxByRank hempty
    obtain ⟨q, hq⟩ := exists_maxByRank hempty'
    rw [hp, hq, (isBest_of_maxByRank hp).eq hfilter hnames (isBest_of_maxByRank hq)]

/-- Whether the search finds a plan does not depend on the order of the list. -/
theorem find?_eq_none_perm {plans plans' : List Plan} (hperm : plans.Perm plans')
    (p : Plan → Bool) : plans.find? p = none ↔ plans'.find? p = none := by
  rw [List.find?_eq_none, List.find?_eq_none]
  exact ⟨fun h q hq => h q (hperm.mem_iff.2 hq), fun h q hq => h q (hperm.mem_iff.1 hq)⟩

theorem findPlan_perm {s t : Cluster} (hs : NodupNames s) (hperm : t.plans.Perm s.plans)
    (name : String) : s.findPlan name = t.findPlan name := by
  cases hfind : s.findPlan name with
  | none => exact ((find?_eq_none_perm hperm _).2 hfind).symm
  | some found =>
    cases hfind' : t.findPlan name with
    | none =>
      have hnone : s.findPlan name = none := (find?_eq_none_perm hperm _).1 hfind'
      rw [hnone] at hfind
      cases hfind
    | some found' =>
      obtain ⟨hmem, hname⟩ := mem_of_findPlan hfind
      obtain ⟨hmem', hname'⟩ := mem_of_findPlan hfind'
      rw [hs.eq_of_name hmem (hperm.mem_iff.1 hmem') (hname.trans hname'.symm)]

/-- The plan that a creation keeps is the same for every order of the list. -/
theorem replacement_perm {s t : Cluster} (hs : NodupNames s) (hperm : t.plans.Perm s.plans)
    {req : PlanRequest} {result : PlanCreationResult} {ws : List Write} {k : String}
    (h : createOrUpdatePlan s req = some (result, ws)) (hk : result.replacement = some k) :
    ∃ result' ws', createOrUpdatePlan t req = some (result', ws') ∧
      result'.replacement = some k := by
  have hlisted : (s.plansOf req.owner).Perm (t.plansOf req.owner) := (hperm.filter _).symm
  have hnodup : ((s.plansOf req.owner).map Plan.name).Nodup :=
    hs.sublist (List.Sublist.map _ List.filter_sublist)
  unfold createOrUpdatePlan at h ⊢
  dsimp only at h ⊢
  rw [← reusablePlan_perm hlisted hnodup, ← findPlan_perm hs hperm]
  split at h
  · cases h
    exact ⟨_, _, rfl, hk⟩
  · split at h
    · cases h
      cases hk
    · rename_i hfailed
      rw [(find?_eq_none_perm hlisted _).1 hfailed]
      split at h
      · cases h
        cases hk
      · rename_i happlied
        rw [(find?_eq_none_perm hlisted _).1 happlied]
        split at h
        · cases h
          exact ⟨_, _, rfl, hk⟩
        · split_ifs at h with hresume
          cases h
          dsimp only
          rw [if_pos hresume]
          exact ⟨_, _, rfl, hk⟩

/-! ## Plan replacement -/

/-- Whatever the plans of the owner, once a plan is created or reused one live plan is left for the
effects, decisions are as they were recorded, and the operator's own choice among the plans does not
depend on their order. -/
theorem createOrUpdatePlan_replaces {s : Cluster} (hs : NodupNames s) (req : PlanRequest)
    (binding : Option CandidatePlanBinding) {result : PlanCreationResult} {ws : List Write}
    {k : String} (h : createOrUpdatePlan s (req.boundTo binding) = some (result, ws))
    (hk : result.replacement = some k) :
    PlansReplaced s (s.writes ws) (req.boundTo binding) k ∧
      ((req.boundTo binding).reuse = .autoApproval → ∀ t : Cluster, t.plans.Perm s.plans →
        ∃ result' ws', createOrUpdatePlan t (req.boundTo binding) = some (result', ws') ∧
          result'.replacement = some k) :=
  ⟨plansReplaced_of_createOrUpdatePlan hs (pinned_boundTo req binding) h hk,
    fun _ _ hperm => replacement_perm hs hperm h hk⟩

/-- Two copies of one plan, the pending one newer. -/
def duplicatedPlans : Cluster where
  policy := { content := "content" }
  plans := [
    { name := "approved", owner := .policy, origin := none, reconciliationMode := .authoritative
      creationTimestamp := 1
      status := some
        { phase := .approved, changeDigest := some "digest"
          changeDigestEncoding := some approvalEffectEncodingV3 } },
    { name := "pending", owner := .policy, origin := none, reconciliationMode := .authoritative
      creationTimestamp := 2
      status := some
        { changeDigest := some "digest", changeDigestEncoding := some approvalEffectEncodingV3 } }]

/-- An auto-approved policy asks for the effects of both. -/
def duplicatedRequest : PlanRequest where
  owner := .policy
  reconciliationMode := .authoritative
  changeDigest := "digest"
  passwordSourceDigest := ""
  targetIdentity := {}
  reuse := .autoApproval
  detectNonconvergentApply := true
  now := 3
  planName := "new"

/-- The approved copy is kept, the other retired. -/
theorem duplicatedPlans_replaced :
    PlansReplaced duplicatedPlans
      (duplicatedPlans.writes [.planStatus "pending" (.supersede .duplicateOfActionablePlan)])
      (duplicatedRequest.boundTo none) "approved" := by
  have hnames : NodupNames duplicatedPlans := by
    unfold NodupNames
    decide
  have hcreate : createOrUpdatePlan duplicatedPlans (duplicatedRequest.boundTo none) =
      some (.deduplicated "approved",
        [.planStatus "pending" (.supersede .duplicateOfActionablePlan)]) := rfl
  exact (createOrUpdatePlan_replaces hnames duplicatedRequest none hcreate rfl).1

end PgRoles.Operator

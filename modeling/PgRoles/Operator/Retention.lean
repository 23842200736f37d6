import PgRoles.Lib.Retention
import PgRoles.Operator.Backoff
import PgRoles.Operator.Durations

/-!
# Retention of plans and candidates

Terminal plans are kept up to a bound for each kind. Applied plans are the record of what ran: their
count yields to an age floor, and the floor to a ceiling. A terminal candidate is deleted with all
the plans it owns; one that owns an applied plan is held to the bounds of applied plans, through the
first applied plan in its list.

The bounds of plans hold always (`plansRetained`). Those of candidates hold exactly where the first
applied plan of a candidate speaks for the others (`plansAndCandidatesRetained_iff`).
-/

set_option autoImplicit false

namespace PgRoles.Operator

open Std PgRoles.Core PgRoles.Lib

/-! ## Bounds -/

/-- The bounds; a ceiling is not below its count. -/
structure PlanRetention where
  applied : Nat
  appliedCeiling : Nat
  appliedMinAgeSecs : Int
  decided : Nat
  superseded : Nat
  applied_le : applied ≤ appliedCeiling

/-- The bounds where the environment sets none. -/
def PlanRetention.default : PlanRetention where
  applied := 25
  appliedCeiling := 200
  appliedMinAgeSecs := 30 * 24 * 60 * 60
  decided := 10
  superseded := 3
  applied_le := by decide

/-- Why the values of the environment are refused. -/
inductive PlanRetentionConfigError where
  | invalidCount (envVariable value : String)
  | invalidDuration (envVariable value : String) (detail : InvalidDuration)
  | durationTooLarge (envVariable value : String)
  | ceilingBelowCount (ceiling count : Nat)

/-- Read a machine-sized count; a plus sign may stand in front. -/
def parseUsize (text : List Char) : Option Nat :=
  let digits := match text with
    | '+' :: digits => digits
    | digits => digits
  if digits.all isAsciiDigit then parseWord digits else none

section Lookup

variable (lookup : String → Option String)

/-- A number that the environment may set. -/
def countBound (envVariable : String) (fallback : Nat) : Except PlanRetentionConfigError Nat :=
  match lookup envVariable with
  | none => .ok fallback
  | some value =>
      match parseUsize (trimmed value) with
      | some n => .ok n
      | none => .error (.invalidCount envVariable value)

/-- An age that the environment may set. -/
def ageBound (envVariable : String) (fallback : Int) : Except PlanRetentionConfigError Int :=
  match lookup envVariable with
  | none => .ok fallback
  | some value =>
      match parseDuration value with
      | .error detail => .error (.invalidDuration envVariable value detail)
      | .ok secs => if secs < 2 ^ 63 then .ok secs else .error (.durationTooLarge envVariable value)

/-- The bounds the environment asks for. -/
def PlanRetention.fromLookup : Except PlanRetentionConfigError PlanRetention := do
  let defaults := PlanRetention.default
  let applied ← countBound lookup "PLAN_RETENTION_APPLIED" defaults.applied
  let appliedCeiling ← countBound lookup "PLAN_RETENTION_APPLIED_CEILING" defaults.appliedCeiling
  let appliedMinAgeSecs ←
    ageBound lookup "PLAN_RETENTION_APPLIED_MIN_AGE" defaults.appliedMinAgeSecs
  let decided ← countBound lookup "PLAN_RETENTION_DECIDED" defaults.decided
  let superseded ← countBound lookup "PLAN_RETENTION_SUPERSEDED" defaults.superseded
  if h : appliedCeiling < applied then .error (.ceilingBelowCount appliedCeiling applied)
  else .ok ⟨applied, appliedCeiling, appliedMinAgeSecs, decided, superseded, Nat.not_lt.1 h⟩

end Lookup

/-! ## Objects -/

/-- The label that exempts an object from retention. -/
def labelKeep : String := "pgroles.io/keep"

/-- The label exempts an object from every bound. -/
def isRetentionExempt (labels : BTreeMap String String) : Bool := labels[labelKeep]? == some "true"

/-- A plan with what retention reads of it. -/
structure RetainedPlan extends RecordedPlan where
  labels : BTreeMap String String := ∅
  creationTimestamp : Option Int := none
  deriving DecidableEq

/-- The phase of a plan; a plan without a status has none. -/
def RetainedPlan.phase? (plan : RetainedPlan) : Option PlanPhase := plan.status.map (·.phase)

/-- A terminal candidate. -/
structure TerminalCandidate where
  name : String
  labels : BTreeMap String String := ∅
  creationTimestamp : Option Int := none
  deriving DecidableEq

/-! ## Orders of instants -/

/-- An unknown instant comes before every known one. -/
def instantLe : Option Int → Option Int → Bool
  | none, _ => true
  | some _, none => false
  | some a, some b => decide (a ≤ b)

/-- A stable sort by an instant. -/
def sortByInstant {α : Type} (instant : α → Option Int) (l : List α) : List α :=
  l.mergeSort fun a b => instantLe (instant a) (instant b)

/-- The difference of two 64-bit numbers, at their limits where it does not fit. -/
def saturatingSub (a b : Int) : Int := max (-2 ^ 63) (min (2 ^ 63 - 1) (a - b))

/-! ## Which plans go -/

section Evict

-- The epoch seconds of an RFC 3339 text, where it is one.
variable (parse : String → Option Int)

/-- When a plan was applied; its creation stands in where that is not known. -/
def appliedEpochSecs (plan : RetainedPlan) : Option Int :=
  ((plan.status.bind (·.appliedAt)).bind parse).or plan.creationTimestamp

/-- The age of an applied plan; an unknown one is brand new. -/
def appliedAgeSecs (plan : RetainedPlan) (now : Int) : Int :=
  ((appliedEpochSecs parse plan).map (saturatingSub now)).getD 0

/-- The plan is younger than the age floor. -/
def insideFloor (retention : PlanRetention) (now : Int) (plan : RetainedPlan) : Bool :=
  decide (appliedAgeSecs parse plan now < retention.appliedMinAgeSecs)

/-- Which applied plans go. -/
def appliedPlansToEvict (applied : List RetainedPlan) (retention : PlanRetention) (now : Int) :
    List RetainedPlan :=
  let sorted := sortByInstant (appliedEpochSecs parse) applied
  evictOldest retention.applied retention.appliedCeiling (insideFloor parse retention now)
    sorted.length sorted

/-- The oldest plans beyond a bound. -/
def oldestBeyond (plans : List RetainedPlan) (keep : Nat) : List RetainedPlan :=
  if plans.length ≤ keep then []
  else (sortByInstant (·.creationTimestamp) plans).take (plans.length - keep)

/-- The plans of these phases that no label exempts. -/
def boundedPlans (plans : List RetainedPlan) (phases : List PlanPhase) : List RetainedPlan :=
  plans.filter fun plan => !isRetentionExempt plan.labels && plan.phase?.any phases.contains

/-- The plans that go: those beyond the number to keep, by phase. -/
def plansToEvict (plans : List RetainedPlan) (retention : PlanRetention) (now : Int) :
    List RetainedPlan :=
  oldestBeyond (boundedPlans plans [.failed, .rejected]) retention.decided ++
    oldestBeyond (boundedPlans plans [.superseded]) retention.superseded ++
    appliedPlansToEvict parse (boundedPlans plans [.applied]) retention now

/-! ## Which candidates go -/

/-- Terminal candidates that were never applied are kept up to this number. -/
def defaultMaxTerminalCandidates : Nat := 10

/-- No label on the candidate or on a plan it owns exempts them. -/
def isBounded (owned : TerminalCandidate × List RetainedPlan) : Bool :=
  !isRetentionExempt owned.1.labels && owned.2.all fun plan => !isRetentionExempt plan.labels

/-- The applied plan that speaks for a candidate. -/
def appliedPlanOf (plans : List RetainedPlan) : Option RetainedPlan :=
  plans.find? fun plan => plan.phase? == some .applied

/-- The bounded candidates with an applied plan, each with the plan that speaks for it. -/
def appliedCandidates (records : List (TerminalCandidate × List RetainedPlan)) :
    List (TerminalCandidate × RetainedPlan) :=
  (records.filter isBounded).filterMap fun owned => (appliedPlanOf owned.2).map (owned.1, ·)

/-- The bounded candidates of which nothing ran. -/
def churnCandidates (records : List (TerminalCandidate × List RetainedPlan)) :
    List TerminalCandidate :=
  ((records.filter isBounded).filter fun owned => (appliedPlanOf owned.2).isNone).map Prod.fst

/-- The candidates that go: of those never applied all beyond a number, of the others those whose
plan goes. -/
def terminalCandidatesToPrune (records : List (TerminalCandidate × List RetainedPlan))
    (retention : PlanRetention) (now : Int) : List TerminalCandidate :=
  let churn := churnCandidates records
  let applied := appliedCandidates records
  let pruned :=
    if defaultMaxTerminalCandidates < churn.length then
      (sortByInstant (·.creationTimestamp) churn).take
        (churn.length - defaultMaxTerminalCandidates)
    else []
  let evictedPlans :=
    (appliedPlansToEvict parse (applied.map Prod.snd) retention now).map fun plan => plan.name
  pruned ++ (applied.filter fun owned => evictedPlans.contains owned.2.name).map Prod.fst

end Evict

/-! ## Sorting by an instant -/

theorem instantLe_trans {a b c : Option Int} (hab : instantLe a b = true)
    (hbc : instantLe b c = true) : instantLe a c = true := by
  cases a with
  | none => rfl
  | some a =>
    cases b with
    | none => cases hab
    | some b =>
      cases c with
      | none => cases hbc
      | some c =>
        simp only [instantLe, decide_eq_true_eq] at *
        exact Int.le_trans hab hbc

theorem instantLe_total (a b : Option Int) : (instantLe a b || instantLe b a) = true := by
  cases a with
  | none => rfl
  | some a =>
    cases b with
    | none => rfl
    | some b => simpa [instantLe] using Int.le_total a b

section Sorting

variable {α : Type} (instant : α → Option Int)

theorem sortByInstant_perm (l : List α) : (sortByInstant instant l).Perm l :=
  List.mergeSort_perm l _

theorem pairwise_sortByInstant (l : List α) :
    (sortByInstant instant l).Pairwise fun a b => instantLe (instant a) (instant b) = true :=
  List.pairwise_mergeSort
    (fun a b _ (hab : instantLe (instant a) (instant b) = true) hbc => instantLe_trans hab hbc)
    (fun a b => instantLe_total (instant a) (instant b)) l

theorem sortByInstant_of_pairwise {l : List α}
    (h : l.Pairwise fun a b => instantLe (instant a) (instant b) = true) :
    sortByInstant instant l = l :=
  List.mergeSort_of_pairwise h

/-- The evicted are the oldest of all, and those kept are within the bound. -/
structure EvictsOldest (bound : Nat) (all evicted kept : List α) : Prop where
  perm : (evicted ++ kept).Perm all
  bounded : kept.length ≤ bound
  oldest : ∀ e ∈ evicted, ∀ k ∈ kept, instantLe (instant e) (instant k) = true

end Sorting

/-- The oldest ones beyond the number go, and the others are kept. -/
theorem exists_evictsOldest (plans : List RetainedPlan) (keep : Nat) :
    ∃ kept, EvictsOldest (·.creationTimestamp) keep plans (oldestBeyond plans keep) kept := by
  unfold oldestBeyond
  split_ifs with hfits
  · exact ⟨plans, List.Perm.refl _, hfits, nofun⟩
  · have hperm := sortByInstant_perm (·.creationTimestamp) plans
    have hsorted := pairwise_sortByInstant (·.creationTimestamp) plans
    generalize sortByInstant (·.creationTimestamp) plans = sorted at hperm hsorted
    refine ⟨sorted.drop (plans.length - keep), ?_, ?_, ?_⟩
    · rw [List.take_append_drop]
      exact hperm
    · rw [List.length_drop, hperm.length_eq]
      omega
    · rw [← List.take_append_drop (plans.length - keep) sorted] at hsorted
      exact fun e he k hk => (List.pairwise_append.1 hsorted).2.2 e he k hk

/-! ## The age floor along the order of application -/

section Evict

variable {parse : String → Option Int} {retention : PlanRetention} {now : Int}

/-- Every plan has a creation timestamp. -/
def KnownInstants (plans : List RetainedPlan) : Prop :=
  ∀ plan ∈ plans, plan.creationTimestamp.isSome = true

instance (plans : List RetainedPlan) : Decidable (KnownInstants plans) :=
  inferInstanceAs (Decidable (∀ plan ∈ plans, plan.creationTimestamp.isSome = true))

theorem exists_appliedEpochSecs (parse : String → Option Int) {plan : RetainedPlan}
    (h : plan.creationTimestamp.isSome = true) : ∃ t, appliedEpochSecs parse plan = some t := by
  obtain ⟨created, hcreated⟩ := Option.isSome_iff_exists.1 h
  unfold appliedEpochSecs
  rw [hcreated]
  cases (plan.status.bind (·.appliedAt)).bind parse with
  | none => exact ⟨created, rfl⟩
  | some t => exact ⟨t, rfl⟩

theorem saturatingSub_le {now a b : Int} (h : a ≤ b) :
    saturatingSub now b ≤ saturatingSub now a := by
  unfold saturatingSub
  omega

/-- A plan applied later is younger. -/
theorem insideFloor_of_le {a b : RetainedPlan} (hb : b.creationTimestamp.isSome = true)
    (ha : a.creationTimestamp.isSome = true)
    (hle : instantLe (appliedEpochSecs parse a) (appliedEpochSecs parse b) = true)
    (hinside : insideFloor parse retention now a = true) :
    insideFloor parse retention now b = true := by
  obtain ⟨ta, hta⟩ := exists_appliedEpochSecs parse ha
  obtain ⟨tb, htb⟩ := exists_appliedEpochSecs parse hb
  rw [hta, htb] at hle
  have htime : ta ≤ tb := by simpa [instantLe] using hle
  simp only [insideFloor, appliedAgeSecs, hta, htb, Option.map_some, Option.getD_some,
    decide_eq_true_eq] at hinside ⊢
  exact Int.lt_of_le_of_lt (saturatingSub_le htime) hinside

/-- The applied plans, oldest first. -/
abbrev byApplication (parse : String → Option Int) (applied : List RetainedPlan) :
    List RetainedPlan :=
  sortByInstant (appliedEpochSecs parse) applied

theorem floorSorted_byApplication {applied : List RetainedPlan} (hknown : KnownInstants applied) :
    FloorSorted (insideFloor parse retention now) (byApplication parse applied) := by
  have hmem : ∀ {plan}, plan ∈ byApplication parse applied → plan ∈ applied := fun h =>
    (sortByInstant_perm _ _).mem_iff.1 h
  refine (pairwise_sortByInstant (appliedEpochSecs parse) applied).imp_of_mem fun ha hb hle => ?_
  exact insideFloor_of_le (hknown _ (hmem hb)) (hknown _ (hmem ha)) hle

/-- What the bounds promise of the applied plans: those that go are the first by application time,
and what stays keeps the count, the floor and the ceiling. -/
def AppliedRetained (parse : String → Option Int) (retention : PlanRetention) (now : Int)
    (applied evicted : List RetainedPlan) : Prop :=
  ∃ kept, (evicted ++ kept).Perm applied ∧
    ((evicted ++ kept).Pairwise fun a b =>
      instantLe (appliedEpochSecs parse a) (appliedEpochSecs parse b) = true) ∧
    Retains retention.applied retention.appliedCeiling (insideFloor parse retention now)
      (evicted ++ kept) evicted kept

/-- Of the applied plans those go that the bounds let go. -/
theorem appliedRetained {applied : List RetainedPlan} (hknown : KnownInstants applied) :
    AppliedRetained parse retention now applied
      (appliedPlansToEvict parse applied retention now) := by
  have hfloor : FloorSorted (insideFloor parse retention now) (byApplication parse applied) :=
    floorSorted_byApplication hknown
  obtain ⟨kept, hretains⟩ := evictOldest_retains retention.applied_le hfloor
  have hsplit : byApplication parse applied =
      appliedPlansToEvict parse applied retention now ++ kept := hretains.split
  refine ⟨kept, ?_, ?_, ?_⟩
  · rw [← hsplit]
    exact sortByInstant_perm _ _
  · rw [← hsplit]
    exact pairwise_sortByInstant _ _
  · rw [← hsplit]
    exact hretains

/-- What the bounds promise of the plans of one owner: those that go are terminal and not exempt,
and of each kind the bounds hold of what stays. -/
structure PlansRetained (parse : String → Option Int) (retention : PlanRetention) (now : Int)
    (plans : List RetainedPlan) : Prop where
  terminal : ∀ plan ∈ plansToEvict parse plans retention now,
    plan ∈ plans ∧ isRetentionExempt plan.labels = false ∧
      (plan.phase? = some .applied ∨ plan.phase? = some .failed ∨
        plan.phase? = some .rejected ∨ plan.phase? = some .superseded)
  bounds : ∃ decided superseded applied,
    plansToEvict parse plans retention now = decided ++ superseded ++ applied ∧
    (∃ kept, EvictsOldest (·.creationTimestamp) retention.decided
      (boundedPlans plans [.failed, .rejected]) decided kept) ∧
    (∃ kept, EvictsOldest (·.creationTimestamp) retention.superseded
      (boundedPlans plans [.superseded]) superseded kept) ∧
    AppliedRetained parse retention now (boundedPlans plans [.applied]) applied

/-- The bounded plans are those of these phases without an exempting label. -/
theorem mem_boundedPlans {plans : List RetainedPlan} {phases : List PlanPhase}
    {plan : RetainedPlan} :
    plan ∈ boundedPlans plans phases ↔ plan ∈ plans ∧ isRetentionExempt plan.labels = false ∧
      ∃ phase ∈ phases, plan.phase? = some phase := by
  unfold boundedPlans
  rw [List.mem_filter, Bool.and_eq_true, Bool.not_eq_true', Option.any_eq_true]
  refine and_congr_right fun _ => and_congr_right fun _ => ?_
  constructor
  · rintro ⟨phase, hphase, hmem⟩
    exact ⟨phase, List.contains_iff_mem.1 hmem, hphase⟩
  · rintro ⟨phase, hmem, hphase⟩
    exact ⟨phase, hphase, List.contains_iff_mem.2 hmem⟩

theorem mem_of_evictsOldest {instant : RetainedPlan → Option Int} {bound : Nat}
    {all evicted kept : List RetainedPlan} (h : EvictsOldest instant bound all evicted kept)
    {plan : RetainedPlan} (hplan : plan ∈ evicted) : plan ∈ all :=
  h.perm.mem_iff.1 (List.mem_append_left kept hplan)

/-- The bounds hold of every list of plans with known instants. -/
theorem plansRetained {plans : List RetainedPlan} (hknown : KnownInstants plans) :
    PlansRetained parse retention now plans := by
  obtain ⟨decidedKept, hdecided⟩ :=
    exists_evictsOldest (boundedPlans plans [.failed, .rejected]) retention.decided
  obtain ⟨supersededKept, hsuperseded⟩ :=
    exists_evictsOldest (boundedPlans plans [.superseded]) retention.superseded
  have happlied : AppliedRetained parse retention now (boundedPlans plans [.applied])
      (appliedPlansToEvict parse (boundedPlans plans [.applied]) retention now) :=
    appliedRetained fun plan hplan => hknown plan (mem_boundedPlans.1 hplan).1
  refine ⟨fun plan hplan => ?_, _, _, _, rfl, ⟨decidedKept, hdecided⟩,
    ⟨supersededKept, hsuperseded⟩, happlied⟩
  unfold plansToEvict at hplan
  rcases List.mem_append.1 hplan with hplan | hplan
  · rcases List.mem_append.1 hplan with hplan | hplan
    · obtain ⟨hmem, hexempt, phase, hphase, heq⟩ :=
        mem_boundedPlans.1 (mem_of_evictsOldest hdecided hplan)
      refine ⟨hmem, hexempt, ?_⟩
      rcases List.mem_cons.1 hphase with rfl | hphase
      · exact Or.inr (Or.inl heq)
      · rw [List.mem_singleton.1 hphase] at heq
        exact Or.inr (Or.inr (Or.inl heq))
    · obtain ⟨hmem, hexempt, phase, hphase, heq⟩ :=
        mem_boundedPlans.1 (mem_of_evictsOldest hsuperseded hplan)
      rw [List.mem_singleton.1 hphase] at heq
      exact ⟨hmem, hexempt, Or.inr (Or.inr (Or.inr heq))⟩
  · obtain ⟨kept, hperm, -⟩ := happlied
    obtain ⟨hmem, hexempt, phase, hphase, heq⟩ :=
      mem_boundedPlans.1 (hperm.mem_iff.1 (List.mem_append_left kept hplan))
    rw [List.mem_singleton.1 hphase] at heq
    exact ⟨hmem, hexempt, Or.inl heq⟩

end Evict

/-! ## Candidates and the plans they own -/

section Prune

variable {parse : String → Option Int} {retention : PlanRetention} {now : Int}
  {records : List (TerminalCandidate × List RetainedPlan)}

/-- Candidates and plans have distinct names, a plan has one owner, and instants are known. -/
structure RecordsWellFormed (records : List (TerminalCandidate × List RetainedPlan)) : Prop where
  candidateNames : (records.map fun owned => owned.1.name).Nodup
  planNames : (records.flatMap fun owned => owned.2.map fun plan => plan.name).Nodup
  known : ∀ owned ∈ records, KnownInstants owned.2

/-- The candidate owns an applied plan inside the floor. -/
def ownsFresh (parse : String → Option Int) (retention : PlanRetention) (now : Int)
    (owned : TerminalCandidate × List RetainedPlan) : Bool :=
  owned.2.any fun plan => plan.phase? == some .applied && insideFloor parse retention now plan

/-- The plans that speak for the bounded candidates. -/
def representatives (records : List (TerminalCandidate × List RetainedPlan)) :
    List RetainedPlan :=
  (appliedCandidates records).map Prod.snd

/-- A candidate counts as applied by the plan that speaks for it. -/
theorem mem_appliedCandidates {candidate : TerminalCandidate} {plan : RetainedPlan} :
    (candidate, plan) ∈ appliedCandidates records ↔
      ∃ owned ∈ records, isBounded owned = true ∧ owned.1 = candidate ∧
        appliedPlanOf owned.2 = some plan := by
  unfold appliedCandidates
  rw [List.mem_filterMap]
  constructor
  · rintro ⟨owned, hmem, hplan⟩
    obtain ⟨p, hp, heq⟩ := Option.map_eq_some_iff.1 hplan
    cases heq
    obtain ⟨hrecord, hbounded⟩ := List.mem_filter.1 hmem
    exact ⟨owned, hrecord, hbounded, rfl, hp⟩
  · rintro ⟨owned, hrecord, hbounded, rfl, hp⟩
    exact ⟨owned, List.mem_filter.2 ⟨hrecord, hbounded⟩, by rw [hp]; rfl⟩

theorem mem_representatives {plan : RetainedPlan} :
    plan ∈ representatives records ↔
      ∃ owned ∈ records, isBounded owned = true ∧ appliedPlanOf owned.2 = some plan := by
  unfold representatives
  rw [List.mem_map]
  constructor
  · rintro ⟨⟨candidate, p⟩, hmem, rfl⟩
    obtain ⟨owned, hrecord, hbounded, -, hp⟩ := mem_appliedCandidates.1 hmem
    exact ⟨owned, hrecord, hbounded, hp⟩
  · rintro ⟨owned, hrecord, hbounded, hp⟩
    exact ⟨(owned.1, plan), mem_appliedCandidates.2 ⟨owned, hrecord, hbounded, rfl, hp⟩, rfl⟩

theorem mem_of_appliedPlanOf {plans : List RetainedPlan} {plan : RetainedPlan}
    (h : appliedPlanOf plans = some plan) : plan ∈ plans ∧ plan.phase? = some .applied :=
  ⟨List.mem_of_find?_eq_some h, by simpa using List.find?_some h⟩

theorem RecordsWellFormed.eq_of_candidate (h : RecordsWellFormed records)
    {owned owned' : TerminalCandidate × List RetainedPlan} (hmem : owned ∈ records)
    (hmem' : owned' ∈ records) (heq : owned.1 = owned'.1) : owned = owned' :=
  List.inj_on_of_nodup_map h.candidateNames hmem hmem' (by rw [heq])

/-- The plans that speak for candidates have distinct names. -/
theorem RecordsWellFormed.nodup_representatives (h : RecordsWellFormed records) :
    ((representatives records).map fun plan => plan.name).Nodup := by
  obtain ⟨-, hpairwise⟩ := List.nodup_flatMap.1 h.planNames
  unfold representatives appliedCandidates
  rw [List.map_map, List.Nodup, List.pairwise_map, List.pairwise_filterMap]
  refine (hpairwise.sublist List.filter_sublist).imp fun {a b} hdisjoint => ?_
  intro p hp q hq heq
  obtain ⟨p', hp', rfl⟩ := Option.map_eq_some_iff.1 hp
  obtain ⟨q', hq', rfl⟩ := Option.map_eq_some_iff.1 hq
  refine hdisjoint (List.mem_map_of_mem (mem_of_appliedPlanOf hp').1) ?_
  rw [show p'.name = q'.name from heq]
  exact List.mem_map_of_mem (mem_of_appliedPlanOf hq').1

theorem RecordsWellFormed.known_representatives (h : RecordsWellFormed records) :
    KnownInstants (representatives records) := by
  intro plan hplan
  obtain ⟨owned, hrecord, -, hp⟩ := mem_representatives.1 hplan
  exact h.known owned hrecord plan (mem_of_appliedPlanOf hp).1

/-- How many of the plans that speak for candidates are inside the floor. -/
def freshRepresentatives (parse : String → Option Int) (retention : PlanRetention) (now : Int)
    (records : List (TerminalCandidate × List RetainedPlan)) : Nat :=
  (representatives records).countP (insideFloor parse retention now)

theorem byApplication_perm (parse : String → Option Int) (plans : List RetainedPlan) :
    (byApplication parse plans).Perm plans :=
  sortByInstant_perm _ _

/-- The plans outside the floor are all but those inside it. -/
theorem outsideCount_representatives :
    outsideCount (insideFloor parse retention now) (byApplication parse (representatives records)) =
      (byApplication parse (representatives records)).length -
        freshRepresentatives parse retention now records := by
  have hinside := (byApplication_perm parse (representatives records)).countP_eq
    (insideFloor parse retention now)
  have hsum := List.length_eq_countP_add_countP (insideFloor parse retention now)
    (l := byApplication parse (representatives records))
  have houtside : outsideCount (insideFloor parse retention now)
      (byApplication parse (representatives records)) =
        (byApplication parse (representatives records)).countP
          fun plan => decide ¬ insideFloor parse retention now plan = true := by
    unfold outsideCount
    congr 1
    funext plan
    cases insideFloor parse retention now plan <;> rfl
  unfold freshRepresentatives
  omega

/-- The newest of the plans that speak for candidates. -/
def newestRepresentatives (parse : String → Option Int)
    (records : List (TerminalCandidate × List RetainedPlan)) (m : Nat) : List RetainedPlan :=
  let sorted := byApplication parse (representatives records)
  sorted.drop (sorted.length - m)

/-- How many candidates stay: the count, or those inside the floor up to the ceiling. -/
def keptCandidates (parse : String → Option Int) (retention : PlanRetention) (now : Int)
    (records : List (TerminalCandidate × List RetainedPlan)) : Nat :=
  max retention.applied
    (min retention.appliedCeiling (freshRepresentatives parse retention now records))

/-- The plans evicted are all but the newest that are kept. -/
theorem appliedPlansToEvict_representatives (h : RecordsWellFormed records) :
    appliedPlansToEvict parse (representatives records) retention now =
      let sorted := byApplication parse (representatives records)
      sorted.take (sorted.length - keptCandidates parse retention now records) := by
  have hfloor : FloorSorted (insideFloor parse retention now)
      (byApplication parse (representatives records)) :=
    floorSorted_byApplication h.known_representatives
  have hfresh : freshRepresentatives parse retention now records ≤
      (byApplication parse (representatives records)).length := by
    rw [(byApplication_perm parse (representatives records)).length_eq]
    exact List.countP_le_length
  have hle := retention.applied_le
  unfold appliedPlansToEvict keptCandidates
  dsimp only
  rw [evictOldest_eq_take hle hfloor, outsideCount_representatives]
  congr 1
  unfold evictedCount
  omega

/-- A candidate counts as never applied when no plan speaks for it. -/
theorem mem_churnCandidates {candidate : TerminalCandidate} :
    candidate ∈ churnCandidates records ↔
      ∃ owned ∈ records, isBounded owned = true ∧ appliedPlanOf owned.2 = none ∧
        owned.1 = candidate := by
  unfold churnCandidates
  rw [List.mem_map]
  constructor
  · rintro ⟨owned, hmem, rfl⟩
    obtain ⟨hmem, hnone⟩ := List.mem_filter.1 hmem
    obtain ⟨hrecord, hbounded⟩ := List.mem_filter.1 hmem
    exact ⟨owned, hrecord, hbounded, Option.isNone_iff_eq_none.1 hnone, rfl⟩
  · rintro ⟨owned, hrecord, hbounded, hnone, rfl⟩
    refine ⟨owned, List.mem_filter.2 ⟨List.mem_filter.2 ⟨hrecord, hbounded⟩, ?_⟩, rfl⟩
    rw [hnone]
    rfl

/-- A candidate goes as one of which nothing ran, or because the plan that speaks for it goes. -/
theorem mem_terminalCandidatesToPrune {candidate : TerminalCandidate}
    (h : candidate ∈ terminalCandidatesToPrune parse records retention now) :
    candidate ∈ churnCandidates records ∨
      ∃ plan, (candidate, plan) ∈ appliedCandidates records ∧
        ∃ e ∈ appliedPlansToEvict parse (representatives records) retention now,
          e.name = plan.name := by
  unfold terminalCandidatesToPrune at h
  dsimp only at h
  rcases List.mem_append.1 h with h | h
  · left
    split_ifs at h
    · exact (sortByInstant_perm _ _).mem_iff.1 (List.mem_of_mem_take h)
    · exact absurd h List.not_mem_nil
  · right
    obtain ⟨⟨c, plan⟩, hmem, rfl⟩ := List.mem_map.1 h
    obtain ⟨happlied, hname⟩ := List.mem_filter.1 hmem
    obtain ⟨e, he, hename⟩ := List.mem_map.1 (List.contains_iff_mem.1 hname)
    exact ⟨plan, happlied, e, he, hename⟩

/-- A bounded candidate with an applied plan goes exactly when the plan that speaks for it is not
among the newest that are kept. -/
theorem mem_prune_iff (h : RecordsWellFormed records)
    {owned : TerminalCandidate × List RetainedPlan} (hmem : owned ∈ records)
    (hbounded : isBounded owned = true) {plan : RetainedPlan}
    (hplan : appliedPlanOf owned.2 = some plan) :
    owned.1 ∈ terminalCandidatesToPrune parse records retention now ↔
      plan ∉ newestRepresentatives parse records (keptCandidates parse retention now records) := by
  have hperm : (byApplication parse (representatives records)).Perm (representatives records) :=
    sortByInstant_perm _ _
  have hnodup : (byApplication parse (representatives records)).Nodup :=
    hperm.nodup_iff.2 (List.Nodup.of_map _ h.nodup_representatives)
  have hrep : plan ∈ representatives records :=
    mem_representatives.2 ⟨owned, hmem, hbounded, hplan⟩
  have hevicted : appliedPlansToEvict parse (representatives records) retention now = _ :=
    appliedPlansToEvict_representatives h
  have hgoes : owned.1 ∈ terminalCandidatesToPrune parse records retention now ↔
      plan ∈ appliedPlansToEvict parse (representatives records) retention now := by
    constructor
    · intro hprune
      rcases mem_terminalCandidatesToPrune hprune with hchurn | ⟨q, hq, e, he, hename⟩
      · obtain ⟨owned', hmem', -, hnone, hsame⟩ := mem_churnCandidates.1 hchurn
        rw [h.eq_of_candidate hmem' hmem hsame, hplan] at hnone
        cases hnone
      · obtain ⟨owned', hmem', -, hsame, hq⟩ := mem_appliedCandidates.1 hq
        rw [h.eq_of_candidate hmem' hmem hsame, hplan] at hq
        cases hq
        have herep : e ∈ representatives records := by
          rw [hevicted] at he
          exact hperm.mem_iff.1 (List.mem_of_mem_take he)
        rwa [List.inj_on_of_nodup_map h.nodup_representatives herep hrep hename] at he
    · intro hgone
      unfold terminalCandidatesToPrune
      dsimp only
      refine List.mem_append_right _ (List.mem_map.2 ⟨(owned.1, plan), ?_, rfl⟩)
      refine List.mem_filter.2 ⟨mem_appliedCandidates.2 ⟨owned, hmem, hbounded, rfl, hplan⟩, ?_⟩
      exact List.contains_iff_mem.2 (List.mem_map_of_mem hgone)
  rw [hgoes, hevicted]
  unfold newestRepresentatives
  dsimp only
  -- the evicted and the kept split a list without repetition
  generalize (byApplication parse (representatives records)).length -
    keptCandidates parse retention now records = k
  have hsorted : plan ∈ byApplication parse (representatives records) := hperm.mem_iff.2 hrep
  rw [← List.take_append_drop k (byApplication parse (representatives records))] at hnodup hsorted
  have hdisjoint := (List.nodup_append.1 hnodup).2.2
  constructor
  · exact fun htake hdrop => hdisjoint plan htake plan hdrop rfl
  · exact fun hdrop => (List.mem_append.1 hsorted).resolve_right hdrop

/-! ## What the bounds promise of candidates -/

/-- How many candidates that own an applied plan inside the floor stay. -/
def freshCandidatesLeft (parse : String → Option Int) (retention : PlanRetention) (now : Int)
    (records : List (TerminalCandidate × List RetainedPlan)) : Nat :=
  records.countP fun owned => ownsFresh parse retention now owned &&
    !(terminalCandidatesToPrune parse records retention now).contains owned.1

/-- No label is overruled by the cascade, and a candidate that owns an applied plan inside the floor
goes only while more than the ceiling of such candidates would stay. -/
structure CandidatesRetained (parse : String → Option Int) (retention : PlanRetention) (now : Int)
    (records : List (TerminalCandidate × List RetainedPlan)) : Prop where
  exempt : ∀ owned ∈ records, owned.1 ∈ terminalCandidatesToPrune parse records retention now →
    isRetentionExempt owned.1.labels = false ∧
      ∀ plan ∈ owned.2, isRetentionExempt plan.labels = false
  fresh : ∀ owned ∈ records, owned.1 ∈ terminalCandidatesToPrune parse records retention now →
    ownsFresh parse retention now owned = true →
    retention.appliedCeiling < freshCandidatesLeft parse retention now records + 1

/-- The candidate is exempt, or the plan that speaks for it is among the newest that are kept. -/
def keptByNewest (parse : String → Option Int) (retention : PlanRetention) (now : Int)
    (records : List (TerminalCandidate × List RetainedPlan))
    (owned : TerminalCandidate × List RetainedPlan) : Bool :=
  !isBounded owned || (appliedPlanOf owned.2).any
    (newestRepresentatives parse records (keptCandidates parse retention now records)).contains

/-- Every bounded candidate that owns an applied plan inside the floor is spoken for by a plan
inside the floor or among the newest up to the count; or as many such candidates as the ceiling are
exempt or spoken for by the newest plans. -/
def FreshSpokenFor (parse : String → Option Int) (retention : PlanRetention) (now : Int)
    (records : List (TerminalCandidate × List RetainedPlan)) : Prop :=
  (∀ owned ∈ records, isBounded owned = true → ownsFresh parse retention now owned = true →
    ∀ plan, appliedPlanOf owned.2 = some plan →
      insideFloor parse retention now plan = true ∨
        plan ∈ newestRepresentatives parse records retention.applied) ∨
  retention.appliedCeiling ≤ records.countP fun owned =>
    ownsFresh parse retention now owned && keptByNewest parse retention now records owned

theorem isBounded_iff {owned : TerminalCandidate × List RetainedPlan} :
    isBounded owned = true ↔ isRetentionExempt owned.1.labels = false ∧
      ∀ plan ∈ owned.2, isRetentionExempt plan.labels = false := by
  unfold isBounded
  rw [Bool.and_eq_true, Bool.not_eq_true', List.all_eq_true]
  simp only [Bool.not_eq_true']

/-- Only bounded candidates go. -/
theorem isBounded_of_mem_prune (h : RecordsWellFormed records)
    {owned : TerminalCandidate × List RetainedPlan} (hmem : owned ∈ records)
    (hprune : owned.1 ∈ terminalCandidatesToPrune parse records retention now) :
    isBounded owned = true := by
  rcases mem_terminalCandidatesToPrune hprune with hchurn | ⟨plan, hplan, -⟩
  · obtain ⟨owned', hmem', hbounded, -, hsame⟩ := mem_churnCandidates.1 hchurn
    rwa [h.eq_of_candidate hmem' hmem hsame] at hbounded
  · obtain ⟨owned', hmem', hbounded, hsame, -⟩ := mem_appliedCandidates.1 hplan
    rwa [h.eq_of_candidate hmem' hmem hsame] at hbounded

theorem exists_appliedPlanOf {owned : TerminalCandidate × List RetainedPlan}
    (h : ownsFresh parse retention now owned = true) :
    ∃ plan, appliedPlanOf owned.2 = some plan := by
  obtain ⟨plan, hmem, hplan⟩ := List.any_eq_true.1 h
  rw [Bool.and_eq_true] at hplan
  refine Option.isSome_iff_exists.1 ?_
  exact List.find?_isSome.2 ⟨plan, hmem, hplan.1⟩

/-- The fresh candidates left are the exempt ones and those the kept plans speak for. -/
theorem freshCandidatesLeft_eq (h : RecordsWellFormed records) :
    freshCandidatesLeft parse retention now records = records.countP fun owned =>
      ownsFresh parse retention now owned && keptByNewest parse retention now records owned := by
  refine List.countP_congr fun owned hmem => ?_
  unfold keptByNewest
  simp only [Bool.and_eq_true, Bool.or_eq_true, Bool.not_eq_true', ← Bool.not_eq_true,
    List.contains_iff_mem]
  refine and_congr_right fun hfresh => ?_
  by_cases hbounded : isBounded owned = true
  · obtain ⟨plan, hplan⟩ := exists_appliedPlanOf hfresh
    rw [mem_prune_iff h hmem hbounded hplan, hplan, Option.any_some, List.contains_iff_mem, not_not]
    exact ⟨Or.inr, fun hor => hor.resolve_left fun hnot => hnot hbounded⟩
  · exact ⟨fun _ => Or.inl hbounded,
      fun _ hprune => hbounded (isBounded_of_mem_prune h hmem hprune)⟩

/-! ## The newest plans and the floor -/

theorem newestRepresentatives_subset {m n : Nat} (hle : m ≤ n) :
    newestRepresentatives parse records m ⊆ newestRepresentatives parse records n := by
  unfold newestRepresentatives
  dsimp only
  exact List.drop_subset_drop_left _ (by omega)

/-- No more than are inside the floor: then the newest are inside it. -/
theorem inside_of_mem_newest (h : RecordsWellFormed records) {m : Nat}
    (hle : m ≤ freshRepresentatives parse retention now records) {plan : RetainedPlan}
    (hplan : plan ∈ newestRepresentatives parse records m) :
    insideFloor parse retention now plan = true := by
  have hfloor : FloorSorted (insideFloor parse retention now)
      (byApplication parse (representatives records)) :=
    floorSorted_byApplication h.known_representatives
  obtain ⟨i, hi⟩ := List.mem_iff_getElem?.1 hplan
  unfold newestRepresentatives at hi
  dsimp only at hi
  rw [List.getElem?_drop] at hi
  apply (hfloor.inside_of_getElem? hi).2
  rw [outsideCount_representatives]
  omega

/-- At least as many as are inside the floor: then every plan inside it is among the newest. -/
theorem mem_newest_of_inside (h : RecordsWellFormed records) {m : Nat}
    (hle : freshRepresentatives parse retention now records ≤ m) {plan : RetainedPlan}
    (hplan : plan ∈ representatives records)
    (hinside : insideFloor parse retention now plan = true) :
    plan ∈ newestRepresentatives parse records m := by
  have hfloor : FloorSorted (insideFloor parse retention now)
      (byApplication parse (representatives records)) :=
    floorSorted_byApplication h.known_representatives
  have hsorted := (byApplication_perm parse (representatives records)).mem_iff.2 hplan
  obtain ⟨i, hi⟩ := List.mem_iff_getElem?.1 hsorted
  have hfrom := (hfloor.inside_of_getElem? hi).1 hinside
  rw [outsideCount_representatives] at hfrom
  unfold newestRepresentatives
  apply List.mem_iff_getElem?.2
  refine ⟨i - ((byApplication parse (representatives records)).length - m), ?_⟩
  dsimp only
  rw [List.getElem?_drop, Nat.add_sub_cancel' (by omega)]
  exact hi

/-- A plan counts for the candidate it speaks for. -/
theorem countP_representatives_le (p : RetainedPlan → Bool)
    (q : TerminalCandidate × List RetainedPlan → Bool)
    (himp : ∀ owned ∈ records, isBounded owned = true →
      ∀ plan, appliedPlanOf owned.2 = some plan → p plan = true → q owned = true) :
    (representatives records).countP p ≤ records.countP q := by
  unfold representatives appliedCandidates
  rw [List.countP_map, List.countP_filterMap, List.countP_filter]
  apply List.countP_mono_left
  intro owned hmem hand
  rw [Bool.and_eq_true] at hand
  obtain ⟨hcounts, hbounded⟩ := hand
  cases hplan : appliedPlanOf owned.2 with
  | none => rw [hplan] at hcounts; cases hcounts
  | some plan =>
    rw [hplan] at hcounts
    exact himp owned hmem hbounded plan hplan hcounts

/-- All of the newest are among the plans that speak for candidates. -/
theorem le_countP_newest {m : Nat} (hle : m ≤ (representatives records).length) :
    m ≤ (representatives records).countP (newestRepresentatives parse records m).contains := by
  have hperm := byApplication_perm parse (representatives records)
  rw [← hperm.countP_eq]
  have hsublist : (newestRepresentatives parse records m).Sublist
      (byApplication parse (representatives records)) := List.drop_sublist _ _
  calc m = (newestRepresentatives parse records m).length := by
        unfold newestRepresentatives
        dsimp only
        rw [List.length_drop, hperm.length_eq]
        omega
    _ = (newestRepresentatives parse records m).countP
          (newestRepresentatives parse records m).contains :=
        (List.countP_eq_length.2 fun plan hplan => List.contains_iff_mem.2 hplan).symm
    _ ≤ _ := hsublist.countP_le

/-- The bounds of plans hold of every list, and those of candidates exactly where every candidate
that owns an applied plan inside the floor is spoken for. -/
theorem plansAndCandidatesRetained_iff {plans : List RetainedPlan} (hknown : KnownInstants plans)
    (h : RecordsWellFormed records) :
    PlansRetained parse retention now plans ∧ CandidatesRetained parse retention now records ↔
      FreshSpokenFor parse retention now records := by
  have hceiling := retention.applied_le
  have hleft : freshCandidatesLeft parse retention now records = _ := freshCandidatesLeft_eq h
  constructor
  · rintro ⟨-, hretained⟩
    by_cases hmany : retention.appliedCeiling ≤ freshCandidatesLeft parse retention now records
    · exact Or.inr (hleft ▸ hmany)
    · left
      intro owned hmem hbounded hfresh plan hplan
      have hkept : plan ∈ newestRepresentatives parse records
          (keptCandidates parse retention now records) := by
        by_contra hgone
        have hprune := (mem_prune_iff h hmem hbounded hplan).2 hgone
        have hover := hretained.fresh owned hmem hprune hfresh
        omega
      by_cases hcount : keptCandidates parse retention now records ≤ retention.applied
      · exact Or.inr (newestRepresentatives_subset hcount hkept)
      · -- beyond the count, what is kept is inside the floor
        refine Or.inl (inside_of_mem_newest h ?_ hkept)
        unfold keptCandidates at hcount ⊢
        omega
  · intro hspoken
    refine ⟨plansRetained hknown, fun owned hmem hprune => ?_, fun owned hmem hprune hfresh => ?_⟩
    · exact isBounded_iff.1 (isBounded_of_mem_prune h hmem hprune)
    · rw [hleft, Nat.lt_succ_iff]
      rcases hspoken with hspoken | hmany
      · have hbounded := isBounded_of_mem_prune h hmem hprune
        obtain ⟨plan, hplan⟩ := exists_appliedPlanOf hfresh
        have hgone := (mem_prune_iff h hmem hbounded hplan).1 hprune
        have happliedKept : retention.applied ≤ keptCandidates parse retention now records :=
          Nat.le_max_left _ _
        have hinside := (hspoken owned hmem hbounded hfresh plan hplan).resolve_right
          fun hnewest => hgone (newestRepresentatives_subset happliedKept hnewest)
        have hrep : plan ∈ representatives records :=
          mem_representatives.2 ⟨owned, hmem, hbounded, hplan⟩
        -- a plan inside the floor goes only where the floor holds more than the ceiling
        have hover : retention.appliedCeiling <
            freshRepresentatives parse retention now records := by
          by_contra hfits
          refine hgone (mem_newest_of_inside h ?_ hrep hinside)
          unfold keptCandidates
          omega
        have hkept : keptCandidates parse retention now records = retention.appliedCeiling := by
          unfold keptCandidates
          omega
        have hlength : retention.appliedCeiling ≤ (representatives records).length :=
          Nat.le_of_lt (Nat.lt_of_lt_of_le hover List.countP_le_length)
        have hnewest : retention.appliedCeiling ≤ (representatives records).countP
            (newestRepresentatives parse records retention.appliedCeiling).contains :=
          le_countP_newest hlength
        refine Nat.le_trans hnewest (countP_representatives_le _ _ ?_)
        intro owned' hmem' hbounded' plan' hplan' hnewest
        have hnewest' := List.contains_iff_mem.1 hnewest
        obtain ⟨hmemPlan, hphase⟩ := mem_of_appliedPlanOf hplan'
        have hinside' := inside_of_mem_newest h (Nat.le_of_lt hover) hnewest'
        rw [Bool.and_eq_true]
        constructor
        · refine List.any_eq_true.2 ⟨plan', hmemPlan, ?_⟩
          rw [Bool.and_eq_true]
          exact ⟨by rw [hphase]; rfl, hinside'⟩
        · unfold keptByNewest
          rw [hbounded', hplan', hkept, Option.any_some, hnewest]
          rfl
      · exact hmany

end Prune

/-! ## A candidate whose first applied plan is stale -/

/-- The environment keeps one applied plan, two at most inside the floor. -/
def smallBounds (envVariable : String) : Option String :=
  if envVariable = "PLAN_RETENTION_APPLIED" then some "1"
  else if envVariable = "PLAN_RETENTION_APPLIED_CEILING" then some "2"
  else none

/-- The bounds of that environment. -/
def smallRetention : PlanRetention :=
  { PlanRetention.default with applied := 1, appliedCeiling := 2, applied_le := by decide }

/-- The seconds of the first of January, February and March 2026. -/
def firstOfMonth (text : String) : Option Int :=
  if text = "2026-01-01T00:00:00Z" then some 1767225600
  else if text = "2026-02-01T00:00:00Z" then some 1769904000
  else if text = "2026-03-01T00:00:00Z" then some 1772323200
  else none

/-- A plan that was applied at an instant. -/
def appliedOn (name instant : String) : RetainedPlan where
  name := name
  status := some ⟨.applied, none, none, none, some instant⟩
  creationTimestamp := some 1767225600

/-- A candidate applied in January and again in March. -/
def appliedTwice : TerminalCandidate × List RetainedPlan :=
  ({ name := "twice" },
    [appliedOn "january" "2026-01-01T00:00:00Z", appliedOn "march" "2026-03-01T00:00:00Z"])

/-- A candidate applied in February. -/
def appliedOnce : TerminalCandidate × List RetainedPlan :=
  ({ name := "once" }, [appliedOn "february" "2026-02-01T00:00:00Z"])

/-- On the eleventh of March the bounds hold of the candidate applied in February. -/
theorem appliedOnce_retained :
    PlansRetained firstOfMonth smallRetention 1773187200 appliedOnce.2 ∧
      CandidatesRetained firstOfMonth smallRetention 1773187200 [appliedOnce] := by
  refine (plansAndCandidatesRetained_iff (by decide) ⟨by decide, by decide, by decide⟩).2 ?_
  left
  intro owned hmem _ hfresh
  rw [List.mem_singleton.1 hmem] at hfresh
  exact absurd hfresh (by decide +kernel)

/-- On the eleventh of March the other candidate goes, with the plan applied ten days before. -/
theorem appliedTwice_pruned :
    ¬ ∀ (parse : String → Option Int) (lookup : String → Option String) (retention : PlanRetention)
      (now : Int) (plans : List RetainedPlan)
      (records : List (TerminalCandidate × List RetainedPlan)),
      PlanRetention.fromLookup lookup = .ok retention → KnownInstants plans →
      RecordsWellFormed records →
      PlansRetained parse retention now plans ∧ CandidatesRetained parse retention now records := by
  intro h
  have haccepted : PlanRetention.fromLookup smallBounds = .ok smallRetention := rfl
  have hwell : RecordsWellFormed [appliedTwice, appliedOnce] := ⟨by decide, by decide, by decide⟩
  obtain ⟨-, hretained⟩ := h firstOfMonth smallBounds smallRetention 1773187200 []
    [appliedTwice, appliedOnce] haccepted nofun hwell
  -- the plan of January speaks for its candidate and comes first
  have hpruned : terminalCandidatesToPrune firstOfMonth [appliedTwice, appliedOnce] smallRetention
      1773187200 = [appliedTwice.1] := by
    unfold terminalCandidatesToPrune appliedPlansToEvict
    dsimp only
    rw [sortByInstant_of_pairwise (appliedEpochSecs firstOfMonth) (by decide +kernel)]
    decide +kernel
  have hmem : appliedTwice.1 ∈ terminalCandidatesToPrune firstOfMonth [appliedTwice, appliedOnce]
      smallRetention 1773187200 := by
    rw [hpruned]
    exact List.mem_singleton_self _
  have hover := hretained.fresh appliedTwice List.mem_cons_self hmem (by decide +kernel)
  unfold freshCandidatesLeft at hover
  rw [hpruned] at hover
  exact absurd hover (by decide +kernel)

end PgRoles.Operator

import PgRoles.Operator.Reconcile

/-!
# Back-off on recorded failures and applies

Three gates compare an instant recorded on a plan with the clock: the creation of a plan is refused
after a failure with the same effects and after an apply that did not converge, and the execution of
a plan is deferred after its own failure. The instants are texts here, as a status stores them, and
the clock and the reading of a text (`parse`) are arbitrary: a text may be unreadable or name an
instant later than the clock.

Two gates require that the instant is not later than the clock. The one on failures at creation does
not, so a failure dated in the future blocks it until the clock catches up, and this is the only
way the gates break their promises (`gatesAgree_iff`).
-/

set_option autoImplicit false

namespace PgRoles.Operator

open PgRoles.Core PgRoles.Lib

/-- The part of a plan's status that back-off reads, with the instants as they are stored. -/
structure RecordedStatus where
  phase : PlanPhase
  changeDigest : Option String
  changeDigestEncoding : Option String
  failedAt : Option String
  appliedAt : Option String
  deriving DecidableEq, Repr

/-- A plan as the back-off reads it. -/
structure RecordedPlan where
  name : String
  status : Option RecordedStatus
  deriving DecidableEq, Repr

/-- The stored status carries the digest under the current encoding. -/
def RecordedStatus.matchesDigest (status : RecordedStatus) (changeDigest : String) : Bool :=
  status.changeDigestEncoding == some approvalEffectEncodingV3 &&
    status.changeDigest == some changeDigest

section Backoff

-- The epoch seconds of an RFC 3339 text, where it is one.
variable (parse : String → Option Int)

/-- The seconds of a recorded instant; zero if there is none or it is unreadable. -/
def epochSecs (recorded : Option String) : Int := (recorded.bind parse).getD 0

/-! ## The gates -/

/-- A plan with these effects failed inside the window. -/
def failedInsideWindow (changeDigest : String) (now : Int) (plan : RecordedPlan) : Bool :=
  plan.status.any fun status =>
    status.phase == .failed && status.matchesDigest changeDigest &&
      (let failed := epochSecs parse status.failedAt
       decide (0 < failed) && decide (now - failed < failedPlanDedupWindowSecs))

/-- A plan with these effects was applied inside the window, and the effects are still there. -/
def appliedWithoutConverging (changeDigest : String) (now : Int) (plan : RecordedPlan) : Bool :=
  plan.status.any fun status =>
    status.matchesDigest changeDigest && status.phase == .applied &&
      (let applied := epochSecs parse status.appliedAt
       decide (0 < applied) && decide (applied ≤ now) &&
        decide (now - applied < appliedPlanNonconvergentWindowSecs))

/-- The plan is inside the retry back-off of a failure it recorded. -/
def retryDeferred (now : Int) (plan : RecordedPlan) : Bool :=
  plan.status.any fun status =>
    let failed := epochSecs parse status.failedAt
    let applied := epochSecs parse status.appliedAt
    decide (0 < failed) && decide (failed ≤ now) &&
      decide (now - failed < failedPlanDedupWindowSecs) && decide (applied ≤ failed)

/-- The answer of the two gates of a creation; `none` lets the creation go on. -/
def creationBackOff (existing : List RecordedPlan) (changeDigest : String)
    (detectNonconvergentApply : Bool) (now : Int) : Option PlanCreationResult :=
  match existing.find? (failedInsideWindow parse changeDigest now) with
  | some plan => some (.deduplicatedFailed plan.name)
  | none =>
      (existing.find? fun plan => detectNonconvergentApply &&
        appliedWithoutConverging parse changeDigest now plan).map
          fun plan => .deduplicatedNonConvergent plan.name

/-- Creation is held back exactly when some plan of the list holds it back. -/
theorem creationBackOff_isSome_iff (existing : List RecordedPlan) (changeDigest : String)
    (detectNonconvergentApply : Bool) (now : Int) :
    (creationBackOff parse existing changeDigest detectNonconvergentApply now).isSome = true ↔
      ∃ plan ∈ existing, failedInsideWindow parse changeDigest now plan = true ∨
        detectNonconvergentApply = true ∧
          appliedWithoutConverging parse changeDigest now plan = true := by
  unfold creationBackOff
  cases hfailed : existing.find? (failedInsideWindow parse changeDigest now) with
  | some plan =>
    have hplan : failedInsideWindow parse changeDigest now plan = true := List.find?_some hfailed
    simpa using ⟨plan, List.mem_of_find?_eq_some hfailed, Or.inl hplan⟩
  | none =>
    have hnone := List.find?_eq_none.1 hfailed
    rw [Option.isSome_map, List.find?_isSome]
    constructor
    · rintro ⟨plan, hmem, hplan⟩
      exact ⟨plan, hmem, Or.inr (by simpa using hplan)⟩
    · rintro ⟨plan, hmem, hplan | hplan⟩
      · exact absurd hplan (hnone plan hmem)
      · exact ⟨plan, hmem, by simpa using hplan⟩

/-! ## What the gates promise -/

/-- The recorded instant is readable, not in the future and younger than the window. -/
def InsideWindow (recorded : Option String) (now : Int) (window : Nat) : Prop :=
  ∃ t, recorded.bind parse = some t ∧ 0 < t ∧ t ≤ now ∧ now - t < window

/-- A bound on each gate, and agreement of the gates at creation and at execution. -/
structure GatesAgree (existing : List RecordedPlan) (changeDigest : String) (now : Int) :
    Prop where
  failed : ∀ plan ∈ existing, failedInsideWindow parse changeDigest now plan = true →
    InsideWindow parse (plan.status.bind (·.failedAt)) now failedPlanDedupWindowSecs
  nonConvergent : ∀ plan ∈ existing, appliedWithoutConverging parse changeDigest now plan = true →
    InsideWindow parse (plan.status.bind (·.appliedAt)) now appliedPlanNonconvergentWindowSecs
  deferred : ∀ plan ∈ existing, retryDeferred parse now plan = true →
    InsideWindow parse (plan.status.bind (·.failedAt)) now failedPlanDedupWindowSecs
  -- what creation lets through, execution does not defer
  agree : ∀ plan ∈ existing, ∀ status, plan.status = some status → status.phase = .failed →
    status.matchesDigest changeDigest = true →
    failedInsideWindow parse changeDigest now plan = false → retryDeferred parse now plan = false
  recovered : ∀ plan ∈ existing, ∀ status, plan.status = some status →
    ∀ failed applied, status.failedAt.bind parse = some failed →
      status.appliedAt.bind parse = some applied → failed < applied →
      retryDeferred parse now plan = false

/-- No failure with these effects is dated later than the clock. -/
def NoFutureFailure (existing : List RecordedPlan) (changeDigest : String) (now : Int) : Prop :=
  ∀ plan ∈ existing, ∀ status, plan.status = some status → status.phase = .failed →
    status.matchesDigest changeDigest = true →
    ∀ t, status.failedAt.bind parse = some t → 0 < t → t ≤ now

variable {parse}

/-- A positive instant is one that was recorded and could be read. -/
theorem exists_of_epochSecs_pos {recorded : Option String} (h : 0 < epochSecs parse recorded) :
    recorded.bind parse = some (epochSecs parse recorded) := by
  unfold epochSecs at h ⊢
  cases hread : recorded.bind parse with
  | none =>
    rw [hread] at h
    exact absurd h (lt_irrefl 0)
  | some t => rfl

theorem epochSecs_eq {recorded : Option String} {t : Int} (h : recorded.bind parse = some t) :
    epochSecs parse recorded = t := by
  rw [epochSecs, h, Option.getD_some]

theorem insideWindow_of_epochSecs {recorded : Option String} {now : Int} {window : Nat}
    (hpos : 0 < epochSecs parse recorded) (hpast : epochSecs parse recorded ≤ now)
    (hyoung : now - epochSecs parse recorded < window) :
    InsideWindow parse recorded now window :=
  ⟨epochSecs parse recorded, exists_of_epochSecs_pos hpos, hpos, hpast, hyoung⟩

variable {existing : List RecordedPlan} {changeDigest : String} {now : Int} {plan : RecordedPlan}

/-- The gate on failures at creation, as a proposition on the status. -/
theorem failedInsideWindow_iff :
    failedInsideWindow parse changeDigest now plan = true ↔
      ∃ status, plan.status = some status ∧ status.phase = .failed ∧
        status.matchesDigest changeDigest = true ∧ 0 < epochSecs parse status.failedAt ∧
        now - epochSecs parse status.failedAt < failedPlanDedupWindowSecs := by
  unfold failedInsideWindow
  simp only [Option.any_eq_true, Bool.and_eq_true, decide_eq_true_eq, beq_iff_eq, and_assoc]

theorem appliedWithoutConverging_iff :
    appliedWithoutConverging parse changeDigest now plan = true ↔
      ∃ status, plan.status = some status ∧ status.matchesDigest changeDigest = true ∧
        status.phase = .applied ∧ 0 < epochSecs parse status.appliedAt ∧
        epochSecs parse status.appliedAt ≤ now ∧
        now - epochSecs parse status.appliedAt < appliedPlanNonconvergentWindowSecs := by
  unfold appliedWithoutConverging
  simp only [Option.any_eq_true, Bool.and_eq_true, decide_eq_true_eq, beq_iff_eq, and_assoc]

theorem retryDeferred_iff :
    retryDeferred parse now plan = true ↔
      ∃ status, plan.status = some status ∧ 0 < epochSecs parse status.failedAt ∧
        epochSecs parse status.failedAt ≤ now ∧
        now - epochSecs parse status.failedAt < failedPlanDedupWindowSecs ∧
        epochSecs parse status.appliedAt ≤ epochSecs parse status.failedAt := by
  unfold retryDeferred
  simp only [Option.any_eq_true, Bool.and_eq_true, decide_eq_true_eq, and_assoc]

/-- The gate on applies at creation is bounded for every plan and every clock. -/
theorem insideWindow_of_appliedWithoutConverging
    (h : appliedWithoutConverging parse changeDigest now plan = true) :
    InsideWindow parse (plan.status.bind (·.appliedAt)) now
      appliedPlanNonconvergentWindowSecs := by
  obtain ⟨status, hstatus, -, -, hpos, hpast, hyoung⟩ := appliedWithoutConverging_iff.1 h
  rw [hstatus]
  exact insideWindow_of_epochSecs hpos hpast hyoung

/-- The gate at execution is bounded for every plan and every clock. -/
theorem insideWindow_of_retryDeferred (h : retryDeferred parse now plan = true) :
    InsideWindow parse (plan.status.bind (·.failedAt)) now failedPlanDedupWindowSecs := by
  obtain ⟨status, hstatus, hpos, hpast, hyoung, -⟩ := retryDeferred_iff.1 h
  rw [hstatus]
  exact insideWindow_of_epochSecs hpos hpast hyoung

/-- A failure that execution defers for, creation holds back for as well. -/
theorem failedInsideWindow_of_retryDeferred (h : retryDeferred parse now plan = true)
    {status : RecordedStatus} (hstatus : plan.status = some status)
    (hphase : status.phase = .failed) (hmatches : status.matchesDigest changeDigest = true) :
    failedInsideWindow parse changeDigest now plan = true := by
  obtain ⟨status', hstatus', hpos, -, hyoung, -⟩ := retryDeferred_iff.1 h
  rw [hstatus] at hstatus'
  cases hstatus'
  exact failedInsideWindow_iff.2 ⟨status, hstatus, hphase, hmatches, hpos, hyoung⟩

theorem retryDeferred_eq_false_of_recovered {status : RecordedStatus}
    (hstatus : plan.status = some status) {failed applied : Int}
    (hfailed : status.failedAt.bind parse = some failed)
    (happlied : status.appliedAt.bind parse = some applied) (hlt : failed < applied) :
    retryDeferred parse now plan = false := by
  rw [← Bool.not_eq_true, retryDeferred_iff]
  rintro ⟨status', hstatus', -, -, -, horder⟩
  rw [hstatus] at hstatus'
  cases hstatus'
  rw [epochSecs_eq hfailed, epochSecs_eq happlied] at horder
  omega

/-- The gate on failures at creation is bounded where no failure is dated in the future. -/
theorem insideWindow_of_failedInsideWindow
    (hfuture : NoFutureFailure parse existing changeDigest now) (hmem : plan ∈ existing)
    (h : failedInsideWindow parse changeDigest now plan = true) :
    InsideWindow parse (plan.status.bind (·.failedAt)) now failedPlanDedupWindowSecs := by
  obtain ⟨status, hstatus, hphase, hmatches, hpos, hyoung⟩ := failedInsideWindow_iff.1 h
  have hpast := hfuture plan hmem status hstatus hphase hmatches _
    (exists_of_epochSecs_pos hpos) hpos
  rw [hstatus]
  exact insideWindow_of_epochSecs hpos hpast hyoung

/-- A failure dated in the future is inside the window, for its age is negative. -/
theorem failedInsideWindow_of_future {status : RecordedStatus} (hstatus : plan.status = some status)
    (hphase : status.phase = .failed) (hmatches : status.matchesDigest changeDigest = true) {t : Int}
    (ht : status.failedAt.bind parse = some t) (hpos : 0 < t) (hfuture : now < t) :
    failedInsideWindow parse changeDigest now plan = true := by
  refine failedInsideWindow_iff.2 ⟨status, hstatus, hphase, hmatches, ?_, ?_⟩
  · rw [epochSecs_eq ht]
    exact hpos
  · rw [epochSecs_eq ht]
    have hwindow : (0 : Int) ≤ failedPlanDedupWindowSecs := Int.natCast_nonneg _
    omega

/-! ## The gates keep their promises up to the clock -/

/-- Every back-off is bounded by its window and the gates agree, exactly when no failure with these
effects is dated later than the clock. -/
theorem gatesAgree_iff (parse : String → Option Int) (existing : List RecordedPlan)
    (changeDigest : String) (now : Int) :
    GatesAgree parse existing changeDigest now ↔
      NoFutureFailure parse existing changeDigest now := by
  constructor
  · intro h plan hmem status hstatus hphase hmatches t ht hpos
    by_contra hlater
    have hblocked := failedInsideWindow_of_future hstatus hphase hmatches ht hpos
      (Int.not_le.1 hlater)
    obtain ⟨t', ht', -, hpast, -⟩ := h.failed plan hmem hblocked
    rw [hstatus] at ht'
    -- the bound speaks of the same instant
    have heq : t = t' := Option.some.inj (ht.symm.trans ht')
    omega
  · intro h
    refine ⟨fun plan hmem => insideWindow_of_failedInsideWindow h hmem, ?_, ?_, ?_, ?_⟩
    · exact fun plan _ => insideWindow_of_appliedWithoutConverging
    · exact fun plan _ => insideWindow_of_retryDeferred
    · intro plan _ status hstatus hphase hmatches hopen
      by_contra hdeferred
      have hblocked := failedInsideWindow_of_retryDeferred
        (Bool.not_eq_false _ ▸ hdeferred) hstatus hphase hmatches
      rw [hopen] at hblocked
      cases hblocked
    · exact fun plan _ status hstatus failed applied => retryDeferred_eq_false_of_recovered hstatus

/-- A failure five minutes ahead of the clock, as a replica with a fast clock records it. -/
def skewedFailure : RecordedPlan where
  name := "plan"
  status := some ⟨.failed, some "digest", some approvalEffectEncodingV3,
    some "2026-01-01T00:05:00Z", none⟩

/-- The seconds of the one instant recorded there. -/
def skewedInstant (text : String) : Option Int :=
  if text = "2026-01-01T00:05:00Z" then some 1767225900 else none

/-- At midnight that failure holds creation back, five minutes before it is said to happen. -/
theorem skewedFailure_blocks :
    ¬ ∀ (parse : String → Option Int) (existing : List RecordedPlan) (changeDigest : String)
      (now : Int), GatesAgree parse existing changeDigest now := by
  intro h
  have hblocked : failedInsideWindow skewedInstant "digest" 1767225600 skewedFailure = true := by
    decide +kernel
  obtain ⟨t, ht, -, hpast, -⟩ :=
    (h skewedInstant [skewedFailure] "digest" 1767225600).failed skewedFailure
      List.mem_cons_self hblocked
  have heq : some (1767225900 : Int) = some t := by
    rw [← ht]
    decide +kernel
  have ht' := Option.some.inj heq
  omega

/-! ## The plans of the cluster -/

/-- The plan as the reconciler model reads it: instants in seconds, before the epoch none. -/
def RecordedPlan.read (parse : String → Option Int) (plan : RecordedPlan) (owner : PlanOwner)
    (origin : Option PlanOrigin) (mode : ReconciliationMode) (created : Nat) : Plan where
  name := plan.name
  owner := owner
  origin := origin
  reconciliationMode := mode
  creationTimestamp := created
  status := plan.status.map fun status => {
    phase := status.phase
    changeDigest := status.changeDigest
    changeDigestEncoding := status.changeDigestEncoding
    failedAt := (status.failedAt.bind parse).map Int.toNat
    appliedAt := (status.appliedAt.bind parse).map Int.toNat }

theorem getD_map_toNat (parse : String → Option Int) (recorded : Option String) :
    ((recorded.bind parse).map Int.toNat).getD 0 = (epochSecs parse recorded).toNat := by
  unfold epochSecs
  cases recorded.bind parse <;> rfl

/-- A window over instants from the epoch on, in either arithmetic. -/
theorem inside_toNat (t : Int) (now window : Nat) :
    (decide (0 < t.toNat) && decide (now < t.toNat + window)) =
      (decide (0 < t) && decide ((now : Int) - t < window)) := by
  rw [Bool.eq_iff_iff, Bool.and_eq_true, Bool.and_eq_true, decide_eq_true_iff, decide_eq_true_iff,
    decide_eq_true_iff, decide_eq_true_iff]
  omega

theorem inside_past_toNat (t : Int) (now window : Nat) :
    (decide (0 < t.toNat) && decide (t.toNat ≤ now) && decide (now < t.toNat + window)) =
      (decide (0 < t) && decide (t ≤ now) && decide ((now : Int) - t < window)) := by
  rw [Bool.and_right_comm, inside_toNat, Bool.and_right_comm]
  congr 2
  rw [decide_eq_decide]
  omega

/-- The gates of the reconciler model are these gates. -/
theorem gates_read (parse : String → Option Int) (plan : RecordedPlan) (owner : PlanOwner)
    (origin : Option PlanOrigin) (mode : ReconciliationMode) (created : Nat)
    (changeDigest : String) (now : Nat) :
    failedRecently changeDigest now (plan.read parse owner origin mode created) =
        failedInsideWindow parse changeDigest now plan ∧
      appliedRecentlyWithoutConverging changeDigest now
          (plan.read parse owner origin mode created) =
        appliedWithoutConverging parse changeDigest now plan ∧
      retryDeferredUntilWindowExpires (plan.read parse owner origin mode created) now =
        retryDeferred parse now plan := by
  cases hstatus : plan.status with
  | none => simp [RecordedPlan.read, hstatus, failedRecently, failedInsideWindow,
      appliedRecentlyWithoutConverging, appliedWithoutConverging, retryDeferredUntilWindowExpires,
      retryDeferred]
  | some status =>
    refine ⟨?_, ?_, ?_⟩
    · simp only [RecordedPlan.read, hstatus, failedRecently, failedInsideWindow, Option.map_some,
        Option.any_some, getD_map_toNat, RecordedStatus.matchesDigest, planMatchesDigest,
        inside_toNat]
    · simp only [RecordedPlan.read, hstatus, appliedRecentlyWithoutConverging,
        appliedWithoutConverging, Option.map_some, Option.any_some, getD_map_toNat,
        RecordedStatus.matchesDigest, planMatchesDigest, inside_past_toNat]
    · simp only [RecordedPlan.read, hstatus, retryDeferredUntilWindowExpires, retryDeferred,
        Option.map_some, Option.any_some, getD_map_toNat, inside_past_toNat]
      -- an apply before the epoch is no later than a failure after it
      rw [Bool.eq_iff_iff]
      simp only [Bool.and_eq_true, decide_eq_true_iff]
      omega

end Backoff

end PgRoles.Operator

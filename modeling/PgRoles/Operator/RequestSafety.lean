import PgRoles.Operator.RequestWrites
import PgRoles.Operator.StatusTime

/-!
# Safety of access requests

In every run of a request: a later version follows an earlier one, so that a last phase, the snapshot,
the decisions and the times are never rewritten, and the access ends when its duration is over
(`history_of_run`); the snapshot was resolved under an access policy that permits its duration and,
once it is applied, without an approval or approved exactly as it is (`snapshot_of_run`); its
memberships are granted only with authority (`activation_authorised`), and revoked only after a
reconcile with that authority began to grant them (`revocation_begun`); and a request is active, or has
ended, only behind a committed transaction that left none of its memberships out (`settled_committed`).

The record of a run only grows, so the invariant is of two parts: `Recorded` is about the record, and
`Safe` adds the plans and the reconcile that runs.
-/

set_option autoImplicit false

namespace PgRoles.Operator

open Std PgRoles.Core PgRoles.Lib PgRoles.Sql

section Safety

variable {sha256 : ByteArray → String} {times : Timestamps} {request : AccessRequest}

/-! ## What a patch leaves -/

/-- What is not set is kept, and nothing is set twice. -/
theorem merge_of_patch {begun : BegunPass} {old new : RequestStatus} (hsound : Sound times old)
    (h : Patch sha256 times request begun old new) :
    (old.merge new).resolvedAccess = new.resolvedAccess ∧
      (old.merge new).activatedAt = new.activatedAt ∧
      (old.merge new).expiresAt = new.expiresAt := by
  have hself : ∀ {α : Type} (a : Option α), (a.orElse fun _ => a) = a := fun a => by
    cases a <;> rfl
  have hnone : ∀ {α : Type} (a : Option α), (a.orElse fun _ => none) = a := fun a => by
    cases a <;> rfl
  have hresolved : (old.merge new).resolvedAccess = new.resolvedAccess := by
    change (new.resolvedAccess.orElse fun _ => old.resolvedAccess) = _
    cases ho : old.resolvedAccess with
    | none => exact hnone _
    | some r => rw [h.resolved r ho]; rfl
  by_cases hwaiting : old.phase = .pending ∨ old.phase = .pendingApproval
  · obtain ⟨hactivated, hexpires⟩ := hsound.waiting hwaiting
    refine ⟨hresolved, ?_, ?_⟩
    · change (new.activatedAt.orElse fun _ => old.activatedAt) = _
      rw [hactivated]
      exact hnone _
    · change (new.expiresAt.orElse fun _ => old.expiresAt) = _
      rw [hexpires]
      exact hnone _
  · rw [not_or] at hwaiting
    refine ⟨hresolved, ?_, ?_⟩
    · change (new.activatedAt.orElse fun _ => old.activatedAt) = _
      rw [h.activatedAt hwaiting.1 hwaiting.2]
      exact hself _
    · change (new.expiresAt.orElse fun _ => old.expiresAt) = _
      rw [h.expiresAt hwaiting.1 hwaiting.2]
      exact hself _

theorem sameRecord_merge {begun : BegunPass} {old new : RequestStatus} (hsound : Sound times old)
    (h : Patch sha256 times request begun old new) : SameRecord new (old.merge new) where
  resolved := (merge_of_patch hsound h).1
  activatedAt := (merge_of_patch hsound h).2.1
  expiresAt := (merge_of_patch hsound h).2.2
  decisions := rfl

theorem Patch.sound_merge {begun : BegunPass} {old new : RequestStatus} (hsound : Sound times old)
    (h : Patch sha256 times request begun old new) : Sound times (old.merge new) :=
  (h.sound hsound).congr (sameRecord_merge hsound h) (PhaseMove.refl new.phase)

/-- A patched status follows the one it was written over. -/
theorem Patch.follows_merge {begun : BegunPass} {old new : RequestStatus}
    (hsound : Sound times old) (h : Patch sha256 times request begun old new) :
    Follows old (old.merge new) := by
  have hsame := sameRecord_merge hsound h
  have hlate : old.activatedAt ≠ none ∨ old.expiresAt ≠ none →
      old.phase ≠ .pending ∧ old.phase ≠ .pendingApproval := by
    intro hset
    rw [← not_or]
    intro hwaiting
    obtain ⟨hactivated, hexpires⟩ := hsound.waiting hwaiting
    exact hset.elim (fun hne => hne hactivated) fun hne => hne hexpires
  exact
    { phase := h.phase
      resolved := fun r hr => hsame.resolved.trans (h.resolved r hr)
      activatedAt := fun t ht => by
        obtain ⟨hpending, happroval⟩ := hlate (.inl (by rw [ht]; exact Option.some_ne_none t))
        rw [hsame.activatedAt, h.activatedAt hpending happroval, ht]
      expiresAt := fun t ht => by
        obtain ⟨hpending, happroval⟩ := hlate (.inr (by rw [ht]; exact Option.some_ne_none t))
        rw [hsame.expiresAt, h.expiresAt hpending happroval, ht]
      decisions := fun _ => h.conditions }

/-! ## The record -/

/-- Nothing that was recorded is lost. -/
structure Extends (s s' : RequestRecord) : Prop where
  history : s.history <+: s'.history
  passes : s.passes ⊆ s'.passes
  executed : s.executed ⊆ s'.executed

theorem Extends.statusAt {s s' : RequestRecord} (h : Extends s s') {version : Nat}
    (hversion : version < s.history.length) : s'.statusAt version = s.statusAt version := by
  unfold RequestRecord.statusAt
  rw [List.prefix_iff_getElem?.1 h.history version hversion, List.getElem?_eq_getElem hversion]

theorem statusAt_current (s : RequestRecord) :
    s.statusAt (s.history.length - 1) = s.current.getD {} := by
  unfold RequestRecord.statusAt RequestRecord.current
  rw [List.getLast?_eq_getElem?]

theorem exists_statusAt {s : RequestRecord} {version : Nat} (h : version < s.history.length) :
    ∃ status ∈ s.history, status.getD {} = s.statusAt version := by
  refine ⟨s.history[version], List.getElem_mem h, ?_⟩
  rw [RequestRecord.statusAt, List.getElem?_eq_getElem h, Option.join_some]

variable (sha256 times request)

/-- Some reconcile of the run had the authority to grant the bundle of this digest. -/
def BegunBundle (s : RequestRecord) (bundleHash : String) : Prop :=
  ∃ b ∈ s.passes, ∃ r,
    Authorised sha256 times request (s.statusAt b.version) b.pass r ∧ r.bundleHash = bundleHash

/-- A transaction of the operation was committed for this snapshot, and left no membership out. -/
def Committed (s : RequestRecord) (operation : ScopedPlanOperation) (r : ResolvedAccess) : Prop :=
  ∃ e ∈ s.executed, e.operation = operation ∧
    (s.statusAt e.begun.version).resolvedAccess = some r ∧
    Covers sha256 request e.begun operation r e.changes

/-- The snapshot of a status was resolved by a reconcile of the run, and is approved where it is
applied and its access policy did not approve by itself. -/
def SnapshotResolved (s : RequestRecord) (status : RequestStatus) : Prop :=
  ∀ r, status.resolvedAccess = some r → ∃ b ∈ s.passes, ∃ mode,
    ResolvedBy sha256 times request b r mode ∧
      (status.phase.started = true → mode = .automatic ∨ Approved status r)

/-- What a plan of the request stands for. -/
structure PlanSound (s : RequestRecord) (plan : StoredPlan) : Prop where
  begun : ∀ bundleHash, plan.scope = some ⟨.activate, bundleHash⟩ →
    BegunBundle sha256 times request s bundleHash
  applied : ∀ operation bundleHash, plan.scope = some ⟨operation, bundleHash⟩ →
    plan.phase = some .applied →
    ∃ r, r.bundleHash = bundleHash ∧ Committed sha256 request s operation r

/-- A status that an operation leads to stands behind its transaction. -/
def Settled (s : RequestRecord) (status : RequestStatus) : Prop :=
  ∀ operation, status.phase = settledPhase operation →
    ∃ r, status.resolvedAccess = some r ∧ Committed sha256 request s operation r

/-- What holds of the statuses, the passes and the executions of every run. -/
structure Recorded (s : RequestRecord) : Prop where
  nonempty : s.history ≠ []
  sound : ∀ status ∈ s.history, Sound times (status.getD {})
  follows : s.history.Pairwise fun old new => Follows (old.getD {}) (new.getD {})
  snapshots : ∀ status ∈ s.history, SnapshotResolved sha256 times request s (status.getD {})
  settled : ∀ status ∈ s.history, Settled sha256 request s (status.getD {})
  versions : ∀ b ∈ s.passes, b.version < s.history.length
  plans : ∀ b ∈ s.passes, ∀ p ∈ b.plans, p.toScopedPlan.controlledBy request = true →
    PlanSound sha256 times request s p
  executed : ∀ e ∈ s.executed, e.begun ∈ s.passes ∧
    PassSpec sha256 times request e.begun (s.statusAt e.begun.version)
      (.execute e.operation e.changes)

variable {sha256 times request}

section Monotone

variable {s s' : RequestRecord}

theorem BegunBundle.mono (hs : Recorded sha256 times request s) (hext : Extends s s')
    {bundleHash : String} (h : BegunBundle sha256 times request s bundleHash) :
    BegunBundle sha256 times request s' bundleHash := by
  obtain ⟨b, hb, r, hauthorised, hhash⟩ := h
  refine ⟨b, hext.passes hb, r, ?_, hhash⟩
  rwa [hext.statusAt (hs.versions b hb)]

theorem Committed.mono (hs : Recorded sha256 times request s) (hext : Extends s s')
    {operation : ScopedPlanOperation} {r : ResolvedAccess}
    (h : Committed sha256 request s operation r) : Committed sha256 request s' operation r := by
  obtain ⟨e, he, hoperation, hr, hcovers⟩ := h
  refine ⟨e, hext.executed he, hoperation, ?_, hcovers⟩
  rwa [hext.statusAt (hs.versions e.begun (hs.executed e he).1)]

theorem SnapshotResolved.mono (hext : Extends s s') {status : RequestStatus}
    (h : SnapshotResolved sha256 times request s status) :
    SnapshotResolved sha256 times request s' status := by
  intro r hr
  obtain ⟨b, hb, hresolved⟩ := h r hr
  exact ⟨b, hext.passes hb, hresolved⟩

theorem PlanSound.mono (hs : Recorded sha256 times request s) (hext : Extends s s')
    {plan : StoredPlan} (h : PlanSound sha256 times request s plan) :
    PlanSound sha256 times request s' plan where
  begun bundleHash hscope := (h.begun bundleHash hscope).mono hs hext
  applied operation bundleHash hscope hphase := by
    obtain ⟨r, hr, hcommitted⟩ := h.applied operation bundleHash hscope hphase
    exact ⟨r, hr, hcommitted.mono hs hext⟩

theorem Settled.mono (hs : Recorded sha256 times request s) (hext : Extends s s')
    {status : RequestStatus} (h : Settled sha256 request s status) :
    Settled sha256 request s' status := by
  intro operation hphase
  obtain ⟨r, hr, hcommitted⟩ := h operation hphase
  exact ⟨r, hr, hcommitted.mono hs hext⟩

end Monotone

section Append

variable {s : RequestRecord}

/-- Two versions have the same snapshot, where both have one. -/
theorem Recorded.snapshot_eq (hs : Recorded sha256 times request s) {i j : Nat}
    {r r' : ResolvedAccess} (hi : i < s.history.length) (hj : j < s.history.length)
    (hr : (s.statusAt i).resolvedAccess = some r)
    (hr' : (s.statusAt j).resolvedAccess = some r') : r = r' := by
  have hstatus : ∀ {v : Nat} (hv : v < s.history.length),
      s.statusAt v = s.history[v].getD {} := fun hv => by
    rw [RequestRecord.statusAt, List.getElem?_eq_getElem hv, Option.join_some]
  rw [hstatus hi] at hr
  rw [hstatus hj] at hr'
  rcases Nat.lt_trichotomy i j with hlt | rfl | hlt
  · have hfollows := List.pairwise_iff_getElem.1 hs.follows i j hi hj hlt
    exact Option.some.inj ((hfollows.resolved r hr).symm.trans hr')
  · exact Option.some.inj (hr.symm.trans hr')
  · have hfollows := List.pairwise_iff_getElem.1 hs.follows j i hj hi hlt
    exact Option.some.inj (hr.symm.trans (hfollows.resolved r' hr'))

theorem Recorded.follows_current (hs : Recorded sha256 times request s)
    {old : Option RequestStatus} (h : old ∈ s.history) :
    Follows (old.getD {}) (s.current.getD {}) := by
  obtain ⟨earlier, last, hlast⟩ := (List.eq_nil_or_concat' s.history).resolve_left hs.nonempty
  have hcurrent : s.current = last := by
    rw [RequestRecord.current, hlast, List.getLast?_concat, Option.join_some]
  have hpairwise := hs.follows
  rw [hlast, List.pairwise_append] at hpairwise
  rw [hlast, List.mem_append, List.mem_singleton] at h
  rw [hcurrent]
  rcases h with h | rfl
  · exact hpairwise.2.2 old h last (List.mem_singleton.2 rfl)
  · exact Follows.refl _

/-- A new version. -/
theorem Recorded.append_status (hs : Recorded sha256 times request s) {new : RequestStatus}
    (hfollows : Follows (s.current.getD {}) new) (hsound : Sound times new)
    (hsnapshot : SnapshotResolved sha256 times request s new)
    (hsettled : Settled sha256 request s new) :
    Recorded sha256 times request { s with history := s.history ++ [some new] } := by
  have hext : Extends s { s with history := s.history ++ [some new] } :=
    ⟨List.prefix_append _ _, fun _ hb => hb, fun _ he => he⟩
  have hall : ∀ {P : RequestStatus → Prop}, (∀ status ∈ s.history, P (status.getD {})) → P new →
      ∀ status ∈ s.history ++ [some new], P (status.getD {}) := by
    intro P hold hnew status hstatus
    rcases List.mem_append.1 hstatus with hstatus | hstatus
    · exact hold status hstatus
    · rw [List.mem_singleton.1 hstatus]
      exact hnew
  exact
    { nonempty := List.append_ne_nil_of_right_ne_nil _ (List.cons_ne_nil _ _)
      sound := hall hs.sound hsound
      follows := by
        refine List.pairwise_append.2 ⟨hs.follows, List.pairwise_singleton _ _, ?_⟩
        intro old hold last hlast
        rw [List.mem_singleton.1 hlast]
        exact (hs.follows_current hold).trans hfollows
      snapshots := hall (fun status hstatus => (hs.snapshots status hstatus).mono hext)
        (hsnapshot.mono hext)
      settled := hall (fun status hstatus => (hs.settled status hstatus).mono hs hext)
        (hsettled.mono hs hext)
      versions := fun b hb => by
        rw [List.length_append]
        exact Nat.lt_add_right _ (hs.versions b hb)
      plans := fun b hb p hp hcontrolled => (hs.plans b hb p hp hcontrolled).mono hs hext
      executed := fun e he => by
        obtain ⟨hpass, hspec⟩ := hs.executed e he
        refine ⟨hpass, ?_⟩
        rwa [hext.statusAt (hs.versions e.begun hpass)] }

/-- A reconcile begins. -/
theorem Recorded.append_pass (hs : Recorded sha256 times request s) {b : BegunPass}
    (hversion : b.version < s.history.length)
    (hplans : ∀ p ∈ b.plans, p.toScopedPlan.controlledBy request = true →
      PlanSound sha256 times request s p) :
    Recorded sha256 times request { s with passes := s.passes ++ [b] } := by
  have hext : Extends s { s with passes := s.passes ++ [b] } :=
    ⟨List.prefix_rfl, List.subset_append_left _ _, fun _ he => he⟩
  have hall : ∀ {P : BegunPass → Prop}, (∀ b ∈ s.passes, P b) → P b →
      ∀ b' ∈ s.passes ++ [b], P b' := by
    intro P hold hnew b' hb'
    rcases List.mem_append.1 hb' with hb' | hb'
    · exact hold b' hb'
    · rw [List.mem_singleton.1 hb']
      exact hnew
  exact
    { nonempty := hs.nonempty
      sound := hs.sound
      follows := hs.follows
      snapshots := fun status hstatus => (hs.snapshots status hstatus).mono hext
      settled := fun status hstatus => (hs.settled status hstatus).mono hs hext
      versions := hall hs.versions hversion
      plans := hall
        (fun b hb p hp hcontrolled => (hs.plans b hb p hp hcontrolled).mono hs hext)
        fun p hp hcontrolled => (hplans p hp hcontrolled).mono hs hext
      executed := fun e he => (hs.executed e he).imp_left fun hpass => hext.passes hpass }

/-- A transaction commits. -/
theorem Recorded.append_executed (hs : Recorded sha256 times request s) {e : RequestExecution}
    (hpass : e.begun ∈ s.passes)
    (hspec : PassSpec sha256 times request e.begun (s.statusAt e.begun.version)
      (.execute e.operation e.changes)) :
    Recorded sha256 times request { s with executed := s.executed ++ [e] } := by
  have hext : Extends s { s with executed := s.executed ++ [e] } :=
    ⟨List.prefix_rfl, fun _ hb => hb, List.subset_append_left _ _⟩
  exact
    { nonempty := hs.nonempty
      sound := hs.sound
      follows := hs.follows
      snapshots := fun status hstatus => (hs.snapshots status hstatus).mono hext
      settled := fun status hstatus => (hs.settled status hstatus).mono hs hext
      versions := hs.versions
      plans := fun b hb p hp hcontrolled => (hs.plans b hb p hp hcontrolled).mono hs hext
      executed := fun e' he' => by
        rcases List.mem_append.1 he' with he' | he'
        · exact hs.executed e' he'
        · rw [List.mem_singleton.1 he']
          exact ⟨hpass, hspec⟩ }

end Append

/-! ## The invariant -/

variable (sha256 times request)

/-- The writes that are left to a reconcile are as it makes them, and rely on what it has committed;
a plan under the name it writes to is a plan of its operation. -/
structure Flight (s : RequestRecord) (plans : List StoredPlan) (b : BegunPass)
    (ws : List RequestWrite) : Prop where
  pass : b ∈ s.passes
  spec : ∀ w ∈ ws, PassSpec sha256 times request b (s.statusAt b.version) w
  order : ∃ operation done, Backed sha256 request b (s.statusAt b.version) operation done ws ∧
    (done = true → ∃ r, (s.statusAt b.version).resolvedAccess = some r ∧
      Committed sha256 request s operation r) ∧
    ∀ r execution, Prepared sha256 request b (s.statusAt b.version) operation r execution →
      ∀ p ∈ plans, p.toScopedPlan.controlledBy request = true → p.name = execution.plan.name →
        p.scope = some ⟨operation, r.bundleHash⟩

/-- What holds in every state of a run: of the record, of the plans and of the pass in flight. -/
structure Safe (s : RequestState) : Prop where
  recorded : Recorded sha256 times request s.toRequestRecord
  names : s.plans.Pairwise fun p q => p.name ≠ q.name
  plans : ∀ p ∈ s.plans, p.toScopedPlan.controlledBy request = true →
    PlanSound sha256 times request s.toRequestRecord p
  flight : ∀ b ws, s.inFlight = some (b, ws) →
    Flight sha256 times request s.toRequestRecord s.plans b ws

variable {sha256 times request}

/-! ## Every action keeps it -/

section Actions

variable {s s' : RequestState}

theorem safe_start : Safe sha256 times request {} where
  recorded :=
    { nonempty := List.cons_ne_nil _ _
      sound := fun status hstatus => by
        rw [List.mem_singleton.1 hstatus]
        exact
          { pending := Iff.intro (fun _ => rfl) fun _ => rfl
            waiting := fun _ => ⟨rfl, rfl⟩
            timed := .inl ⟨rfl, rfl⟩
            started := fun hno => by cases hno }
      follows := List.pairwise_singleton _ _
      snapshots := fun status hstatus r hr => by
        rw [List.mem_singleton.1 hstatus] at hr
        cases hr
      settled := fun status hstatus operation hphase => by
        rw [List.mem_singleton.1 hstatus] at hphase
        cases operation <;> cases hphase
      versions := fun b hb => absurd hb List.not_mem_nil
      plans := fun b hb => absurd hb List.not_mem_nil
      executed := fun e he => absurd he List.not_mem_nil }
  names := List.Pairwise.nil
  plans p hp := absurd hp List.not_mem_nil
  flight b ws hws := by cases hws

/-- Whatever runs is dropped. -/
theorem Safe.drop (hs : Safe sha256 times request s) :
    Safe sha256 times request { s with inFlight := none } where
  recorded := hs.recorded
  names := hs.names
  plans := hs.plans
  flight b ws hws := by cases hws

theorem Flight.mono {s s' : RequestRecord} (hs : Recorded sha256 times request s)
    (hext : Extends s s') {plans : List StoredPlan} {b : BegunPass} {ws : List RequestWrite}
    (h : Flight sha256 times request s plans b ws) :
    Flight sha256 times request s' plans b ws := by
  obtain ⟨operation, done, hbacked, hdone, hnamed⟩ := h.order
  have hstatus := hext.statusAt (hs.versions b h.pass)
  refine ⟨hext.passes h.pass, fun w hw => ?_, operation, done, ?_, fun hyes => ?_, ?_⟩
  · rw [hstatus]
    exact h.spec w hw
  · rwa [hstatus]
  · obtain ⟨r, hr, hcommitted⟩ := hdone hyes
    rw [hstatus]
    exact ⟨r, hr, hcommitted.mono hs hext⟩
  · rwa [hstatus]

/-- The plans change, and none of the request's is new. -/
theorem Safe.with_plans (hs : Safe sha256 times request s) {plans : List StoredPlan}
    (hnames : plans.Pairwise fun p q => p.name ≠ q.name)
    (hold : ∀ p ∈ plans, p.toScopedPlan.controlledBy request = true → p ∈ s.plans) :
    Safe sha256 times request { s with plans := plans } where
  recorded := hs.recorded
  names := hnames
  plans p hp hcontrolled := hs.plans p (hold p hp hcontrolled) hcontrolled
  flight b ws hws := by
    have hflight := hs.flight b ws hws
    obtain ⟨operation, done, hbacked, hdone, hnamed⟩ := hflight.order
    exact ⟨hflight.pass, hflight.spec, operation, done, hbacked, hdone,
      fun r execution hprepared p hp hcontrolled =>
        hnamed r execution hprepared p (hold p hp hcontrolled) hcontrolled⟩

theorem pairwise_names_concat {plans : List StoredPlan} {plan : StoredPlan}
    (h : plans.Pairwise fun p q => p.name ≠ q.name)
    (hnew : ¬ plans.any (fun p => p.name == plan.name) = true) :
    (plans ++ [plan]).Pairwise fun p q => p.name ≠ q.name := by
  refine List.pairwise_append.2 ⟨h, List.pairwise_singleton _ _, fun p hp q hq heq => hnew ?_⟩
  rw [List.mem_singleton.1 hq] at heq
  exact List.any_eq_true.2 ⟨p, hp, beq_iff_eq.2 heq⟩

/-! ### Versions -/

theorem Approved.of_follows {old new : RequestStatus} {r : ResolvedAccess} (h : Approved old r)
    (hfollows : Follows old new) : Approved new r := by
  refine h.congr (hfollows.decisions fun hnone => ?_)
  obtain ⟨c, hc, -⟩ := h
  rw [decisionCondition_eq (.inl rfl), hnone] at hc
  cases hc

theorem decisions_of_admits {old : Option RequestStatus} {new : RequestStatus}
    (h : admits old new = true) (hdecided : (old.getD {}).decisions ≠ []) :
    new.decisions = (old.getD {}).decisions := by
  cases old with
  | none => exact absurd rfl hdecided
  | some old =>
      simp only [admits, Option.all_some, Bool.and_eq_true, Bool.or_eq_true] at h
      obtain ⟨⟨⟨⟨-, hkept⟩, -⟩, -⟩, -⟩ := h
      rcases hkept with hempty | hsame
      · exact absurd (List.isEmpty_iff.1 hempty) hdecided
      · exact eq_of_beq hsame

/-- What is true of the current version. -/
theorem Recorded.current {s : RequestRecord} (hs : Recorded sha256 times request s) :
    Sound times (s.current.getD {}) ∧
      SnapshotResolved sha256 times request s (s.current.getD {}) ∧
      Settled sha256 request s (s.current.getD {}) := by
  obtain ⟨status, hstatus, heq⟩ :=
    exists_statusAt (Nat.sub_one_lt (List.length_pos_iff.2 hs.nonempty).ne')
  rw [statusAt_current] at heq
  rw [← heq]
  exact ⟨hs.sound status hstatus, hs.snapshots status hstatus, hs.settled status hstatus⟩

/-- A decision. -/
theorem Recorded.decide {s : RequestRecord} (hs : Recorded sha256 times request s)
    {conditions : List EphemeralAccessCondition} {decidedBy : Option DecisionActor}
    (h : admits s.current { s.current.getD {} with
      conditions := conditions, decidedBy := decidedBy } = true) :
    Recorded sha256 times request { s with history := s.history ++ [some { s.current.getD {} with
      conditions := conditions, decidedBy := decidedBy }] } := by
  obtain ⟨hsound, hsnapshot, hsettled⟩ := hs.current
  have hfollows : Follows (s.current.getD {}) { s.current.getD {} with
      conditions := conditions, decidedBy := decidedBy } :=
    { phase := EphemeralAccessRequestPhase.leadsTo_refl _
      resolved := fun r hr => hr
      activatedAt := fun t ht => ht
      expiresAt := fun t ht => ht
      decisions := decisions_of_admits h }
  refine hs.append_status hfollows ⟨hsound.pending, hsound.waiting, hsound.timed, hsound.started⟩
    (fun r hr => ?_) hsettled
  obtain ⟨b, hb, mode, hresolved, hstarted⟩ := hsnapshot r hr
  exact ⟨b, hb, mode, hresolved, fun hyes =>
    (hstarted hyes).imp_right fun happroved => happroved.of_follows hfollows⟩

theorem started_of_leadsTo {a b : EphemeralAccessRequestPhase} (h : a.leadsTo b = true)
    (hb : b.started = true) : a = .pending ∨ a = .pendingApproval ∨ a.started = true := by
  cases a <;> first
    | exact .inl rfl
    | exact .inr (.inl rfl)
    | exact .inr (.inr rfl)
    | (cases b <;> first | exact absurd hb (by decide) | exact absurd h (by decide))

/-- The snapshot of a status that a reconcile writes. -/
theorem snapshotResolved_merge {s : RequestRecord} {b : BegunPass} {old new : RequestStatus}
    (hb : b ∈ s.passes) (hsound : Sound times old)
    (hold : SnapshotResolved sha256 times request s old)
    (h : Patch sha256 times request b old new) :
    SnapshotResolved sha256 times request s (old.merge new) := by
  intro r hr
  have hfollows := h.follows_merge hsound
  rw [(merge_of_patch hsound h).1] at hr
  cases hnone : old.resolvedAccess with
  | none =>
      obtain ⟨mode, hresolved, hautomatic⟩ := h.origin r hnone hr
      exact ⟨b, hb, mode, hresolved, fun hstarted => .inl (hautomatic hstarted)⟩
  | some r' =>
      have hsame : r' = r := Option.some.inj ((h.resolved r' hnone).symm.trans hr)
      subst hsame
      obtain ⟨b', hb', mode, hresolved, happroved⟩ := hold r' hnone
      refine ⟨b', hb', mode, hresolved, fun hstarted => ?_⟩
      rcases started_of_leadsTo h.phase hstarted with hpending | hwaiting | hold
      · rw [hsound.pending.1 hpending] at hnone
        cases hnone
      · obtain ⟨r'', hr'', hattested⟩ := h.approved hwaiting hstarted
        rw [hnone] at hr''
        cases hr''
        exact .inr (hattested.of_follows hfollows)
      · exact (happroved hold).imp_right fun happroved => happroved.of_follows hfollows

/-- A reconcile that goes on behind its transaction has committed it, now or before. -/
theorem committed_of_backed {s : RequestRecord} (hs : Recorded sha256 times request s)
    {b : BegunPass} (hb : b ∈ s.passes) {operation : ScopedPlanOperation} {done : Bool}
    (hdone : done = true → ∃ r, (s.statusAt b.version).resolvedAccess = some r ∧
      Committed sha256 request s operation r)
    (h : done = true ∨ ∃ r execution plan,
      Prepared sha256 request b (s.statusAt b.version) operation r execution ∧
        execution.existing = some plan ∧ plan.phase = some .applied) :
    ∃ r, (s.statusAt b.version).resolvedAccess = some r ∧
      Committed sha256 request s operation r := by
  rcases h with hyes | ⟨r, execution, plan, ⟨hr, hprepare⟩, hexisting, hphase⟩
  · exact hdone hyes
  · obtain ⟨target, identity, hplan⟩ := (preparedSpec_prepareScoped hprepare).existing
    obtain ⟨hfound, hvalid⟩ := existingScopedPlan_eq_ok hplan
    obtain ⟨hcontrolled, hscope⟩ := hvalid plan hexisting
    rw [hexisting] at hfound
    obtain ⟨r', hhash, hcommitted⟩ :=
      (hs.plans b hb plan (List.mem_of_find?_eq_some hfound) hcontrolled).applied operation _ hscope
        hphase
    obtain ⟨e, he, -, hr', -⟩ := id hcommitted
    have hsame := hs.snapshot_eq (hs.versions e.begun (hs.executed e he).1) (hs.versions b hb) hr' hr
    rw [hsame] at hcommitted
    exact ⟨r, hr, hcommitted⟩

/-- A status that a reconcile writes. -/
theorem Recorded.patch {s : RequestRecord} (hs : Recorded sha256 times request s) {b : BegunPass}
    {new : RequestStatus} (hb : b ∈ s.passes) (hversion : b.version + 1 = s.history.length)
    (h : Patch sha256 times request b (s.statusAt b.version) new)
    (hsettled : ∀ operation, new.phase = settledPhase operation →
      (s.statusAt b.version).phase ≠ new.phase →
      ∃ r, (s.statusAt b.version).resolvedAccess = some r ∧
        Committed sha256 request s operation r) :
    Recorded sha256 times request
      { s with history := s.history ++ [some ((s.current.getD {}).merge new)] } := by
  obtain ⟨hsound, hsnapshot, hbefore⟩ := hs.current
  have hcurrent : s.statusAt b.version = s.current.getD {} := by
    rw [← statusAt_current, ← hversion, Nat.add_sub_cancel]
  rw [hcurrent] at h hsettled
  have hfollows := h.follows_merge hsound
  refine hs.append_status hfollows (h.sound_merge hsound)
    (snapshotResolved_merge hb hsound hsnapshot h) fun operation hphase => ?_
  have hstood : ∃ r, (s.current.getD {}).resolvedAccess = some r ∧
      Committed sha256 request s operation r := by
    by_cases hsame : (s.current.getD {}).phase = new.phase
    · exact hbefore operation (hsame.trans hphase)
    · exact hsettled operation hphase hsame
  exact hstood.imp fun r hr => ⟨hfollows.resolved r hr.1, hr.2⟩

/-! ### The writes of the reconcile that runs -/

variable {b : BegunPass} {ws : List RequestWrite}

/-- The operation of a reconcile that runs, for the rest of its writes. -/
theorem Flight.tail {w : RequestWrite} {record : RequestRecord} {plans plans' : List StoredPlan}
    (hflight : Flight sha256 times request record plans b (w :: ws))
    (horder : ∃ operation done,
      Backed sha256 request b (record.statusAt b.version) operation done ws ∧
      (done = true → ∃ r, (record.statusAt b.version).resolvedAccess = some r ∧
        Committed sha256 request record operation r) ∧
      ∀ r execution, Prepared sha256 request b (record.statusAt b.version) operation r execution →
        ∀ p ∈ plans', p.toScopedPlan.controlledBy request = true → p.name = execution.plan.name →
          p.scope = some ⟨operation, r.bundleHash⟩) :
    Flight sha256 times request record plans' b ws where
  pass := hflight.pass
  spec w hw := hflight.spec w (List.mem_cons_of_mem _ hw)
  order := horder

/-- Creating a plan keeps the state safe. -/
theorem Safe.createPlan {plan : StoredPlan} (hs : Safe sha256 times request s)
    (hflight : s.inFlight = some (b, .createPlan plan :: ws))
    (hnew : ¬ s.plans.any (fun p => p.name == plan.name) = true) :
    Safe sha256 times request
      { s with plans := s.plans ++ [plan], inFlight := some (b, ws) } := by
  have hrunning := hs.flight b _ hflight
  obtain ⟨operation, done, ⟨⟨r, execution, hprepared, hplan⟩, hbacked⟩, hdone, hnamed⟩ :=
    hrunning.order
  have hspec := preparedSpec_prepareScoped hprepared.2
  refine
    { recorded := hs.recorded
      names := pairwise_names_concat hs.names hnew
      plans := fun p hp hcontrolled => ?_
      flight := fun b' ws' hws => ?_ }
  · rcases List.mem_append.1 hp with hp | hp
    · exact hs.plans p hp hcontrolled
    · rw [List.mem_singleton.1 hp]
      refine ⟨fun bundleHash hscope => ?_, fun operation' bundleHash hscope hphase => ?_⟩
      · obtain ⟨r', operation', hscope', hauthority⟩ := hrunning.spec _ List.mem_cons_self
        rw [hscope] at hscope'
        cases hscope'
        exact ⟨b, hrunning.pass, r', hauthority rfl, rfl⟩
      · rw [hplan, hspec.phase] at hphase
        cases hphase
  · cases hws
    refine hrunning.tail ⟨operation, done, hbacked, hdone, fun r' execution' hprepared' p hp => ?_⟩
    rcases List.mem_append.1 hp with hp | hp
    · exact hnamed r' execution' hprepared' p hp
    · intro _ _
      obtain ⟨hr, hprepare⟩ := hprepared
      obtain ⟨hr', hprepare'⟩ := hprepared'
      rw [hr] at hr'
      cases hr'
      rw [List.mem_singleton.1 hp, hplan]
      exact hspec.scope

/-- Marking a plan's phase keeps the state safe. -/
theorem Safe.planPhase {name : String} {phase : PlanPhase} (hs : Safe sha256 times request s)
    (hflight : s.inFlight = some (b, .planPhase name phase :: ws)) :
    Safe sha256 times request
      { s with
        plans := s.plans.map fun p => if p.name = name then { p with phase := some phase } else p
        inFlight := some (b, ws) } := by
  have hrunning := hs.flight b _ hflight
  obtain ⟨operation, done, ⟨happlied, hbacked⟩, hdone, hnamed⟩ := hrunning.order
  have hold : ∀ p ∈ s.plans.map (fun p => if p.name = name then { p with phase := some phase } else p),
      ∃ q ∈ s.plans, p.name = q.name ∧ p.scope = q.scope ∧
        p.toScopedPlan.controlledBy request = q.toScopedPlan.controlledBy request ∧
        (p = q ∨ q.name = name ∧ p.phase = some phase) := by
    intro p hp
    obtain ⟨q, hq, rfl⟩ := List.mem_map.1 hp
    refine ⟨q, hq, ?_⟩
    by_cases hname : q.name = name
    · rw [if_pos hname]
      exact ⟨rfl, rfl, rfl, .inr ⟨hname, rfl⟩⟩
    · rw [if_neg hname]
      exact ⟨rfl, rfl, rfl, .inl rfl⟩
  refine
    { recorded := hs.recorded
      names := ?_
      plans := fun p hp hcontrolled => ?_
      flight := fun b' ws' hws => ?_ }
  · refine List.pairwise_map.2 (hs.names.imp fun hne => ?_)
    split_ifs <;> exact hne
  · obtain ⟨q, hq, -, hscope, hcontrols, heq⟩ := hold p hp
    rw [hcontrols] at hcontrolled
    have hsound := hs.plans q hq hcontrolled
    rcases heq with rfl | ⟨hname, hphase⟩
    · exact hsound
    · refine ⟨fun bundleHash hactivate => hsound.begun bundleHash (hscope.symm.trans hactivate),
        fun operation' bundleHash hscope' hphase' => ?_⟩
      rw [hphase] at hphase'
      obtain ⟨hyes, r, execution, hprepared, hplan⟩ := happlied (Option.some.inj hphase')
      obtain ⟨r', hr', hcommitted⟩ := hdone hyes
      have hsame := hnamed r execution hprepared q hq hcontrolled (hname.trans hplan)
      rw [← hscope, hscope'] at hsame
      cases hsame
      rw [hprepared.1] at hr'
      cases hr'
      exact ⟨r, rfl, hcommitted⟩
  · cases hws
    refine hrunning.tail ⟨operation, done, hbacked, hdone, fun r execution hprepared p hp => ?_⟩
    obtain ⟨q, hq, hname, hscope, hcontrols, -⟩ := hold p hp
    rw [hcontrols, hname, hscope]
    exact hnamed r execution hprepared q hq

/-- Committing a transaction keeps the state safe. -/
theorem Safe.execute {executed : ScopedPlanOperation} {changes : List Change}
    (hs : Safe sha256 times request s)
    (hflight : s.inFlight = some (b, .execute executed changes :: ws)) :
    Safe sha256 times request
      { s with executed := s.executed ++ [⟨b, executed, changes⟩], inFlight := some (b, ws) } := by
  have hrunning := hs.flight b _ hflight
  have hspec := hrunning.spec _ List.mem_cons_self
  have hrecorded := @Recorded.append_executed sha256 times request s.toRequestRecord hs.recorded
    ⟨b, executed, changes⟩ hrunning.pass hspec
  have hext : Extends s.toRequestRecord
      { s.toRequestRecord with executed := s.executed ++ [⟨b, executed, changes⟩] } :=
    ⟨List.prefix_rfl, fun _ hb => hb, List.subset_append_left _ _⟩
  refine
    { recorded := hrecorded
      names := hs.names
      plans := fun p hp hcontrolled => (hs.plans p hp hcontrolled).mono hs.recorded hext
      flight := fun b' ws' hws => ?_ }
  cases hws
  obtain ⟨operation, done, ⟨hoperation, hbacked⟩, -, hnamed⟩ := hrunning.order
  obtain ⟨r, hr, -, hcovers, -⟩ := hspec
  subst hoperation
  exact (hrunning.mono hs.recorded hext).tail ⟨executed, true, hbacked, fun _ => ⟨r, hr, _,
    List.mem_append_right _ (List.mem_singleton.2 rfl), rfl, hr, hcovers⟩, hnamed⟩

/-- Writing the status keeps the state safe. -/
theorem Safe.patchStatus {new : RequestStatus} (hs : Safe sha256 times request s)
    (hflight : s.inFlight = some (b, .patchStatus new :: ws))
    (hversion : b.version + 1 = s.history.length) :
    Safe sha256 times request
      { s with
        history := s.history ++ [some ((s.current.getD {}).merge new)]
        inFlight := some (b, ws) } := by
  have hrunning := hs.flight b _ hflight
  obtain ⟨operation, done, ⟨hsettled, hbacked⟩, hdone, hnamed⟩ := hrunning.order
  have hrecorded := hs.recorded.patch hrunning.pass hversion (hrunning.spec _ List.mem_cons_self)
    fun settled hphase hne => by
      obtain ⟨rfl, hbehind⟩ := hsettled settled hphase hne
      exact committed_of_backed hs.recorded hrunning.pass hdone hbehind
  have hext : Extends s.toRequestRecord { s.toRequestRecord with
      history := s.history ++ [some ((s.current.getD {}).merge new)] } :=
    ⟨List.prefix_append _ _, fun _ hb => hb, fun _ he => he⟩
  refine
    { recorded := hrecorded
      names := hs.names
      plans := fun p hp hcontrolled => (hs.plans p hp hcontrolled).mono hs.recorded hext
      flight := fun b' ws' hws => ?_ }
  cases hws
  have hbefore : Flight sha256 times request s.toRequestRecord s.plans b ws :=
    hrunning.tail ⟨operation, done, hbacked, hdone, hnamed⟩
  exact hbefore.mono hs.recorded hext

/-- Beginning a pass keeps the state safe. -/
theorem Safe.begin {pass : RequestPass} {version : Nat} {cleanup : Bool}
    (hs : Safe sha256 times request s) (hversion : version < s.history.length) :
    Safe sha256 times request
      { s with
        passes := s.passes ++ [⟨version, pass, s.plans, cleanup⟩]
        inFlight := some (⟨version, pass, s.plans, cleanup⟩,
          BegunPass.writes sha256 times request ⟨version, pass, s.plans, cleanup⟩
            (s.statusAt version)) } := by
  have hext : Extends s.toRequestRecord { s.toRequestRecord with
      passes := s.passes ++ [⟨version, pass, s.plans, cleanup⟩] } :=
    ⟨List.prefix_rfl, List.subset_append_left _ _, fun _ he => he⟩
  refine
    { recorded := hs.recorded.append_pass hversion hs.plans
      names := hs.names
      plans := fun p hp hcontrolled => (hs.plans p hp hcontrolled).mono hs.recorded hext
      flight := fun b' ws' hws => ?_ }
  cases hws
  obtain ⟨status, hstatus, heq⟩ := exists_statusAt hversion
  have hsound : Sound times (s.statusAt version) := heq ▸ hs.recorded.sound status hstatus
  obtain ⟨operation, hbacked⟩ := @backed_writes sha256 times request
    ⟨version, pass, s.plans, cleanup⟩ (s.statusAt version)
  refine ⟨List.mem_append_right _ (List.mem_singleton.2 rfl),
    fun w hw => passSpec_writes hsound hw, operation, false, hbacked, fun hno => (by cases hno), ?_⟩
  -- the name of a plan is looked up among the plans that were read, where it is unique
  intro r execution hprepared p hp hcontrolled hname
  obtain ⟨target, identity, hexisting⟩ := (preparedSpec_prepareScoped hprepared.2).existing
  obtain ⟨hfound, hvalid⟩ := existingScopedPlan_eq_ok hexisting
  cases hplan : execution.existing with
  | none =>
      rw [hplan, List.find?_eq_none] at hfound
      exact absurd (beq_iff_eq.2 hname) (hfound p hp)
  | some plan =>
      rw [hplan] at hfound
      have hsame : plan = p := by
        by_contra hne
        have hnames := List.find?_some hfound
        rw [beq_iff_eq] at hnames
        have : Std.Symm fun p q : StoredPlan => p.name ≠ q.name := ⟨fun _ _ h => h.symm⟩
        exact hs.names.forall (List.mem_of_find?_eq_some hfound) hp hne (hnames.trans hname.symm)
      rw [← hsame]
      exact (hvalid plan hplan).2

/-- Every action, whoever takes it. -/
theorem Safe.step {a : RequestAction} (hs : Safe sha256 times request s)
    (h : requestStep sha256 times request s a = some s') : Safe sha256 times request s' := by
  cases a with
  | decide conditions decidedBy =>
      simp only [requestStep] at h
      split_ifs at h with hadmitted
      cases h
      have hrecorded := hs.recorded.decide hadmitted.1
      have hext : Extends s.toRequestRecord { s.toRequestRecord with
          history := s.history ++ [some { s.current.getD {} with
            conditions := conditions, decidedBy := decidedBy }] } :=
        ⟨List.prefix_append _ _, fun _ hb => hb, fun _ he => he⟩
      exact
        { recorded := hrecorded
          names := hs.names
          plans := fun p hp hcontrolled => (hs.plans p hp hcontrolled).mono hs.recorded hext
          flight := fun b ws hws => (hs.flight b ws hws).mono hs.recorded hext }
  | begin pass version cleanup =>
      simp only [requestStep] at h
      split_ifs at h with hidle
      cases h
      rw [not_or, Nat.not_le] at hidle
      exact hs.begin hidle.2
  | advance =>
      simp only [requestStep] at h
      split at h
      · cases h
      · cases h
        exact hs.drop
      · rename_i b w ws hflight
        split at h
        · cases h
          exact hs.drop
        · rename_i next hnext
          cases h
          cases w with
          | createPlan plan =>
              simp only [RequestState.applyWrite] at hnext
              split_ifs at hnext with hnew
              cases hnext
              exact hs.createPlan hflight hnew
          | planPhase name phase =>
              simp only [RequestState.applyWrite] at hnext
              split_ifs at hnext
              cases hnext
              exact hs.planPhase hflight
          | execute operation changes =>
              cases hnext
              exact hs.execute hflight
          | patchStatus new =>
              simp only [RequestState.applyWrite] at hnext
              split_ifs at hnext with hadmitted
              cases hnext
              exact hs.patchStatus hflight hadmitted.1
  | crash =>
      cases h
      exact hs.drop
  | deletePlan name =>
      cases h
      exact hs.with_plans (hs.names.filter _) fun p hp _ => List.mem_of_mem_filter hp
  | otherPlan plan =>
      simp only [requestStep] at h
      split_ifs at h with hother
      cases h
      rw [not_or, Bool.not_eq_true] at hother
      refine hs.with_plans (pairwise_names_concat hs.names hother.2) fun p hp hcontrolled => ?_
      refine (List.mem_append.1 hp).resolve_right fun hnew => ?_
      rw [List.mem_singleton.1 hnew, hother.1] at hcontrolled
      cases hcontrolled

/-- The invariant holds in every run. -/
theorem safe_of_run {s : RequestState} (h : RequestRun sha256 times request s) :
    Safe sha256 times request s := by
  induction h with
  | start => exact safe_start
  | step _ next ih => exact ih.step next

end Actions

end Safety

/-! ## A request that is approved, granted and revoked -/

/-- Times are written in whole seconds, up to the last year that is written with four digits. -/
def rfc3339Timestamps : Timestamps where
  fromSecond secs :=
    if (daysToDate (secs / 86400)).1 ≤ 9999 then .ok (formatRfc3339 secs)
    else .error (.invalid "invalid timestamp")
  parse text := (parseRfc3339ToEpochSecs text).join

theorem readsBack_rfc3339Timestamps : rfc3339Timestamps.ReadsBack := by
  intro secs text h
  simp only [rfc3339Timestamps] at h ⊢
  split_ifs at h with hyear
  cases h
  rw [parseRfc3339_formatRfc3339 hyear]
  rfl

/-- `alice` asks for `app`. -/
def breakglassRequest : AccessRequest where
  name := "deploy"
  ns := some "default"
  uid := some "0f8c2d41-77aa"
  accessPolicyRef := "breakglass"
  subject := "alice"

/-- An access policy for one role, for an hour at most. -/
def breakglassPolicy : AccessPolicy where
  uid := some "access"
  generation := some 1
  postgresPolicyRef := "app-db"
  memberships := [⟨"app", false⟩]
  maximumDuration := "1h"
  defaultDuration := some "30m"
  status := some (some 1, [{ conditionType := "Accepted", status := "True" },
    { conditionType := "ResolvedRefs", status := "True" }])

/-- The policy that manages the role. -/
def breakglassTarget : TargetPolicy where
  name := "app-db"
  uid := some "policy"
  generation := some 1
  content := { roles := [{ name := "alice" }, { name := "app" }] }

/-- A cluster in which both are found. -/
def breakglassReads : ResolutionReads where
  accessPolicy _ := .ok breakglassPolicy
  target _ := .ok breakglassTarget
  fingerprint _ := .ok "fingerprint"

/-- A reconcile at a time, with these memberships in the database. -/
def breakglassPass (memberships : List MembershipEdge) (secs : Nat) : RequestPass where
  resolution := breakglassReads
  execution :=
    { policies := breakglassReads
      databaseIdentity := fun _ => "default/app-db"
      locked := .ok ()
      requests := .ok []
      calls := ⟨fun _ _ _ => .ok (), .ok ()⟩
      current := .ok (appGraph memberships)
      sqlContext := .ok {} }
  resolveNow := secs
  checkNow := secs
  activateNow := secs
  now := formatRfc3339 secs

/-- The operator's conditions, and the approval of the bundle for thirty minutes. -/
def breakglassDecision : List EphemeralAccessCondition :=
  [accessCondition "Resolved" true "AccessPolicyResolved" "Immutable access bundle resolved"
      "2026-01-01T00:00:00Z",
    accessCondition "Ready" true "Resolved" "Request is ready to progress" "2026-01-01T00:00:00Z",
    { conditionType := "Approved"
      status := "True"
      bundleHash := some ("sha256:" ++ appBundleDigest)
      grantedDuration := some "1800s" }]

/-- A reconcile of a version that runs to its end. -/
def reconcileActions (pass : RequestPass) (version writes : Nat) : List RequestAction :=
  .begin pass version false :: List.replicate (writes + 1) .advance

/-- Resolved, approved, applied, active, and revoked after thirty minutes. -/
def breakglassActions : List RequestAction :=
  reconcileActions (breakglassPass [] 1767225600) 0 1 ++
    .decide breakglassDecision (some { username := "reviewer" }) ::
    (reconcileActions (breakglassPass [] 1767225660) 2 1 ++
      reconcileActions (breakglassPass [] 1767225661) 3 5 ++
      reconcileActions (breakglassPass [⟨"app", "alice", false, false⟩] 1767227460) 4 1 ++
      reconcileActions (breakglassPass [⟨"app", "alice", false, false⟩] 1767227461) 5 5)

theorem requestRun_of_foldlM {sha256 : ByteArray → String} {times : Timestamps}
    {request : AccessRequest} {actions : List RequestAction} {s s' : RequestState}
    (hs : RequestRun sha256 times request s)
    (h : actions.foldlM (requestStep sha256 times request) s = some s') :
    RequestRun sha256 times request s' := by
  induction actions generalizing s with
  | nil =>
      cases h
      exact hs
  | cons a actions ih =>
      rw [List.foldlM_cons] at h
      obtain ⟨next, hnext, h⟩ := Option.bind_eq_some_iff.1 h
      exact ih (hs.step hnext) h

/-- The last version is the seventh, and there are two transactions. -/
theorem exists_breakglassRun : ∃ s,
    RequestRun (fun _ => appBundleDigest) rfc3339Timestamps breakglassRequest s ∧
      s.history.map (fun status => (status.getD {}).phase) =
        [.pending, .pendingApproval, .pendingApproval, .applying, .active, .revoking, .ended] ∧
      s.executed.map (·.operation) = [.activate, .revoke] := by
  have hrun : (breakglassActions.foldlM
      (requestStep (fun _ => appBundleDigest) rfc3339Timestamps breakglassRequest) {}).any
      (fun s => decide (s.history.map (fun status => (status.getD {}).phase) =
          [.pending, .pendingApproval, .pendingApproval, .applying, .active, .revoking, .ended] ∧
        s.executed.map (·.operation) = [.activate, .revoke])) = true := by
    decide +kernel
  obtain ⟨s, hs, hspec⟩ := (Option.any_eq_true _ _).1 hrun
  exact ⟨s, requestRun_of_foldlM .start hs, of_decide_eq_true hspec⟩

/-! ## What is true of every run -/

section Run

variable {sha256 : ByteArray → String} {times : Timestamps} {request : AccessRequest}
  {s : RequestState}

/-- A later version keeps the snapshot, the decisions, the times and a last phase of an earlier one,
and where time runs it runs for the duration of the snapshot. -/
theorem history_of_run (h : RequestRun sha256 times request s) :
    (s.history.Pairwise fun old new => Follows (old.getD {}) (new.getD {}) ∧
      ((old.getD {}).phase.isTerminal = true → (new.getD {}).phase = (old.getD {}).phase)) ∧
    ∀ status ∈ s.history, Sound times (status.getD {}) := by
  have hs := (safe_of_run h).recorded
  refine ⟨hs.follows.imp fun hfollows => ⟨hfollows, fun hterminal => ?_⟩, hs.sound⟩
  exact EphemeralAccessRequestPhase.eq_of_leadsTo_of_isTerminal hfollows.phase hterminal

theorem breakglass_history : ∃ s : RequestState,
    s.history.map (fun status => (status.getD {}).phase) =
      [.pending, .pendingApproval, .pendingApproval, .applying, .active, .revoking, .ended] ∧
    (s.history.Pairwise fun old new => Follows (old.getD {}) (new.getD {}) ∧
      ((old.getD {}).phase.isTerminal = true → (new.getD {}).phase = (old.getD {}).phase)) ∧
    ∀ status ∈ s.history, Sound rfc3339Timestamps (status.getD {}) := by
  obtain ⟨s, hrun, hhistory, -⟩ := exists_breakglassRun
  exact ⟨s, hhistory, history_of_run hrun⟩

/-- The snapshot of a version is what some reconcile of the run resolved the request to: the bundle of
an accepted access policy, whose target executes, neither of them suspended, for a duration the policy
permits. Once it is applied, the policy approves by itself or the snapshot is approved as it is. -/
theorem snapshot_of_run (h : RequestRun sha256 times request s) {version : Option RequestStatus}
    (hversion : version ∈ s.history) {r : ResolvedAccess}
    (hr : (version.getD {}).resolvedAccess = some r) :
    ∃ b ∈ s.passes, ∃ (resolution : Resolution) (policy : AccessPolicy) (target : TargetPolicy)
      (granted : Nat), resolution.MadeOf sha256 b.pass.resolution request policy target granted ∧
      resolution.resolved = r ∧ resolution.suspended = false ∧
      r.hasValidBundleHash sha256 = true ∧
      ((version.getD {}).phase.started = true →
        policy.approvalMode = .automatic ∨ Approved (version.getD {}) r) := by
  have hs := (safe_of_run h).recorded
  obtain ⟨b, hb, mode, ⟨deadline, resolution, hresolve, hresolved, hmode, hrunning⟩, hstarted⟩ :=
    hs.snapshots version hversion r hr
  obtain ⟨policy, target, granted, hmade⟩ := madeOf_resolveRequest hresolve
  refine ⟨b, hb, resolution, policy, target, granted, hmade, hresolved, hrunning, ?_, ?_⟩
  · obtain ⟨fingerprint, hbundle⟩ := hmade.bundle
    rw [← hresolved, hbundle]
    exact hasValidBundleHash_resolvedBundle sha256 request policy target granted fingerprint
  · rw [← hmade.mode, hmode]
    exact hstarted

/-- Its snapshot is the one that a pass resolved. -/
theorem breakglass_snapshot : ∃ s : RequestState, ∃ version ∈ s.history,
    (version.getD {}).phase = .ended ∧ ∃ r, (version.getD {}).resolvedAccess = some r ∧
      ∃ b ∈ s.passes, ∃ (resolution : Resolution) (policy : AccessPolicy) (target : TargetPolicy)
        (granted : Nat), resolution.MadeOf (fun _ => appBundleDigest) b.pass.resolution
          breakglassRequest policy target granted ∧
        resolution.resolved = r ∧ resolution.suspended = false ∧
        r.hasValidBundleHash (fun _ => appBundleDigest) = true ∧
        ((version.getD {}).phase.started = true →
          policy.approvalMode = .automatic ∨ Approved (version.getD {}) r) := by
  obtain ⟨s, hrun, hhistory, -⟩ := exists_breakglassRun
  obtain ⟨version, hversion, hphase⟩ : ∃ version ∈ s.history,
      (version.getD {}).phase = .ended := by
    rw [← List.mem_map, hhistory]
    decide
  have hsound := (safe_of_run hrun).recorded.sound version hversion
  obtain ⟨r, -, -, -, -, hr, -⟩ := hsound.started (by rw [hphase]; rfl)
  exact ⟨s, version, hversion, hphase, r, hr, snapshot_of_run hrun hversion hr⟩

/-- Memberships are granted only by a reconcile with authority, only those of the bundle, without the
admin option, and before the access is over. -/
theorem activation_authorised (h : RequestRun sha256 times request s) (hreads : times.ReadsBack)
    {e : RequestExecution} (he : e ∈ s.executed) (hactivate : e.operation = .activate) :
    ∃ r, Authorised sha256 times request (s.statusAt e.begun.version) e.begun.pass r ∧
      Scoped .activate r e.changes ∧ ∃ start granted activatedAt,
        parseDuration r.grantedDuration = .ok granted ∧
        times.fromSecond start = .ok activatedAt ∧
        (s.statusAt e.begun.version).activatedAt = some activatedAt ∧
        e.begun.pass.checkNow < start + granted := by
  have hs := (safe_of_run h).recorded
  obtain ⟨hpass, r, hr, hscoped, -, hauthorised⟩ := hs.executed e he
  rw [hactivate] at hscoped hauthorised
  refine ⟨r, hauthorised, hscoped, ?_⟩
  obtain ⟨status, hstatus, heq⟩ := exists_statusAt (hs.versions e.begun hpass)
  have hsound := hs.sound status hstatus
  rw [heq] at hsound
  obtain ⟨r', start, granted, activatedAt, expiresAt, hr', hgranted, hactivated, hexpires, ha, hx⟩ :=
    hsound.started (by rw [hauthorised.applying]; rfl)
  rw [hr] at hr'
  cases hr'
  obtain ⟨text, secs, htext, hsecs, hlate⟩ := hauthorised.inTime
  rw [hx] at htext
  cases htext
  rw [hreads _ _ hexpires] at hsecs
  cases hsecs
  exact ⟨start, granted, activatedAt, hgranted, hactivated, ha, hlate⟩

theorem breakglass_activation : ∃ s : RequestState, ∃ e ∈ s.executed, e.operation = .activate ∧
    ∃ r, Authorised (fun _ => appBundleDigest) rfc3339Timestamps breakglassRequest
        (s.statusAt e.begun.version) e.begun.pass r ∧
      Scoped .activate r e.changes ∧ ∃ start granted activatedAt,
        parseDuration r.grantedDuration = .ok granted ∧
        rfc3339Timestamps.fromSecond start = .ok activatedAt ∧
        (s.statusAt e.begun.version).activatedAt = some activatedAt ∧
        e.begun.pass.checkNow < start + granted := by
  obtain ⟨s, hrun, -, hexecuted⟩ := exists_breakglassRun
  obtain ⟨e, he, hactivate⟩ : ∃ e ∈ s.executed, e.operation = .activate := by
    rw [← List.mem_map, hexecuted]
    decide
  exact ⟨s, e, he, hactivate,
    activation_authorised hrun readsBack_rfc3339Timestamps he hactivate⟩

theorem exists_plan_of_activationBegun {plans : List StoredPlan} {r : ResolvedAccess}
    (h : activationBegun request plans r = true) :
    ∃ plan ∈ plans, plan.toScopedPlan.controlledBy request = true ∧
      plan.scope = some ⟨.activate, r.bundleHash⟩ := by
  obtain ⟨plan, hplan, hshows⟩ := List.any_eq_true.1 h
  simp only [planAuthorizesActivation, Bool.and_eq_true] at hshows
  obtain ⟨⟨⟨howned, -⟩, hscope⟩, -⟩ := hshows
  obtain ⟨scope, hsome, hmatches⟩ := (Option.any_eq_true _ _).1 hscope
  rw [Bool.and_eq_true, beq_iff_eq, beq_iff_eq] at hmatches
  obtain ⟨hoperation, hhash⟩ := hmatches
  refine ⟨plan, hplan, ?_, hsome.trans (congrArg some ?_)⟩
  · obtain ⟨owners, howners, hany⟩ := (Option.any_eq_true _ _).1 howned
    rw [ScopedPlan.controlledBy, howners]
    exact hany
  · rw [← hoperation, ← hhash]

/-- Memberships are revoked only if they are of the bundle, and only after some reconcile of the run
had the authority to grant that bundle. -/
theorem revocation_begun (h : RequestRun sha256 times request s) {e : RequestExecution}
    (he : e ∈ s.executed) (hrevoke : e.operation = .revoke) :
    ∃ r, (s.statusAt e.begun.version).resolvedAccess = some r ∧ Scoped .revoke r e.changes ∧
      ∃ b ∈ s.passes, Authorised sha256 times request (s.statusAt b.version) b.pass r := by
  have hs := (safe_of_run h).recorded
  obtain ⟨hpass, r, hr, hscoped, -, hbegun⟩ := hs.executed e he
  rw [hrevoke] at hscoped hbegun
  obtain ⟨plan, hplan, hcontrolled, hscope⟩ := exists_plan_of_activationBegun hbegun
  obtain ⟨b, hb, r', hauthorised, -⟩ :=
    (hs.plans e.begun hpass plan hplan hcontrolled).begun _ hscope
  have hsame := hs.snapshot_eq (hs.versions b hb) (hs.versions e.begun hpass) hauthorised.snapshot hr
  rw [hsame] at hauthorised
  exact ⟨r, hr, hscoped, b, hb, hauthorised⟩

theorem breakglass_revocation : ∃ s : RequestState, ∃ e ∈ s.executed, e.operation = .revoke ∧
    ∃ r, (s.statusAt e.begun.version).resolvedAccess = some r ∧ Scoped .revoke r e.changes ∧
      ∃ b ∈ s.passes, Authorised (fun _ => appBundleDigest) rfc3339Timestamps breakglassRequest
        (s.statusAt b.version) b.pass r := by
  obtain ⟨s, hrun, -, hexecuted⟩ := exists_breakglassRun
  obtain ⟨e, he, hrevoke⟩ : ∃ e ∈ s.executed, e.operation = .revoke := by
    rw [← List.mem_map, hexecuted]
    decide
  exact ⟨s, e, he, hrevoke, revocation_begun hrun he hrevoke⟩

/-- A version that is active, or has ended, stands behind a transaction that was committed for its
snapshot: it granted, or revoked, memberships of the bundle only and left none of them out. -/
theorem settled_committed (h : RequestRun sha256 times request s) {version : Option RequestStatus}
    (hversion : version ∈ s.history) {operation : ScopedPlanOperation}
    (hphase : (version.getD {}).phase = settledPhase operation) :
    ∃ r, (version.getD {}).resolvedAccess = some r ∧ ∃ e ∈ s.executed, e.operation = operation ∧
      (s.statusAt e.begun.version).resolvedAccess = some r ∧ Scoped operation r e.changes ∧
      Covers sha256 request e.begun operation r e.changes := by
  have hs := (safe_of_run h).recorded
  obtain ⟨r, hr, e, he, hoperation, hr', hcovers⟩ := hs.settled version hversion operation hphase
  obtain ⟨-, r'', hr'', hscoped, -⟩ := hs.executed e he
  rw [hr'] at hr''
  cases hr''
  rw [hoperation] at hscoped
  exact ⟨r, hr, e, he, hoperation, hr', hscoped, hcovers⟩

theorem breakglass_settled : ∃ s : RequestState, ∃ version ∈ s.history,
    (version.getD {}).phase = .ended ∧ ∃ r, (version.getD {}).resolvedAccess = some r ∧
      ∃ e ∈ s.executed, e.operation = .revoke ∧
        (s.statusAt e.begun.version).resolvedAccess = some r ∧ Scoped .revoke r e.changes ∧
        Covers (fun _ => appBundleDigest) breakglassRequest e.begun .revoke r e.changes := by
  obtain ⟨s, hrun, hhistory, -⟩ := exists_breakglassRun
  obtain ⟨version, hversion, hphase⟩ : ∃ version ∈ s.history,
      (version.getD {}).phase = .ended := by
    rw [← List.mem_map, hhistory]
    decide
  exact ⟨s, version, hversion, hphase, settled_committed hrun hversion hphase⟩

end Run

end PgRoles.Operator

import PgRoles.Operator.Run

/-!
# The base an adopted approval was reviewed against

Recognition hands the approved plan of a candidate to the executor when the policy carries the
candidate's content. The plan is pinned to the policy content it was computed against, and the
digest the policy's status remembers stands for the content this merge replaced.

That digest is stamped by every recognition, refusals included, so a refusal is forgotten by the
next reconcile (`refusedApproval_adopted`). An adopted plan is on its base in every run where no
author merges a content over approvals pinned elsewhere, and no reviewer approves a plan pinned
elsewhere once its content is merged (`handedOver_onBase`).
-/

set_option autoImplicit false

namespace PgRoles.Operator

open PgRoles.Core PgRoles.Lib

variable (hash : ByteArray → String)

/-! ## The condition -/

/-- The plan belongs to an open candidate that holds the content. -/
def holdsContent (s : Cluster) (content : String) (plan : Plan) : Prop :=
  ∃ c ∈ s.candidates, c.phase.isTerminal = false ∧ c.content = content ∧
    plan.owner = .candidate c.uid

instance (s : Cluster) (content : String) (plan : Plan) :
    Decidable (holdsContent s content plan) :=
  inferInstanceAs (Decidable (∃ c ∈ s.candidates, _))

/-- The plan is pinned to the content or to the one it replaced, and the digest the status
remembers is that pin or the content. -/
def onBase (content : String) (replaced remembered : Option String) (plan : Plan) : Prop :=
  (planBasePin plan).any (fun pin =>
    (pin == content || replaced == some pin) &&
      (remembered == some pin || remembered == some content)) = true

instance (content : String) (replaced remembered : Option String) (plan : Plan) :
    Decidable (onBase content replaced remembered plan) :=
  inferInstanceAs (Decidable (_ = true))

theorem onBase_iff {content : String} {replaced remembered : Option String} {plan : Plan} :
    onBase content replaced remembered plan ↔
      ∃ pin, planBasePin plan = some pin ∧ (pin = content ∨ replaced = some pin) ∧
        (remembered = some pin ∨ remembered = some content) := by
  simp [onBase, Option.any_eq_true]

/-- A merged content meets no standing approval pinned elsewhere, and no plan pinned elsewhere is
approved once the policy carries its content. -/
def KeepsBase (s : RunState) : Action → Prop
  | .edit content _ _ _ => content ≠ s.cluster.policy.content →
      ∀ plan ∈ s.cluster.plans, holdsContent s.cluster content plan → standing plan →
        onBase content (some s.cluster.policy.content) s.cluster.policy.statusContentDigest plan
  | .decide name true _ =>
      ∀ plan ∈ s.cluster.plans, plan.name = name → plan.live = true →
        holdsContent s.cluster s.cluster.policy.content plan →
        onBase s.cluster.policy.content s.replaced s.cluster.policy.statusContentDigest plan
  | _ => True

instance (s : RunState) (a : Action) : Decidable (KeepsBase s a) := by
  unfold KeepsBase
  split <;> infer_instance

/-! ## The invariant -/

/-- The standing approvals for the policy's content are on their base. -/
def ApprovalsOnBase (s : Cluster) (replaced : Option String) : Prop :=
  ∀ plan ∈ s.plans, holdsContent s s.policy.content plan → standing plan →
    onBase s.policy.content replaced s.policy.statusContentDigest plan

/-- A write keeps the policy's content and remembers nothing but it. -/
theorem policy_apply {s : Cluster} {w : Write} (hw : Permitted s w) :
    (w.apply s).policy.content = s.policy.content ∧
      ((w.apply s).policy.statusContentDigest = s.policy.statusContentDigest ∨
        (w.apply s).policy.statusContentDigest = some s.policy.content) := by
  cases w with
  | stampContentDigest digest => exact ⟨rfl, .inr (congrArg some hw)⟩
  | _ => exact ⟨rfl, .inl rfl⟩

theorem onBase.of_remembered {content : String} {replaced remembered remembered' : Option String}
    {plan plan' : Plan} (h : onBase content replaced remembered plan)
    (hplan : plan.identity = plan'.identity)
    (hremembered : remembered' = remembered ∨ remembered' = some content) :
    onBase content replaced remembered' plan' := by
  obtain ⟨pin, hpin, hcase, hrem⟩ := onBase_iff.1 h
  have horigin : plan.origin = plan'.origin := congrArg (·.2.2) hplan
  refine onBase_iff.2 ⟨pin, ?_, hcase, ?_⟩
  · rw [planBasePin, ← horigin]
    exact hpin
  · rcases hremembered with rfl | rfl
    · exact hrem
    · exact .inr rfl

theorem ApprovalsOnBase.apply {s : Cluster} {replaced : Option String} (hnames : NodupNames s)
    (h : ApprovalsOnBase s replaced) {w : Write} (hw : Permitted s w) :
    ApprovalsOnBase (w.apply s) replaced := by
  obtain ⟨hcontent, hremembered⟩ := policy_apply hw
  intro plan hplan hholds hstanding
  rw [hcontent] at hholds ⊢
  obtain ⟨c, hc, hopen, hcc, howner⟩ := hholds
  -- Plan and candidate were there before the write, standing and open.
  obtain ⟨old, hold, hidentity, holdStanding, -⟩ :=
    (standing_of_apply hnames hw hplan hstanding).resolve_right fun hauto => by
      rw [howner] at hauto
      cases hauto.1
  obtain ⟨c₀, hc₀, hstep⟩ := candidate_of_apply hc
  have holdOwner : old.owner = .candidate c₀.uid := by
    rw [← hstep.uid_eq, ← howner]
    exact congrArg (·.2.1) hidentity
  exact (h old hold ⟨c₀, hc₀, hstep.open_of_open hopen, hstep.content_eq.symm.trans hcc, holdOwner⟩
    holdStanding).of_remembered hidentity hremembered

theorem ApprovalsOnBase.writes {s : Cluster} {replaced : Option String} {ws : List Write}
    (hs : WellNamed s) (h : ApprovalsOnBase s replaced) (hws : AllWrites Permitted s ws) :
    ApprovalsOnBase (s.writes ws) replaced := by
  have hinv : ∀ t w, WellNamed t ∧ ApprovalsOnBase t replaced → Permitted t w →
      WellNamed (w.apply t) ∧ ApprovalsOnBase (w.apply t) replaced := fun t w ht hw =>
    ⟨ht.1.apply hw, ht.2.apply ht.1.plans hw⟩
  exact (hws.invariant hinv ⟨hs, h⟩).2

theorem holdsContent.mono {s t : Cluster} {content : String} {plan : Plan}
    (h : holdsContent s content plan) (hsub : ∀ c ∈ s.candidates, c ∈ t.candidates) :
    holdsContent t content plan := by
  obtain ⟨c, hc, hcase⟩ := h
  exact ⟨c, hsub c hc, hcase⟩

/-- A step that keeps the base keeps the standing approvals on theirs. -/
theorem ApprovalsOnBase.step {s s' : RunState} {a : Action} (hs : WellNamed s.cluster)
    (h : ApprovalsOnBase s.cluster s.replaced) (hmeets : KeepsBase s a)
    (hnext : step hash s a = some s') : ApprovalsOnBase s'.cluster s'.replaced := by
  cases step_cases hash hs hnext with
  | edit content mode approval required =>
    by_cases hsame : content = s.cluster.policy.content
    · simp only [hsame, if_true]
      exact h
    · simp only [hsame, if_false]
      exact hmeets hsame
  | file name uid content replaces newCandidate noPlan =>
    intro plan hplan hholds hstanding
    obtain ⟨c, hc, hopen, hcontent, howner⟩ := hholds
    rcases List.mem_append.1 hc with hc | hc
    · exact h plan hplan ⟨c, hc, hopen, hcontent, howner⟩ hstanding
    · rw [List.mem_singleton] at hc
      rw [hc] at howner
      exact absurd howner (noPlan plan hplan)
  | decide name approve actor decided status found written undecided human =>
    intro plan hplan hholds hstanding
    obtain ⟨old, hold, hidentity, hcase⟩ :=
      standing_of_recordDecision hs.plans found written hplan hstanding
    have hholdsOld : holdsContent s.cluster s.cluster.policy.content old := by
      obtain ⟨c, hc, hopen, hcontent, howner⟩ := hholds
      exact ⟨c, hc, hopen, hcontent, (congrArg (·.2.1) hidentity).trans howner⟩
    rcases hcase with ⟨hstood, -⟩ | ⟨rfl, hname, hlive, -⟩
    · exact (h old hold hholdsOld hstood).of_remembered hidentity (.inl rfl)
    · exact (hmeets old hold hname hlive hholdsOld).of_remembered hidentity (.inl rfl)
  | deleteCandidate name =>
    intro plan hplan hholds hstanding
    exact h plan (List.mem_of_mem_filter hplan)
      (hholds.mono fun c hc => List.mem_of_mem_filter hc) hstanding
  | deletePlan name =>
    intro plan hplan hholds hstanding
    exact h plan (List.mem_of_mem_filter hplan) hholds hstanding
  | operator _ ws permitted => exact h.writes hs permitted

theorem RunsTo.approvalsOnBase {s : RunState} (run : RunsTo hash KeepsBase s) :
    ApprovalsOnBase s.cluster s.replaced := by
  induction run with
  | start policy => exact fun _ hplan => absurd hplan List.not_mem_nil
  | step run meets next ih => exact ih.step hash (run.wellNamed hash) meets next

/-! ## Recognition -/

/-- Where the approvals are on their base, no approval is refused for its base. -/
theorem ApprovalsOnBase.recognizedAction_ne_baseChanged {s : Cluster} {replaced : Option String}
    (h : ApprovalsOnBase s replaced) (hdigests : OwnDigests s) (names : List String)
    (suspended : Bool) : recognizedAction s ≠ .baseChanged names suspended := by
  intro haction
  obtain ⟨hnone, facts, hfacts, hmatches, happroved⟩ :=
    exists_of_decidePromotion_eq_baseChanged (promotionAction_eq_baseChanged haction)
  obtain ⟨c, hc, rfl⟩ := List.mem_map.1 hfacts
  have hrefused := hnone _ hfacts
  rw [adoptable, hmatches, Bool.true_and] at hrefused
  rw [CandidateFacts.matchesContent, Bool.and_eq_true, Bool.not_eq_true', beq_iff_eq] at hmatches
  -- The refused approval is a standing one, so its base is fresh.
  obtain ⟨facts, hsome⟩ := Option.isSome_iff_exists.1 happroved
  rw [hsome, Option.any_some] at hrefused
  obtain ⟨hplan, hdecided⟩ := Option.filter_eq_some_iff.1 hsome
  obtain ⟨plan, hlive, rfl⟩ := Option.map_eq_some_iff.1 hplan
  obtain ⟨hmem, howner, hlive'⟩ := mem_livePlan hlive
  have hcontent := hdigests c hc _ hmatches.2
  obtain ⟨pin, hpin, -, hremembered⟩ := onBase_iff.1 (h plan hmem
    ⟨c, hc, hmatches.1, hcontent.symm, howner⟩ ⟨hlive', by simpa using hdecided⟩)
  rw [baseIsFresh, hpin, Option.any_some, Bool.or_eq_false_iff, beq_eq_false_iff_ne,
    beq_eq_false_iff_ne] at hrefused
  rcases hremembered with hremembered | hremembered
  · exact hrefused.1 hremembered
  · exact hrefused.2 hremembered

/-- In a run whose steps keep the base, a plan that recognition hands to the executor belongs to a
candidate with the policy's content and is pinned to that content or to the one it replaced, and
no approval is refused for its base. -/
theorem handedOver_onBase {s : RunState} (run : RunsTo hash KeepsBase s) (pass : Pass) :
    (∀ plan, handedOver pass s.cluster = some plan →
      (∃ c ∈ s.cluster.candidates, c.content = s.cluster.policy.content ∧
        plan.owner = .candidate c.uid) ∧
      ∃ pin, planBasePin plan = some pin ∧
        (s.replaced = some pin ∨ pin = s.cluster.policy.content)) ∧
    ∀ names suspended,
      recognizedAction (s.cluster.writes (recoverStuckPlan s.cluster pass.now)) ≠
        .baseChanged names suspended := by
  have hs := run.wellNamed hash
  have hrecover : AllWrites Permitted s.cluster (recoverStuckPlan s.cluster pass.now) :=
    allWrites_permitted_of_quiet quiet_recoverStuckPlan
  have hbase := (run.approvalsOnBase hash).writes hs hrecover
  have hdigests := (run.ownDigests hash).writes (recoverStuckPlan s.cluster pass.now)
  obtain ⟨hpolicy, hcandidates⟩ := writes_recoverStuckPlan s.cluster pass.now
  refine ⟨fun plan hplan => ?_, fun names suspended =>
    hbase.recognizedAction_ne_baseChanged hdigests names suspended⟩
  obtain ⟨c, hc, hopen, hdigest, hmem, howner, hlive, happroved, -⟩ :=
    adoptedPlan_spec (hs.writes hrecover) (adoptedPlan_of_recognized hplan)
  have hcontent := (hdigests c hc _ hdigest).symm
  obtain ⟨pin, hpin, hcase, -⟩ := onBase_iff.1
    (hbase plan hmem ⟨c, hc, hopen, hcontent, howner⟩ ⟨hlive, happroved⟩)
  rw [hpolicy] at hcontent hcase
  rw [hcandidates] at hc
  exact ⟨⟨c, hc, hcontent, howner⟩, pin, hpin, hcase.symm⟩

/-! ## Two runs of one review -/

/-- The reviewed effect: an unused role is dropped. -/
def retireOldInputs : EffectDigestInputs where
  reconciliationMode := .authoritative
  target := "prod/db"
  targetIdentity := { logical := some "db.internal:5432/app" }
  passwordSourceVersions := ∅
  ownedRoles := ["old"]
  ownedSchemas := []

/-- The digest of dropping the role with these inputs, the only change set the runs below hash. -/
def retireOldHash (_ : ByteArray) : String :=
  "sha256:5fb89a5dbff9862d83609b64f98785cde6e3183a8a22eeb2e25520a3317f96af"

/-- A reconcile that finds these changes. -/
def retireOldPass (changes : List Change) (now : Nat) : Pass where
  changes
  inputs := retireOldInputs
  now
  planName := "policy-plan"

/-- A candidate is filed and planned against `base`, and its plan approved. -/
def reviewActions : List Action :=
  [.reconcile (retireOldPass [] 1000) 10,
    .file "retire-old" "u1" "retired" none,
    .reconcileCandidate "retire-old" .converged (.effects {
      changes := [.dropRole "old"], inputs := retireOldInputs, now := 1100,
      planName := "retire-old-plan" }) 10,
    .decide "retire-old-plan" true "alice"]

/-- A new policy that is approved manually. -/
def reviewedPolicy : RunState where
  cluster := { policy := { content := "base", approval := some .manual } }

/-- An author merges the content. -/
def merge (content : String) : Action := .edit content .apply (some .manual) false

/-- The merge of the reviewed content over its base hands over the approved plan. -/
theorem reviewedMerge_onBase : ∃ s plan, RunsTo retireOldHash KeepsBase s ∧
    handedOver (retireOldPass [.dropRole "old"] 1200) s.cluster = some plan ∧
    ∃ pin, planBasePin plan = some pin ∧
      (s.replaced = some pin ∨ pin = s.cluster.policy.content) := by
  have hrun : (runActions retireOldHash KeepsBase reviewedPolicy
      (reviewActions ++ [merge "retired"])).any (fun s =>
        (handedOver (retireOldPass [.dropRole "old"] 1200) s.cluster).isSome) = true := by
    decide +kernel
  obtain ⟨s, hs, hadopted⟩ := (Option.any_eq_true _ _).1 hrun
  obtain ⟨plan, hplan⟩ := Option.isSome_iff_exists.1 hadopted
  have run := (RunsTo.start reviewedPolicy.cluster.policy).actions retireOldHash hs
  exact ⟨s, plan, run, hplan,
    ((handedOver_onBase retireOldHash run (retireOldPass [.dropRole "old"] 1200)).1 plan hplan).2⟩

/-- Another content is merged in between. The first reconcile of the reviewed content refuses the
approval for its base; the next one hands over the plan pinned to `base`, which is neither the
content nor the one it replaced. -/
theorem refusedApproval_adopted : ∃ s s' plan, RunsTo retireOldHash (fun _ _ => True) s ∧
    recognizedAction s.cluster = .baseChanged ["retire-old"] true ∧
    step retireOldHash s (.reconcile (retireOldPass [.dropRole "old"] 1300) 10) = some s' ∧
    handedOver (retireOldPass [.dropRole "old"] 1400) s'.cluster = some plan ∧
    planBasePin plan = some "base" ∧ s'.replaced = some "other" ∧
    s'.cluster.policy.content = "retired" := by
  have hrun : (runActions retireOldHash (fun _ _ => True) reviewedPolicy
      (reviewActions ++ [merge "other", .reconcile (retireOldPass [] 1200) 10,
        merge "retired"])).any (fun s =>
      decide (recognizedAction s.cluster = .baseChanged ["retire-old"] true) &&
      (step retireOldHash s (.reconcile (retireOldPass [.dropRole "old"] 1300) 10)).any fun s' =>
        decide (s'.replaced = some "other" ∧ s'.cluster.policy.content = "retired") &&
        (handedOver (retireOldPass [.dropRole "old"] 1400) s'.cluster).any fun plan =>
          planBasePin plan = some "base") = true := by
    decide +kernel
  obtain ⟨s, hs, hrest⟩ := (Option.any_eq_true _ _).1 hrun
  rw [Bool.and_eq_true, decide_eq_true_eq] at hrest
  obtain ⟨hrefused, hrest⟩ := hrest
  obtain ⟨s', hs', hrest⟩ := (Option.any_eq_true _ _).1 hrest
  rw [Bool.and_eq_true, decide_eq_true_eq] at hrest
  obtain ⟨⟨hreplaced, hcontent⟩, hrest⟩ := hrest
  obtain ⟨plan, hplan, hpin⟩ := (Option.any_eq_true _ _).1 hrest
  exact ⟨s, s', plan, (RunsTo.start reviewedPolicy.cluster.policy).actions retireOldHash hs,
    hrefused, hs', hplan, by simpa using hpin, hreplaced, hcontent⟩

end PgRoles.Operator

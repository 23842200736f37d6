import PgRoles.Operator.Plan

/-!
# Promotion decisions

Recognising that a policy's content is a reviewed candidate, and what the operator does about it.
Everything here is a function of the facts about each candidate: the content digest recorded on
it, whether it is terminal or promoted, its live plan with the plan's approval and base pin, and
whether it owns a plan that has executed.
-/

set_option autoImplicit false

namespace PgRoles.Operator

/-- How the policy executes. `plan` is the deprecated spelling of `observe`. -/
inductive PolicyMode where
  | apply
  | observe
  | plan
  deriving DecidableEq, Repr

/-- Does the mode only plan? -/
def PolicyMode.neverExecutes : PolicyMode → Bool
  | .observe | .plan => true
  | .apply => false

/-- Who approves plans. -/
inductive ApprovalMode where
  | manual
  | auto
  deriving DecidableEq, Repr

/-- The effective approval mode, inferred from the mode when it is not set. -/
def effectiveApproval (approval : Option ApprovalMode) (mode : PolicyMode) : ApprovalMode :=
  match approval with
  | some approval => approval
  | none =>
      match mode with
      | .apply => .auto
      | .observe | .plan => .manual

/-! ## Facts -/

/-- The live plan of a candidate, and whether it carries an approval. -/
structure PlanFacts where
  name : String
  approved : Bool
  baseContentDigest : Option String
  deriving DecidableEq, Repr

/-- Everything the promotion decision needs to know about one candidate. -/
structure CandidateFacts where
  name : String
  contentDigest : Option String
  terminal : Bool
  plan : Option PlanFacts
  ownsAppliedPlan : Bool
  promoted : Bool
  deriving DecidableEq, Repr

/-- The candidate's plan, where it is approved. -/
def CandidateFacts.approvedPlan (c : CandidateFacts) : Option PlanFacts :=
  c.plan.filter (·.approved)

/-- An open candidate that holds the content. -/
def CandidateFacts.matchesContent (digest : String) (c : CandidateFacts) : Bool :=
  !c.terminal && c.contentDigest == some digest

/-! ## The decision -/

/-- What the policy's current content is, relative to the open candidates. -/
inductive Promotion where
  | none
  | approved (candidate plan : String) (superseded : List String)
  | withoutApproval (candidate : String)
  | mismatch (candidates : List String)
  | baseChanged (candidates : List String)
  deriving DecidableEq, Repr

/-- The plan was computed against the base this merge replaced, or the digest of this content is
already stamped and the promotion is being retried. A missing pin fails closed. -/
def baseIsFresh (policyDigest : String) (previousDigest : Option String) (plan : PlanFacts) :
    Bool :=
  plan.baseContentDigest.any fun pin =>
    previousDigest == some pin || previousDigest == some policyDigest

/-- The candidate holds the content and an approved plan on a fresh base. -/
def adoptable (policyDigest : String) (previousDigest : Option String) (c : CandidateFacts) :
    Bool :=
  c.matchesContent policyDigest && c.approvedPlan.any (baseIsFresh policyDigest previousDigest)

/-- Names of the open candidates with an approved plan. -/
def openApproved (candidates : List CandidateFacts) : List CandidateFacts :=
  candidates.filter fun c => !c.terminal && c.approvedPlan.isSome

/-- Decide what the policy's content means, given the open candidates. -/
def decidePromotion (policyDigest : String) (previousDigest : Option String)
    (candidates : List CandidateFacts) : Promotion :=
  match candidates.find? (adoptable policyDigest previousDigest) with
  | some matched =>
      .approved matched.name ((matched.approvedPlan.map (·.name)).getD "")
        (((openApproved candidates).filter (·.name ≠ matched.name)).map (·.name))
  | none =>
      let matched := candidates.filter (CandidateFacts.matchesContent policyDigest)
      let stale := matched.filter (·.approvedPlan.isSome)
      if !stale.isEmpty then .baseChanged (stale.map (·.name))
      else
        match matched with
        | c :: _ => .withoutApproval c.name
        | [] =>
            -- Only a content that just changed makes an open approval suspect.
            if previousDigest.any (· != policyDigest) && !(openApproved candidates).isEmpty then
              .mismatch ((openApproved candidates).map (·.name))
            else .none

/-- What the reconciler should do about a promotion in this execution mode. -/
inductive PromotionAction where
  | ignore
  | executeApprovedPlan (candidate plan : String)
  | withoutApproval (candidate : String)
  | mismatch (candidates : List String) (enforcementSuspended : Bool)
  | notExecuted (candidate : String)
  | baseChanged (candidates : List String) (enforcementSuspended : Bool)
  deriving DecidableEq, Repr

/-- Map a promotion onto an action, given how the policy executes. -/
def promotionAction (promotion : Promotion) (mode : PolicyMode) (approval : ApprovalMode) :
    PromotionAction :=
  let enforcementSuspended := !mode.neverExecutes && approval == .manual
  match promotion with
  | .none => .ignore
  | .approved candidate plan _ =>
      if mode.neverExecutes then .notExecuted candidate
      else if approval == .auto then .ignore
      else .executeApprovedPlan candidate plan
  | .withoutApproval candidate =>
      if mode.neverExecutes then .notExecuted candidate
      else if approval == .auto then .ignore
      else .withoutApproval candidate
  | .mismatch candidates => .mismatch candidates enforcementSuspended
  | .baseChanged candidates => .baseChanged candidates enforcementSuspended

/-- An approved promotion names an adoptable candidate and its plan. -/
theorem exists_of_decidePromotion_eq_approved {policyDigest : String}
    {previousDigest : Option String} {candidates : List CandidateFacts} {candidate plan : String}
    {superseded : List String}
    (h : decidePromotion policyDigest previousDigest candidates =
      .approved candidate plan superseded) :
    ∃ matched, candidates.find? (adoptable policyDigest previousDigest) = some matched ∧
      candidate = matched.name := by
  unfold decidePromotion at h
  split at h
  · rename_i matched hfind
    injection h with hname
    exact ⟨matched, hfind, hname.symm⟩
  · simp only at h
    split at h
    · cases h
    · split at h
      · cases h
      · split at h <;> cases h

/-- Only an approved promotion of a manually approved policy that executes hands over a plan. -/
theorem promotionAction_eq_executeApprovedPlan {promotion : Promotion} {mode : PolicyMode}
    {approval : ApprovalMode} {candidate plan : String}
    (h : promotionAction promotion mode approval = .executeApprovedPlan candidate plan) :
    (∃ superseded, promotion = .approved candidate plan superseded) ∧
      mode.neverExecutes = false ∧ approval = .manual := by
  unfold promotionAction at h
  cases promotion with
  | approved c p superseded =>
    simp only at h
    split_ifs at h with hnever hauto
    injection h with hc hp
    subst hc hp
    exact ⟨⟨superseded, rfl⟩, by simpa using hnever, by cases approval <;> simp_all⟩
  | withoutApproval c =>
    simp only at h
    split_ifs at h
  | none => cases h
  | mismatch c => cases h
  | baseChanged c => cases h

/-- A refusal for the base names candidates that hold the content and an approval, none of them
adoptable. -/
theorem exists_of_decidePromotion_eq_baseChanged {policyDigest : String}
    {previousDigest : Option String} {candidates : List CandidateFacts} {names : List String}
    (h : decidePromotion policyDigest previousDigest candidates = .baseChanged names) :
    (∀ c ∈ candidates, adoptable policyDigest previousDigest c = false) ∧
      ∃ c ∈ candidates, c.matchesContent policyDigest = true ∧ c.approvedPlan.isSome = true := by
  unfold decidePromotion at h
  split at h
  · cases h
  · rename_i hfind
    simp only at h
    split at h
    · rename_i hstale
      refine ⟨by simpa using hfind, ?_⟩
      rw [Bool.not_eq_true', List.isEmpty_eq_false_iff_exists_mem] at hstale
      obtain ⟨c, hc⟩ := hstale
      rw [List.mem_filter, List.mem_filter] at hc
      exact ⟨c, hc.1.1, hc.1.2, hc.2⟩
    · split at h
      · cases h
      · split at h <;> cases h

theorem promotionAction_eq_baseChanged {promotion : Promotion} {mode : PolicyMode}
    {approval : ApprovalMode} {names : List String} {suspended : Bool}
    (h : promotionAction promotion mode approval = .baseChanged names suspended) :
    promotion = .baseChanged names := by
  unfold promotionAction at h
  cases promotion with
  | baseChanged candidates =>
    injection h with hnames
    rw [hnames]
  | approved c p superseded =>
    simp only at h
    split_ifs at h
  | withoutApproval c =>
    simp only at h
    split_ifs at h
  | none => cases h
  | mismatch c => cases h

/-! ## Bookkeeping -/

/-- The open candidates whose approved plans a promotion strands: those not pinned to the content
that executed. -/
def strandedByPromotion (promoted appliedDigest : String) (candidates : List CandidateFacts) :
    List String :=
  (candidates.filter fun c => !c.terminal && c.name != promoted &&
    c.approvedPlan.any fun plan => plan.baseContentDigest != some appliedDigest).map (·.name)

/-- Pick which candidate the just-executed content promotes: one that owns an applied plan, else
one with an approved plan, else the first. -/
def selectPromoted (facts : List CandidateFacts) (contentDigest : String) :
    Option CandidateFacts :=
  let matched := facts.filter (CandidateFacts.matchesContent contentDigest)
  (matched.find? (·.ownsAppliedPlan)).or
    ((matched.find? (·.approvedPlan.isSome)).or matched.head?)

/-- The candidate already promoted for the content. -/
def alreadyPromoted (facts : List CandidateFacts) (contentDigest : String) : Option String :=
  (facts.find? fun c => c.promoted && c.contentDigest == some contentDigest).map (·.name)

/-- The other open candidates that carry the promoted content. -/
def duplicatesOf (promoted contentDigest : String) (facts : List CandidateFacts) : List String :=
  (facts.filter fun c => !c.terminal && c.name != promoted &&
    c.contentDigest == some contentDigest).map (·.name)

/-- What the bookkeeping after an execution does. -/
structure PromotionRecord where
  promoted : String
  newlyPromoted : Bool
  duplicates : List String
  stranded : List String
  deriving DecidableEq, Repr

/-- A promotion is recorded once per content: a candidate already promoted for it stands, and any
open candidate with the same content is spent as its duplicate. -/
def promotionRecord (facts : List CandidateFacts) (contentDigest : String) :
    Option PromotionRecord :=
  let already := alreadyPromoted facts contentDigest
  (already.or ((selectPromoted facts contentDigest).map (·.name))).map fun promoted =>
    let duplicates := duplicatesOf promoted contentDigest facts
    { promoted
      newlyPromoted := already.isNone
      duplicates
      stranded := (strandedByPromotion promoted contentDigest facts).filter (· ∉ duplicates) }

/-- A new promotion is recorded for a candidate that holds the content, where none is promoted for
it. -/
theorem newlyPromoted_iff {facts : List CandidateFacts} {digest name : String} :
    (∃ record, promotionRecord facts digest = some record ∧ record.newlyPromoted = true ∧
      record.promoted = name) ↔
      alreadyPromoted facts digest = none ∧ ∃ f, selectPromoted facts digest = some f ∧
        f.name = name := by
  unfold promotionRecord
  cases alreadyPromoted facts digest with
  | some already => simp
  | none =>
    cases selectPromoted facts digest with
    | none => simp
    | some f => simp

theorem mem_selectPromoted {facts : List CandidateFacts} {digest : String} {f : CandidateFacts}
    (h : selectPromoted facts digest = some f) :
    f ∈ facts ∧ f.matchesContent digest = true := by
  rw [← List.mem_filter]
  unfold selectPromoted at h
  simp only [Option.or_eq_some_iff] at h
  rcases h with h | ⟨-, h | ⟨-, h⟩⟩
  · exact List.mem_of_find?_eq_some h
  · exact List.mem_of_find?_eq_some h
  · exact List.mem_of_head? h

theorem exists_of_newlyPromoted {facts : List CandidateFacts} {digest : String}
    {record : PromotionRecord} (h : promotionRecord facts digest = some record)
    (hnew : record.newlyPromoted = true) :
    ∃ f ∈ facts, record.promoted = f.name ∧ f.contentDigest = some digest := by
  obtain ⟨-, f, hselect, hname⟩ := newlyPromoted_iff.1 ⟨record, h, hnew, rfl⟩
  obtain ⟨hf, hmatches⟩ := mem_selectPromoted hselect
  rw [CandidateFacts.matchesContent, Bool.and_eq_true, beq_iff_eq] at hmatches
  exact ⟨f, hf, hname.symm, hmatches.2⟩

end PgRoles.Operator

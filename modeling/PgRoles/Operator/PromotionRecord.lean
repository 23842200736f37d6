import PgRoles.Operator.Execution
import PgRoles.Operator.PromotionBase

/-!
# Whom a promotion is attributed to

After an execution the bookkeeping promotes one candidate and spends the others with the same
content. The candidate whose plan was run should be the one. The bookkeeping does not know it: it
takes a candidate promoted earlier for the same content, else the first one listed that owns an
applied plan, else the first with an approval, else the first.

`promotion_attributed_iff` says exactly when the candidate whose plan was run is promoted, for a
reconcile that runs to its end and for bookkeeping that a later reconcile completes.
-/

set_option autoImplicit false

namespace PgRoles.Operator

open PgRoles.Core PgRoles.Lib

variable (hash : ByteArray → String)

/-! ## Marks -/

/-- The terminal phase the write puts the candidate of that name into. -/
def Write.mark (name : String) : Write → Option CandidatePhase
  | .markSuperseded n => if n = name then some .superseded else none
  | .markPromoted n => if n = name then some .promoted else none
  | _ => none

@[simp] theorem mark_markSuperseded (name n : String) :
    (Write.markSuperseded n).mark name = if n = name then some .superseded else none := rfl

@[simp] theorem mark_markPromoted (name n : String) :
    (Write.markPromoted n).mark name = if n = name then some .promoted else none := rfl

/-- The first mark lands, the later ones find the candidate terminal. -/
theorem phase_after {ws : List Write} (hws : ∀ w ∈ ws, ∀ n r, w ≠ .markPlanned n r)
    (c : Candidate) : (c.after ws).phase =
      if c.phase.isTerminal then c.phase else ((ws.findSome? (·.mark c.name)).getD c.phase) := by
  induction ws generalizing c with
  | nil => simp [Candidate.after]
  | cons w ws ih =>
    have hrest := ih (fun w' hw' => hws w' (List.mem_cons_of_mem _ hw')) (w.toCandidate c)
    have hname : (w.toCandidate c).name = c.name := congrArg Prod.fst (identity_toCandidate w c)
    rw [hname] at hrest
    rw [show c.after (w :: ws) = (w.toCandidate c).after ws from rfl, hrest, List.findSome?_cons]
    cases hterminal : c.phase.isTerminal with
    | true =>
      have hsame : w.toCandidate c = c := by
        cases w <;> simp [Write.toCandidate, hterminal]
      simp [hsame, hterminal]
    | false =>
      have hphase : (w.toCandidate c).phase = (w.mark c.name).getD c.phase := by
        cases w with
        | markPlanned n r => exact absurd rfl (hws _ List.mem_cons_self n r)
        | markSuperseded n =>
          by_cases hn : c.name = n
          · simp [Write.toCandidate, Write.mark, hterminal, hn]
          · simp [Write.toCandidate, Write.mark, hn, Ne.symm hn]
        | markPromoted n =>
          by_cases hn : c.name = n
          · simp [Write.toCandidate, Write.mark, hterminal, hn]
          · simp [Write.toCandidate, Write.mark, hn, Ne.symm hn]
        | _ =>
          simp only [Write.toCandidate, Write.mark, Option.getD_none]
          try split_ifs <;> rfl
      cases hmark : w.mark c.name with
      | none =>
        rw [hmark, Option.getD_none] at hphase
        simp [hphase, hterminal]
      | some phase =>
        rw [hmark, Option.getD_some] at hphase
        have hphaseTerminal : phase.isTerminal = true := by
          unfold Write.mark at hmark
          split at hmark
          · split_ifs at hmark
            cases hmark
            rfl
          · split_ifs at hmark
            cases hmark
            rfl
          · cases hmark
        simp [hphase, hphaseTerminal]

/-- The marks of the bookkeeping: duplicates are superseded, a newly promoted candidate is
promoted. -/
theorem findSome?_mark_recordPromotion (s : Cluster) (digest name : String) :
    (recordPromotion s digest).findSome? (·.mark name) =
      (promotionRecord s.facts digest).bind fun record =>
        if name ∈ record.duplicates then some .superseded
        else if record.newlyPromoted ∧ record.promoted = name then some .promoted else none := by
  unfold recordPromotion
  cases promotionRecord s.facts digest with
  | none => rfl
  | some record =>
    have hduplicates : ∀ names : List String, (names.flatMap fun n =>
        supersedeLivePlan s n ++ [Write.markSuperseded n]).findSome? (·.mark name) =
          if name ∈ names then some .superseded else none := by
      intro names
      induction names with
      | nil => rfl
      | cons n names ih =>
        rw [List.flatMap_cons, List.findSome?_append, List.findSome?_append, ih]
        have hplan : (supersedeLivePlan s n).findSome? (·.mark name) = none := by
          unfold supersedeLivePlan
          split <;> rfl
        rw [hplan]
        by_cases hn : n = name
        · simp [hn]
        · simp [hn, Ne.symm hn]
    have hstranded : (record.stranded.flatMap (supersedeStranded s)).findSome? (·.mark name) =
        none := by
      rw [List.findSome?_eq_none_iff]
      intro w hw
      obtain ⟨n, -, hw⟩ := List.mem_flatMap.1 hw
      unfold supersedeStranded at hw
      split at hw <;> simp at hw
      rcases hw with rfl | rfl <;> rfl
    simp only [List.findSome?_append, hduplicates, hstranded, Option.bind_some]
    by_cases hname : name ∈ record.duplicates
    · simp [hname]
    · by_cases hnew : record.newlyPromoted = true
      · by_cases hpromoted : record.promoted = name
        · simp [hname, hnew, hpromoted]
        · simp [hname, hnew, hpromoted]
      · simp [hname, hnew]

theorem not_mem_duplicates {facts : List CandidateFacts} {digest : String}
    {record : PromotionRecord} (h : promotionRecord facts digest = some record) :
    record.promoted ∉ record.duplicates := by
  obtain ⟨promoted, -, rfl⟩ := Option.map_eq_some_iff.1 h
  simp only [duplicatesOf, List.mem_map, List.mem_filter, not_exists, not_and]
  intro f hf hname
  simp [hname] at hf

/-- Who is promoted after the bookkeeping. -/
theorem promoted_after_recordPromotion (s : Cluster) (digest : String) (c : Candidate) :
    (c.after (recordPromotion s digest)).phase = .promoted ↔ c.phase = .promoted ∨
      c.phase.isTerminal = false ∧ alreadyPromoted s.facts digest = none ∧
        ∃ f, selectPromoted s.facts digest = some f ∧ f.name = c.name := by
  have hplanned : ∀ w ∈ recordPromotion s digest, ∀ n r, w ≠ .markPlanned n r := by
    obtain ⟨retired, promoted, heq, hquiet, hcase⟩ := recordPromotion_eq s digest
    intro w hw n r hplanned
    rw [heq, hplanned] at hw
    rcases List.mem_append.1 hw with hw | hw
    · cases hquiet _ hw
    · rcases hcase with rfl | ⟨c, -, -, rfl⟩ <;> simp at hw
  rw [phase_after hplanned, findSome?_mark_recordPromotion, ← newlyPromoted_iff]
  cases hterminal : c.phase.isTerminal with
  | true => simp
  | false =>
    have hopen : c.phase ≠ .promoted := by
      intro hphase
      rw [hphase] at hterminal
      cases hterminal
    cases hrecord : promotionRecord s.facts digest with
    | none => simp [hopen]
    | some record =>
      by_cases hname : c.name ∈ record.duplicates
      · have hne : record.promoted ≠ c.name := fun h => not_mem_duplicates hrecord (h ▸ hname)
        simp [hname, hopen, hne]
      · by_cases hnew : record.newlyPromoted = true ∧ record.promoted = c.name
        · simp [hname, hnew]
        · simp only [hname, hnew, if_false, Option.bind_some, Option.getD_none, Bool.false_eq_true]
          simp only [hopen, false_or, true_and, false_iff, Option.some.injEq, exists_eq_left']
          exact hnew

/-! ## The candidate the bookkeeping selects -/

/-- Two for the first test, one for the second. -/
def rankBy {α : Type} (p q : α → Bool) (a : α) : Nat :=
  if p a then 2 else if q a then 1 else 0

theorem two_le_rankBy {α : Type} {p q : α → Bool} {a : α} : 2 ≤ rankBy p q a ↔ p a = true := by
  cases hp : p a <;> cases hq : q a <;> simp [rankBy, hp, hq]

theorem one_le_rankBy {α : Type} {p q : α → Bool} {a : α} :
    1 ≤ rankBy p q a ↔ p a = true ∨ q a = true := by
  cases hp : p a <;> cases hq : q a <;> simp [rankBy, hp, hq]

theorem rankBy_le_two {α : Type} (p q : α → Bool) (a : α) : rankBy p q a ≤ 2 := by
  unfold rankBy
  split_ifs <;> omega

/-- The first that passes the first test, else the first that passes the second, else the head: the
first of the highest rank. -/
theorem find?_or_eq_some_iff {α : Type} {p q : α → Bool} {l : List α} {a : α} :
    (l.find? p).or ((l.find? q).or l.head?) = some a ↔
      ∃ l₁ l₂, l = l₁ ++ a :: l₂ ∧ (∀ b ∈ l₁, rankBy p q b < rankBy p q a) ∧
        ∀ b ∈ l₂, rankBy p q b ≤ rankBy p q a := by
  constructor
  · intro h
    rcases Option.or_eq_some_iff.1 h with hp | ⟨hp, h⟩
    · obtain ⟨hpa, l₁, l₂, rfl, hfirst⟩ := List.find?_eq_some_iff_append.1 hp
      have ha : 2 ≤ rankBy p q a := two_le_rankBy.2 hpa
      refine ⟨l₁, l₂, rfl, fun b hb => ?_, fun b _ => (rankBy_le_two p q b).trans ha⟩
      have hpb := hfirst b hb
      have hb : ¬ 2 ≤ rankBy p q b := fun h => by simp [two_le_rankBy.1 h] at hpb
      omega
    · have hnone : ∀ b ∈ l, ¬ 2 ≤ rankBy p q b := by
        simpa [two_le_rankBy] using hp
      rcases Option.or_eq_some_iff.1 h with hq | ⟨hq, hhead⟩
      · obtain ⟨hqa, l₁, l₂, rfl, hfirst⟩ := List.find?_eq_some_iff_append.1 hq
        have ha : 1 ≤ rankBy p q a := one_le_rankBy.2 (.inr hqa)
        refine ⟨l₁, l₂, rfl, fun b hb => ?_, fun b hb => ?_⟩
        · have hqb := hfirst b hb
          have htwo := hnone b (by simp [hb])
          have hone : ¬ 1 ≤ rankBy p q b := by
            intro h
            rcases one_le_rankBy.1 h with h | h
            · exact htwo (two_le_rankBy.2 h)
            · simp [h] at hqb
          omega
        · have htwo := hnone b (by simp [hb])
          omega
      · obtain ⟨l₂, rfl⟩ := List.head?_eq_some_iff.1 hhead
        refine ⟨[], l₂, rfl, by simp, fun b hb => ?_⟩
        have htwo := hnone b (List.mem_cons_of_mem _ hb)
        have hqb := List.find?_eq_none.1 hq b (List.mem_cons_of_mem _ hb)
        have hone : ¬ 1 ≤ rankBy p q b := by
          intro h
          rcases one_le_rankBy.1 h with h | h
          · exact htwo (two_le_rankBy.2 h)
          · exact hqb h
        omega
  · rintro ⟨l₁, l₂, rfl, hbefore, hafter⟩
    have hmax : ∀ b ∈ l₁ ++ a :: l₂, rankBy p q b ≤ rankBy p q a := by
      intro b hb
      rcases List.mem_append.1 hb with hb | hb
      · exact (hbefore b hb).le
      · rcases List.mem_cons.1 hb with rfl | hb
        · exact le_rfl
        · exact hafter b hb
    by_cases hp : 2 ≤ rankBy p q a
    · have hfirst : ∀ b ∈ l₁, (!p b) = true := by
        intro b hb
        rw [Bool.not_eq_true', ← Bool.not_eq_true, ← two_le_rankBy (q := q)]
        have hlt := hbefore b hb
        have hle := rankBy_le_two p q a
        omega
      rw [List.find?_eq_some_iff_append.2 ⟨two_le_rankBy.1 hp, l₁, l₂, rfl, hfirst⟩]
      rfl
    · have hnone : ∀ b ∈ l₁ ++ a :: l₂, ¬ p b = true := by
        intro b hb hpb
        have hle := hmax b hb
        have htwo : 2 ≤ rankBy p q b := two_le_rankBy.2 hpb
        omega
      rw [List.find?_eq_none.2 hnone, Option.none_or]
      by_cases hq : 1 ≤ rankBy p q a
      · have hqa : q a = true :=
          (one_le_rankBy.1 hq).resolve_left (hnone a (by simp))
        have hfirst : ∀ b ∈ l₁, (!q b) = true := by
          intro b hb
          rw [Bool.not_eq_true', ← Bool.not_eq_true]
          intro hqb
          have hlt := hbefore b hb
          have hone : 1 ≤ rankBy p q b := one_le_rankBy.2 (.inr hqb)
          omega
        rw [List.find?_eq_some_iff_append.2 ⟨hqa, l₁, l₂, rfl, hfirst⟩]
        rfl
      · have hempty : l₁ = [] := by
          cases l₁ with
          | nil => rfl
          | cons b l₁ =>
            have hlt := hbefore b List.mem_cons_self
            omega
        subst hempty
        have hnoneq : ∀ b ∈ a :: l₂, ¬ q b = true := by
          intro b hb hqb
          have hle := hmax b hb
          have hone : 1 ≤ rankBy p q b := one_le_rankBy.2 (.inr hqb)
          omega
        rw [List.nil_append, List.find?_eq_none.2 hnoneq]
        rfl

/-- An open candidate that records the content. -/
def Candidate.openWith (c : Candidate) (content : String) : Prop :=
  c.phase.isTerminal = false ∧ c.contentDigest = some content

instance (c : Candidate) (content : String) : Decidable (c.openWith content) :=
  inferInstanceAs (Decidable (_ ∧ _))

/-- An applied plan counts more than an approved one, and that more than none. -/
def Cluster.rank (s : Cluster) (c : Candidate) : Nat :=
  rankBy (·.ownsAppliedPlan) (·.approvedPlan.isSome) (s.candidateFacts c)

/-- No open candidate with the content ranks above this one, and none listed before it as high. -/
def Outranks (s : Cluster) (content : String) (c : Candidate) : Prop :=
  ∃ earlier later, s.candidates = earlier ++ c :: later ∧
    (∀ d ∈ earlier, d.openWith content → s.rank d < s.rank c) ∧
    ∀ d ∈ later, d.openWith content → s.rank d ≤ s.rank c

theorem matchesContent_candidateFacts {s : Cluster} {content : String} {c : Candidate} :
    (s.candidateFacts c).matchesContent content = true ↔ c.openWith content := by
  simp [CandidateFacts.matchesContent, Cluster.candidateFacts, Candidate.openWith]

theorem WellNamed.eq_of_name {s : Cluster} (hs : WellNamed s) {c d : Candidate}
    (hc : c ∈ s.candidates) (hd : d ∈ s.candidates) (h : c.name = d.name) : c = d :=
  List.inj_on_of_nodup_map hs.names hc hd h

theorem WellNamed.eq_of_uid {s : Cluster} (hs : WellNamed s) {c d : Candidate}
    (hc : c ∈ s.candidates) (hd : d ∈ s.candidates) (h : c.uid = d.uid) : c = d :=
  List.inj_on_of_nodup_map hs.uids hc hd h

/-- The bookkeeping selects the candidate that outranks the others. -/
theorem selectPromoted_iff {s : Cluster} (hs : WellNamed s) {content : String} {c : Candidate}
    (hc : c ∈ s.candidates) (hopen : c.openWith content) :
    (∃ f, selectPromoted s.facts content = some f ∧ f.name = c.name) ↔ Outranks s content c := by
  have hmatched : s.facts.filter (CandidateFacts.matchesContent content) =
      (s.candidates.filter fun d => decide (d.openWith content)).map s.candidateFacts := by
    rw [Cluster.facts, List.filter_map]
    congr 1
    refine List.filter_congr fun d _ => ?_
    rw [Function.comp_apply, Bool.eq_iff_iff, matchesContent_candidateFacts, decide_eq_true_iff]
  simp only [selectPromoted, hmatched, find?_or_eq_some_iff]
  constructor
  · rintro ⟨f, ⟨l₁, l₂, hsplit, hbefore, hafter⟩, hname⟩
    obtain ⟨k₁, k₂, hfilter, rfl, hk₂⟩ := List.map_eq_append_iff.1 hsplit
    obtain ⟨c₁, k₃, rfl, rfl, rfl⟩ := List.map_eq_cons_iff.1 hk₂
    obtain ⟨a₁, a₂, hcandidates, rfl, ha₂⟩ := List.filter_eq_append_iff.1 hfilter
    obtain ⟨b₁, b₂, rfl, hb₁, -, rfl⟩ := List.filter_eq_cons_iff.1 ha₂
    obtain rfl : c₁ = c := hs.eq_of_name (by rw [hcandidates]; simp) hc hname
    refine ⟨a₁ ++ b₁, b₂, by rw [hcandidates, List.append_assoc], fun d hd hdopen => ?_,
      fun d hd hdopen => ?_⟩
    · rcases List.mem_append.1 hd with hd | hd
      · exact hbefore _ (List.mem_map_of_mem (List.mem_filter.2 ⟨hd, by simpa using hdopen⟩))
      · exact absurd (by simpa using hdopen) (hb₁ d hd)
    · exact hafter _ (List.mem_map_of_mem (List.mem_filter.2 ⟨hd, by simpa using hdopen⟩))
  · rintro ⟨earlier, later, hcandidates, hbefore, hafter⟩
    refine ⟨s.candidateFacts c, ⟨(earlier.filter fun d => decide (d.openWith content)).map
      s.candidateFacts, (later.filter fun d => decide (d.openWith content)).map s.candidateFacts,
      ?_, ?_, ?_⟩, rfl⟩
    · rw [hcandidates, List.filter_append, List.filter_cons_of_pos (by simpa using hopen),
        List.map_append, List.map_cons]
    · intro b hb
      obtain ⟨d, hd, rfl⟩ := List.mem_map.1 hb
      rw [List.mem_filter, decide_eq_true_iff] at hd
      exact hbefore d hd.1 hd.2
    · intro b hb
      obtain ⟨d, hd, rfl⟩ := List.mem_map.1 hb
      rw [List.mem_filter, decide_eq_true_iff] at hd
      exact hafter d hd.1 hd.2

/-! ## Attribution -/

/-- The candidate is promoted afterwards and no other candidate became so. -/
def PromotedAlone (before after : Cluster) (c : Candidate) : Prop :=
  (∃ c' ∈ after.candidates, c'.uid = c.uid ∧ c'.phase = .promoted) ∧
    ∀ d ∈ after.candidates, d.phase = .promoted →
      d.uid = c.uid ∨ ∃ d₀ ∈ before.candidates, d₀.uid = d.uid ∧ d₀.phase = .promoted

/-- No candidate is promoted for the content. -/
def NonePromoted (s : Cluster) (content : String) : Prop :=
  ∀ d ∈ s.candidates, d.phase = .promoted → d.contentDigest ≠ some content

theorem alreadyPromoted_eq_none_iff {s : Cluster} {content : String} :
    alreadyPromoted s.facts content = none ↔ NonePromoted s content := by
  simp [alreadyPromoted, Cluster.facts, Cluster.candidateFacts, NonePromoted]

/-- The bookkeeping promotes a candidate that records the content, and no other, exactly when it is
promoted already, or open, nobody is promoted for the content and it outranks the others. -/
theorem promotedAlone_recordPromotion_iff {s : Cluster} (hs : WellNamed s) {content : String}
    {c : Candidate} (hc : c ∈ s.candidates) (hdigest : c.contentDigest = some content) :
    PromotedAlone s (s.writes (recordPromotion s content)) c ↔ c.phase = .promoted ∨
      c.phase.isTerminal = false ∧ NonePromoted s content ∧ Outranks s content c := by
  have huid : ∀ d ws, (Candidate.after d ws).uid = d.uid := fun d ws =>
    congrArg (·.2.1) (identity_after d ws)
  have hself : (c.after (recordPromotion s content)).phase = .promoted ↔ c.phase = .promoted ∨
      c.phase.isTerminal = false ∧ NonePromoted s content ∧ Outranks s content c := by
    rw [promoted_after_recordPromotion, alreadyPromoted_eq_none_iff]
    refine or_congr_right (and_congr_right fun hopen => and_congr_right fun _ => ?_)
    exact selectPromoted_iff hs hc ⟨hopen, hdigest⟩
  rw [← hself, PromotedAlone, candidates_writes]
  constructor
  · rintro ⟨⟨c', hc', hsame, hpromoted⟩, -⟩
    obtain ⟨d, hd, rfl⟩ := List.mem_map.1 hc'
    rw [huid] at hsame
    rwa [hs.eq_of_uid hd hc hsame] at hpromoted
  · intro hpromoted
    refine ⟨⟨_, List.mem_map_of_mem hc, huid c _, hpromoted⟩, fun d' hd' hd'promoted => ?_⟩
    obtain ⟨d, hd, rfl⟩ := List.mem_map.1 hd'
    rw [huid]
    rw [promoted_after_recordPromotion, alreadyPromoted_eq_none_iff] at hpromoted hd'promoted
    rcases hd'promoted with hold | ⟨-, hnone, f, hselect, hname⟩
    · exact .inr ⟨d, hd, rfl, hold⟩
    · rcases hpromoted with hold | ⟨-, -, f', hselect', hname'⟩
      · exact absurd hdigest (hnone c hc hold)
      · rw [hselect, Option.some.injEq] at hselect'
        subst hselect'
        exact .inl (congrArg Candidate.uid (hs.eq_of_name hd hc (hname.symm.trans hname')))

/-! ## A reconcile that runs a candidate's plan -/

/-- A candidate's plan is run when recognition handed it over: the candidate is open and records the
policy's content. -/
theorem candidate_of_execute {pass : Pass} {s : Cluster} (hs : WellNamed s) {e : Execution}
    (h : .execute e ∈ reconcile hash pass s) {c : Candidate} (hc : c ∈ s.candidates)
    (howner : e.plan.owner = .candidate c.uid) :
    c.openWith s.policy.content ∧ ∃ plan reason, handedOver pass s = some plan ∧
      plan.owner = .candidate c.uid ∧
      Executes hash pass s e plan reason (openingWrites pass s) := by
  obtain ⟨plan, reason, pre, hexecutes, hrun⟩ := execute_mem_reconcile hash hs h
  have hplan : plan.owner = .candidate c.uid := by
    rw [hexecutes.execution] at howner
    exact howner
  rcases hrun with ⟨-, hpolicy⟩ | ⟨-, rfl, hfrom, -⟩
  · rw [hpolicy] at hplan
    cases hplan
  · rcases hfrom with hhanded | hcurrent
    · obtain ⟨-, -, -, c', hc', hopen, hdigest, howner'⟩ := handedOver_spec hs hhanded
      rw [(writes_recoverStuckPlan s pass.now).2] at hc'
      rw [hplan, PlanOwner.candidate.injEq] at howner'
      obtain rfl := hs.eq_of_uid hc hc' howner'
      exact ⟨⟨hopen, hdigest⟩, plan, reason, hhanded, hplan, hexecutes⟩
    · rw [(mem_currentActionablePlan hcurrent).2.1] at hplan
      cases hplan

/-- A reconcile that adopts a plan reports nothing on candidates. -/
theorem candidates_openingWrites {pass : Pass} {s : Cluster} {plan : Plan}
    (h : handedOver pass s = some plan) :
    (s.writes (openingWrites pass s)).candidates = s.candidates := by
  rw [openingWrites, Cluster.writes_append, ← (writes_recoverStuckPlan s pass.now).2]
  unfold handedOver at h
  generalize s.writes (recoverStuckPlan s pass.now) = s₁ at h ⊢
  unfold recognized at h ⊢
  split at h
  · cases h
  · rename_i hlookup
    change adoptedPlan s₁ = some plan at h
    unfold adoptedPlan at h
    split at h
    · rename_i haction
      rw [if_neg hlookup, recognize, haction]
      simp only [recognitionReports, List.nil_append]
      split <;> rfl
    · cases h

/-- A status write on one owner's plan leaves the plans of the others alone. -/
theorem plansOf_onPlan {s : Cluster} (hs : NodupNames s) {plan : Plan} (hmem : plan ∈ s.plans)
    {owner : PlanOwner} (hne : plan.owner ≠ owner) (write : PlanWrite) :
    (s.onPlan plan.name write).plansOf owner = s.plansOf owner := by
  have hothers : ∀ p ∈ s.plans, p.name = plan.name → p.owner ≠ owner := by
    intro p hp hname
    rw [hs.eq_of_name hp hmem hname]
    exact hne
  have hmap : ∀ plans : List Plan, (∀ p ∈ plans, p.name = plan.name → p.owner ≠ owner) →
      (updatePlan plan.name (fun p => { p with status := write.apply p.status }) plans).filter
        (fun p => decide (p.owner = owner)) = plans.filter fun p => decide (p.owner = owner) := by
    intro plans
    induction plans with
    | nil => exact fun _ => rfl
    | cons p plans ih =>
      intro hplans
      have hrest := ih fun q hq => hplans q (List.mem_cons_of_mem _ hq)
      rw [updatePlan] at hrest
      by_cases hp : p.name = plan.name
      · have hother := hplans p List.mem_cons_self hp
        simp [updatePlan, hp, hother, hrest]
      · simp [updatePlan, hp, List.filter_cons, hrest]
  exact hmap s.plans hothers

theorem mem_onPlan {s : Cluster} {plan : Plan} (hmem : plan ∈ s.plans) (write : PlanWrite) :
    { plan with status := write.apply plan.status } ∈ (s.onPlan plan.name write).plans :=
  List.mem_map.2 ⟨plan, hmem, if_pos rfl⟩

theorem NodupNames.onPlan {s : Cluster} (hs : NodupNames s) (name : String) (write : PlanWrite) :
    NodupNames (s.onPlan name write) := by
  have hnames : (s.onPlan name write).plans.map Plan.name = s.plans.map Plan.name := by
    refine map_name_updatePlan ?_ _
    intro p
    rfl
  rw [NodupNames, hnames]
  exact hs

/-- Running a plan leaves it applied, and the plans of the other owners alone. -/
theorem writes_runWrites {s : Cluster} (hs : NodupNames s) {plan : Plan} (hmem : plan ∈ s.plans)
    (reason : String) (now : Nat) (e : Execution) :
    (∃ p ∈ (s.writes (runWrites plan.name reason now e)).plans, p.owner = plan.owner ∧
      p.phase? = some .applied) ∧
    ∀ owner, plan.owner ≠ owner →
      (s.writes (runWrites plan.name reason now e)).plansOf owner = s.plansOf owner := by
  -- The plan and the cluster after each of the three status writes.
  have hmem₁ := mem_onPlan hmem (.approve reason)
  have hmem₂ := mem_onPlan hmem₁ (.startApplying now)
  have hs₁ := hs.onPlan plan.name (.approve reason)
  have hs₂ := hs₁.onPlan plan.name (.startApplying now)
  refine ⟨⟨_, mem_onPlan hmem₂ (.finishApplied now), rfl, rfl⟩, fun owner hne => ?_⟩
  exact (plansOf_onPlan hs₂ hmem₂ hne _).trans
    ((plansOf_onPlan hs₁ hmem₁ hne _).trans (plansOf_onPlan hs hmem hne _))

/-- Recovery fails a plan of the policy's own. -/
theorem plansOf_recoverStuckPlan {s : Cluster} (hs : NodupNames s) {now : Nat} {uid : String} :
    (s.writes (recoverStuckPlan s now)).plansOf (.candidate uid) = s.plansOf (.candidate uid) := by
  unfold recoverStuckPlan
  simp only
  split
  · rfl
  · rename_i plan hplan
    split
    · rfl
    · split
      · have hmem := List.mem_of_head? hplan
        rw [List.mem_insertionSort, List.mem_filter, Cluster.plansOf, List.mem_filter] at hmem
        refine plansOf_onPlan hs hmem.1.1 ?_ _
        rw [of_decide_eq_true hmem.1.2]
        exact fun h => by cases h
      · rfl

/-- Nobody is promoted for the policy's content, and no open candidate with it that is listed before
this one owns an applied plan. -/
def FirstAuthoriser (s : Cluster) (c : Candidate) : Prop :=
  NonePromoted s s.policy.content ∧
    ∃ earlier later, s.candidates = earlier ++ c :: later ∧
      ∀ d ∈ earlier, d.openWith s.policy.content → (s.candidateFacts d).ownsAppliedPlan = false

/-- Among these candidates, one that owns an applied plan outranks the others exactly when no open
one listed before it owns one. -/
theorem outranks_iff_of_applied {s t : Cluster} {content : String} {c : Candidate}
    (huids : (s.candidates.map Candidate.uid).Nodup) (hcandidates : t.candidates = s.candidates)
    (happlied : (t.candidateFacts c).ownsAppliedPlan = true)
    (hothers : ∀ uid, uid ≠ c.uid → t.plansOf (.candidate uid) = s.plansOf (.candidate uid)) :
    Outranks t content c ↔ ∃ earlier later, s.candidates = earlier ++ c :: later ∧
      ∀ d ∈ earlier, d.openWith content → (s.candidateFacts d).ownsAppliedPlan = false := by
  have hc : 2 ≤ t.rank c := two_le_rankBy.2 happlied
  rw [Outranks, hcandidates]
  refine exists_congr fun earlier => exists_congr fun later => and_congr_right fun hsplit => ?_
  have hrank : ∀ d ∈ earlier, t.rank d < t.rank c ↔
      (s.candidateFacts d).ownsAppliedPlan = false := by
    intro d hd
    have huid : d.uid ≠ c.uid := by
      rw [hsplit, List.map_append, List.nodup_append] at huids
      exact huids.2.2 _ (List.mem_map_of_mem hd) _ (List.mem_map_of_mem List.mem_cons_self)
    have hsame : (t.candidateFacts d).ownsAppliedPlan = (s.candidateFacts d).ownsAppliedPlan := by
      simp only [Cluster.candidateFacts, hothers d.uid huid]
    have htwo := rankBy_le_two (·.ownsAppliedPlan) (·.approvedPlan.isSome) (t.candidateFacts c)
    rw [← hsame, ← Bool.not_eq_true, ← two_le_rankBy
      (q := fun f : CandidateFacts => f.approvedPlan.isSome)]
    change t.rank d < t.rank c ↔ ¬ 2 ≤ t.rank d
    change t.rank c ≤ 2 at htwo
    omega
  constructor
  · intro h d hd hopen
    exact (hrank d hd).1 (h.1 d hd hopen)
  · intro h
    refine ⟨fun d hd hopen => (hrank d hd).2 (h d hd hopen), fun d _ _ => ?_⟩
    exact (rankBy_le_two _ _ _).trans hc

/-- A reconcile that runs a candidate's plan promotes it and no other exactly when it is the first
authoriser. -/
theorem promotedAlone_reconcile_iff {pass : Pass} {s : Cluster} (hs : WellNamed s) {e : Execution}
    (h : .execute e ∈ reconcile hash pass s) {c : Candidate} (hc : c ∈ s.candidates)
    (howner : e.plan.owner = .candidate c.uid) :
    PromotedAlone s (s.writes (reconcile hash pass s)) c ↔ FirstAuthoriser s c := by
  obtain ⟨hopen, plan, reason, hhanded, hplan, hexecutes⟩ := candidate_of_execute hash hs h hc howner
  have hcandidates := candidates_openingWrites hhanded
  have hpermitted : AllWrites Permitted s (reconcile hash pass s) := permitted_reconcile hash hs
  rw [hexecutes.writes] at hpermitted ⊢
  rw [allWrites_andThen, allWrites_andThen] at hpermitted
  have hplans : ∀ uid, (s.writes (openingWrites pass s)).plansOf (.candidate uid) =
      s.plansOf (.candidate uid) := by
    intro uid
    rw [openingWrites, Cluster.writes_append, Cluster.plansOf, plans_writes_recognized]
    exact plansOf_recoverStuckPlan hs.plans
  have hs₂ := hs.writes hpermitted.1
  have hs₃ := hs₂.writes hpermitted.2.1
  obtain ⟨⟨p, hp, hpowner, happlied⟩, hothers⟩ :=
    writes_runWrites hs₂.plans hexecutes.stored reason pass.now e
  rw [andThen, Cluster.writes_append, andThen, Cluster.writes_append]
  -- The state the bookkeeping starts from has the candidates of the reconcile's start.
  have hcandidates₃ : ((s.writes (openingWrites pass s)).writes
      (runWrites plan.name reason pass.now e)).candidates = s.candidates := hcandidates
  generalize (s.writes (openingWrites pass s)).writes (runWrites plan.name reason pass.now e) = s₃
    at hs₃ hp hothers hcandidates₃ ⊢
  have hbefore : PromotedAlone s (s₃.writes (recordPromotion s₃ s.policy.content)) c ↔
      PromotedAlone s₃ (s₃.writes (recordPromotion s₃ s.policy.content)) c := by
    rw [PromotedAlone, PromotedAlone, hcandidates₃]
  have happlies : (s₃.candidateFacts c).ownsAppliedPlan = true := by
    refine List.any_eq_true.2 ⟨p, List.mem_filter.2 ⟨hp, by simp [hpowner, hplan]⟩, ?_⟩
    obtain ⟨status, hstatus, hphase⟩ := Option.map_eq_some_iff.1 happlied
    simp [hstatus, hphase]
  have hne : c.phase ≠ .promoted := by
    intro hpromoted
    have hterminal := hopen.1
    rw [hpromoted] at hterminal
    cases hterminal
  rw [hbefore, promotedAlone_recordPromotion_iff hs₃ (hcandidates₃ ▸ hc) hopen.2,
    outranks_iff_of_applied hs.uids hcandidates₃ happlies fun uid huid =>
      (hothers _ fun heq => huid (by
        rw [hplan, PlanOwner.candidate.injEq] at heq
        exact heq.symm)).trans (hplans uid)]
  simp only [hne, hopen.1, false_or, true_and, FirstAuthoriser, NonePromoted, hcandidates₃]

/-! ## Executions of a run -/

theorem mem_executions_writes {s : Cluster} {ws : List Write} {e : Execution} :
    e ∈ (s.writes ws).executions ↔ e ∈ s.executions ∨ .execute e ∈ ws := by
  induction ws generalizing s with
  | nil => simp
  | cons w ws ih =>
    rw [Cluster.writes_cons, ih, List.mem_cons]
    cases w with
    | execute e' =>
      rw [show (Write.apply s (.execute e')).executions = e' :: s.executions from rfl,
        List.mem_cons, Write.execute.injEq]
      tauto
    | _ => simp [Write.apply, Cluster.onPlan, Cluster.onCandidate]

theorem noExecution_planCandidate {c : Candidate} {effects : CandidateEffects} {s : Cluster} :
    NoExecution (planCandidate hash c effects s) := by
  unfold planCandidate
  split
  · intro e he
    simp at he
  · split
    · exact noExecution_nil
    · split
      · exact noExecution_nil
      · rename_i result ws hcreate
        exact (noExecution_createOrUpdatePlan hcreate).append fun e he => by simp at he

theorem noExecution_reconcileCandidate {parent : ParentOutcome} {c : Candidate}
    {input : CandidateInput} {s : Cluster} :
    NoExecution (reconcileCandidate hash parent c input s) := by
  unfold reconcileCandidate
  split
  · exact noExecution_nil
  · refine NoExecution.append ?_ ?_
    · intro e he
      split at he <;> simp at he
    · generalize s.writes _ = s₁
      dsimp only
      split
      · exact noExecution_nil
      · split
        · exact noExecution_nil
        · exact noExecution_nil
        · exact fun e he => by simp at he
        · split
          · exact fun e he => by simp at he
          · split
            · exact noExecution_nil
            · split
              · exact noExecution_planCandidate hash
              · exact noExecution_nil

/-- A step executes only as a reconcile of the policy. -/
theorem executions_step {s s' : RunState} {a : Action} (h : step hash s a = some s')
    {e : Execution} (he : e ∈ s'.cluster.executions) : e ∈ s.cluster.executions ∨
      ∃ pass completed, a = .reconcile pass completed ∧
        .execute e ∈ reconcile hash pass s.cluster := by
  cases a with
  | reconcile pass completed =>
    cases h
    rcases mem_executions_writes.1 he with he | he
    · exact .inl he
    · exact .inr ⟨pass, completed, rfl, List.mem_of_mem_take he⟩
  | reconcileCandidate name parent input completed =>
    simp only [step] at h
    split at h
    · cases h
    · cases h
      rcases mem_executions_writes.1 he with he | he
      · exact .inl he
      · exact absurd (List.mem_of_mem_take he) (noExecution_reconcileCandidate hash e)
  | applyReplacements completed =>
    cases h
    rcases mem_executions_writes.1 he with he | he
    · exact .inl he
    · exact absurd (List.mem_of_mem_take he) (noExecution_of_quiet quiet_applyReplacements e)
  | edit content mode approval required =>
    cases h
    exact .inl he
  | file name uid content replaces =>
    simp only [step] at h
    split_ifs at h
    cases h
    exact .inl he
  | decide name approve actor =>
    simp only [step] at h
    split at h
    · cases h
    · split_ifs at h
      cases h
      exact .inl he
  | deleteCandidate name =>
    cases h
    exact .inl he
  | deletePlan name =>
    cases h
    exact .inl he

/-- A candidate whose plan was run records the content it was run for. -/
def ExecutedContents (s : Cluster) : Prop :=
  ∀ e ∈ s.executions, ∀ c ∈ s.candidates, e.plan.owner = .candidate c.uid →
    c.contentDigest = some e.policy.content

/-- The recorded digest stays, or becomes that of the candidate's own content. -/
theorem digest_after (c : Candidate) (ws : List Write) :
    (c.after ws).contentDigest = c.contentDigest ∨
      (c.after ws).contentDigest = some c.content := by
  induction ws generalizing c with
  | nil => exact .inl rfl
  | cons w ws ih =>
    have hcontent : (w.toCandidate c).content = c.content :=
      congrArg (·.2.2) (identity_toCandidate w c)
    have hw : (w.toCandidate c).contentDigest = c.contentDigest ∨
        (w.toCandidate c).contentDigest = some c.content := by
      cases w with
      | adopt | markPlanned | report | markSuperseded | markPromoted =>
        simp only [Write.toCandidate]
        split_ifs <;> simp
      | _ => exact .inl rfl
    rw [show c.after (w :: ws) = (w.toCandidate c).after ws from rfl]
    rcases ih (w.toCandidate c) with hsame | hnew
    · rw [hsame]
      exact hw
    · rw [hnew, hcontent]
      exact .inr rfl

/-- A recorded digest stays. -/
theorem digest_after_of_some {s : Cluster} (hs : OwnDigests s) {c : Candidate}
    (hc : c ∈ s.candidates) {d : String} (hd : c.contentDigest = some d) (ws : List Write) :
    (c.after ws).contentDigest = some d := by
  rcases digest_after c ws with hsame | hnew
  · rw [hsame, hd]
  · rw [hnew, hs c hc d hd]

/-- A step leaves every execution one of the content of its plan's owner. -/
theorem ExecutedContents.step {s s' : RunState} {a : Action} (hs : WellNamed s.cluster)
    (hdigests : OwnDigests s.cluster) (h : ExecutedContents s.cluster)
    (next : step hash s a = some s') : ExecutedContents s'.cluster := by
  intro e he c hc howner
  have hexecution := executions_step hash next he
  cases step_cases hash hs next with
  | operator _ ws permitted =>
    rw [candidates_writes] at hc
    obtain ⟨c₀, hc₀, rfl⟩ := List.mem_map.1 hc
    have huid : (c₀.after ws).uid = c₀.uid := congrArg (·.2.1) (identity_after c₀ ws)
    rw [huid] at howner
    refine digest_after_of_some hdigests hc₀ ?_ ws
    rcases hexecution with he | ⟨pass, completed, -, hmem⟩
    · exact h e he c₀ hc₀ howner
    · obtain ⟨hopen, plan, reason, -, -, hexecutes⟩ :=
        candidate_of_execute hash hs hmem hc₀ howner
      rw [hopen.2, hexecutes.execution]
      rfl
  | file name uid content replaces newCandidate noPlan noExecution =>
    rcases List.mem_append.1 hc with hc | hc
    · exact h e he c hc howner
    · rw [List.mem_singleton.1 hc] at howner
      exact absurd howner (noExecution e he)
  | deleteCandidate name => exact h e he c (List.mem_of_mem_filter hc) howner
  | edit | decide | deletePlan => exact h e he c hc howner

theorem RunsTo.executedContents {Meets : RunState → Action → Prop} {s : RunState}
    (run : RunsTo hash Meets s) : ExecutedContents s.cluster := by
  induction run with
  | start policy => exact fun _ he => absurd he List.not_mem_nil
  | step run _ next ih => exact ih.step hash (run.wellNamed hash) (run.ownDigests hash) next

/-! ## Who can be promoted -/

theorem promoted_of_apply {s : Cluster} (hs : WellNamed s) {w : Write} (hw : Permitted s w)
    {c : Candidate} (hc : c ∈ s.candidates) (h : (w.toCandidate c).phase = .promoted) :
    c.phase = .promoted ∨ c.contentDigest = some s.policy.content := by
  cases w with
  | markPromoted name =>
    simp only [Write.toCandidate] at h
    split_ifs at h with hname
    · obtain ⟨d, hd, hdname, hdigest⟩ := hw
      rw [hs.eq_of_name hc hd (hname.1.trans hdname.symm)]
      exact .inr hdigest
    · exact .inl h
  | adopt | report =>
    simp only [Write.toCandidate] at h
    split_ifs at h <;> exact .inl h
  | markPlanned | markSuperseded =>
    simp only [Write.toCandidate] at h
    split_ifs at h
    exact .inl h
  | _ => exact .inl h

/-- Between the writes of a step that began in `s`: whoever is promoted was so before, or holds the
policy's content. -/
structure PromotedSince (s t : Cluster) : Prop where
  names : WellNamed t
  digests : OwnDigests t
  content : t.policy.content = s.policy.content
  promoted : ∀ c ∈ t.candidates, c.phase = .promoted →
    (∃ d ∈ s.candidates, d.uid = c.uid ∧ d.phase = .promoted) ∨ c.content = s.policy.content

theorem PromotedSince.refl {s : Cluster} (hs : WellNamed s) (hdigests : OwnDigests s) :
    PromotedSince s s where
  names := hs
  digests := hdigests
  content := rfl
  promoted c hc hphase := .inl ⟨c, hc, rfl, hphase⟩

/-- One more permitted write leaves the promotions accounted for. -/
theorem PromotedSince.apply {s t : Cluster} (h : PromotedSince s t) {w : Write}
    (hw : Permitted t w) : PromotedSince s (w.apply t) where
  names := h.names.apply hw
  digests := h.digests.apply w
  content := (congrArg Prod.fst (spec_apply t w)).trans h.content
  promoted c hc hphase := by
    rw [candidates_apply] at hc
    obtain ⟨c₀, hc₀, rfl⟩ := List.mem_map.1 hc
    have huid : (w.toCandidate c₀).uid = c₀.uid := congrArg (·.2.1) (identity_toCandidate w c₀)
    have hsame : (w.toCandidate c₀).content = c₀.content :=
      congrArg (·.2.2) (identity_toCandidate w c₀)
    rw [huid, hsame]
    rcases promoted_of_apply h.names hw hc₀ hphase with hold | hdigest
    · exact h.promoted c₀ hc₀ hold
    · exact .inr ((h.digests c₀ hc₀ _ hdigest).symm.trans h.content)

/-- Whoever becomes promoted in a step holds the policy's content. -/
theorem promoted_step {s s' : RunState} {a : Action} (hs : WellNamed s.cluster)
    (hdigests : OwnDigests s.cluster) (next : step hash s a = some s') {d : Candidate}
    (hd : d ∈ s'.cluster.candidates) (hpromoted : d.phase = .promoted) :
    (∃ d₀ ∈ s.cluster.candidates, d₀.uid = d.uid ∧ d₀.phase = .promoted) ∨
      d.content = s.cluster.policy.content := by
  have hsince := PromotedSince.refl hs hdigests
  cases step_cases hash hs next with
  | operator _ ws permitted =>
    have hafter : PromotedSince s.cluster (s.cluster.writes ws) :=
      permitted.invariant (fun _ _ ht hw => ht.apply hw) hsince
    exact hafter.promoted d hd hpromoted
  | file name uid content replaces =>
    rcases List.mem_append.1 hd with hd | hd
    · exact hsince.promoted d hd hpromoted
    · rw [List.mem_singleton.1 hd] at hpromoted
      cases hpromoted
  | deleteCandidate name => exact hsince.promoted d (List.mem_of_mem_filter hd) hpromoted
  | edit | decide | deletePlan => exact hsince.promoted d hd hpromoted

/-- In every run: a reconcile that runs a candidate's plan promotes this candidate and no other
exactly when it is the first authoriser; bookkeeping that completes later, while the latest
execution was of the candidate's plan and for the policy's content, does so exactly when the
candidate is promoted already or is open, outranks the others and nobody is promoted for the
content; and whoever becomes promoted holds the policy's content. -/
theorem promotion_attributed_iff {s : RunState} (run : RunsTo hash (fun _ _ => True) s) :
    (∀ pass e, .execute e ∈ reconcile hash pass s.cluster → ∀ c ∈ s.cluster.candidates,
      e.plan.owner = .candidate c.uid →
        (PromotedAlone s.cluster (s.cluster.writes (reconcile hash pass s.cluster)) c ↔
          FirstAuthoriser s.cluster c)) ∧
    (∀ e, s.cluster.executions.head? = some e → e.policy.content = s.cluster.policy.content →
      ∀ c ∈ s.cluster.candidates, e.plan.owner = .candidate c.uid →
        (PromotedAlone s.cluster
            (s.cluster.writes (recordPromotion s.cluster s.cluster.policy.content)) c ↔
          c.phase = .promoted ∨ c.phase.isTerminal = false ∧
            NonePromoted s.cluster s.cluster.policy.content ∧
            Outranks s.cluster s.cluster.policy.content c)) ∧
    ∀ a s', step hash s a = some s' → ∀ d ∈ s'.cluster.candidates, d.phase = .promoted →
      (∃ d₀ ∈ s.cluster.candidates, d₀.uid = d.uid ∧ d₀.phase = .promoted) ∨
        d.content = s.cluster.policy.content := by
  have hs := run.wellNamed hash
  have hdigests := run.ownDigests hash
  refine ⟨fun pass e he c hc howner => promotedAlone_reconcile_iff hash hs he hc howner,
    fun e he hcontent c hc howner => ?_,
    fun a s' next d hd hpromoted => promoted_step hash hs hdigests next hd hpromoted⟩
  have hdigest := run.executedContents hash e (List.mem_of_head? he) c hc howner
  rw [hcontent] at hdigest
  exact promotedAlone_recordPromotion_iff hs hc hdigest

/-- The write runs a plan of the candidate with this identifier. -/
def Write.runsPlanOf (uid : String) : Write → Bool
  | .execute e => e.plan.owner = .candidate uid
  | _ => false

theorem exists_execute_of_any {ws : List Write} {uid : String}
    (h : ws.any (·.runsPlanOf uid) = true) :
    ∃ e, .execute e ∈ ws ∧ e.plan.owner = .candidate uid := by
  obtain ⟨w, hw, hruns⟩ := List.any_eq_true.1 h
  cases w with
  | execute e => exact ⟨e, hw, of_decide_eq_true hruns⟩
  | _ => cases hruns

/-- The reviewed candidate is promoted by the reconcile that runs its plan. -/
theorem reviewedCandidate_promoted : ∃ s pass e c, RunsTo retireOldHash (fun _ _ => True) s ∧
    .execute e ∈ reconcile retireOldHash pass s.cluster ∧ c ∈ s.cluster.candidates ∧
    e.plan.owner = .candidate c.uid ∧
    PromotedAlone s.cluster (s.cluster.writes (reconcile retireOldHash pass s.cluster)) c := by
  have hrun : (runActions retireOldHash (fun _ _ => True) reviewedPolicy
      (reviewActions ++ [merge "retired"])).any (fun s =>
        (reconcile retireOldHash (retireOldPass [.dropRole "old"] 1200) s.cluster).any
          (·.runsPlanOf "u1") &&
        (s.cluster.candidates.length == 1 &&
          s.cluster.candidates.all fun c => decide (c.uid = "u1" ∧ c.phase ≠ .promoted))) =
        true := by
    decide +kernel
  obtain ⟨s, hs, hrest⟩ := (Option.any_eq_true _ _).1 hrun
  rw [Bool.and_eq_true, Bool.and_eq_true, beq_iff_eq, List.length_eq_one_iff] at hrest
  obtain ⟨e, he, howner⟩ := exists_execute_of_any hrest.1
  obtain ⟨c, hc⟩ := hrest.2.1
  have hmem : c ∈ s.cluster.candidates := by
    rw [hc]
    exact List.mem_singleton_self c
  obtain ⟨huid, hphase⟩ := of_decide_eq_true (List.all_eq_true.1 hrest.2.2 c hmem)
  have run := (RunsTo.start reviewedPolicy.cluster.policy).actions retireOldHash hs
  rw [← huid] at howner
  refine ⟨s, _, e, c, run, he, hmem, howner, ?_⟩
  refine ((promotion_attributed_iff retireOldHash run).1 _ e he c hmem howner).2
    ⟨fun d hd hpromoted => ?_, [], [], hc, by simp⟩
  rw [hc, List.mem_singleton] at hd
  exact absurd (hd ▸ hpromoted) hphase

/-- The content is promoted, reverted and proposed again by a second candidate, whose plan is
approved and merged. -/
def proposedAgain : List Action :=
  reviewActions ++ [merge "retired", .reconcile (retireOldPass [.dropRole "old"] 1200) 10,
    merge "base", .reconcile (retireOldPass [] 1300) 10,
    .file "retire-again" "u2" "retired" none,
    .reconcileCandidate "retire-again" .converged (.effects {
      changes := [.dropRole "old"], inputs := retireOldInputs, now := 1400,
      planName := "retire-again-plan" }) 10,
    .decide "retire-again-plan" true "alice", merge "retired"]

/-- The second candidate's plan is run, and the candidate is superseded as a duplicate of the
first. -/
theorem secondAuthoriser_superseded : ∃ s pass e c, RunsTo retireOldHash (fun _ _ => True) s ∧
    .execute e ∈ reconcile retireOldHash pass s.cluster ∧ c ∈ s.cluster.candidates ∧
    e.plan.owner = .candidate c.uid ∧
    (∃ c' ∈ (s.cluster.writes (reconcile retireOldHash pass s.cluster)).candidates,
      c'.uid = c.uid ∧ c'.phase = .superseded) ∧
    ¬ PromotedAlone s.cluster (s.cluster.writes (reconcile retireOldHash pass s.cluster)) c := by
  have hrun : (runActions retireOldHash (fun _ _ => True) reviewedPolicy proposedAgain).any
      (fun s =>
        (reconcile retireOldHash (retireOldPass [.dropRole "old"] 1500) s.cluster).any
          (·.runsPlanOf "u2") &&
        s.cluster.candidates.any (fun c => c.uid = "u2") &&
        decide ((∃ c' ∈ (s.cluster.writes (reconcile retireOldHash
            (retireOldPass [.dropRole "old"] 1500) s.cluster)).candidates,
              c'.uid = "u2" ∧ c'.phase = .superseded) ∧
          ∀ c' ∈ (s.cluster.writes (reconcile retireOldHash
            (retireOldPass [.dropRole "old"] 1500) s.cluster)).candidates,
              c'.uid = "u2" → c'.phase ≠ .promoted)) = true := by
    decide +kernel
  obtain ⟨s, hs, hrest⟩ := (Option.any_eq_true _ _).1 hrun
  rw [Bool.and_eq_true, Bool.and_eq_true, decide_eq_true_iff] at hrest
  obtain ⟨⟨hexecutes, hfiled⟩, hsuperseded, hnever⟩ := hrest
  obtain ⟨e, he, howner⟩ := exists_execute_of_any hexecutes
  obtain ⟨c, hc, huid⟩ := List.any_eq_true.1 hfiled
  rw [← of_decide_eq_true huid] at howner hsuperseded hnever
  refine ⟨s, _, e, c, (RunsTo.start reviewedPolicy.cluster.policy).actions retireOldHash hs, he, hc,
    howner, hsuperseded, ?_⟩
  rintro ⟨⟨c', hc', hsame, hpromoted⟩, -⟩
  exact hnever c' hc' hsame hpromoted

end PgRoles.Operator

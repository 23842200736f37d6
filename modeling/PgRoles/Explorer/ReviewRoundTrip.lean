import PgRoles.Explorer.ReviewBuild

/-!
# Review artifacts are read back

The reader accepts what the exporter writes and returns it, and its fold of the recorded deltas is
the analysis, phase by phase (`parse_buildReviewArtifact`). Three facts carry the proof: the delta of
two maps takes the first to the second (`phaseReachability_recordedPhases`), the phases of the
simulation are the changes cut into nonempty runs (`flatMap_simulate_changes`), and a finding refers
to changes before the point it is made at (`referBelow_simulate`).
-/

set_option autoImplicit false

namespace PgRoles.Explorer

open Std PgRoles.Lib PgRoles.Core PgRoles.Sql

/-! ## Statuses and their entries -/

/-- The status that a recorded one stands for. -/
def ReviewReachabilityStatus.toStatus : ReviewReachabilityStatus → ReachabilityStatus
  | .reachable => .reachable
  | .unreachable => .unreachable
  | .unknown => .unknown

@[simp] theorem ReviewReachabilityStatus.toStatus_ofStatus (status : ReachabilityStatus) :
    (ReviewReachabilityStatus.ofStatus status).toStatus = status := by
  cases status <;> rfl

@[simp] theorem ReviewReachabilityStatus.ofStatus_toStatus (status : ReviewReachabilityStatus) :
    ReviewReachabilityStatus.ofStatus status.toStatus = status := by
  cases status <;> rfl

/-- The entries of a map of statuses, as the analysis lists them. -/
def entriesOf (statuses : BTreeMap String ReviewReachabilityStatus) : List RoleReachability :=
  statuses.toList.map fun e => ⟨e.1, e.2.toStatus⟩

theorem statusesOf_entriesOf (statuses : BTreeMap String ReviewReachabilityStatus) :
    statusesOf (entriesOf statuses) = statuses := by
  have hentries : (entriesOf statuses).map (fun entry =>
      (entry.role, ReviewReachabilityStatus.ofStatus entry.status)) = statuses.toList := by
    rw [entriesOf, List.map_map]
    exact List.map_id'' (fun e => by simp) _
  rw [statusesOf, hentries]
  refine eq_of_entries_iff fun role status => ?_
  rw [getElem?_ofList_iff (nodup_fst_toList statuses), mem_toList_iff]

/-- What the analysis lists is in order, so it is the entries of its map. -/
theorem entriesOf_statusesOf_reachabilityList (statuses : BTreeMap String ReachabilityStatus) :
    entriesOf (statusesOf (reachabilityList statuses)) = reachabilityList statuses := by
  have hsorted : ((reachabilityList statuses).map fun entry =>
      (entry.role, ReviewReachabilityStatus.ofStatus entry.status)).map Prod.fst =
      statuses.toList.map Prod.fst := by
    rw [reachabilityList, List.map_map, List.map_map]
    rfl
  have hentries : (statusesOf (reachabilityList statuses)).toList =
      (reachabilityList statuses).map fun entry =>
        (entry.role, ReviewReachabilityStatus.ofStatus entry.status) := by
    rw [statusesOf]
    refine toList_ofList_of_sorted ?_
    rw [hsorted]
    exact List.pairwise_map.2 ExtTreeMap.ordered_keys_toList
  rw [entriesOf, hentries, List.map_map]
  exact List.map_id'' (fun e => by simp) _

/-! ## Deltas -/

@[simp] theorem ReviewReachabilityDelta.toDelta_ofDelta
    (delta : MapDelta String ReviewReachabilityStatus) :
    (ReviewReachabilityDelta.ofDelta delta).toDelta = delta := by
  obtain ⟨changed, removed⟩ := delta
  simp only [ReviewReachabilityDelta.ofDelta, ReviewReachabilityDelta.toDelta, List.map_map,
    Function.comp_def, List.map_id']

@[simp] theorem ReviewReachabilityDelta.ofDelta_toDelta (delta : ReviewReachabilityDelta) :
    ReviewReachabilityDelta.ofDelta delta.toDelta = delta := by
  obtain ⟨changed, removed⟩ := delta
  simp only [ReviewReachabilityDelta.ofDelta, ReviewReachabilityDelta.toDelta, List.map_map,
    Function.comp_def, List.map_id']

theorem applyReachabilityDelta_eq_ok
    {state after : BTreeMap String ReviewReachabilityStatus} {delta : ReviewReachabilityDelta}
    {phase : Nat} :
    applyReachabilityDelta state delta phase = .ok after ↔
      applyDelta state delta.toDelta = .ok after := by
  unfold applyReachabilityDelta
  cases applyDelta state delta.toDelta with
  | ok after' => simp [Except.mapError]
  | error fault => simp [Except.mapError]

/-- The reader's step takes the recorded delta to the state it was computed for. -/
theorem applyReachabilityDelta_reachabilityDelta
    (previous : BTreeMap String ReviewReachabilityStatus) (after : List RoleReachability)
    (phase : Nat) :
    applyReachabilityDelta previous (reachabilityDelta previous after).1 phase =
      .ok (statusesOf after) := by
  rw [applyReachabilityDelta_eq_ok, reachabilityDelta,
    ReviewReachabilityDelta.toDelta_ofDelta, applyDelta_deltaOf]

/-- A delta that the reader applies is the one the exporter computes for the state after it. -/
theorem reachabilityDelta_entriesOf {state after : BTreeMap String ReviewReachabilityStatus}
    {delta : ReviewReachabilityDelta} {phase : Nat}
    (h : applyReachabilityDelta state delta phase = .ok after) :
    reachabilityDelta state (entriesOf after) = (delta, after) := by
  rw [reachabilityDelta, statusesOf_entriesOf,
    deltaOf_of_applyDelta (applyReachabilityDelta_eq_ok.1 h),
    ReviewReachabilityDelta.ofDelta_toDelta]

/-- Complete reachability as the analysis has it after one of its phases. -/
def PhaseAnalysis.state (phase : PhaseAnalysis) : PhaseReachability :=
  ⟨statusesOf phase.executorReachability, statusesOf phase.executorUsage⟩

theorem phaseReachabilityFrom_recordedPhasesFrom (phases : List PhaseAnalysis) (nextIndex phase : Nat)
    (previous : PhaseReachability) :
    phaseReachabilityFrom phase previous (recordedPhasesFrom nextIndex previous phases) =
      .ok (phases.map PhaseAnalysis.state) := by
  induction phases generalizing nextIndex phase previous with
  | nil => rfl
  | cons p phases ih =>
      rw [recordedPhasesFrom, phaseReachabilityFrom]
      simp only [applyReachabilityDelta_reachabilityDelta]
      exact congrArg (Except.map (PhaseAnalysis.state p :: ·)) (ih _ _ (PhaseAnalysis.state p))

/-- The fold of what is recorded is the analysis. -/
theorem phaseReachability_recordedPhases (analysis : PlanAnalysis) :
    phaseReachability (recordedPhases analysis) =
      .ok (analysis.phases.map PhaseAnalysis.state) :=
  phaseReachabilityFrom_recordedPhasesFrom analysis.phases 0 0 {}

/-- The deltas of each phase, from the state before the first one on. -/
def deltasFrom (previous : PhaseReachability) :
    List PhaseReachability → List (ReviewReachabilityDelta × ReviewReachabilityDelta)
  | [] => []
  | state :: rest =>
      let reach := reachabilityDelta previous.executorReachability
        (entriesOf state.executorReachability)
      let usage := reachabilityDelta previous.executorUsage (entriesOf state.executorUsage)
      (reach.1, usage.1) :: deltasFrom ⟨reach.2, usage.2⟩ rest

/-- What the reader folds is encoded again as it was. -/
theorem deltasFrom_of_phaseReachabilityFrom {phases : List RecordedPhase} {phase : Nat}
    {previous : PhaseReachability} {states : List PhaseReachability}
    (h : phaseReachabilityFrom phase previous phases = .ok states) :
    deltasFrom previous states =
      phases.map fun p => (p.executorReachabilityDelta, p.executorUsageDelta) := by
  induction phases generalizing phase previous states with
  | nil =>
      cases h
      rfl
  | cons p phases ih =>
      rw [phaseReachabilityFrom] at h
      obtain ⟨reach, hreach, h⟩ := bind_eq_ok.1 h
      obtain ⟨usage, husage, h⟩ := bind_eq_ok.1 h
      obtain ⟨rest, hrest, h⟩ := bind_eq_ok.1 h
      cases h
      rw [deltasFrom, reachabilityDelta_entriesOf hreach, reachabilityDelta_entriesOf husage,
        List.map_cons]
      exact congrArg _ (ih hrest)

/-! ## The phases of the plan -/

section Phases

variable (executor : ExecutorFacts) (options : PlanAnalysisOptions) (recompute : Recompute)

/-- A change that is pushed comes after those that were, and leaves no group empty. -/
theorem pushPhase_step {groups : List (PlanPhase × List Change)} (change : Change)
    (h : ∀ group ∈ groups, group.2 ≠ []) :
    (pushPhase groups change).flatMap Prod.snd = groups.flatMap Prod.snd ++ [change] ∧
      ∀ group ∈ pushPhase groups change, group.2 ≠ [] := by
  have happend : (groups ++ [(phaseFor change, [change])]).flatMap Prod.snd =
        groups.flatMap Prod.snd ++ [change] ∧
      ∀ group ∈ groups ++ [(phaseFor change, [change])], group.2 ≠ [] := by
    refine ⟨by simp, fun group hgroup => ?_⟩
    rcases List.mem_append.1 hgroup with hgroup | hgroup
    · exact h group hgroup
    · rw [List.mem_singleton.1 hgroup]
      exact List.cons_ne_nil _ _
  rcases List.eq_nil_or_concat groups with rfl | ⟨before, last, rfl⟩
  · exact happend
  · obtain ⟨phase, items⟩ := last
    rw [List.concat_eq_append] at h happend ⊢
    have hlast : (before ++ [(phase, items)]).getLast? = some (phase, items) :=
      List.getLast?_concat
    rw [pushPhase, hlast]
    dsimp only
    split_ifs
    · rw [List.dropLast_concat]
      refine ⟨by simp, fun group hgroup => ?_⟩
      rcases List.mem_append.1 hgroup with hgroup | hgroup
      · exact h group (List.mem_append_left _ hgroup)
      · rw [List.mem_singleton.1 hgroup]
        exact List.append_ne_nil_of_right_ne_nil _ (List.cons_ne_nil _ _)
    · exact happend

/-- The groups are the changes cut into nonempty runs. -/
theorem groupedPhases_eq (changes : List Change) :
    (groupedPhases changes).flatMap Prod.snd = changes ∧
      ∀ group ∈ groupedPhases changes, group.2 ≠ [] := by
  induction changes using List.reverseRecOn with
  | nil => exact ⟨rfl, fun _ h => absurd h List.not_mem_nil⟩
  | append_singleton changes change ih =>
      have hgroups : groupedPhases (changes ++ [change]) =
          pushPhase (groupedPhases changes) change := by
        rw [groupedPhases, List.foldl_append]
        rfl
      obtain ⟨hflat, hnonempty⟩ := pushPhase_step change ih.2
      rw [hgroups]
      exact ⟨hflat.trans (congrArg (· ++ [change]) ih.1), hnonempty⟩

/-- What a phase of the analysis lists is a map of statuses. -/
def PhaseAnalysis.Listed (phase : PhaseAnalysis) : Prop :=
  (∃ statuses, phase.executorReachability = reachabilityList statuses) ∧
    ∃ statuses, phase.executorUsage = reachabilityList statuses

/-- The simulation reports one phase for each group, with its changes. -/
theorem foldl_simulatePhase_phases (groups : List (PlanPhase × List Change)) (s : Simulation)
    (phases : List PhaseAnalysis) (h : ∀ phase ∈ phases, phase.Listed) :
    (groups.foldl (simulatePhase executor options recompute) (s, phases)).2.map (·.changes) =
        phases.map (·.changes) ++ groups.map Prod.snd ∧
      ∀ phase ∈ (groups.foldl (simulatePhase executor options recompute) (s, phases)).2,
        phase.Listed := by
  induction groups generalizing s phases with
  | nil => exact ⟨(List.append_nil _).symm, h⟩
  | cons group groups ih =>
      rw [List.foldl_cons]
      obtain ⟨hchanges, hlisted⟩ := ih (simulatePhase executor options recompute (s, phases) group).1
        (simulatePhase executor options recompute (s, phases) group).2 (fun phase hphase => by
          rcases List.mem_append.1 hphase with hphase | hphase
          · exact h phase hphase
          · rw [List.mem_singleton.1 hphase]
            exact ⟨⟨_, rfl⟩, ⟨_, rfl⟩⟩)
      refine ⟨hchanges.trans ?_, hlisted⟩
      rw [simulatePhase]
      dsimp only
      rw [List.map_append, List.append_assoc]
      rfl

/-- The phases hold the changes in their order, and none is empty. -/
theorem flatMap_simulate_changes (graph : RoleGraph) (changes : List Change) :
    (simulate executor options graph changes recompute).1.phases.flatMap (·.changes) = changes ∧
      ∀ phase ∈ (simulate executor options graph changes recompute).1.phases,
        phase.changes ≠ [] ∧ phase.Listed := by
  obtain ⟨hchanges, hlisted⟩ := foldl_simulatePhase_phases executor options recompute
    (groupedPhases changes) (initialSimulation executor options graph) []
    fun _ h => absurd h List.not_mem_nil
  obtain ⟨hflat, hnonempty⟩ := groupedPhases_eq changes
  refine ⟨?_, fun phase hphase => ⟨?_, hlisted phase hphase⟩⟩
  · rw [List.flatMap_def]
    exact (congrArg List.flatten hchanges).trans hflat
  · have hmem := List.mem_map_of_mem (f := (·.changes)) hphase
    rw [simulate, hchanges, List.map_nil, List.nil_append] at hmem
    obtain ⟨group, hgroup, heq⟩ := List.mem_map.1 hmem
    exact heq ▸ hnonempty group hgroup

end Phases

/-! ## What findings refer to -/

/-- The finding refers to changes before the index. -/
def AuthorityFinding.RefersBelow (n : Nat) (finding : AuthorityFinding) : Prop :=
  ∀ i ∈ finding.changeIndex.toList ++ finding.changeIndices, i < n

/-- All findings refer to changes before the index. -/
def Findings.ReferBelow (n : Nat) (f : Findings) : Prop :=
  ∀ finding ∈ f.findings, finding.RefersBelow n

theorem AuthorityFinding.RefersBelow.mono {n m : Nat} {finding : AuthorityFinding}
    (h : finding.RefersBelow n) (hle : n ≤ m) : finding.RefersBelow m :=
  fun i hi => (h i hi).trans_le hle

theorem refersBelow_of_one {finding : AuthorityFinding} {index : Nat}
    (hindex : finding.changeIndex = some index) (hindices : finding.changeIndices = []) :
    finding.RefersBelow (index + 1) := by
  intro i hi
  rw [hindex, hindices, Option.toList_some, List.append_nil, List.mem_singleton] at hi
  exact hi ▸ Nat.lt_succ_self index

theorem refersBelow_of_none {finding : AuthorityFinding} {n : Nat}
    (hindex : finding.changeIndex = none) (hindices : finding.changeIndices = []) :
    finding.RefersBelow n := by
  intro i hi
  rw [hindex, hindices] at hi
  exact absurd hi List.not_mem_nil

/-- What holds of every element and is kept by the change holds after one of them is changed. -/
theorem forall_mem_modify {α : Type} {P : α → Prop} {f : α → α} (hf : ∀ a, P a → P (f a))
    {l : List α} (h : ∀ a ∈ l, P a) (n : Nat) : ∀ a ∈ l.modify n f, P a := by
  induction l generalizing n with
  | nil => rwa [List.modify_nil]
  | cons a l ih =>
      obtain ⟨ha, hl⟩ := List.forall_mem_cons.1 h
      cases n with
      | zero => exact List.forall_mem_cons.2 ⟨hf a ha, hl⟩
      | succ n => exact List.forall_mem_cons.2 ⟨ha, ih hl n⟩

theorem foldl_push (l : List AuthorityFinding) (f : Findings) :
    (l.foldl Findings.push f).findings = f.findings ++ l := by
  induction l generalizing f with
  | nil => exact (List.append_nil _).symm
  | cons finding l ih =>
      rw [List.foldl_cons, ih, Findings.push, List.append_assoc]
      rfl

theorem referBelow_foldl_push {n : Nat} {f : Findings} (hf : f.ReferBelow n)
    {l : List AuthorityFinding} (hl : ∀ finding ∈ l, finding.RefersBelow n) :
    (l.foldl Findings.push f).ReferBelow n := by
  unfold Findings.ReferBelow
  rw [foldl_push, List.forall_mem_append]
  exact ⟨hf, hl⟩

section Findings

variable {authority : AuthorityState} {phase : PlanPhase} {index : Nat} {change : Change}
  {finding : AuthorityFinding}

theorem refersBelow_requiredRoleFinding
    (h : requiredRoleFinding authority phase index change = some finding) :
    finding.RefersBelow (index + 1) := by
  unfold requiredRoleFinding at h
  split at h
  · cases h
  · dsimp only at h
    split at h
    · cases h
    · cases h
      exact refersBelow_of_one rfl rfl
    · cases h
      exact refersBelow_of_one rfl rfl

theorem refersBelow_adminOptionFinding {role : String}
    (h : adminOptionFinding authority phase index role = some finding) :
    finding.RefersBelow (index + 1) := by
  unfold adminOptionFinding at h
  dsimp only at h
  split at h
  · cases h
  · cases h
    exact refersBelow_of_one rfl rfl
  · cases h
    exact refersBelow_of_one rfl rfl

theorem refersBelow_membershipFinding
    (h : membershipFinding authority phase index change = some finding) :
    finding.RefersBelow (index + 1) := by
  obtain ⟨role, -, h⟩ := Option.bind_eq_some_iff.1 h
  split_ifs at h
  · cases h
    exact refersBelow_of_one rfl rfl
  · exact refersBelow_adminOptionFinding h

theorem refersBelow_ownershipFinding
    (h : ownershipFinding authority phase index change = some finding) :
    finding.RefersBelow (index + 1) := by
  cases change with
  | alterSchemaOwner name owner =>
      cases h
      exact refersBelow_of_one rfl rfl
  | _ => cases h

/-- An aggregated finding takes in the change it is at. -/
theorem referBelow_notePreflight {f : Findings} (hf : f.ReferBelow (index + 1)) :
    (notePreflight phase index change f).ReferBelow (index + 1) := by
  unfold notePreflight
  split
  · refine forall_mem_modify (fun a ha => ?_) hf _
    intro i hi
    rw [← List.append_assoc, List.mem_append, List.mem_singleton] at hi
    rcases hi with hi | rfl
    · exact ha i hi
    · exact Nat.lt_succ_self i
  · refine List.forall_mem_append.2 ⟨hf, fun a ha => ?_⟩
    rw [List.mem_singleton.1 ha]
    intro i hi
    rcases List.mem_cons.1 hi with rfl | hi
    · exact Nat.lt_succ_self i
    · rw [List.mem_singleton.1 hi]
      exact Nat.lt_succ_self index

/-- The findings about one change refer to it or to earlier ones. -/
theorem referBelow_analyzeRequiredAuthority {f : Findings} (hf : f.ReferBelow index) :
    (analyzeRequiredAuthority change phase index authority f).ReferBelow (index + 1) := by
  have hpushed := referBelow_foldl_push (n := index + 1)
    (l := (if authority.isSuperuser then [] else
        (requiredRoleFinding authority phase index change).toList ++
          (membershipFinding authority phase index change).toList) ++
      (ownershipFinding authority phase index change).toList)
    (fun a ha => (hf a ha).mono (Nat.le_succ index)) (by
      refine List.forall_mem_append.2 ⟨fun a ha => ?_, fun a ha =>
        refersBelow_ownershipFinding (Option.mem_toList.1 ha)⟩
      split_ifs at ha
      · exact absurd ha List.not_mem_nil
      · rcases List.mem_append.1 ha with ha | ha
        · exact refersBelow_requiredRoleFinding (Option.mem_toList.1 ha)
        · exact refersBelow_membershipFinding (Option.mem_toList.1 ha))
  unfold analyzeRequiredAuthority
  dsimp only
  by_cases hneeds : needsPreflight change = true
  · rw [if_pos hneeds]
    exact referBelow_notePreflight hpushed
  · rw [if_neg hneeds]
    exact hpushed

theorem referBelow_compareReachability {before after : BTreeMap String ReachabilityStatus}
    {dropped : BTreeSet String} {complete : Bool} {n : Nat} {f : Findings}
    (hf : f.ReferBelow n) :
    (compareReachability phase before after dropped complete f).ReferBelow n := by
  refine referBelow_foldl_push hf fun a ha => ?_
  obtain ⟨role, -, hrole⟩ := List.mem_filterMap.1 ha
  unfold reachFinding at hrole
  split_ifs at hrole
  obtain ⟨report, -, rfl⟩ := Option.map_eq_some_iff.1 hrole
  exact refersBelow_of_none rfl rfl

/-- To word the findings changes their messages alone. -/
theorem refersBelow_finishPreflightFindings {n : Nat} {f : Findings} (hf : f.ReferBelow n) :
    ∀ finding ∈ finishPreflightFindings f, finding.RefersBelow n := by
  unfold finishPreflightFindings
  obtain ⟨findings, preflight⟩ := f
  change ∀ finding ∈ findings, finding.RefersBelow n at hf
  dsimp only
  generalize preflight.toList = entries
  induction entries generalizing findings with
  | nil => exact hf
  | cons entry entries ih =>
      refine ih _ (forall_mem_modify ?_ hf _)
      exact fun _ ha => ha

end Findings

section Refer

variable (executor : ExecutorFacts) (options : PlanAnalysisOptions) (recompute : Recompute)

theorem simulateChange_referBelow {phase : PlanPhase} {s : Simulation} (change : Change)
    (h : s.findings.ReferBelow s.globalChangeIndex) :
    (simulateChange executor options recompute phase s change).globalChangeIndex =
        s.globalChangeIndex + 1 ∧
      (simulateChange executor options recompute phase s change).findings.ReferBelow
        (s.globalChangeIndex + 1) := by
  have hadvance := @referBelow_analyzeRequiredAuthority (s.authority options) phase
    s.globalChangeIndex change s.findings h
  rw [simulateChange]
  split_ifs
  · exact ⟨rfl, hadvance⟩
  · exact ⟨rfl, hadvance⟩

/-- So they do after the changes of a phase. -/
theorem foldl_simulateChange_referBelow {phase : PlanPhase} {s : Simulation}
    (changes : List Change) (h : s.findings.ReferBelow s.globalChangeIndex) :
    (changes.foldl (simulateChange executor options recompute phase) s).globalChangeIndex =
        s.globalChangeIndex + changes.length ∧
      (changes.foldl (simulateChange executor options recompute phase) s).findings.ReferBelow
        (s.globalChangeIndex + changes.length) := by
  induction changes generalizing s with
  | nil => exact ⟨rfl, h⟩
  | cons change changes ih =>
      obtain ⟨hnext, hstep⟩ :=
        @simulateChange_referBelow executor options recompute phase s change h
      obtain ⟨hindex, hbelow⟩ := ih (hnext ▸ hstep)
      have hlength : s.globalChangeIndex + 1 + changes.length =
          s.globalChangeIndex + (change :: changes).length := by
        rw [List.length_cons]
        omega
      rw [hnext, hlength] at hindex hbelow
      exact ⟨hindex, hbelow⟩

/-- So they do after all phases. -/
theorem foldl_simulatePhase_referBelow (groups : List (PlanPhase × List Change)) {s : Simulation}
    (phases : List PhaseAnalysis) (h : s.findings.ReferBelow s.globalChangeIndex) :
    (groups.foldl (simulatePhase executor options recompute) (s, phases)).1.findings.ReferBelow
      (s.globalChangeIndex + (groups.flatMap Prod.snd).length) := by
  induction groups generalizing s phases with
  | nil => exact h
  | cons group groups ih =>
      obtain ⟨hindex, hbelow⟩ :=
        @foldl_simulateChange_referBelow executor options recompute group.1 s group.2 h
      have hphase := ih (s := (simulatePhase executor options recompute (s, phases) group).1)
        (simulatePhase executor options recompute (s, phases) group).2
        (referBelow_compareReachability (hindex ▸ hbelow))
      rw [List.flatMap_cons, List.length_append, ← Nat.add_assoc, ← hindex]
      exact hphase

/-- A finding of the analysis refers to changes of the plan. -/
theorem referBelow_simulate (graph : RoleGraph) (changes : List Change) :
    ∀ finding ∈ (simulate executor options graph changes recompute).1.findings,
      finding.RefersBelow changes.length := by
  have hrun := @foldl_simulatePhase_referBelow executor options recompute (groupedPhases changes)
    (initialSimulation executor options graph) []
    fun _ hfinding => absurd hfinding List.not_mem_nil
  rw [(groupedPhases_eq changes).1] at hrun
  have hstart : (initialSimulation executor options graph).globalChangeIndex = 0 := rfl
  rw [hstart, Nat.zero_add] at hrun
  exact refersBelow_finishPreflightFindings hrun

end Refer

/-! ## What the reader checks -/

/-- The recorded phases share out the changes in order. -/
theorem flatMap_changeIndices (phases : List PhaseAnalysis) (nextIndex : Nat)
    (previous : PhaseReachability) :
    (recordedPhasesFrom nextIndex previous phases).flatMap (·.changeIndices) =
      List.range' nextIndex (phases.flatMap (·.changes)).length := by
  induction phases generalizing nextIndex previous with
  | nil => rfl
  | cons phase phases ih =>
      rw [recordedPhasesFrom, List.flatMap_cons, List.flatMap_cons, List.length_append, ih,
        List.range'_append_1]

theorem changeIndices_ne_nil {phases : List PhaseAnalysis} (h : ∀ phase ∈ phases, phase.changes ≠ [])
    (nextIndex : Nat) (previous : PhaseReachability) :
    ∀ phase ∈ recordedPhasesFrom nextIndex previous phases, phase.changeIndices ≠ [] := by
  induction phases generalizing nextIndex previous with
  | nil => exact fun _ h => absurd h List.not_mem_nil
  | cons phase phases ih =>
      obtain ⟨hphase, hrest⟩ := List.forall_mem_cons.1 h
      rw [recordedPhasesFrom]
      refine List.forall_mem_cons.2 ⟨?_, ih hrest _ _⟩
      rw [Ne, ← List.length_eq_zero_iff, List.length_range', List.length_eq_zero_iff]
      exact hphase

variable {input : ReviewArtifactInput}

theorem length_recordedChanges : input.recordedChanges.length = input.changes.length := by
  rw [ReviewArtifactInput.recordedChanges, List.length_map, List.length_zipIdx]

theorem getElem?_recordedChanges (i : Nat) :
    input.recordedChanges[i]? =
      input.changes[i]?.map fun change => recordedChange input.changeSources change i := by
  rw [ReviewArtifactInput.recordedChanges, List.getElem?_map, List.getElem?_zipIdx, Option.map_map,
    Nat.zero_add]
  rfl

/-- A recorded change carries its position. -/
theorem index_of_recordedChanges {i : Nat} {recorded : RecordedChange}
    (h : input.recordedChanges[i]? = some recorded) :
    recorded.index = i ∧ i < input.changes.length := by
  rw [getElem?_recordedChanges] at h
  obtain ⟨change, hchange, rfl⟩ := Option.map_eq_some_iff.1 h
  exact ⟨rfl, (List.getElem?_eq_some_iff.1 hchange).1⟩

/-- The sensitive changes of a preview are changes of the plan. -/
theorem sqlPreview_sensitive {reason : SqlOmissionReason} {sensitive : List Nat}
    (h : input.sqlPreview = .ok (.omitted reason sensitive)) :
    ∀ i ∈ sensitive, i < input.changes.length := by
  have hsensitive : ∀ i ∈ (input.recordedChanges.filter fun c => !c.omissions.isEmpty).map (·.index),
      i < input.changes.length := by
    intro i hi
    obtain ⟨recorded, hrecorded, rfl⟩ := List.mem_map.1 hi
    obtain ⟨j, hj⟩ := List.mem_iff_getElem?.1 (List.mem_filter.1 hrecorded).1
    obtain ⟨hindex, hlt⟩ := index_of_recordedChanges hj
    exact hindex ▸ hlt
  unfold ReviewArtifactInput.sqlPreview at h
  dsimp only at h
  split_ifs at h
  · -- a preview that is there is not left out
    cases hrender : renderAllWithContext input.changes input.sqlContext with
    | error failure =>
        rw [hrender] at h
        cases h
    | ok sql =>
        rw [hrender] at h
        cases h
  · cases h
    exact hsensitive

/-- The preflight evidence refers to changes of the plan. -/
def ReviewArtifactInput.PreflightRefers (input : ReviewArtifactInput) : Prop :=
  ∀ evidence ∈ input.preflight,
    ∀ i ∈ evidence.coverage.checkedChangeIndices ++ evidence.coverage.uncheckedChangeIndices,
      i < input.changes.length

/-- Every index of a built artifact refers to a change. -/
theorem referenced_unsigned (hpreflight : input.PreflightRefers) {preview : SqlPreview}
    (hpreview : input.sqlPreview = .ok preview) :
    ∀ i ∈ (input.unsigned preview).referenced, i < input.changes.length := by
  intro i hi
  rcases List.mem_append.1 hi with hi | hi
  · rcases List.mem_append.1 hi with hi | hi
    · obtain ⟨recorded, hrecorded, hi⟩ := List.mem_flatMap.1 hi
      obtain ⟨finding, hfinding, rfl⟩ := List.mem_map.1 hrecorded
      exact referBelow_simulate _ _ _ _ _ finding hfinding i hi
    · obtain ⟨evidence, hevidence, hi⟩ := List.mem_flatMap.1 hi
      exact hpreflight evidence hevidence i hi
  · cases preview with
    | available sql => exact absurd hi List.not_mem_nil
    | omitted reason sensitive => exact sqlPreview_sensitive hpreview i hi

theorem buildReviewArtifact_eq_ok {sha256 : ByteArray → String} {artifact : ReviewArtifact} :
    buildReviewArtifact sha256 input = .ok artifact ↔
      input.checkSources = .ok () ∧ ∃ preview, input.sqlPreview = .ok preview ∧
        (input.unsigned preview).signed sha256 = artifact ∧
        (ReviewArtifact.codec.write artifact).prettyBytes.size ≤ maxReviewArtifactBytes := by
  unfold buildReviewArtifact
  rw [check_bind_eq_ok, bind_eq_ok]
  refine and_congr_right fun _ => exists_congr fun preview => and_congr_right fun _ => ?_
  rw [check_bind_eq_ok, rejectIf_eq_ok, decide_eq_false_iff_not, Nat.not_lt, and_comm]
  constructor
  · rintro ⟨h, hsize⟩
    cases h
    exact ⟨rfl, hsize⟩
  · rintro ⟨rfl, hsize⟩
    exact ⟨rfl, hsize⟩

/-- The probe finds the version in a whole artifact. -/
theorem versionProbe_write (artifact : ReviewArtifact) :
    versionProbe.read (ReviewArtifact.codec.write artifact) = some artifact.schemaVersion := rfl

/-- The fingerprint is not part of what it is computed over. -/
theorem computedReviewFingerprint_signed (sha256 : ByteArray → String) (artifact : ReviewArtifact) :
    (artifact.signed sha256).computedReviewFingerprint sha256 =
      (artifact.signed sha256).recorded.reviewFingerprint := rfl

/-- The reader passes every check on an artifact that was built. -/
theorem checks_unsigned (hpreflight : input.PreflightRefers) {preview : SqlPreview}
    (hpreview : input.sqlPreview = .ok preview) :
    ((input.unsigned preview).recorded.changes.zipIdx.any fun e => e.1.index != e.2) = false ∧
      (((input.unsigned preview).recorded.phases.flatMap (·.changeIndices)) !=
          List.range (input.unsigned preview).recorded.changes.length ||
        (input.unsigned preview).recorded.phases.any (·.changeIndices.isEmpty)) = false ∧
      ((input.unsigned preview).referenced.any fun index =>
        (input.unsigned preview).recorded.changes.length ≤ index) = false := by
  have hlength : (input.unsigned preview).recorded.changes.length = input.changes.length :=
    length_recordedChanges
  obtain ⟨hflat, hphases⟩ := flatMap_simulate_changes input.executorFacts
    ⟨input.context.authorityGraphComplete, input.majorVersion⟩ .whenAffected input.current
    input.changes
  rw [hlength]
  refine ⟨?_, Bool.or_eq_false_iff.2 ⟨?_, ?_⟩, ?_⟩
  · refine List.any_eq_false.2 fun e he => ?_
    have hindex := (index_of_recordedChanges (List.mem_zipIdx_iff_getElem?.1 he)).1
    rw [bne_iff_ne, not_not]
    exact hindex
  · rw [bne_eq_false_iff_eq, List.range_eq_range']
    refine (flatMap_changeIndices input.analysis.phases 0 {}).trans ?_
    rw [ReviewArtifactInput.analysis, hflat]
  · refine List.any_eq_false.2 fun phase hphase hempty => ?_
    exact changeIndices_ne_nil (fun p hp => (hphases p hp).1) 0 {} phase hphase
      (List.isEmpty_iff.1 hempty)
  · refine List.any_eq_false.2 fun i hi hle => ?_
    exact absurd (referenced_unsigned hpreflight hpreview i hi)
      (Nat.not_lt.2 (of_decide_eq_true hle))

/-- The fold of the recorded deltas gives the states of the analysis. -/
theorem phaseReachability_signed {sha256 : ByteArray → String} (preview : SqlPreview) :
    phaseReachability ((input.unsigned preview).signed sha256).recorded.phases =
      .ok (input.analysis.phases.map PhaseAnalysis.state) :=
  phaseReachability_recordedPhases input.analysis

/-- The reader returns an artifact that was built, when its text is not too large. -/
theorem parse_signed {fromSlice : ByteArray → Option Json} {sha256 : ByteArray → String}
    {preview : SqlPreview} (hpreflight : input.PreflightRefers)
    (hpreview : input.sqlPreview = .ok preview)
    (hserde : fromSlice
        (ReviewArtifact.codec.write ((input.unsigned preview).signed sha256)).prettyBytes =
      some (ReviewArtifact.codec.write ((input.unsigned preview).signed sha256)))
    (hsize : (ReviewArtifact.codec.write
      ((input.unsigned preview).signed sha256)).prettyBytes.size ≤ maxReviewArtifactBytes) :
    parseReviewArtifact fromSlice sha256
        (ReviewArtifact.codec.write ((input.unsigned preview).signed sha256)).prettyBytes =
      .ok ((input.unsigned preview).signed sha256) := by
  obtain ⟨hindexed, hpartition, hreferenced⟩ := checks_unsigned hpreflight hpreview
  unfold parseReviewArtifact
  rw [hserde, Option.bind_some, versionProbe_write, Option.bind_some,
    ReviewArtifact.codec.read_write]
  refine check_bind_eq_ok.2 ⟨rejectIf_eq_ok.2 (decide_eq_false (Nat.not_lt.2 hsize)), ?_⟩
  refine bind_eq_ok.2 ⟨reviewArtifactSchemaVersion, rfl, ?_⟩
  refine check_bind_eq_ok.2 ⟨rejectIf_eq_ok.2 (by decide), ?_⟩
  refine bind_eq_ok.2 ⟨(input.unsigned preview).signed sha256, rfl, ?_⟩
  refine check_bind_eq_ok.2 ⟨rejectIf_eq_ok.2 hindexed, ?_⟩
  refine check_bind_eq_ok.2 ⟨rejectIf_eq_ok.2 hpartition, ?_⟩
  refine check_bind_eq_ok.2 ⟨rejectIf_eq_ok.2 hreferenced, ?_⟩
  refine bind_eq_ok.2 ⟨_, phaseReachability_signed preview, ?_⟩
  refine check_bind_eq_ok.2 ⟨rejectIf_eq_ok.2 ?_, rfl⟩
  exact bne_eq_false_iff_eq.2 (computedReviewFingerprint_signed sha256 _)

/-- For every input that an artifact is built from and whose preflight evidence refers to changes of
the plan, the reader accepts the pretty-printed artifact and returns it with its fingerprint, and the
fold of its deltas is what the analysis lists, phase by phase. For every list of recorded phases that
the fold accepts, the exporter computes the recorded deltas from what was folded. -/
theorem parse_buildReviewArtifact {fromSlice : ByteArray → Option Json}
    {sha256 : ByteArray → String} {input : ReviewArtifactInput} {artifact : ReviewArtifact}
    (hserde : fromSlice (ReviewArtifact.codec.write artifact).prettyBytes =
      some (ReviewArtifact.codec.write artifact))
    (hbuild : buildReviewArtifact sha256 input = .ok artifact)
    (hpreflight : input.PreflightRefers) :
    parseReviewArtifact fromSlice sha256 (ReviewArtifact.codec.write artifact).prettyBytes =
        .ok artifact ∧
      artifact.computedReviewFingerprint sha256 = artifact.recorded.reviewFingerprint ∧
      (∃ states, phaseReachability artifact.recorded.phases = .ok states ∧
        states.map (fun s => (entriesOf s.executorReachability, entriesOf s.executorUsage)) =
          input.analysis.phases.map fun p => (p.executorReachability, p.executorUsage)) ∧
      ∀ phases states, phaseReachability phases = .ok states →
        deltasFrom {} states =
          phases.map fun p => (p.executorReachabilityDelta, p.executorUsageDelta) := by
  obtain ⟨-, preview, hpreview, rfl, hsize⟩ := buildReviewArtifact_eq_ok.1 hbuild
  refine ⟨parse_signed hpreflight hpreview hserde hsize, computedReviewFingerprint_signed sha256 _,
    ⟨_, phaseReachability_signed preview, ?_⟩,
    fun phases states => deltasFrom_of_phaseReachabilityFrom⟩
  rw [List.map_map]
  refine List.map_congr_left fun phase hphase => ?_
  obtain ⟨-, ⟨reach, hreach⟩, ⟨usage, husage⟩⟩ := (flatMap_simulate_changes input.executorFacts
    ⟨input.context.authorityGraphComplete, input.majorVersion⟩ .whenAffected input.current
    input.changes).2 phase hphase
  rw [Function.comp_apply, PhaseAnalysis.state, hreach, husage,
    entriesOf_statusesOf_reachabilityList, entriesOf_statusesOf_reachabilityList]

/-- A superuser's plan that creates one role and drops another. -/
def webPlan : ReviewArtifactInput where
  provenance :=
    { toolVersion := "0.1.0"
      capturedAt := "2024-01-01T00:00:00Z"
      policy :=
        ⟨"sha256:e3b0c44298fc1c149afbf4c8996fb92427ae41e4649b934ca495991b7852b855", none⟩
      targetLabel := "primary"
      pgMajorVersion := 16 }
  context := ⟨.authoritative, none, ⟨"postgres", some true⟩, ⟨"postgres", some true⟩, true⟩
  preflight := [
    { check := .executorAuthority, status := .passed, actorRole := some "postgres"
      issueCount := 0, issues := []
      coverage := ⟨.complete, [.planOrderAuthority], [0, 1], []⟩ }]
  current := { roles := ExtTreeMap.ofList [("app", {})] compare }
  changes := [.createRole "web" {}, .dropRole "app"]
  changeSources := none
  executorFacts := { role := "postgres", superuser := true }
  sqlContext := {}
  exploration := .omitted .recordedOnlyExport

/-- The digest of the fingerprinted text of the plan's artifact. -/
def webPlanSha256 (_ : ByteArray) : String :=
  "707342568dcb2a0d84361228f4282f0da8b2ada1f720b78c864abf7002b6e2d9"

/-- The SQL of the plan. -/
def webPlanPreview : SqlPreview :=
  .available ("CREATE ROLE \"web\" NOLOGIN NOSUPERUSER NOCREATEDB " ++
    "NOCREATEROLE INHERIT NOREPLICATION NOBYPASSRLS;\nDROP ROLE IF EXISTS \"app\";")

/-- The artifact of that plan. -/
def webPlanArtifact : ReviewArtifact :=
  (webPlan.unsigned webPlanPreview).signed webPlanSha256

theorem sqlPreview_webPlan : webPlan.sqlPreview = .ok webPlanPreview := by decide +kernel

theorem preflightRefers_webPlan : webPlan.PreflightRefers := by
  unfold ReviewArtifactInput.PreflightRefers
  decide

/-- The parser, on the text of the plan's artifact. -/
def webPlanFromSlice (json : ByteArray) : Option Json :=
  if json = (ReviewArtifact.codec.write webPlanArtifact).prettyBytes then
    some (ReviewArtifact.codec.write webPlanArtifact)
  else none

/-- The artifact is read back, with its phases. -/
theorem webPlan_reads_back :
    parseReviewArtifact webPlanFromSlice webPlanSha256
        (ReviewArtifact.codec.write webPlanArtifact).prettyBytes = .ok webPlanArtifact ∧
      (∃ states, phaseReachability webPlanArtifact.recorded.phases = .ok states ∧
        states.map (fun s => (entriesOf s.executorReachability, entriesOf s.executorUsage)) =
          webPlan.analysis.phases.map fun p => (p.executorReachability, p.executorUsage)) := by
  have hsize : (ReviewArtifact.codec.write webPlanArtifact).prettyBound 0 ≤ 100000 := by
    decide +kernel
  have hbuild : buildReviewArtifact webPlanSha256 webPlan = .ok webPlanArtifact :=
    buildReviewArtifact_eq_ok.2 ⟨rfl, _, sqlPreview_webPlan, rfl,
      (Json.size_prettyBytes_le _).trans ((Nat.mul_le_mul_left 4 hsize).trans (by decide))⟩
  have hserde : webPlanFromSlice (ReviewArtifact.codec.write webPlanArtifact).prettyBytes =
      some (ReviewArtifact.codec.write webPlanArtifact) := if_pos rfl
  have hround := parse_buildReviewArtifact hserde hbuild preflightRefers_webPlan
  exact ⟨hround.1, hround.2.2.1⟩

end PgRoles.Explorer

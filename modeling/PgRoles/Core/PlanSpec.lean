import PgRoles.Core.DiffSpec
import PgRoles.Core.Plan

/-!
# What the passes over a plan do

Retirements and preserved grants rewrite only drops and revokes, the other two passes filter. So the
changes of one phase are followed through the passes one at a time (`filter_planChanges`), and each
change of a plan comes from one of the diff (`mem_planChanges`).
-/

set_option autoImplicit false

namespace PgRoles.Core

open Std PgRoles.Lib

variable {c : Change} {l : List Change}

/-! ## Single passes -/

/-- A rewriting that keeps the selected changes and adds none is invisible to the selection. -/
theorem filter_flatMap_eq {f : Change → List Change} {q : Change → Bool}
    (h : ∀ c, (f c).filter q = if q c then [c] else []) (l : List Change) :
    (l.flatMap f).filter q = l.filter q := by
  induction l with
  | nil => rfl
  | cons c l ih =>
      rw [List.flatMap_cons, List.filter_append, ih, h]
      cases hq : q c with
      | true => rw [List.filter_cons_of_pos hq]; rfl
      | false => rw [List.filter_cons_of_neg (by simp [hq])]; rfl

theorem phase_of_mem_retirementSteps {name : String} {retirement : RoleRetirement}
    (h : c ∈ retirementSteps name retirement) : c.phase = .retirement := by
  simp only [retirementSteps, List.mem_append] at h
  rcases h with (h | h) | h
  · split_ifs at h
    · rw [List.mem_singleton.1 h]
      rfl
    · exact absurd h List.not_mem_nil
  · split at h
    · rw [List.mem_singleton.1 h]
      rfl
    · exact absurd h List.not_mem_nil
  · split_ifs at h
    · rw [List.mem_singleton.1 h]
      rfl
    · exact absurd h List.not_mem_nil

theorem withRetirement_eq (retirements : BTreeMap String RoleRetirement) (c : Change) :
    ∃ steps, withRetirement retirements c = steps ++ [c] ∧ ∀ s ∈ steps, s.phase = .retirement := by
  cases c with
  | dropRole name =>
      cases hr : retirements[name]? with
      | none => exact ⟨[], by simp [withRetirement, hr], by simp⟩
      | some retirement =>
          exact ⟨retirementSteps name retirement, by simp [withRetirement, hr],
            fun s hs => phase_of_mem_retirementSteps hs⟩
  | _ => exact ⟨[], rfl, by simp⟩

theorem filter_applyRoleRetirements {q : Phase → Bool} (hq : q .retirement = false)
    (l : List Change) (retirements : List RoleRetirement) :
    (applyRoleRetirements l retirements).filter (fun c => q c.phase) =
      l.filter fun c => q c.phase := by
  unfold applyRoleRetirements
  split_ifs
  · rfl
  · apply filter_flatMap_eq
    intro c
    obtain ⟨steps, heq, hsteps⟩ := withRetirement_eq (retirementByRole retirements) c
    have hnone : steps.filter (fun c => q c.phase) = [] := by
      rw [filter_phase hsteps, hq]
      rfl
    rw [heq, List.filter_append, hnone, List.nil_append]
    cases hc : q c.phase <;> simp [hc]

theorem phase_of_mem_revokeUnlessEmpty {k : GrantKey} {s : Finset Privilege} {g : Option String}
    (h : c ∈ revokeUnlessEmpty k s g) : c.phase = .revoke := by
  unfold revokeUnlessEmpty at h
  split_ifs at h
  · exact absurd h List.not_mem_nil
  · rw [List.mem_singleton.1 h]
    rfl

theorem phase_of_mem_enforcedRevokes {desired : RoleGraph} {k : GrantKey} {s : Finset Privilege}
    {g : Option String} (h : c ∈ enforcedRevokes desired k s g) : c.phase = .revoke := by
  unfold enforcedRevokes at h
  dsimp only at h
  split at h
  · rcases List.mem_append.1 h with h | h
    · exact phase_of_mem_revokeUnlessEmpty h
    · obtain ⟨a, absent, -, hc⟩ := mem_flatMap_toList.1 h
      split_ifs at hc
      · exact phase_of_mem_revokeUnlessEmpty hc
      · exact absurd hc List.not_mem_nil
  · exact phase_of_mem_revokeUnlessEmpty h

/-- Only revokes are rewritten, and only into revokes. -/
theorem preserveGrants_cases (roles : List RoleDefinition) (desired : RoleGraph) (c : Change) :
    preserveGrants roles desired c = [c] ∨
      (c.phase = .revoke ∧ ∀ c' ∈ preserveGrants roles desired c, c'.phase = .revoke) := by
  cases c with
  | revoke key privileges grantor =>
      rw [preserveGrants]
      split_ifs
      · exact Or.inr ⟨rfl, fun c' hc' => phase_of_mem_enforcedRevokes hc'⟩
      · exact Or.inl rfl
  | _ => exact Or.inl rfl

theorem filter_filterPreservedGrantRevokes {q : Phase → Bool} (hq : q .revoke = false)
    (l : List Change) (roles : List RoleDefinition) (desired : RoleGraph) :
    (filterPreservedGrantRevokes l roles desired).filter (fun c => q c.phase) =
      l.filter fun c => q c.phase := by
  apply filter_flatMap_eq
  intro c
  rcases preserveGrants_cases roles desired c with heq | ⟨hc, hall⟩
  · rw [heq]
    cases hc : q c.phase <;> simp [hc]
  · rw [filter_phase hall, hc, hq]
    rfl

theorem phase_of_keepIncreases {c' : Change} (h : keepIncreases c = some c') :
    c'.phase = c.phase := by
  cases c with
  | updateMemberOptions role member grantor inherit admin binding =>
      simp only [keepIncreases] at h
      split_ifs at h
      rw [← Option.some.inj h]
      rfl
  | _ =>
      rw [← Option.some.inj h]

/-! ## The changes of a plan -/

/-- The diff with its retirement steps, which the mode filters. -/
def fullPlan (current desired : RoleGraph) (m : PolicyManifest) : List Change :=
  applyRoleRetirements (diff current (desired.resolveRoutineAliases current.routineAliases))
    m.retirements

/-- A change of a plan whose phase is neither a revoke nor a retirement step comes from the diff,
through the mode and the filter for roles owned elsewhere. -/
theorem mem_planChanges {current desired : RoleGraph} {m : PolicyManifest} {e : ExpandedManifest}
    {mode : ReconciliationMode} (hphase : c.phase ≠ .revoke) :
    c ∈ planChanges current desired m e mode ↔
      c ∈ filterChanges (applyRoleRetirements
          (diff current (desired.resolveRoutineAliases current.routineAliases)) m.retirements)
          mode ∧
        keptForExternal e.roles e.memberships c = true := by
  have hq := filter_filterPreservedGrantRevokes (q := (· == c.phase))
    (by simpa using fun h => hphase h.symm)
  have hself : ∀ l : List Change, c ∈ l ↔ c ∈ l.filter fun c' => c'.phase == c.phase := by
    intro l
    simp
  rw [planChanges, hself, hq, ← hself, filterExternalRoleChanges, List.mem_filter]

/-! ## A plan as one rewriting of the diff -/

theorem withRetirement_empty (c : Change) : withRetirement ∅ c = [c] := by
  cases c with
  | dropRole name => simp [withRetirement]
  | _ => rfl

theorem applyRoleRetirements_eq (l : List Change) (retirements : List RoleRetirement) :
    applyRoleRetirements l retirements =
      l.flatMap (withRetirement (retirementByRole retirements)) := by
  unfold applyRoleRetirements
  split_ifs with h
  · have hempty : retirementByRole retirements = ∅ := by
      rw [List.isEmpty_iff.1 h]
      rfl
    rw [hempty, List.flatMap_congr fun c _ => withRetirement_empty c, List.flatMap_singleton']
  · rfl

/-- What a mode makes of one change of the full plan. -/
def keptByMode (full : List Change) : ReconciliationMode → Change → List Change
  | .authoritative, c => [c]
  | .additive, c => (keepIncreases c).toList.filter (keptByAdditive full)
  | .adopt, c => if isRoleDropOrRetirement c then [] else [c]

theorem filterChanges_eq (l : List Change) (mode : ReconciliationMode) :
    filterChanges l mode = l.flatMap (keptByMode l mode) := by
  cases mode with
  | authoritative => exact (List.flatMap_singleton' l).symm
  | additive =>
      rw [filterChanges, filterAdditiveChanges, List.filterMap_eq_flatMap_toList,
        List.filter_flatMap]
      rfl
  | adopt =>
      induction l with
      | nil => rfl
      | cons c l ih =>
          have hsame : keptByMode (c :: l) .adopt = keptByMode l .adopt := rfl
          rw [filterChanges] at ih ⊢
          rw [List.flatMap_cons, hsame, ← ih]
          cases h : isRoleDropOrRetirement c <;> simp [keptByMode, h]

/-- What the passes after the retirements make of one change of the full plan. -/
def passedChange (full : List Change) (e : ExpandedManifest) (mode : ReconciliationMode)
    (resolved : RoleGraph) (c : Change) : List Change :=
  ((keptByMode full mode c).filter (keptForExternal e.roles e.memberships)).flatMap
    (preserveGrants e.roles resolved)

/-- What all passes make of one change of the diff. -/
def plannedChange (current desired : RoleGraph) (m : PolicyManifest) (e : ExpandedManifest)
    (mode : ReconciliationMode) (c : Change) : List Change :=
  (withRetirement (retirementByRole m.retirements) c).flatMap
    (passedChange (fullPlan current desired m) e mode
      (desired.resolveRoutineAliases current.routineAliases))

/-- The desired graph the diff of a plan compares with: the plan resolves routine names, and the
diff resolves them once more. -/
def plannedGraph (current desired : RoleGraph) : RoleGraph :=
  (desired.resolveRoutineAliases current.routineAliases).resolveRoutineAliases
    current.routineAliases

/-- The passes rewrite each change of the diff on its own and keep the order. -/
theorem planChanges_eq (current desired : RoleGraph) (m : PolicyManifest) (e : ExpandedManifest)
    (mode : ReconciliationMode) :
    planChanges current desired m e mode =
      (diffResolved current (plannedGraph current desired)).flatMap
        (plannedChange current desired m e mode) := by
  have hfull : fullPlan current desired m = (diffResolved current
      (plannedGraph current desired)).flatMap
        (withRetirement (retirementByRole m.retirements)) :=
    applyRoleRetirements_eq _ _
  have hplan : planChanges current desired m e mode = (fullPlan current desired m).flatMap
      (passedChange (fullPlan current desired m) e mode
        (desired.resolveRoutineAliases current.routineAliases)) := by
    rw [planChanges]
    simp only [filterPreservedGrantRevokes, filterExternalRoleChanges]
    rw [filterChanges_eq, List.filter_flatMap, List.flatMap_assoc]
    rfl
  rw [hplan]
  nth_rewrite 2 [hfull]
  rw [List.flatMap_assoc]
  rfl

end PgRoles.Core

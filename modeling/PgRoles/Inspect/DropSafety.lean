import PgRoles.Core.PlanOrder

/-!
# The safety of role drops

Before a role is dropped, the catalog is asked what hangs on it: objects it owns, privileges and
other dependencies, here and in other databases, and its sessions. The report is split by the
manifest's retirements into warnings, which the steps of a retirement handle, and blockers.

The assessment reads the retirements of the manifest, the plan carries the steps. Nothing of the
report is lost or counted twice, and what is let through for a role that the plan drops is cleared
by a step in front of the drop (`drops_cleared_by_plan`).
-/

set_option autoImplicit false

namespace PgRoles.Inspect

open Std PgRoles.Lib PgRoles.Core

/-! ## Reports -/

/-- How many dependencies of one kind a role has, and some of them. -/
structure Dependencies where
  count : Nat := 0
  examples : List String := []
  deriving DecidableEq, Repr

/-- Summary of why dropping a specific role is unsafe. -/
structure DropRoleSafetyIssue where
  role : String
  ownedObject : Dependencies := {}
  sharedOwnedObject : Dependencies := {}
  externalOwnedObject : Dependencies := {}
  privilegeDependency : Dependencies := {}
  externalPrivilegeDependency : Dependencies := {}
  otherDependency : Dependencies := {}
  externalOtherDependency : Dependencies := {}
  activeSessionCount : Nat := 0
  deriving DecidableEq, Repr

/-- The kinds of hazard that an issue counts. -/
inductive Hazard where
  | ownedObject
  | sharedOwnedObject
  | externalOwnedObject
  | privilegeDependency
  | externalPrivilegeDependency
  | otherDependency
  | externalOtherDependency
  | activeSession
  deriving DecidableEq, Repr

/-- How often a hazard occurs in an issue. -/
def DropRoleSafetyIssue.count (issue : DropRoleSafetyIssue) : Hazard → Nat
  | .ownedObject => issue.ownedObject.count
  | .sharedOwnedObject => issue.sharedOwnedObject.count
  | .externalOwnedObject => issue.externalOwnedObject.count
  | .privilegeDependency => issue.privilegeDependency.count
  | .externalPrivilegeDependency => issue.externalPrivilegeDependency.count
  | .otherDependency => issue.otherDependency.count
  | .externalOtherDependency => issue.externalOtherDependency.count
  | .activeSession => issue.activeSessionCount

/-- Does the issue count no hazard at all? -/
def DropRoleSafetyIssue.isEmpty (issue : DropRoleSafetyIssue) : Bool :=
  issue.ownedObject.count == 0 && issue.sharedOwnedObject.count == 0 &&
    issue.externalOwnedObject.count == 0 && issue.privilegeDependency.count == 0 &&
    issue.externalPrivilegeDependency.count == 0 && issue.otherDependency.count == 0 &&
    issue.externalOtherDependency.count == 0 && issue.activeSessionCount == 0

theorem DropRoleSafetyIssue.count_of_isEmpty {issue : DropRoleSafetyIssue}
    (h : issue.isEmpty = true) (hazard : Hazard) : issue.count hazard = 0 := by
  simp only [isEmpty, Bool.and_eq_true, beq_iff_eq] at h
  cases hazard <;> simp only [count] <;> tauto

/-- The unsafe drops found, one issue for each role: the inspection collects them by role. -/
structure DropRoleSafetyReport where
  issues : List DropRoleSafetyIssue := []
  nodup : (issues.map (·.role)).Nodup := by simp

/-- The issue of a role, if it has one. -/
def DropRoleSafetyReport.issue? (report : DropRoleSafetyReport) (role : String) :
    Option DropRoleSafetyIssue :=
  report.issues.find? fun issue => issue.role == role

/-- What the report counts for a role, which is nothing for a role without an issue. -/
def DropRoleSafetyReport.count (report : DropRoleSafetyReport) (role : String) (hazard : Hazard) :
    Nat :=
  (report.issue? role).elim 0 fun issue => issue.count hazard

theorem DropRoleSafetyReport.issue?_eq_some_iff {report : DropRoleSafetyReport} {role : String}
    {issue : DropRoleSafetyIssue} :
    report.issue? role = some issue ↔ issue ∈ report.issues ∧ issue.role = role := by
  constructor
  · intro h
    exact ⟨List.mem_of_find?_eq_some h, by simpa using List.find?_some h⟩
  · rintro ⟨hmem, rfl⟩
    cases hfind : report.issue? issue.role with
    | none => exact absurd (List.find?_eq_none.1 hfind issue hmem) (by simp)
    | some found =>
        have hrole : found.role = issue.role := by simpa using List.find?_some hfind
        rw [List.inj_on_of_nodup_map report.nodup (List.mem_of_find?_eq_some hfind) hmem hrole]

/-! ## Inspection -/

/-- A row of the query on `pg_shdepend`. -/
structure DependencyRow where
  roleName : String
  dependencyType : String
  dependencyScope : String
  databaseName : Option String
  description : String

/-- A row of the query on the sessions of a role. -/
structure ActiveSessionRow where
  roleName : String
  activeSessions : Int

/-- The examples that are shown of one kind of dependency. -/
def maxExamples : Nat := 5

/-- A type of dependency in words. -/
def dependencyLabel : String → String
  | "a" => "privilege"
  | "i" => "initial privilege"
  | "o" => "owner"
  | "r" => "policy"
  | _ => "dependency"

/-- A dependency as the report shows it. -/
def formatDependencyExample (row : DependencyRow) : String :=
  match row.dependencyScope with
  | "shared" => dependencyLabel row.dependencyType ++ " on shared object " ++ row.description
  | "other" => dependencyLabel row.dependencyType ++ " in database " ++
      row.databaseName.getD "<unknown>" ++ " on " ++ row.description
  | _ => dependencyLabel row.dependencyType ++ " on " ++ row.description

/-- One more example, while there is room. -/
def pushExample (examples : List String) (text : String) : List String :=
  if examples.length < maxExamples then examples ++ [text] else examples

/-- One more dependency. -/
def Dependencies.add (d : Dependencies) (text : String) : Dependencies :=
  { count := d.count + 1, examples := pushExample d.examples text }

/-- Count a row under its kind. -/
def DropRoleSafetyIssue.addDependency (row : DependencyRow) (issue : DropRoleSafetyIssue) :
    DropRoleSafetyIssue :=
  let text := formatDependencyExample row
  match row.dependencyType, row.dependencyScope with
  | "o", "current" => { issue with ownedObject := issue.ownedObject.add text }
  | "o", "shared" => { issue with sharedOwnedObject := issue.sharedOwnedObject.add text }
  | "o", "other" => { issue with externalOwnedObject := issue.externalOwnedObject.add text }
  | "a", "other" =>
      { issue with externalPrivilegeDependency := issue.externalPrivilegeDependency.add text }
  | "a", _ => { issue with privilegeDependency := issue.privilegeDependency.add text }
  | _, "other" => { issue with externalOtherDependency := issue.externalOtherDependency.add text }
  | _, _ => { issue with otherDependency := issue.otherDependency.add text }

/-- Rewrite the issue of a role that is inspected; rows of other roles are passed over. -/
def updateIssue (byRole : BTreeMap String DropRoleSafetyIssue) (role : String)
    (f : DropRoleSafetyIssue → DropRoleSafetyIssue) : BTreeMap String DropRoleSafetyIssue :=
  byRole.alter role (Option.map f)

/-- The issues of the inspected roles, from the rows that the catalog returns. -/
def issuesByRole (roles : List String) (dependencies : List DependencyRow)
    (activeSessions : List ActiveSessionRow) : BTreeMap String DropRoleSafetyIssue :=
  let byRole := ExtTreeMap.ofList (roles.map fun role => (role, { role := role })) compare
  let byRole := dependencies.foldl (fun m row => updateIssue m row.roleName (·.addDependency row))
    byRole
  activeSessions.foldl (fun m row => updateIssue m row.roleName
    fun issue => { issue with activeSessionCount := (max row.activeSessions 0).toNat }) byRole

/-- Issues are collected under the name of their role. -/
def KeyedByRole (byRole : BTreeMap String DropRoleSafetyIssue) : Prop :=
  ∀ (role : String) (issue : DropRoleSafetyIssue), byRole[role]? = some issue → issue.role = role

theorem KeyedByRole.updateIssue {byRole : BTreeMap String DropRoleSafetyIssue}
    (h : KeyedByRole byRole) (role : String) {f : DropRoleSafetyIssue → DropRoleSafetyIssue}
    (hf : ∀ issue, (f issue).role = issue.role) : KeyedByRole (updateIssue byRole role f) := by
  intro other issue hissue
  rw [Inspect.updateIssue, getElem?_alter_eq] at hissue
  split_ifs at hissue with heq
  · obtain ⟨before, hbefore, rfl⟩ := Option.map_eq_some_iff.1 hissue
    rw [hf, h _ _ hbefore]
  · exact h _ _ hissue

theorem role_addDependency (row : DependencyRow) (issue : DropRoleSafetyIssue) :
    (issue.addDependency row).role = issue.role := by
  unfold DropRoleSafetyIssue.addDependency
  dsimp only
  split <;> rfl

/-- Issues are kept under their own roles. -/
theorem keyedByRole_issuesByRole (roles : List String) (dependencies : List DependencyRow)
    (activeSessions : List ActiveSessionRow) :
    KeyedByRole (issuesByRole roles dependencies activeSessions) := by
  refine foldl_invariant KeyedByRole ?_ (foldl_invariant KeyedByRole ?_ ?_)
  · intro m hm row _
    exact hm.updateIssue row.roleName fun _ => rfl
  · intro m hm row _
    exact hm.updateIssue row.roleName (role_addDependency row)
  · intro role issue h
    obtain ⟨name, -, heq⟩ := List.mem_map.1 (mem_of_getElem?_ofList h)
    rw [Prod.mk.injEq] at heq
    rw [← heq.2, ← heq.1]

/-- Inspect whether dropping the given roles would be obviously unsafe. -/
def inspectDropRoleSafety (roles : List String) (dependencies : List DependencyRow)
    (activeSessions : List ActiveSessionRow) : DropRoleSafetyReport where
  issues := ((issuesByRole roles dependencies activeSessions).toList.map Prod.snd).filter
    fun issue => !issue.isEmpty
  nodup := by
    refine List.Nodup.sublist ((List.filter_sublist).map _) ?_
    rw [List.map_map, List.map_congr_left (g := Prod.fst)]
    · exact nodup_fst_toList _
    · intro entry hentry
      exact keyedByRole_issuesByRole roles dependencies activeSessions _ _
        (mem_toList_iff.1 hentry)

/-! ## Assessment -/

/-- Rewrite each issue and keep what is left of it. -/
def DropRoleSafetyReport.rewrite (report : DropRoleSafetyReport)
    (f : DropRoleSafetyIssue → DropRoleSafetyIssue) (hf : ∀ issue, (f issue).role = issue.role) :
    DropRoleSafetyReport where
  issues := report.issues.filterMap fun issue =>
    if (f issue).isEmpty then none else some (f issue)
  nodup := by
    refine List.Nodup.sublist ?_ report.nodup
    induction report.issues with
    | nil => exact List.nil_sublist _
    | cons issue issues ih =>
        rw [List.filterMap_cons]
        split_ifs
        · exact ih.cons _
        · rw [List.map_cons, List.map_cons, hf]
          exact ih.cons_cons _

/-- What a retirement handles in the current database. -/
def clearRetired (retirement : RoleRetirement) (issue : DropRoleSafetyIssue) :
    DropRoleSafetyIssue :=
  let issue :=
    if retirement.terminateSessions then { issue with activeSessionCount := 0 } else issue
  let issue :=
    if retirement.dropOwned then { issue with ownedObject := {}, privilegeDependency := {} }
    else issue
  if retirement.reassignOwnedTo.isSome then
    { issue with ownedObject := {}, sharedOwnedObject := {} }
  else issue

/-- An issue without what its role's retirement handles; an issue of a role that is not retired
stays. -/
def clearHandled (retirements : BTreeMap String RoleRetirement) (issue : DropRoleSafetyIssue) :
    DropRoleSafetyIssue :=
  match retirements[issue.role]? with
  | some retirement => clearRetired retirement issue
  | none => issue

theorem role_clearHandled (retirements : BTreeMap String RoleRetirement)
    (issue : DropRoleSafetyIssue) : (clearHandled retirements issue).role = issue.role := by
  unfold clearHandled clearRetired
  dsimp only
  split
  · split_ifs <;> rfl
  · rfl

/-- Remove hazards that are handled by retirement steps in the current database. -/
def DropRoleSafetyReport.applyRetirements (report : DropRoleSafetyReport)
    (retirements : List RoleRetirement) : DropRoleSafetyReport :=
  report.rewrite (clearHandled (retirementByRole retirements)) (role_clearHandled _)

/-- The dependencies that are no longer in the residual ones. -/
def splitWarning (original residual : Dependencies) : Dependencies :=
  { count := original.count - residual.count
    examples := if original.count > residual.count then original.examples else [] }

/-- The part of an issue that is not in the residual report. -/
def splitWarningIssue (original : DropRoleSafetyIssue) (residual : Option DropRoleSafetyIssue) :
    DropRoleSafetyIssue :=
  let residual := residual.getD { role := original.role }
  { role := original.role
    ownedObject := splitWarning original.ownedObject residual.ownedObject
    sharedOwnedObject := splitWarning original.sharedOwnedObject residual.sharedOwnedObject
    externalOwnedObject := splitWarning original.externalOwnedObject residual.externalOwnedObject
    privilegeDependency := splitWarning original.privilegeDependency residual.privilegeDependency
    externalPrivilegeDependency :=
      splitWarning original.externalPrivilegeDependency residual.externalPrivilegeDependency
    otherDependency := splitWarning original.otherDependency residual.otherDependency
    externalOtherDependency :=
      splitWarning original.externalOtherDependency residual.externalOtherDependency
    activeSessionCount := original.activeSessionCount - residual.activeSessionCount }

/-- What the retirements take care of, which is only warned of. -/
def DropRoleSafetyReport.warningsAfterRetirements (report : DropRoleSafetyReport)
    (retirements : List RoleRetirement) : DropRoleSafetyReport :=
  let residual := report.applyRetirements retirements
  report.rewrite (fun issue => splitWarningIssue issue (residual.issue? issue.role)) fun _ => rfl

/-- Drop-role safety split into warnings the plan can handle and blockers it cannot. -/
structure DropRoleSafetyAssessment where
  warnings : DropRoleSafetyReport
  blockers : DropRoleSafetyReport

/-- What the retirements take care of, and what they leave. -/
def DropRoleSafetyReport.assess (report : DropRoleSafetyReport)
    (retirements : List RoleRetirement) : DropRoleSafetyAssessment :=
  { warnings := report.warningsAfterRetirements retirements
    blockers := report.applyRetirements retirements }

/-! ## Counts of an assessment -/

section Counts

variable {report : DropRoleSafetyReport} {retirements : List RoleRetirement} {role : String}
  {hazard : Hazard}

/-- A rewritten report counts what is left of the issue of the role. -/
theorem DropRoleSafetyReport.count_rewrite {f : DropRoleSafetyIssue → DropRoleSafetyIssue}
    (hf : ∀ issue, (f issue).role = issue.role) :
    (report.rewrite f hf).count role hazard =
      (report.issue? role).elim 0 fun issue => (f issue).count hazard := by
  rw [count]
  cases hnew : (report.rewrite f hf).issue? role with
  | some new =>
      obtain ⟨hmem, hrole⟩ := issue?_eq_some_iff.1 hnew
      obtain ⟨issue, hissue, hkept⟩ := List.mem_filterMap.1 hmem
      split_ifs at hkept
      cases hkept
      rw [hf] at hrole
      rw [issue?_eq_some_iff.2 ⟨hissue, hrole⟩]
      rfl
  | none =>
      cases hold : report.issue? role with
      | none => rfl
      | some issue =>
          -- The issue is gone, so nothing was left of it.
          obtain ⟨hissue, hrole⟩ := issue?_eq_some_iff.1 hold
          have hempty : (f issue).isEmpty = true := by
            by_contra hleft
            have hmem : f issue ∈ (report.rewrite f hf).issues :=
              List.mem_filterMap.2 ⟨issue, hissue, if_neg hleft⟩
            rw [issue?_eq_some_iff.2 ⟨hmem, (hf issue).trans hrole⟩] at hnew
            cases hnew
          exact (DropRoleSafetyIssue.count_of_isEmpty hempty hazard).symm

/-- Clearing only lowers counts. -/
theorem count_clearHandled_le (retirements : BTreeMap String RoleRetirement)
    (issue : DropRoleSafetyIssue) (hazard : Hazard) :
    (clearHandled retirements issue).count hazard ≤ issue.count hazard := by
  unfold clearHandled clearRetired
  dsimp only
  split
  · cases hazard <;> split_ifs <;> simp [DropRoleSafetyIssue.count]
  · exact Nat.le_refl _

theorem count_splitWarningIssue (issue : DropRoleSafetyIssue)
    (residual : Option DropRoleSafetyIssue) (hazard : Hazard) :
    (splitWarningIssue issue residual).count hazard =
      issue.count hazard - residual.elim 0 fun r => r.count hazard := by
  cases residual with
  | none => cases hazard <;> rfl
  | some residual => cases hazard <;> rfl

/-- The assessment splits each count. -/
theorem count_assess :
    (report.assess retirements).warnings.count role hazard +
        (report.assess retirements).blockers.count role hazard =
      report.count role hazard := by
  have hblockers : (report.assess retirements).blockers.count role hazard =
      (report.issue? role).elim 0 fun issue =>
        (clearHandled (retirementByRole retirements) issue).count hazard :=
    DropRoleSafetyReport.count_rewrite (role_clearHandled _)
  have hwarnings : (report.assess retirements).warnings.count role hazard =
      (report.issue? role).elim 0 fun issue =>
        (splitWarningIssue issue ((report.applyRetirements retirements).issue? issue.role)).count
          hazard :=
    DropRoleSafetyReport.count_rewrite (f := fun issue => splitWarningIssue issue
      ((report.applyRetirements retirements).issue? issue.role)) fun _ => rfl
  cases hissue : report.issue? role with
  | none => rw [hwarnings, hblockers, DropRoleSafetyReport.count, hissue]; rfl
  | some issue =>
      have hrole := (DropRoleSafetyReport.issue?_eq_some_iff.1 hissue).2
      have hresidual : (report.assess retirements).blockers.count role hazard =
          ((report.applyRetirements retirements).issue? issue.role).elim 0
            fun r => r.count hazard := by
        rw [hrole]
        rfl
      have hle := count_clearHandled_le (retirementByRole retirements) issue hazard
      rw [hissue, Option.elim_some] at hblockers hwarnings
      rw [count_splitWarningIssue, ← hresidual] at hwarnings
      have hreported : report.count role hazard = issue.count hazard := by
        rw [DropRoleSafetyReport.count, hissue]
        rfl
      omega

end Counts

/-! ## Drops are cleared by the plan -/

/-- The change clears a hazard of the role. -/
def Hazard.clearedBy (role : String) : Hazard → Change → Bool
  | .activeSession, .terminateSessions name => name == role
  | .ownedObject, .reassignOwned name _ | .ownedObject, .dropOwned name => name == role
  | .sharedOwnedObject, .reassignOwned name _ => name == role
  | .privilegeDependency, .dropOwned name => name == role
  | _, _ => false

/-- A hazard that a retirement handles has a step of the retirement that clears it. -/
theorem exists_step_of_cleared {retirements : BTreeMap String RoleRetirement}
    {issue : DropRoleSafetyIssue} {hazard : Hazard} (hreported : 0 < issue.count hazard)
    (hcleared : (clearHandled retirements issue).count hazard = 0) :
    ∃ retirement, retirements[issue.role]? = some retirement ∧
      ∃ c ∈ retirementSteps issue.role retirement, hazard.clearedBy issue.role c = true := by
  rw [clearHandled] at hcleared
  cases hretirement : retirements[issue.role]? with
  | none =>
      rw [hretirement] at hcleared
      exact absurd hcleared (Nat.ne_of_gt hreported)
  | some retirement =>
      refine ⟨retirement, rfl, ?_⟩
      rw [hretirement] at hcleared
      simp only [clearRetired] at hcleared
      -- Each kind is cleared by one or two of the three steps.
      cases hsessions : retirement.terminateSessions <;>
        cases hdrop : retirement.dropOwned <;>
          cases hreassign : retirement.reassignOwnedTo <;>
            cases hazard <;>
              simp_all [retirementSteps, Hazard.clearedBy, DropRoleSafetyIssue.count]

/-- The assessment counts each hazard once, as a warning or as a blocker; and before a role is
dropped the plan clears every hazard that was let through for it. -/
theorem drops_cleared_by_plan (report : DropRoleSafetyReport) (current desired : RoleGraph)
    (m : PolicyManifest) (e : ExpandedManifest) (mode : ReconciliationMode) :
    (∀ role hazard, (report.assess m.retirements).warnings.count role hazard +
        (report.assess m.retirements).blockers.count role hazard = report.count role hazard) ∧
      ∀ role pre post, planChanges current desired m e mode = pre ++ .dropRole role :: post →
        ∀ hazard, 0 < report.count role hazard →
          (report.assess m.retirements).blockers.count role hazard = 0 →
            ∃ c ∈ pre, hazard.clearedBy role c = true := by
  refine ⟨fun role hazard => count_assess, ?_⟩
  intro role pre post hplan hazard hreported hnot
  obtain ⟨before, after, hblock, -, hbefore, hafter⟩ := exists_drop_block (r := role)
    (by rw [hplan]; simp)
  -- The plan drops the role once, right behind its retirement steps.
  have hsplit : before ++ retirementBlock m role = pre := by
    have hfirst : Change.dropRole role ∉ before ++ retirementBlock m role := by
      intro hmem
      rcases List.mem_append.1 hmem with hmem | hmem
      · exact (hbefore _ hmem).2 rfl
      · exact absurd (retires_of_mem_retirementBlock hmem) (by simp [Change.retires])
    have hlast : Change.dropRole role ∉ after := by
      intro hmem
      obtain ⟨n, -, hreassign⟩ := (hafter _ hmem).2 (by simp [Change.names])
      cases hreassign
    rw [hplan] at hblock
    exact ((List.append_cons_inj_of_notMem hfirst hlast).1 hblock.symm).1
  have hblockers : (report.assess m.retirements).blockers.count role hazard =
      (report.issue? role).elim 0 fun issue =>
        (clearHandled (retirementByRole m.retirements) issue).count hazard :=
    DropRoleSafetyReport.count_rewrite (role_clearHandled _)
  cases hissue : report.issue? role with
  | none =>
      rw [DropRoleSafetyReport.count, hissue] at hreported
      exact absurd hreported (Nat.lt_irrefl 0)
  | some issue =>
      obtain ⟨-, rfl⟩ := DropRoleSafetyReport.issue?_eq_some_iff.1 hissue
      rw [DropRoleSafetyReport.count, hissue, Option.elim_some] at hreported
      rw [hblockers, hissue, Option.elim_some] at hnot
      obtain ⟨retirement, hretirement, c, hc, hclears⟩ := exists_step_of_cleared hreported hnot
      refine ⟨c, ?_, hclears⟩
      rw [← hsplit, retirementBlock, hretirement]
      exact List.mem_append_right _ hc

/-- The retired role has two sessions, owns a table and is named by a privilege elsewhere. -/
def retiringReport : DropRoleSafetyReport :=
  { issues := [
      { role := "old"
        ownedObject := ⟨1, ["owner on table app.orders"]⟩
        externalPrivilegeDependency := ⟨1, ["privilege in database crm on schema crm"]⟩
        activeSessionCount := 2 }] }

/-- The plan of that manifest clears what it warns of. -/
theorem retiring_cleared :
    ((retiringReport.assess retiringManifest.retirements).warnings.count "old" .activeSession +
        (retiringReport.assess retiringManifest.retirements).blockers.count "old" .activeSession =
      retiringReport.count "old" .activeSession) ∧
      ∃ c ∈ retiringPlan.dropLast, Hazard.activeSession.clearedBy "old" c = true := by
  have hplan : planChanges retiringCurrent retiringDesired retiringManifest retiringExpanded
      .authoritative = retiringPlan.dropLast ++ .dropRole "old" :: [] := by
    rw [planChanges_retiring]
    rfl
  have hmain := drops_cleared_by_plan retiringReport retiringCurrent retiringDesired
    retiringManifest retiringExpanded .authoritative
  exact ⟨hmain.1 "old" .activeSession, hmain.2 "old" _ _ hplan .activeSession (by decide)
    (by decide +kernel)⟩

end PgRoles.Inspect

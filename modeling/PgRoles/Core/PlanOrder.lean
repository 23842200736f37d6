import PgRoles.Core.ExpandSpec
import PgRoles.Core.PlanSpec
import PgRoles.Core.RevokeSpec

/-!
# The order of a plan

A plan creates a role before anything names it, and drops a role after everything else that names
it: what is revoked of the role is revoked first, then its retirement steps run, then it is dropped
(`plan_dependency_order`). The passes rewrite the diff change by change, so the order of a plan is
the order of the diff's buckets.
-/

set_option autoImplicit false

namespace PgRoles.Core

open Std PgRoles.Lib

/-! ## The roles a change names -/

/-- The change names the role: as the role it acts on, or as an owner, a grantee, a grantor, a group
or a member. -/
def Change.names (n : String) : Change → Bool
  | .createRole name _ | .alterRole name _ | .setComment name _ | .setPassword name _
  | .dropRole name | .dropOwned name | .terminateSessions name => name == n
  | .createSchema _ owner => owner == some n
  | .alterSchemaOwner _ owner | .ensureSchemaOwnerPrivileges _ owner _ => owner == n
  | .grant key _ => key.role == .role n
  | .revoke key _ grantor => key.role == .role n || grantor == some n
  | .setDefaultPrivilege key _ | .revokeDefaultPrivilege key _ =>
      key.owner == n || key.grantee == .role n
  | .addMember role member _ _ => role == n || member == n
  | .updateMemberOptions role member grantor _ _ _ => role == n || member == n || grantor == n
  | .removeMember role member grantor => role == n || member == n || grantor == some n
  | .reassignOwned fromRole toRole => fromRole == n || toRole == n

/-- The change is a retirement step of the role. -/
def Change.retires (r : String) : Change → Bool
  | .terminateSessions name | .dropOwned name | .reassignOwned name _ => name == r
  | _ => false

/-- The retirement steps of a role, in the order they run. -/
def retirementBlock (m : PolicyManifest) (r : String) : List Change :=
  (retirementByRole m.retirements)[r]?.elim [] (retirementSteps r)

theorem retires_of_mem_retirementSteps {r : String} {retirement : RoleRetirement} {c : Change}
    (h : c ∈ retirementSteps r retirement) : c.retires r = true := by
  simp only [retirementSteps, List.mem_append] at h
  rcases h with (h | h) | h
  · split_ifs at h
    · simp [List.mem_singleton.1 h, Change.retires]
    · exact absurd h List.not_mem_nil
  · split at h
    · simp [List.mem_singleton.1 h, Change.retires]
    · exact absurd h List.not_mem_nil
  · split_ifs at h
    · simp [List.mem_singleton.1 h, Change.retires]
    · exact absurd h List.not_mem_nil

theorem retires_of_mem_retirementBlock {m : PolicyManifest} {r : String} {c : Change}
    (h : c ∈ retirementBlock m r) : c.retires r = true := by
  unfold retirementBlock at h
  cases hr : (retirementByRole m.retirements)[r]? with
  | none => simp [hr] at h
  | some retirement =>
      rw [hr] at h
      exact retires_of_mem_retirementSteps h

theorem withRetirement_dropRole (m : PolicyManifest) (r : String) :
    withRetirement (retirementByRole m.retirements) (.dropRole r) =
      retirementBlock m r ++ [.dropRole r] := by
  cases hr : (retirementByRole m.retirements)[r]? with
  | none => simp [withRetirement, retirementBlock, hr]
  | some retirement => simp [withRetirement, retirementBlock, hr]

theorem withRetirement_of_phase {retirements : BTreeMap String RoleRetirement} {c : Change}
    (h : c.phase ≠ .dropRole) : withRetirement retirements c = [c] := by
  cases c with
  | dropRole name => exact absurd rfl h
  | _ => rfl

/-! ## What the passes make of single changes -/

section Passes

variable {full : List Change} {current desired resolved : RoleGraph} {m : PolicyManifest}
  {e : ExpandedManifest} {mode : ReconciliationMode} {c c' : Change} {n r : String}

/-- The passes keep the phase of a change. -/
theorem phase_of_mem_passedChange (h : c' ∈ passedChange full e mode resolved c) :
    c'.phase = c.phase := by
  obtain ⟨c₁, hc₁, hpreserved⟩ := List.mem_flatMap.1 h
  have hmode : c₁.phase = c.phase := by
    have hkept := (List.mem_filter.1 hc₁).1
    cases mode with
    | authoritative => rw [List.mem_singleton.1 hkept]
    | additive => exact phase_of_keepIncreases (Option.mem_toList.1 (List.mem_filter.1 hkept).1)
    | adopt =>
        simp only [keptByMode] at hkept
        split_ifs at hkept
        · exact absurd hkept List.not_mem_nil
        · rw [List.mem_singleton.1 hkept]
  rcases preserveGrants_cases e.roles resolved c₁ with heq | ⟨hrevoke, hall⟩
  · rw [heq, List.mem_singleton] at hpreserved
    rw [hpreserved, hmode]
  · rw [hall c' hpreserved, ← hrevoke, hmode]

theorem phase_of_mem_plannedChange (hc : c.phase ≠ .dropRole)
    (h : c' ∈ plannedChange current desired m e mode c) : c'.phase = c.phase := by
  rw [plannedChange, withRetirement_of_phase hc] at h
  exact phase_of_mem_passedChange (by simpa using h)

/-- A role creation passes unless the role is owned elsewhere. -/
theorem plannedChange_createRole (s : RoleState) :
    plannedChange current desired m e mode (.createRole n s) =
      if isUnmanaged e.roles n then [] else [.createRole n s] := by
  cases mode <;> cases h : isUnmanaged e.roles n <;>
    simp [plannedChange, withRetirement, passedChange, keptByMode, keepIncreases, keptByAdditive,
      isDestructive, isRoleDropOrRetirement, keptForExternal, preserveGrants, h]

/-- A drop or a retirement step passes in authoritative mode, unless its role is owned elsewhere. -/
theorem passedChange_of_retires (h : c = .dropRole r ∨ c.retires r = true) :
    passedChange full e mode resolved c =
      if mode = .authoritative ∧ isUnmanaged e.roles r = false then [c] else [] := by
  have hc : isRoleDropOrRetirement c = true ∧ isDestructive c = true ∧
      keptForExternal e.roles e.memberships c = !isUnmanaged e.roles r ∧
      keepIncreases c = some c ∧ keptByAdditive full c = false ∧
      preserveGrants e.roles resolved c = [c] := by
    rcases h with rfl | h
    · exact ⟨rfl, rfl, rfl, rfl, rfl, rfl⟩
    · cases c <;> simp only [Change.retires, Bool.false_eq_true, beq_iff_eq] at h <;> subst h <;>
        exact ⟨rfl, rfl, rfl, rfl, rfl, rfl⟩
  obtain ⟨hdrop, -, hext, hinc, hadd, hpres⟩ := hc
  cases mode with
  | authoritative => cases hu : isUnmanaged e.roles r <;> simp [passedChange, keptByMode, *]
  | additive => simp [passedChange, keptByMode, *]
  | adopt => simp [passedChange, keptByMode, *]

/-- A role is dropped in authoritative mode, when no other system owns it. -/
theorem plannedChange_dropRole :
    plannedChange current desired m e mode (.dropRole r) =
      if mode = .authoritative ∧ isUnmanaged e.roles r = false then
        retirementBlock m r ++ [.dropRole r] else [] := by
  have hpassed : ∀ c ∈ retirementBlock m r ++ [Change.dropRole r],
      passedChange (fullPlan current desired m) e mode
        (desired.resolveRoutineAliases current.routineAliases) c =
      if mode = .authoritative ∧ isUnmanaged e.roles r = false then [c] else [] := by
    intro c hc
    apply passedChange_of_retires
    rcases List.mem_append.1 hc with hc | hc
    · exact Or.inr (retires_of_mem_retirementBlock hc)
    · exact Or.inl (List.mem_singleton.1 hc)
  rw [plannedChange, withRetirement_dropRole, List.flatMap_congr hpassed]
  split_ifs
  · exact List.flatMap_singleton' _
  · simp

end Passes

/-! ## Creations come first -/

section Creation

variable {current desired : RoleGraph} {m : PolicyManifest} {e : ExpandedManifest}
  {mode : ReconciliationMode}

theorem plannedGraph_roles (current desired : RoleGraph) :
    (plannedGraph current desired).roles = desired.roles := by
  rw [plannedGraph, resolveRoutineAliases_roles, resolveRoutineAliases_roles]

/-- A plan creates each role that is its own to create before any change names the role. -/
theorem exists_create_before (m : PolicyManifest) (mode : ReconciliationMode) {n : String}
    {s : RoleState} (hd : desired.roles[n]? = some s) (hc : current.roles[n]? = none)
    (hown : isUnmanaged e.roles n = false) :
    ∃ pre post, planChanges current desired m e mode = pre ++ .createRole n s :: post ∧
      ∀ c ∈ pre, c.names n = false := by
  obtain ⟨l₁, l₂, hsplit, hne, -⟩ := exists_split_toList hd
  -- The bucket of creations splits at the role, and everything before it creates other roles.
  let create : String × RoleState → List Change := fun a =>
    if a.1 ∈ current.roles then [] else [Change.createRole a.1 a.2]
  obtain ⟨rest, hrest⟩ : ∃ rest, diffResolved current (plannedGraph current desired) =
      roleCreates current (plannedGraph current desired) ++ rest := by
    simp only [diffResolved, List.append_assoc]
    exact ⟨_, rfl⟩
  have hcreates : roleCreates current (plannedGraph current desired) =
      l₁.flatMap create ++ ([Change.createRole n s] ++ l₂.flatMap create) := by
    rw [roleCreates, plannedGraph_roles, hsplit, List.flatMap_append, List.flatMap_cons,
      if_neg (not_mem_iff_getElem?.2 hc)]
  rw [planChanges_eq, hrest, hcreates, List.append_assoc, List.append_assoc, List.flatMap_append,
    List.flatMap_append, List.flatMap_singleton, plannedChange_createRole, hown]
  refine ⟨_, _, rfl, fun c hmem => ?_⟩
  obtain ⟨c₀, hc₀, hplanned⟩ := List.mem_flatMap.1 hmem
  obtain ⟨a, ha, hcreate⟩ := List.mem_flatMap.1 hc₀
  simp only [create] at hcreate
  split_ifs at hcreate
  · exact absurd hcreate List.not_mem_nil
  · rw [List.mem_singleton.1 hcreate, plannedChange_createRole] at hplanned
    split_ifs at hplanned
    · exact absurd hplanned List.not_mem_nil
    · rw [List.mem_singleton.1 hplanned]
      simpa [Change.names] using hne a ha

end Creation

/-! ## Drops come last -/

section Drops

variable {current desired : RoleGraph} {m : PolicyManifest} {e : ExpandedManifest}
  {mode : ReconciliationMode} {c : Change} {r : String}

/-- The changes of the diff before its drops. -/
def beforeDrops (current desired : RoleGraph) : List Change :=
  roleCreates current desired ++ roleAlters current desired ++ schemaChanges current desired ++
    schemaGrants current desired ++ grantChanges current desired ++ defaultSets current desired ++
    plannedRevokes current desired ++ memberRemoves current desired ++ memberAdds current desired ++
    defaultRevokes current desired

theorem phase_of_mem_beforeDrops (h : c ∈ beforeDrops current desired) :
    c.phase ≠ .dropRole ∧ c.phase ≠ .retirement := by
  simp only [beforeDrops, List.mem_append] at h
  rcases h with ((((((((h | h) | h) | h) | h) | h) | h) | h) | h) | h
  · simp [phase_of_mem_roleCreates h]
  · simp [phase_of_mem_roleAlters h]
  · simp [phase_of_mem_schemaChanges h]
  · simp [phase_of_mem_schemaGrants h]
  · simp [phase_of_mem_grantChanges h]
  · simp [phase_of_mem_defaultSets h]
  · simp [phase_of_mem_plannedRevokes h]
  · simp [phase_of_mem_memberRemoves h]
  · simp [phase_of_mem_memberAdds h]
  · simp [phase_of_mem_defaultRevokes h]

theorem retires_eq_false_of_phase (h : c.phase ≠ .retirement) : c.retires r = false := by
  cases c with
  | terminateSessions | reassignOwned | dropOwned => exact absurd rfl h
  | _ => rfl

/-- A drop or a retirement step of a plan comes from a drop of the diff that passes. -/
theorem drop_of_mem_planChanges (h : c ∈ planChanges current desired m e mode)
    (hc : c = .dropRole r ∨ c.retires r = true) :
    ∃ s, current.roles[r]? = some s ∧ desired.roles[r]? = none ∧ mode = .authoritative ∧
      isUnmanaged e.roles r = false := by
  rw [planChanges_eq] at h
  obtain ⟨c₀, hc₀, hplanned⟩ := List.mem_flatMap.1 h
  by_cases hphase : c₀.phase = .dropRole
  · obtain ⟨n, rfl⟩ : ∃ n, c₀ = .dropRole n := by
      cases c₀ with
      | dropRole n => exact ⟨n, rfl⟩
      | _ => cases hphase
    rw [plannedChange_dropRole] at hplanned
    split_ifs at hplanned with hpass
    · obtain rfl : n = r := by
        rcases List.mem_append.1 hplanned with hmem | hmem
        · have hretires := retires_of_mem_retirementBlock hmem
          cases c <;> simp_all [Change.retires]
        · rw [List.mem_singleton.1 hmem] at hc
          simpa [Change.retires] using hc
      have hbucket := mem_bucket_of_mem_diffResolved hc₀
      rw [filter_phase_diffResolved (· == _)] at hbucket
      have hdrop : Change.dropRole n ∈ roleDrops current (plannedGraph current desired) := by
        simpa [Change.phase] using hbucket
      obtain ⟨_, s, hs, hnone, heq⟩ := mem_roleDrops.1 hdrop
      cases heq
      rw [plannedGraph_roles] at hnone
      exact ⟨s, hs, hnone, hpass⟩
    · exact absurd hplanned List.not_mem_nil
  · exfalso
    -- Only a drop of the diff becomes a drop or a retirement step.
    have hsame := phase_of_mem_plannedChange hphase hplanned
    have hbefore : c₀ ∈ beforeDrops current (plannedGraph current desired) := by
      have hmem : c₀ ∈ beforeDrops current (plannedGraph current desired) ++
          roleDrops current (plannedGraph current desired) := hc₀
      rcases List.mem_append.1 hmem with hmem | hmem
      · exact hmem
      · exact absurd (phase_of_mem_roleDrops hmem) hphase
    have hnot := (phase_of_mem_beforeDrops hbefore).2
    rw [← hsame] at hphase hnot
    rcases hc with rfl | hc
    · exact hphase rfl
    · rw [retires_eq_false_of_phase hnot] at hc
      cases hc

/-- What passes the drop of another role leaves names a role only as its successor. -/
theorem names_of_mem_drop {n : String} (hne : n ≠ r)
    (h : c ∈ plannedChange current desired m e mode (.dropRole n)) :
    c.retires r = false ∧ (c.names r = true → c = .reassignOwned n r) := by
  rw [plannedChange_dropRole] at h
  split_ifs at h
  · rcases List.mem_append.1 h with h | h
    · have hretires := retires_of_mem_retirementBlock h
      cases c <;> simp_all [Change.retires, Change.names]
    · rw [List.mem_singleton.1 h]
      simp [Change.retires, Change.names, hne]
  · exact absurd h List.not_mem_nil

/-- A drop stands right after its role's retirement steps, behind everything that the passes leave
of the diff before its drops. -/
theorem exists_drop_block (h : .dropRole r ∈ planChanges current desired m e mode) :
    ∃ pre post, planChanges current desired m e mode =
        pre ++ retirementBlock m r ++ .dropRole r :: post ∧
      (∀ c ∈ beforeDrops current (plannedGraph current desired),
        plannedChange current desired m e mode c = [c] → c ∈ pre) ∧
      (∀ c ∈ pre, c.retires r = false ∧ c ≠ .dropRole r) ∧
      ∀ c ∈ post, c.retires r = false ∧ (c.names r = true → ∃ n, n ≠ r ∧ c = .reassignOwned n r) := by
  obtain ⟨s, hs, hd, hpass⟩ := drop_of_mem_planChanges h (Or.inl rfl)
  obtain ⟨l₁, l₂, hsplit, hne₁, hne₂⟩ := exists_split_toList hs
  let drop : String × RoleState → List Change := fun a =>
    if a.1 ∈ desired.roles then [] else [Change.dropRole a.1]
  have hdrops : diffResolved current (plannedGraph current desired) =
      beforeDrops current (plannedGraph current desired) ++
        (l₁.flatMap drop ++ ([Change.dropRole r] ++ l₂.flatMap drop)) := by
    have hroles : roleDrops current (plannedGraph current desired) =
        l₁.flatMap drop ++ ([Change.dropRole r] ++ l₂.flatMap drop) := by
      rw [roleDrops, plannedGraph_roles, hsplit, List.flatMap_append, List.flatMap_cons,
        if_neg (not_mem_iff_getElem?.2 hd)]
    rw [← hroles]
    rfl
  -- The drops of other roles, before and after.
  have hother : ∀ l : List (String × RoleState), (∀ a ∈ l, a.1 ≠ r) →
      ∀ c ∈ (l.flatMap drop).flatMap (plannedChange current desired m e mode),
        c.retires r = false ∧ (c.names r = true → ∃ n, n ≠ r ∧ c = .reassignOwned n r) := by
    intro l hne c hc
    obtain ⟨c₀, hc₀, hplanned⟩ := List.mem_flatMap.1 hc
    obtain ⟨a, ha, hdrop⟩ := List.mem_flatMap.1 hc₀
    simp only [drop] at hdrop
    split_ifs at hdrop
    · exact absurd hdrop List.not_mem_nil
    · rw [List.mem_singleton.1 hdrop] at hplanned
      obtain ⟨hretires, hnames⟩ := names_of_mem_drop (hne a ha) hplanned
      exact ⟨hretires, fun hc => ⟨a.1, hne a ha, hnames hc⟩⟩
  refine ⟨(beforeDrops current (plannedGraph current desired) ++ l₁.flatMap drop).flatMap
    (plannedChange current desired m e mode),
    (l₂.flatMap drop).flatMap (plannedChange current desired m e mode), ?_, ?_, ?_,
    hother l₂ hne₂⟩
  · rw [planChanges_eq, hdrops, ← List.append_assoc, List.flatMap_append, List.flatMap_append,
      List.flatMap_append, List.flatMap_singleton, plannedChange_dropRole, if_pos hpass]
    simp only [List.append_assoc, List.singleton_append]
  · intro c hc hkept
    refine List.mem_flatMap.2 ⟨c, List.mem_append_left _ hc, ?_⟩
    rw [hkept]
    exact List.mem_singleton_self c
  · intro c hc
    rw [List.flatMap_append] at hc
    rcases List.mem_append.1 hc with hc | hc
    · obtain ⟨c₀, hc₀, hplanned⟩ := List.mem_flatMap.1 hc
      obtain ⟨hdrop, hretirement⟩ := phase_of_mem_beforeDrops hc₀
      have hphase := phase_of_mem_plannedChange hdrop hplanned
      rw [← hphase] at hdrop hretirement
      refine ⟨retires_eq_false_of_phase hretirement, fun heq => hdrop ?_⟩
      rw [heq]
      rfl
    · obtain ⟨hretires, hnames⟩ := hother l₁ hne₁ c hc
      refine ⟨hretires, fun heq => ?_⟩
      obtain ⟨n, -, hreassign⟩ := hnames (by simp [heq, Change.names])
      rw [heq] at hreassign
      cases hreassign

end Drops

/-! ## What is revoked before a drop -/

section Cleared

variable {current desired : RoleGraph} {k : GrantKey} {p : Privilege}

/-- The graph declares the privilege, under the key or under the wildcard of its scope. -/
def Declares (desired : RoleGraph) (k : GrantKey) (p : Privilege) : Prop :=
  p ∈ entryAt desired.grants k ∨ (k.isWildcard = false ∧ p ∈ desiredWildcard desired k)

/-- The plan makes the grantee the owner of the schema the key names; the transfer absorbs its
entry. -/
def AbsorbedByTransfer (current desired : RoleGraph) (k : GrantKey) : Prop :=
  k.objectType = .schema ∧ ∃ name, k.name = some name ∧
    .alterSchemaOwner name k.role.asStr ∈ schemaChanges current desired

/-- Every recorded entry of the privilege on one target is revoked, or a transfer absorbs it. -/
def TargetCleared (current desired : RoleGraph) (plan : List Change) (k : GrantKey)
    (p : Privilege) : Prop :=
  AbsorbedByTransfer current desired k ∨
    targetGrantors current desired k p ⊆ revokeGrantors k p plan

/-- A privilege is revoked on its target; one held on a wildcard with recorded objects or an
inherent tag is revoked object by object. -/
def PrivilegeCleared (current desired : RoleGraph) (plan : List Change) (k : GrantKey)
    (p : Privilege) : Prop :=
  if expandsWildcard current k then
    ∀ a, a ∉ current.inherentGrants → p ∈ entryAt (concreteTargets current k) a →
      TargetCleared current desired plan a p
  else TargetCleared current desired plan k p

theorem targetGrantors_subset_of_accumulated (hexp : expandsWildcard current k = false)
    (hp : p ∈ entryAt (accumulatedRevokes current desired) k) :
    targetGrantors current desired k p ⊆ revokeGrantors k p (revokeChanges current desired) := by
  intro g hg
  have hsplit : pushRevokesSplitByGrantor current desired k
      (entryAt (accumulatedRevokes current desired) k) =
      pushRevokesOnTarget current desired k (entryAt (accumulatedRevokes current desired) k) :=
    if_neg (by simp [hexp])
  rw [← revokeGrantors_pushRevokesOnTarget_of_mem hp, ← hsplit] at hg
  rw [revokeChanges, revokeGrantors_flatMap, mem_flatMap_toList]
  exact ⟨k, _, getElem?_of_mem_entryAt hp, hg⟩

theorem targetGrantors_subset_of_reached (h : ReachedByWildcard current desired k p) :
    targetGrantors current desired k p ⊆ revokeGrantors k p (revokeChanges current desired) := by
  intro g hg
  obtain ⟨hinh, hacc, htarget⟩ := h
  have hexp := expandsWildcard_of_mem_concreteTargets htarget
  rw [revokeChanges, revokeGrantors_flatMap, mem_flatMap_toList]
  refine ⟨k.wildcard, _, getElem?_of_mem_entryAt hacc, ?_⟩
  rw [revokeGrantors_expanded hexp, if_pos ⟨hinh, hacc, htarget⟩]
  exact hg

/-- A revoke is planned unless a transfer absorbs its entry. -/
theorem targetCleared_plannedRevokes
    (h : targetGrantors current desired k p ⊆ revokeGrantors k p (revokeChanges current desired)) :
    TargetCleared current desired (plannedRevokes current desired) k p := by
  by_cases habsorbed : AbsorbedByTransfer current desired k
  · exact Or.inl habsorbed
  · refine Or.inr fun g hg => ?_
    obtain ⟨s, hs, hp⟩ := mem_revokeGrantors.1 (h hg)
    refine mem_revokeGrantors.2 ⟨s, List.mem_filter.2 ⟨hs, ?_⟩, hp⟩
    rw [Bool.not_eq_true']
    simp only [revokesIncomingOwner]
    split
    · next name htype hname =>
        rw [← Bool.not_eq_true, List.contains_iff_mem]
        exact fun hmem => habsorbed ⟨htype, name, hname, hmem⟩
    · rfl

/-- An undeclared, revocable privilege of an ordinary role is revoked. -/
theorem privilegeCleared_plannedRevokes (hrole : k.role.isPublic = false)
    (hinh : k ∉ current.inherentGrants) (hheld : p ∈ entryAt current.grants k)
    (hnot : ¬ Declares desired k p) :
    PrivilegeCleared current desired (plannedRevokes current desired) k p := by
  have hundeclared : p ∈ entryAt current.grants k \ entryAt desired.grants k :=
    Finset.mem_sdiff.2 ⟨hheld, fun h => hnot (Or.inl h)⟩
  unfold PrivilegeCleared
  cases hwild : k.isWildcard with
  | true =>
      have hshadow : p ∈ shadowFilter desired k
          (entryAt current.grants k \ entryAt desired.grants k) := by
        rwa [shadowFilter, if_pos hwild]
      have hacc : p ∈ entryAt (accumulatedRevokes current desired) k :=
        mem_accumulatedRevokes.2 (Or.inl ⟨hrole, hinh, hshadow⟩)
      split_ifs with hexp
      · intro a ha htarget
        have hscope := (mem_concreteTargets.1 htarget).1
        rw [GrantKey.eq_wildcard_of_sameScope hwild hscope] at hacc htarget
        exact targetCleared_plannedRevokes (targetGrantors_subset_of_reached ⟨ha, hacc, htarget⟩)
      · exact targetCleared_plannedRevokes
          (targetGrantors_subset_of_accumulated (by simpa using hexp) hacc)
  | false =>
      have hexp : expandsWildcard current k = false := by simp [expandsWildcard, hwild]
      have hnowild : p ∉ desiredWildcard desired k := fun h => hnot (Or.inr ⟨hwild, h⟩)
      rw [if_neg (by simp [hexp])]
      apply targetCleared_plannedRevokes
      -- A wildcard absence shadows the target's own revoke, and then reaches the target itself.
      by_cases habsent : p ∈ absenceWildcard desired k
      · refine targetGrantors_subset_of_reached ⟨hinh, ?_, ?_⟩
        · refine mem_accumulatedRevokes.2 (Or.inr ⟨?_, ?_⟩)
          · unfold absenceWildcard at habsent
            split_ifs at habsent
            · exact habsent
            · exact absurd habsent (Finset.notMem_empty p)
          · exact (mem_heldForAbsence_of_wildcard GrantKey.isWildcard_wildcard).2
              ⟨k, GrantKey.sameScope_wildcard, hinh, hheld⟩
        · exact mem_concreteTargets.2 ⟨GrantKey.sameScope_wildcard, hwild, Or.inr hheld⟩
      · refine targetGrantors_subset_of_accumulated hexp (mem_accumulatedRevokes.2 (Or.inl ?_))
        exact ⟨hrole, hinh, (mem_shadowFilter hwild).2 ⟨hundeclared, hnowild, habsent⟩⟩

end Cleared

/-! ## Safe drops -/

/-- Every grant of a membership is removed, except the executor's own ADMIN authority. -/
structure MembershipCleared (current : RoleGraph) (plan : List Change) (pair : String × String) :
    Prop where
  unrecorded : recordedGrantors current pair = none → .removeMember pair.1 pair.2 none ∈ plan
  recorded : ∀ grantors g, recordedGrantors current pair = some grantors → g ∈ grantors →
    executorAuthority current pair.1 pair.2 g = false →
      .removeMember pair.1 pair.2 (some g) ∈ plan

/-- What stands before and after the retirement and the drop of `r`. Nothing later names `r`, but
for a reassignment to it; no retirement step of `r` stands elsewhere; and what `r` holds undeclared
is taken away first: its revocable privileges, the default privileges to it and by it to ordinary
roles, and its memberships but for those in a role owned elsewhere that no stanza claims as
complete. -/
structure DropOrder (current desired : RoleGraph) (e : ExpandedManifest) (r : String)
    (pre post : List Change) : Prop where
  later : ∀ c ∈ post, c.names r = true → ∃ n, n ≠ r ∧ c = .reassignOwned n r
  retirement : ∀ c ∈ pre ++ post, c.retires r = false
  grants : ∀ k p, k.role = .role r → k ∉ current.inherentGrants →
    p ∈ entryAt current.grants k → ¬ Declares desired k p →
      PrivilegeCleared current desired pre k p
  defaults : ∀ k p, k.grantee = .role r ∨ (k.owner = r ∧ k.grantee.isPublic = false) →
    p ∈ entryAt current.defaultPrivileges k → p ∉ entryAt desired.defaultPrivileges k →
      ∃ s, .revokeDefaultPrivilege k s ∈ pre ∧ p ∈ s
  memberships : ∀ a ∈ current.memberships, a.role = r ∨ a.member = r →
    (∀ d ∈ desired.memberships, d.pair ≠ a.pair) →
    isUnmanaged e.roles a.role = false ∨ isExclusive e.memberships a.role = true →
      MembershipCleared current pre a.pair

section SafeDrops

variable {current desired : RoleGraph} {m : PolicyManifest} {e : ExpandedManifest} {r : String}

/-- A revoke from a role that preserves nothing passes in authoritative mode. -/
theorem plannedChange_revoke {k : GrantKey} (s : Finset Privilege) (g : Option String)
    (hr : preservesGrants e.roles k.role.asStr = false) :
    plannedChange current desired m e .authoritative (.revoke k s g) = [.revoke k s g] := by
  have hext : keptForExternal e.roles e.memberships (.revoke k s g) = true := rfl
  simp [plannedChange, withRetirement, passedChange, keptByMode, preserveGrants, hext, hr]

theorem plannedChange_removeMember {role member : String} (g : Option String)
    (hr : keptForExternal e.roles e.memberships (.removeMember role member g) = true) :
    plannedChange current desired m e .authoritative (.removeMember role member g) =
      [.removeMember role member g] := by
  simp [plannedChange, withRetirement, passedChange, keptByMode, preserveGrants, hr]

/-- Revokes of a role that preserves nothing are found in whatever keeps the passing changes. -/
theorem PrivilegeCleared.mono {l plan : List Change} {k : GrantKey} {p : Privilege}
    (hkeep : ∀ a s g, a.role = k.role → .revoke a s g ∈ l → .revoke a s g ∈ plan)
    (h : PrivilegeCleared current desired l k p) : PrivilegeCleared current desired plan k p := by
  have htarget : ∀ a, a.role = k.role → TargetCleared current desired l a p →
      TargetCleared current desired plan a p := by
    intro a ha hcleared
    refine hcleared.imp_right fun hsub g hg => ?_
    obtain ⟨s, hs, hp⟩ := mem_revokeGrantors.1 (hsub hg)
    exact mem_revokeGrantors.2 ⟨s, hkeep a s g ha hs, hp⟩
  unfold PrivilegeCleared at h ⊢
  split_ifs at h ⊢ with hexp
  · intro a hinh hp
    have hscope := (mem_concreteTargets.1 hp).1
    exact htarget a (GrantKey.sameScope_iff.1 hscope).1 (h a hinh hp)
  · exact htarget k rfl h

/-- Roles of the expanded manifest are desired, so a dropped role preserves nothing. -/
theorem preservesGrants_of_dropped (hgraph : RoleGraph.fromExpanded e m.defaultOwner = .ok desired)
    (hd : desired.roles[r]? = none) : preservesGrants e.roles r = false := by
  rw [← Bool.not_eq_true]
  intro h
  obtain ⟨d, hmem, hname⟩ := List.any_eq_true.1 h
  have hin := mem_roles_of_declared hgraph hmem
  rw [Bool.and_eq_true, beq_iff_eq] at hname
  rw [hname.2] at hin
  exact not_mem_iff_getElem?.2 hd hin

/-- Undeclared memberships of a dropped role pass the filter for roles owned elsewhere. -/
theorem keptForExternal_removeMember {a : MembershipEdge} (g : Option String)
    (hown : isUnmanaged e.roles r = false) (hr : a.role = r ∨ a.member = r)
    (hclaim : isUnmanaged e.roles a.role = false ∨ isExclusive e.memberships a.role = true) :
    keptForExternal e.roles e.memberships (.removeMember a.role a.member g) = true := by
  have hpredefined : isPredefinedRole r = false := by
    simp only [isUnmanaged, Bool.or_eq_false_iff] at hown
    exact hown.2
  rcases hr with hr | hr
  · simp [keptForExternal, hr, hown]
  · rcases hclaim with hclaim | hclaim
    · simp [keptForExternal, hclaim]
    · simp [keptForExternal, hclaim, hr, hpredefined]

theorem plannedGraph_memberships :
    (plannedGraph current desired).memberships = desired.memberships := by
  rw [plannedGraph, resolveRoutineAliases_memberships, resolveRoutineAliases_memberships]

/-- Undeclared memberships are removed edge by edge. -/
theorem removeAllEdges_subset_memberRemoves {a : MembershipEdge} (ha : a ∈ current.memberships)
    (hd : ∀ d ∈ desired.memberships, d.pair ≠ a.pair) {c : Change}
    (hc : c ∈ removeAllEdges current a.pair) : c ∈ memberRemoves current desired := by
  obtain ⟨edge, hedge⟩ := exists_membershipMap_eq_some ha
  refine mem_memberRemoves.2 (Or.inr ⟨a.pair, edge, hedge, ?_, hc⟩)
  rw [Option.eq_none_iff_forall_ne_some]
  intro d hdeclared
  obtain ⟨hmem, hpair⟩ := of_membershipMap_eq_some hdeclared
  exact hd d hmem hpair

/-- Each drop of a plan is safe. -/
theorem exists_safe_drop (hgraph : RoleGraph.fromExpanded e m.defaultOwner = .ok desired)
    {mode : ReconciliationMode} (h : .dropRole r ∈ planChanges current desired m e mode) :
    ∃ pre post, planChanges current desired m e mode =
        pre ++ retirementBlock m r ++ .dropRole r :: post ∧
      DropOrder current (plannedGraph current desired) e r pre post := by
  obtain ⟨-, -, hd, rfl, hown⟩ := drop_of_mem_planChanges h (Or.inl rfl)
  obtain ⟨pre, post, hplan, hbefore, hpre, hpost⟩ := exists_drop_block h
  have hpreserves := preservesGrants_of_dropped hgraph hd
  refine ⟨pre, post, hplan, ?_⟩
  constructor
  · intro c hc
    exact (hpost c hc).2
  · intro c hc
    rcases List.mem_append.1 hc with hc | hc
    · exact (hpre c hc).1
    · exact (hpost c hc).1
  · intro k p hrole hinh hheld hnot
    refine (privilegeCleared_plannedRevokes (by rw [hrole]; rfl) hinh hheld hnot).mono ?_
    intro a s g ha hs
    refine hbefore _ ?_ (plannedChange_revoke s g ?_)
    · simp only [beforeDrops, List.mem_append]
      exact Or.inl (Or.inl (Or.inl (Or.inr hs)))
    · rw [ha, hrole]
      exact hpreserves
  · intro k p hk hheld hnot
    have hordinary : k.grantee.isPublic = false := by
      rcases hk with hk | ⟨-, hk⟩
      · rw [hk]
        rfl
      · exact hk
    have hacc := (mem_accumulatedDefaultRevokes (d := k)).2 (Or.inl ⟨hordinary, hheld, hnot⟩)
    refine ⟨_, hbefore _ ?_ rfl, hacc⟩
    have hrevoke := mem_defaultRevokes.2 ⟨k, _, getElem?_of_mem_entryAt hacc, rfl⟩
    simp only [beforeDrops, List.mem_append]
    exact Or.inr hrevoke
  · intro a ha hr hundeclared hclaim
    have hremoved : ∀ g, .removeMember a.role a.member g ∈ removeAllEdges current a.pair →
        .removeMember a.role a.member g ∈ pre := by
      intro g hg
      refine hbefore _ ?_ (plannedChange_removeMember g
        (keptForExternal_removeMember g hown hr hclaim))
      have hmember := removeAllEdges_subset_memberRemoves ha hundeclared hg
      simp only [beforeDrops, List.mem_append]
      exact Or.inl (Or.inl (Or.inr hmember))
    constructor
    · intro hnone
      exact hremoved none (mem_removeAllEdges.2 (Or.inl ⟨hnone, rfl⟩))
    · intro grantors g hsome hg hauth
      exact hremoved (some g) (mem_removeAllEdges.2 (Or.inr ⟨grantors, g, hsome, hg, hauth, rfl⟩))

/-- The order of a plan: roles are created before anything names them; each drop comes after what
it needs, right behind its retirement steps; and no retirement step comes without the drop. -/
theorem plan_dependency_order (hgraph : RoleGraph.fromExpanded e m.defaultOwner = .ok desired)
    (mode : ReconciliationMode) :
    (∀ (n : String) (s : RoleState), desired.roles[n]? = some s → current.roles[n]? = none →
      isUnmanaged e.roles n = false →
        ∃ pre post, planChanges current desired m e mode = pre ++ .createRole n s :: post ∧
          ∀ c ∈ pre, c.names n = false) ∧
    (∀ r, .dropRole r ∈ planChanges current desired m e mode →
      ∃ pre post, planChanges current desired m e mode =
          pre ++ retirementBlock m r ++ .dropRole r :: post ∧
        DropOrder current (plannedGraph current desired) e r pre post) ∧
    ∀ r, ∀ c ∈ planChanges current desired m e mode, c.retires r = true →
      .dropRole r ∈ planChanges current desired m e mode := by
  refine ⟨fun n s hd hc hown => exists_create_before m mode hd hc hown,
    fun r hr => exists_safe_drop hgraph hr, fun r c hc hretires => ?_⟩
  obtain ⟨s, hs, hd, hpass⟩ := drop_of_mem_planChanges hc (Or.inr hretires)
  rw [planChanges_eq]
  refine List.mem_flatMap.2 ⟨.dropRole r, ?_, ?_⟩
  · refine List.mem_append_right _ (mem_roleDrops.2 ⟨r, s, hs, ?_, rfl⟩)
    rw [plannedGraph_roles, hd]
  · rw [plannedChange_dropRole, if_pos hpass]
    exact List.mem_append_right _ (List.mem_singleton_self _)

end SafeDrops

/-! ## A retired role -/

/-- `old` is retired, while a schema and a table grant still name it. -/
def retiringManifest : PolicyManifest :=
  { roles := [{ name := "fresh" }]
    schemas := [{ name := "app", owner := some "old" }]
    grants := [⟨"old", [.select], ⟨.table, some "app", some "orders"⟩, .present⟩]
    retirements := [{ role := "old", reassignOwnedTo := some "fresh", terminateSessions := true }] }

/-- What that manifest expands to. -/
def retiringExpanded : ExpandedManifest :=
  { roles := retiringManifest.roles
    schemas := [⟨"app", some "old"⟩]
    grants := retiringManifest.grants }

/-- The graph of that manifest. -/
def retiringDesired : RoleGraph :=
  { roles := ExtTreeMap.ofList [("fresh", {})] compare
    schemas := ExtTreeMap.ofList [("app", ⟨some "old", {.create, .usage}⟩)] compare
    grants := extendEntry ∅ ⟨.role "old", .table, some "app", some "orders"⟩ {.select} }

/-- `old` holds a declared and an undeclared table grant, `USAGE` on the schema it will own, `USAGE`
on all sequences with one sequence recorded for another privilege, a default of its own for PUBLIC,
and memberships in an ordinary role, in a predefined one, and as the executor's authority. -/
def retiringCurrent : RoleGraph :=
  { roles := ExtTreeMap.ofList [("old", {})] compare
    schemas := ExtTreeMap.ofList [("app", ⟨some "postgres", {.create, .usage}⟩)] compare
    grants := extendEntries ∅
      [(⟨.role "old", .table, some "app", some "orders"⟩, {.select}),
        (⟨.role "old", .table, some "app", some "logs"⟩, {.insert}),
        (⟨.role "old", .schema, none, some "app"⟩, {.usage}),
        (⟨.role "old", .sequence, some "app", some "*"⟩, {.usage}),
        (⟨.role "old", .sequence, some "app", some "ids"⟩, {.select})]
    defaultPrivileges := extendEntry ∅ ⟨"old", .global, .function, .publicRole⟩ {.execute}
    memberships := ExtTreeSet.ofList [⟨"ops", "old", true, false⟩,
      ⟨"pg_monitor", "old", true, false⟩, ⟨"team", "old", true, true⟩] compare
    membershipEdgeGrantors := ExtTreeMap.ofList
      [(("team", "old"), ExtTreeSet.ofList ["postgres"] compare)] compare
    executorAuthorityEdges := ExtTreeSet.ofList [("team", "old", "postgres")] compare }

/-- The plan, in the order in which it runs. -/
def retiringPlan : List Change :=
  [.createRole "fresh" {},
    .alterSchemaOwner "app" "old",
    .ensureSchemaOwnerPrivileges "app" "old" {.create, .usage},
    .revoke ⟨.role "old", .sequence, some "app", some "ids"⟩ {.select} none,
    .revoke ⟨.role "old", .table, some "app", some "logs"⟩ {.insert} none,
    .removeMember "ops" "old" none,
    .terminateSessions "old",
    .reassignOwned "old" "fresh",
    .dropRole "old"]

theorem planChanges_retiring :
    planChanges retiringCurrent retiringDesired retiringManifest retiringExpanded .authoritative =
      retiringPlan := by
  decide +kernel

theorem fromExpanded_retiring :
    RoleGraph.fromExpanded retiringExpanded retiringManifest.defaultOwner = .ok retiringDesired :=
  rfl

theorem retiring_order :
    ∃ pre post, planChanges retiringCurrent retiringDesired retiringManifest retiringExpanded
        .authoritative = pre ++ retirementBlock retiringManifest "old" ++ .dropRole "old" :: post ∧
      DropOrder retiringCurrent (plannedGraph retiringCurrent retiringDesired) retiringExpanded
        "old" pre post := by
  refine (plan_dependency_order fromExpanded_retiring .authoritative).2.1 "old" ?_
  rw [planChanges_retiring]
  decide +kernel

/-- What a plan leaves with a role it drops: privileges that are declared, that a transfer absorbs,
or that only a wildcard records; its own defaults for PUBLIC; and memberships in roles owned
elsewhere or held as the executor's authority. -/
theorem retiring_leaves_behind :
    expandManifest retiringManifest = .ok retiringExpanded ∧
      RoleGraph.fromExpanded retiringExpanded retiringManifest.defaultOwner = .ok retiringDesired ∧
      .dropRole "old" ∈ planChanges retiringCurrent retiringDesired retiringManifest
        retiringExpanded .authoritative ∧
      (∀ held ∈ [((⟨.role "old", .table, some "app", some "orders"⟩ : GrantKey), Privilege.select),
          (⟨.role "old", .schema, none, some "app"⟩, .usage),
          (⟨.role "old", .sequence, some "app", some "*"⟩, .usage)],
        held.1 ∉ retiringCurrent.inherentGrants ∧ held.2 ∈ entryAt retiringCurrent.grants held.1 ∧
          ¬ Revokes (planChanges retiringCurrent retiringDesired retiringManifest retiringExpanded
            .authoritative) held.1 held.2) ∧
      (.execute ∈ entryAt retiringCurrent.defaultPrivileges ⟨"old", .global, .function, .publicRole⟩
        ∧ ∀ k s, .revokeDefaultPrivilege k s ∉ planChanges retiringCurrent retiringDesired
          retiringManifest retiringExpanded .authoritative) ∧
      ∀ role ∈ ["pg_monitor", "team"],
        (∃ a ∈ retiringCurrent.memberships, a.pair = (role, "old")) ∧
          ∀ g, .removeMember role "old" g ∉ planChanges retiringCurrent retiringDesired
            retiringManifest retiringExpanded .authoritative := by
  rw [planChanges_retiring]
  refine ⟨by decide +kernel, fromExpanded_retiring, by decide +kernel, ?_, ⟨by decide +kernel, ?_⟩,
    ?_⟩
  · intro held hheld
    refine ⟨?_, ?_, ?_⟩
    · revert held
      decide +kernel
    · revert held
      decide +kernel
    · rw [revokes_iff]
      revert held
      decide +kernel
  · intro k s h
    simp [retiringPlan] at h
  · intro role hrole
    refine ⟨?_, ?_⟩
    · simp only [List.mem_cons, List.not_mem_nil, or_false] at hrole
      rcases hrole with rfl | rfl
      · exact ⟨⟨"pg_monitor", "old", true, false⟩, by decide +kernel, rfl⟩
      · exact ⟨⟨"team", "old", true, true⟩, by decide +kernel, rfl⟩
    · intro g h
      simp only [List.mem_cons, List.not_mem_nil, or_false] at hrole
      rcases hrole with rfl | rfl <;> simp [retiringPlan] at h

end PgRoles.Core

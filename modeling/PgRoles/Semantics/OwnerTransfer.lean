import PgRoles.Inspect.Normalize
import PgRoles.Semantics.PlanConvergence

/-!
# Convergence under schema-owner transfers

A plan that transfers schemas converges in one pass through re-inspection if and only if no declared
grant on a schema names the role that ends up owning it (`reconverges_iff`). Inspection keeps an
owner's own grants out of the grants map and the desired graph keeps them in, so such a grant is
planned again on every reconcile. Revokes never strip the incoming owner.
-/

set_option autoImplicit false

namespace PgRoles.Semantics

open Std PgRoles.Lib PgRoles.Core PgRoles.Inspect

variable {current desired : RoleGraph}

/-! ## The owner after a plan -/

/-- The owner of a schema after the plan: the declared one, else the current one. -/
def finalOwner (current desired : RoleGraph) (n : String) : Option String :=
  match desired.schemas[n]? with
  | some d => d.owner.or (current.schemas[n]?.bind SchemaState.owner)
  | none => current.schemas[n]?.bind SchemaState.owner

/-- The key grants on a schema to the role that owns it after the plan. -/
def GrantsToFinalOwner (current desired : RoleGraph) (k : GrantKey) : Prop :=
  k.objectType = .schema ∧
    ∃ n, k.name = some n ∧ finalOwner current desired n = some k.role.asStr

/-- The owner of a schema after the plan. -/
theorem owner_after_plan (n : String) :
    (((diffResolved current desired).foldl schemasStep current.schemas)[n]?).bind
        SchemaState.owner =
      finalOwner current desired n := by
  rw [getElem?_foldl_schemasStep, finalOwner]
  cases desired.schemas[n]? with
  | none => rfl
  | some d =>
      cases ho : d.owner with
      | none => cases current.schemas[n]? <;> simp [convergedSchema, ho]
      | some o => cases current.schemas[n]? <;> simp [convergedSchema, ho]

theorem finalOwner_of_transfer {n o : String}
    (h : .alterSchemaOwner n o ∈ schemaChanges current desired) :
    finalOwner current desired n = some o := by
  obtain ⟨m, d, hd, ⟨-, heq⟩ | ⟨t, o', -, ho, -, heq⟩⟩ := mem_schemaChanges.1 h
  · cases heq
  · obtain ⟨rfl, rfl⟩ := Change.alterSchemaOwner.inj heq
    rw [finalOwner, hd]
    simp [ho]

theorem AbsorbedEntry.grantsToFinalOwner {k : GrantKey} (h : AbsorbedEntry current desired k) :
    GrantsToFinalOwner current desired k := by
  obtain ⟨n, o, hmem, rfl⟩ := h
  exact ⟨rfl, n, rfl, finalOwner_of_transfer hmem⟩

theorem IncomingOwnerKey.grantsToFinalOwner {k : GrantKey}
    (h : IncomingOwnerKey current desired k) : GrantsToFinalOwner current desired k := by
  obtain ⟨htype, n, hn, hmem⟩ := h
  exact ⟨htype, n, hn, finalOwner_of_transfer hmem⟩

/-- After the plan the entries of owners are those of the final owners. -/
theorem isSchemaOwnerGrant_after_plan {k : GrantKey} :
    isSchemaOwnerGrant ((diffResolved current desired).foldl schemasStep current.schemas) k = true ↔
      GrantsToFinalOwner current desired k := by
  rw [isSchemaOwnerGrant_iff, GrantsToFinalOwner]
  refine and_congr_right fun _ => ?_
  constructor
  · rintro ⟨n, s, hn, hs, ho⟩
    refine ⟨n, hn, ?_⟩
    rw [← owner_after_plan, hs]
    exact ho
  · rintro ⟨n, hn, ho⟩
    rw [← owner_after_plan] at ho
    obtain ⟨s, hs, ho⟩ := Option.bind_eq_some_iff.1 ho
    exact ⟨n, s, hn, hs, ho⟩

/-! ## Re-inspection after a plan -/

section Reinspection

variable {g : RoleGraph} (hrun : applyChanges current (diffResolved current desired) = some g)

include hrun

theorem inherentGrants_reinspected :
    (removeRedundantSchemaOwnerGrants g).inherentGrants = current.inherentGrants :=
  (applyChanges_facts hrun).2.1

theorem mem_defaults_after {k : DefaultPrivKey} {p : Privilege} :
    p ∈ entryAt g.defaultPrivileges k ↔
      (p ∈ entryAt current.defaultPrivileges k ∨ p ∈ entryAt desired.defaultPrivileges k) ∧
        p ∉ entryAt (accumulatedDefaultRevokes current desired) k := by
  rw [applyChanges_defaultPrivileges hrun, mem_foldl_defaultsStep]

theorem roles_after : g.roles = desired.roles :=
  (applyChanges_roles hrun).trans foldl_rolesStep_eq

/-- Once the desired roles exist, no built-in default belongs to a new owner. -/
theorem builtinDefaults_reinspected (k : DefaultPrivKey) :
    builtinDefaultsForNewOwner (removeRedundantSchemaOwnerGrants g) desired k = ∅ := by
  refine if_pos ?_
  by_cases hin : k.owner ∈ desired.roles
  · refine Or.inl ?_
    show k.owner ∈ g.roles
    rwa [roles_after hrun]
  · exact Or.inr (Or.inl hin)

theorem convergedSchemas_reinspected :
    ConvergedSchemas (removeRedundantSchemaOwnerGrants g) desired := by
  intro n d hd
  refine ⟨convergedSchema current.schemas[n]? d, ?_, fun o ho => ?_⟩
  · show g.schemas[n]? = _
    rw [applyChanges_schemas hrun, getElem?_foldl_schemasStep, hd]
  · cases current.schemas[n]? with
    | none => simp [convergedSchema, ho]
    | some t => simp [convergedSchema, ho]

/-- A declared grant to a final owner is planned again. -/
theorem grant_reinspected {k : GrantKey} {s : Finset Privilege} (hk : desired.grants[k]? = some s)
    (howner : GrantsToFinalOwner current desired k) :
    .grant k s ∈ diffResolved (removeRedundantSchemaOwnerGrants g) desired := by
  have hnone : (removeRedundantSchemaOwnerGrants g).grants[k]? = none := by
    rw [getElem?_removeRedundantSchemaOwnerGrants, if_pos]
    rw [applyChanges_schemas hrun]
    exact isSchemaOwnerGrant_after_plan.2 howner
  have hgrant : .grant k s ∈ grantChanges (removeRedundantSchemaOwnerGrants g) desired := by
    refine mem_grantChanges.2 ⟨k, s, hk, Or.inl hnone, ?_⟩
    rw [entryAt_of_getElem?_none hnone, Finset.sdiff_empty]
  simp only [diffResolved, List.mem_append]
  tauto

end Reinspection

/-! ## The domain -/

/-- What the interpreter and manifest validation ask of the two graphs: concrete names, non-empty
declared sets, no privilege both declared and asserted absent, and plain memberships. -/
structure TransferGraphs (current desired : RoleGraph) : Prop where
  names : ConcreteNames current desired
  grants_nonempty : NoEmptyEntries desired.grants
  defaults_nonempty : NoEmptyEntries desired.defaultPrivileges
  grants_disjoint : ∀ k p, p ∈ entryAt desired.grants k → p ∉ entryAt desired.grantAbsences k
  defaults_disjoint : ∀ k p, p ∈ entryAt desired.defaultPrivileges k →
    p ∉ entryAt desired.defaultPrivilegeAbsences k
  memberships : PlainMemberships current desired

namespace TransferGraphs

variable (h : TransferGraphs current desired) {g : RoleGraph}
  (hrun : applyChanges current (diffResolved current desired) = some g)

include h hrun

/-- The grants that another inspection finds. -/
theorem mem_reinspected {k : GrantKey} {p : Privilege} :
    p ∈ entryAt (removeRedundantSchemaOwnerGrants g).grants k ↔
      ¬ GrantsToFinalOwner current desired k ∧
        ((p ∈ entryAt current.grants k ∨ p ∈ entryAt desired.grants k) ∧
          ¬ Revokes (revokeChanges current desired) k p) := by
  rw [mem_entryAt_removeRedundantSchemaOwnerGrants, applyChanges_schemas hrun,
    applyChanges_grants hrun, mem_foldl_grantsStep h.names, revokes_plannedRevokes,
    ← Bool.not_eq_true, isSchemaOwnerGrant_after_plan]
  refine and_congr_right fun howner => ?_
  have habsorbed : ¬ AbsorbedEntry current desired k := fun ha => howner ha.grantsToFinalOwner
  have hincoming : ¬ IncomingOwnerKey current desired k := fun hi => howner hi.grantsToFinalOwner
  tauto

theorem concrete_reinspected {k : GrantKey} {p : Privilege}
    (hp : p ∈ entryAt (removeRedundantSchemaOwnerGrants g).grants k) : k.isWildcard = false := by
  obtain ⟨-, hheld | hheld, -⟩ := (h.mem_reinspected hrun).1 hp
  · exact h.names.current_grants k _ (getElem?_of_mem_entryAt hheld)
  · exact h.names.desired_grants k _ (getElem?_of_mem_entryAt hheld)

/-- Nothing is left to grant where no grant to a final owner is declared. -/
theorem grantChanges_reinspected
    (hcond : ∀ (k : GrantKey) s, desired.grants[k]? = some s →
      ¬ GrantsToFinalOwner current desired k) :
    grantChanges (removeRedundantSchemaOwnerGrants g) desired = [] := by
  refine grantChanges_eq_nil fun k s hk => ?_
  have hmem : ∀ p ∈ s, p ∈ entryAt (removeRedundantSchemaOwnerGrants g).grants k := by
    intro p hp
    have hdes : p ∈ entryAt desired.grants k := by rwa [entryAt_of_getElem? hk]
    refine (h.mem_reinspected hrun).2 ⟨hcond k s hk, Or.inr hdes, ?_⟩
    rw [h.names.revokes_revokeChanges_iff (h.names.desired_grants k s hk)]
    rintro ⟨-, -, habs | ⟨-, hno⟩⟩
    · exact h.grants_disjoint k p hdes habs
    · exact hno hdes
  have hne : s ≠ ∅ := by
    rintro rfl
    exact h.grants_nonempty k hk
  obtain ⟨p, hp⟩ := Finset.nonempty_iff_ne_empty.2 hne
  refine ⟨?_, hmem⟩
  rw [getElem?_of_mem_entryAt (hmem p hp)]
  exact nofun

/-- Nothing is left to revoke. -/
theorem plannedRevokes_reinspected :
    plannedRevokes (removeRedundantSchemaOwnerGrants g) desired = [] := by
  refine plannedRevokes_eq_nil fun k p hp => ?_
  have hrevoked : ∀ {k p}, p ∈ entryAt (removeRedundantSchemaOwnerGrants g).grants k →
      k ∉ current.inherentGrants →
      (p ∈ entryAt desired.grantAbsences k ∨
        (k.role.isPublic = false ∧ p ∉ entryAt desired.grants k)) → False := by
    intro k p hp hinh hground
    obtain ⟨-, hheld, hno⟩ := (h.mem_reinspected hrun).1 hp
    have hk := h.concrete_reinspected hrun hp
    rw [h.names.revokes_revokeChanges_iff hk] at hno
    rcases hheld with hcur | hdes
    · exact hno ⟨hinh, hcur, hground⟩
    · rcases hground with habs | ⟨-, hnot⟩
      · exact h.grants_disjoint k p hdes habs
      · exact hnot hdes
  rcases mem_accumulatedRevokes.1 hp with ⟨hpub, hinh, hp⟩ | ⟨habs, hheld⟩
  · obtain ⟨hheld, hno⟩ := Finset.mem_sdiff.1 (shadowFilter_subset hp)
    rw [inherentGrants_reinspected hrun] at hinh
    exact hrevoked hheld hinh (Or.inr ⟨hpub, hno⟩)
  · have hk := h.names.desired_absences k _ (getElem?_of_mem_entryAt habs)
    rw [mem_heldForAbsence_of_concrete hk, inherentGrants_reinspected hrun] at hheld
    exact hrevoked hheld.2 hheld.1 (Or.inl habs)

/-- No default privileges are left to set. -/
theorem defaultSets_reinspected :
    defaultSets (removeRedundantSchemaOwnerGrants g) desired = [] := by
  refine defaultSets_eq_nil fun k s hk => ?_
  have hmem : ∀ p ∈ s, p ∈ entryAt g.defaultPrivileges k := by
    intro p hp
    have hdes : p ∈ entryAt desired.defaultPrivileges k := by rwa [entryAt_of_getElem? hk]
    refine (mem_defaults_after hrun).2 ⟨Or.inr hdes, ?_⟩
    rw [mem_accumulatedDefaultRevokes]
    rintro (⟨-, -, hno⟩ | ⟨habs, -⟩)
    · exact hno hdes
    · exact h.defaults_disjoint k p hdes habs
  have hne : s ≠ ∅ := by
    rintro rfl
    exact h.defaults_nonempty k hk
  obtain ⟨p, hp⟩ := Finset.nonempty_iff_ne_empty.2 hne
  refine ⟨?_, hmem⟩
  show g.defaultPrivileges[k]? ≠ none
  rw [getElem?_of_mem_entryAt (hmem p hp)]
  exact nofun

/-- No default privileges are left to revoke. -/
theorem defaultRevokes_reinspected :
    defaultRevokes (removeRedundantSchemaOwnerGrants g) desired = [] := by
  refine defaultRevokes_eq_nil (fun k p hp => ?_) fun k hd hpub => ?_
  · rcases mem_accumulatedDefaultRevokes.1 hp with ⟨hpub, hheld, hno⟩ | ⟨habs, hheld⟩
    · obtain ⟨hor, hkept⟩ := (mem_defaults_after hrun).1 hheld
      have hcur := hor.resolve_right hno
      exact hkept (mem_accumulatedDefaultRevokes.2 (Or.inl ⟨hpub, hcur, hno⟩))
    · have hmem : p ∈ entryAt g.defaultPrivileges k := by
        unfold heldDefaults at hheld
        rw [builtinDefaults_reinspected hrun] at hheld
        exact hheld
      obtain ⟨hcur | hdes, hkept⟩ := (mem_defaults_after hrun).1 hmem
      · refine hkept (mem_accumulatedDefaultRevokes.2 (Or.inr ⟨habs, ?_⟩))
        rw [heldDefaults, getElem?_of_mem_entryAt hcur]
        exact hcur
      · exact h.defaults_disjoint k p hdes habs
  · show g.defaultPrivileges[k]? = none
    rw [applyChanges_defaultPrivileges hrun]
    exact getElem?_foldl_defaultsStep_of_undeclared hd hpub

theorem plainMemberships_reinspected :
    PlainMemberships (removeRedundantSchemaOwnerGrants g) desired where
  no_grantors := by
    intro pair
    have hsame : recordedGrantors (removeRedundantSchemaOwnerGrants g) pair =
        recordedGrantors current pair := by
      have hgrantors : (removeRedundantSchemaOwnerGrants g).membershipEdgeGrantors =
          current.membershipEdgeGrantors := (applyChanges_facts hrun).2.2.1
      rw [recordedGrantors, recordedGrantors, hgrantors]
    rw [hsame]
    exact h.memberships.no_grantors pair
  current_edges := by
    show OneEdgePerPair g.memberships
    rw [applyChanges_memberships hrun, h.memberships.foldl_membershipsStep_eq]
    exact h.memberships.desired_edges
  desired_edges := h.memberships.desired_edges

/-- Without a grant to a final owner, re-inspection leaves nothing to plan. -/
theorem diffResolved_reinspected
    (hcond : ∀ (k : GrantKey) s, desired.grants[k]? = some s →
      ¬ GrantsToFinalOwner current desired k) :
    diffResolved (removeRedundantSchemaOwnerGrants g) desired = [] := by
  have hroles : (removeRedundantSchemaOwnerGrants g).roles = desired.roles :=
    (roles_after hrun : g.roles = desired.roles)
  have hschemas := convergedSchemas_reinspected hrun
  have hplain := h.plainMemberships_reinspected hrun
  have hmembers : (removeRedundantSchemaOwnerGrants g).memberships = desired.memberships :=
    (applyChanges_memberships hrun).trans h.memberships.foldl_membershipsStep_eq
  rw [diffResolved, roleCreates_eq_nil hroles, roleAlters_eq_nil hroles, roleDrops_eq_nil hroles,
    schemaChanges_eq_nil hschemas, schemaGrants_eq_nil hschemas,
    h.grantChanges_reinspected hrun hcond, h.defaultSets_reinspected hrun,
    h.plannedRevokes_reinspected hrun, memberRemoves_eq_nil hplain hmembers,
    memberAdds_eq_nil hplain hmembers, h.defaultRevokes_reinspected hrun]
  rfl

end TransferGraphs

/-! ## Reconvergence -/

/-- No revoke of the plan names a role that the plan makes owner of the schema. -/
def KeepsIncomingOwners (plan : List Change) : Prop :=
  ∀ n o, .alterSchemaOwner n o ∈ plan → ∀ k s g, .revoke k s g ∈ plan →
    ¬ (k.objectType = .schema ∧ k.name = some n ∧ k.role.asStr = o)

/-- The plan executes, strips no incoming owner, and leaves nothing to plan on the re-inspected
graph. -/
def Reconverges (current desired : RoleGraph) : Prop :=
  KeepsIncomingOwners (diff current desired) ∧
    ∃ g, applyChanges current (diff current desired) = some g ∧
      diff (removeRedundantSchemaOwnerGrants g) desired = []

theorem keepsIncomingOwners_diffResolved :
    KeepsIncomingOwners (diffResolved current desired) := by
  rintro n o htransfer k s g hrevoke ⟨htype, hname, rfl⟩
  have hmem := mem_schemaChanges_of_transfer htransfer
  have hplanned := mem_plannedRevokes_of_revoke hrevoke
  exact (mem_plannedRevokes.1 hplanned).2 ⟨htype, n, hname, hmem⟩

/-! ## A transferred schema -/

/-- A schema that its old owner still owns. -/
def ownedByOld : RoleGraph :=
  { schemas := (∅ : BTreeMap String SchemaState).insert "app" ⟨some "old", {.create, .usage}⟩ }

/-- The same schema owned by the new role, with `USAGE` on it declared for `grantee`. -/
def ownedByNew (grantee : String) : RoleGraph :=
  { schemas := (∅ : BTreeMap String SchemaState).insert "app" ⟨some "new", {.create, .usage}⟩
    grants := extendEntry ∅ (ownerEntry "app" grantee) {.usage} }

theorem getElem?_ownedByNew {grantee : String} {k : GrantKey} {s : Finset Privilege}
    (h : (ownedByNew grantee).grants[k]? = some s) :
    k = ownerEntry "app" grantee ∧ s = {.usage} := by
  rw [ownedByNew, getElem?_extendEntry] at h
  split_ifs at h with heq
  · refine ⟨heq.symm, ?_⟩
    rw [← Option.some.inj h]
    simp [entryAt]
  · simp at h

/-- The graphs are those of a transfer. -/
theorem ownedByNew_transferGraphs (grantee : String) :
    TransferGraphs ownedByOld
      ((ownedByNew grantee).resolveRoutineAliases ownedByOld.routineAliases) := by
  have halias : ownedByOld.routineAliases.isEmpty = true := ExtTreeMap.isEmpty_empty
  rw [resolveRoutineAliases_of_isEmpty halias]
  refine
    { names :=
        { current_grants := fun k s hk => by simp [ownedByOld] at hk
          desired_grants := fun k s hk => by
            rw [(getElem?_ownedByNew hk).1]
            simp [ownerEntry, GrantKey.isWildcard, wildcardName]
          desired_absences := fun k s hk => by simp [ownedByNew] at hk }
      grants_nonempty := fun k hk => absurd (getElem?_ownedByNew hk).2 (by decide)
      defaults_nonempty := fun k => by simp [ownedByNew]
      grants_disjoint := fun k p _ => by simp [ownedByNew, entryAt]
      defaults_disjoint := fun k p _ => by simp [ownedByNew, entryAt]
      memberships :=
        { no_grantors := fun pair => by simp [recordedGrantors, ownedByOld]
          current_edges := fun a ha => absurd ha ExtTreeSet.not_mem_empty
          desired_edges := fun a ha => absurd ha ExtTreeSet.not_mem_empty } }

/-- With the declared grant to the new owner the transfer is followed by a grant that every later
reconcile plans again. -/
theorem ownedByNew_not_reconverges :
    TransferGraphs ownedByOld
        ((ownedByNew "new").resolveRoutineAliases ownedByOld.routineAliases) ∧
      .alterSchemaOwner "app" "new" ∈ diff ownedByOld (ownedByNew "new") ∧
      (applyChanges ownedByOld (diff ownedByOld (ownedByNew "new"))).map
          (fun g => diff (removeRedundantSchemaOwnerGrants g) (ownedByNew "new")) =
        some [.grant (ownerEntry "app" "new") {.usage}] ∧
      ¬ Reconverges ownedByOld (ownedByNew "new") := by
  have hagain : (applyChanges ownedByOld (diff ownedByOld (ownedByNew "new"))).map
        (fun g => diff (removeRedundantSchemaOwnerGrants g) (ownedByNew "new")) =
      some [.grant (ownerEntry "app" "new") {.usage}] := by
    decide +kernel
  refine ⟨ownedByNew_transferGraphs "new", by decide, hagain, ?_⟩
  rintro ⟨-, g, hrun, hempty⟩
  rw [hrun, Option.map_some, hempty] at hagain
  cases hagain

/-! ## The condition -/

/-- A plan reconverges if and only if no declared grant on a schema names its final owner. -/
theorem reconverges_iff
    (h : TransferGraphs current (desired.resolveRoutineAliases current.routineAliases)) :
    Reconverges current desired ↔
      ∀ (k : GrantKey) s,
        (desired.resolveRoutineAliases current.routineAliases).grants[k]? = some s →
          ¬ GrantsToFinalOwner current desired k := by
  have howner : ∀ k, GrantsToFinalOwner current
      (desired.resolveRoutineAliases current.routineAliases) k ↔
        GrantsToFinalOwner current desired k := by
    intro k
    unfold GrantsToFinalOwner finalOwner
    rw [resolveRoutineAliases_schemas]
  constructor
  · rintro ⟨-, g, hrun, hempty⟩ k s hk hfinal
    have hgrant := grant_reinspected hrun hk ((howner k).2 hfinal)
    have haliases : (removeRedundantSchemaOwnerGrants g).routineAliases = current.routineAliases :=
      (applyChanges_facts hrun).1
    rw [diff, haliases] at hempty
    rw [hempty] at hgrant
    exact List.not_mem_nil hgrant
  · intro hcond
    obtain ⟨g, hrun⟩ := applyChanges_diffResolved h.memberships
    refine ⟨keepsIncomingOwners_diffResolved, g, hrun, ?_⟩
    have haliases : (removeRedundantSchemaOwnerGrants g).routineAliases = current.routineAliases :=
      (applyChanges_facts hrun).1
    rw [diff, haliases]
    exact h.diffResolved_reinspected hrun fun k s hk hfinal => hcond k s hk ((howner k).1 hfinal)

/-- With the grant declared for another role the transfer reconverges. -/
theorem ownedByNew_reconverges : Reconverges ownedByOld (ownedByNew "reader") := by
  refine (reconverges_iff (ownedByNew_transferGraphs "reader")).2 fun k s hk => ?_
  have halias : ownedByOld.routineAliases.isEmpty = true := ExtTreeMap.isEmpty_empty
  rw [resolveRoutineAliases_of_isEmpty halias] at hk
  obtain ⟨rfl, -⟩ := getElem?_ownedByNew hk
  rintro ⟨-, n, hn, howner⟩
  obtain rfl := Option.some.inj hn
  revert howner
  decide

end PgRoles.Semantics

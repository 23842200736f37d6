import PgRoles.Semantics.Convergence

/-!
# Convergence of whole plans

Executing the diff never fails on a graph without membership grantor records, and brings the graph
to the desired one: exactly, where the two graphs are plain (`diff_converges`). The engine drives a
schema owner towards `CREATE` and `USAGE` and resolves routine names through the current graph, so
the desired graph is met with those two read into it.
-/

set_option autoImplicit false

namespace PgRoles.Semantics

open Std PgRoles.Lib PgRoles.Core

variable {current desired : RoleGraph}

/-! ## Runs of a plan succeed -/

/-- The changes of a plan between its role creations and its role drops. -/
def innerChanges (current desired : RoleGraph) : List Change :=
  roleAlters current desired ++ schemaChanges current desired ++ schemaGrants current desired ++
    grantChanges current desired ++ defaultSets current desired ++ plannedRevokes current desired ++
    memberRemoves current desired ++ memberAdds current desired ++ defaultRevokes current desired

theorem diffResolved_eq_inner :
    diffResolved current desired =
      roleCreates current desired ++ innerChanges current desired ++ roleDrops current desired := by
  simp [diffResolved, innerChanges]

/-- Every desired role is there, and so is every current schema. -/
def Prepared (current desired g : RoleGraph) : Prop :=
  (∀ n ∈ desired.roles, n ∈ g.roles) ∧ ∀ n ∈ current.schemas, n ∈ g.schemas

theorem Prepared.next {g : RoleGraph} {c : Change} (h : Prepared current desired g)
    (hc : c.phase ≠ .dropRole) : Prepared current desired (nextGraph g c) := by
  refine ⟨fun n hn => mem_rolesStep ?_ (h.1 n hn), fun n hn => mem_schemasStep c (h.2 n hn)⟩
  rintro rfl
  exact hc rfl

/-- Once prepared, every inner change is applicable. -/
theorem Prepared.applicable {g : RoleGraph} {c : Change} (hplain : PlainMemberships current desired)
    (h : Prepared current desired g) (hc : c ∈ innerChanges current desired) :
    Applicable g c ∧ c.phase ≠ .dropRole := by
  simp only [innerChanges, List.mem_append] at hc
  rcases hc with (((((((hc | hc) | hc) | hc) | hc) | hc) | hc) | hc) | hc
  · obtain ⟨n, s, hn, hor⟩ := mem_roleAlters.1 hc
    have hin := h.1 n (mem_iff_exists_getElem?.2 ⟨s, hn⟩)
    obtain ⟨-, -, rfl⟩ | ⟨t, -, ⟨-, rfl⟩ | ⟨-, rfl⟩⟩ := hor
    · exact ⟨hin, nofun⟩
    · exact ⟨hin, nofun⟩
    · exact ⟨hin, nofun⟩
  · obtain ⟨n, d, -, ⟨-, rfl⟩ | ⟨t, o, ht, -, -, rfl⟩⟩ := mem_schemaChanges.1 hc
    · exact ⟨trivial, nofun⟩
    · exact ⟨h.2 n (mem_iff_exists_getElem?.2 ⟨t, ht⟩), nofun⟩
  · obtain ⟨n, d, t, o, -, ht, -, -, rfl⟩ := mem_schemaGrants.1 hc
    exact ⟨h.2 n (mem_iff_exists_getElem?.2 ⟨t, ht⟩), nofun⟩
  · obtain ⟨k, s, -, -, rfl⟩ := mem_grantChanges.1 hc
    exact ⟨trivial, nofun⟩
  · obtain ⟨k, s, -, -, rfl⟩ := mem_defaultSets.1 hc
    exact ⟨trivial, nofun⟩
  · have hphase := phase_of_mem_plannedRevokes hc
    cases c with
    | revoke k s g => exact ⟨trivial, nofun⟩
    | _ => cases hphase
  · obtain ⟨a, -, -, rfl⟩ := hplain.mem_memberRemoves_iff.1 hc
    exact ⟨trivial, nofun⟩
  · obtain ⟨d, -, -, rfl⟩ := hplain.mem_memberAdds_iff.1 hc
    exact ⟨trivial, nofun⟩
  · obtain ⟨k, s, -, rfl⟩ := mem_defaultRevokes.1 hc
    exact ⟨trivial, nofun⟩

/-- After the role creations the graph is prepared. -/
theorem prepared_of_roleCreates :
    Prepared current desired ((roleCreates current desired).foldl nextGraph current) := by
  have hroles : ∀ l : List Change, (l.foldl nextGraph current).roles =
      l.foldl rolesStep current.roles := by
    intro l
    induction l using List.reverseRecOn with
    | nil => rfl
    | append_singleton l c ih =>
        rw [List.foldl_append, List.foldl_append, ← ih]
        rfl
  refine ⟨fun n hn => ?_, fun n hn => ?_⟩
  · obtain ⟨s, hs⟩ := mem_iff_exists_getElem?.1 hn
    rw [hroles, mem_iff_exists_getElem?,
      getElem?_foldl_of_pointwise (fun m c k => getElem?_rolesStep m c k),
      foldl_roleAct_roleCreates, hs]
    by_cases hin : n ∈ current.roles
    · obtain ⟨t, ht⟩ := mem_iff_exists_getElem?.1 hin
      exact ⟨t, by simp only [if_pos hin, ht]⟩
    · exact ⟨s, by simp [hin]⟩
  · exact foldl_invariant (fun g : RoleGraph => n ∈ g.schemas)
      (fun g hg c _ => mem_schemasStep c hg) hn

/-- Executing a plan never fails. -/
theorem applyChanges_diffResolved (hplain : PlainMemberships current desired) :
    ∃ g, applyChanges current (diffResolved current desired) = some g := by
  have hcreate : (roleCreates current desired).foldlM applyChange current =
      some ((roleCreates current desired).foldl nextGraph current) :=
    (foldlM_eq_foldl (fun _ _ => applyChange_of_applicable) (fun _ => True)
      (fun g _ c hc => by
        obtain ⟨n, s, -, -, rfl⟩ := mem_roleCreates.1 hc
        exact ⟨trivial, trivial⟩) trivial).1
  have hinner := (foldlM_eq_foldl (fun _ _ => applyChange_of_applicable)
    (Prepared current desired) (l := innerChanges current desired)
    (fun g hg c hc => by
      obtain ⟨happ, hphase⟩ := hg.applicable hplain hc
      exact ⟨happ, hg.next hphase⟩) prepared_of_roleCreates).1
  have hdrop : ∀ g, (roleDrops current desired).foldlM applyChange g =
      some ((roleDrops current desired).foldl nextGraph g) := fun g =>
    (foldlM_eq_foldl (fun _ _ => applyChange_of_applicable) (fun _ => True)
      (fun g _ c hc => by
        obtain ⟨n, s, -, -, rfl⟩ := mem_roleDrops.1 hc
        exact ⟨trivial, trivial⟩) trivial).1
  rw [applyChanges, diffResolved_eq_inner]
  exact ⟨_, foldlM_append_eq_some (foldlM_append_eq_some hcreate hinner) (hdrop _)⟩

/-! ## Converged maps plan nothing -/

theorem changedAttributes_self (s : RoleState) : s.changedAttributes s = [] := by
  have hchanged : changedConfig s.config s.config = [] := by
    refine List.flatMap_eq_nil_iff.2 fun e he => if_pos ?_
    exact mem_toList_iff.1 he
  have hremoved : removedConfig s.config s.config = [] := by
    refine List.flatMap_eq_nil_iff.2 fun e he => if_pos ?_
    exact mem_iff_exists_getElem?.2 ⟨e.2, mem_toList_iff.1 he⟩
  simp [RoleState.changedAttributes, changedAttribute, hchanged, hremoved]

theorem roleCreates_eq_nil (h : current.roles = desired.roles) :
    roleCreates current desired = [] := by
  refine List.eq_nil_iff_forall_not_mem.2 fun c hc => ?_
  obtain ⟨n, s, hd, hnone, -⟩ := mem_roleCreates.1 hc
  rw [h, hd] at hnone
  cases hnone

theorem roleAlters_eq_nil (h : current.roles = desired.roles) :
    roleAlters current desired = [] := by
  refine List.eq_nil_iff_forall_not_mem.2 fun c hc => ?_
  obtain ⟨n, s, hd, ⟨hnone, -⟩ | ⟨t, ht, hor⟩⟩ := mem_roleAlters.1 hc
  · rw [h, hd] at hnone
    cases hnone
  · rw [h, hd] at ht
    obtain rfl := Option.some.inj ht
    rcases hor with ⟨hne, -⟩ | ⟨hne, -⟩
    · exact hne (changedAttributes_self s)
    · exact hne rfl

theorem roleDrops_eq_nil (h : current.roles = desired.roles) :
    roleDrops current desired = [] := by
  refine List.eq_nil_iff_forall_not_mem.2 fun c hc => ?_
  obtain ⟨n, s, hd, hnone, -⟩ := mem_roleDrops.1 hc
  rw [← h, hd] at hnone
  cases hnone

/-- The schemas are as a plan leaves them: no desired schema is missing, and a declared owner is
the owner and holds the owner's privileges. -/
def ConvergedSchemas (current desired : RoleGraph) : Prop :=
  ∀ (n : String) (d : SchemaState), desired.schemas[n]? = some d →
    ∃ t : SchemaState, current.schemas[n]? = some t ∧
      ∀ o, d.owner = some o →
        t.owner = some o ∧ defaultSchemaOwnerPrivileges o ⊆ t.ownerPrivileges

theorem schemaChanges_eq_nil (h : ConvergedSchemas current desired) :
    schemaChanges current desired = [] := by
  refine List.eq_nil_iff_forall_not_mem.2 fun c hc => ?_
  obtain ⟨n, d, hd, ⟨hnone, -⟩ | ⟨t, o, ht, ho, hne, -⟩⟩ := mem_schemaChanges.1 hc
  · obtain ⟨t, ht, -⟩ := h n d hd
    rw [ht] at hnone
    cases hnone
  · obtain ⟨t', ht', howner⟩ := h n d hd
    rw [ht'] at ht
    obtain rfl := Option.some.inj ht
    exact hne (howner o ho).1

/-- No owner privileges are restored where none are missing. -/
theorem schemaGrants_eq_nil (h : ConvergedSchemas current desired) :
    schemaGrants current desired = [] := by
  refine List.eq_nil_iff_forall_not_mem.2 fun c hc => ?_
  obtain ⟨n, d, t, o, hd, ht, ho, hne, -⟩ := mem_schemaGrants.1 hc
  obtain ⟨t', ht', howner⟩ := h n d hd
  rw [ht'] at ht
  obtain rfl := Option.some.inj ht
  obtain ⟨howner, hpriv⟩ := howner o ho
  refine hne ?_
  rw [missingOwnerPrivileges, if_pos howner, Finset.sdiff_eq_empty_iff_subset]
  exact hpriv

theorem grantChanges_eq_nil
    (h : ∀ (k : GrantKey) s, desired.grants[k]? = some s →
      current.grants[k]? ≠ none ∧ s ⊆ entryAt current.grants k) :
    grantChanges current desired = [] := by
  refine List.eq_nil_iff_forall_not_mem.2 fun c hc => ?_
  obtain ⟨k, s, hd, hor, -⟩ := mem_grantChanges.1 hc
  obtain ⟨hsome, hsub⟩ := h k s hd
  rcases hor with hnone | hne
  · exact hsome hnone
  · exact hne (Finset.sdiff_eq_empty_iff_subset.2 hsub)

/-- No default privileges are set where all that are desired are there. -/
theorem defaultSets_eq_nil
    (h : ∀ (k : DefaultPrivKey) s, desired.defaultPrivileges[k]? = some s →
      current.defaultPrivileges[k]? ≠ none ∧ s ⊆ entryAt current.defaultPrivileges k) :
    defaultSets current desired = [] := by
  refine List.eq_nil_iff_forall_not_mem.2 fun c hc => ?_
  obtain ⟨k, s, hd, hor, -⟩ := mem_defaultSets.1 hc
  obtain ⟨hsome, hsub⟩ := h k s hd
  rcases hor with hnone | hne
  · exact hsome hnone
  · exact hne (Finset.sdiff_eq_empty_iff_subset.2 hsub)

theorem plannedRevokes_eq_nil
    (h : ∀ k p, p ∉ entryAt (accumulatedRevokes current desired) k) :
    plannedRevokes current desired = [] := by
  refine List.eq_nil_iff_forall_not_mem.2 fun c hc => ?_
  obtain ⟨k, s, hk, -⟩ := mem_flatMap_toList.1 (List.mem_of_mem_filter hc)
  obtain ⟨p, hp⟩ := Finset.nonempty_iff_ne_empty.2 (accumulatedRevokes_nonempty hk)
  exact h k p (by rwa [entryAt_of_getElem? hk])

/-- No default privileges are revoked where nothing was accumulated. -/
theorem defaultRevokes_eq_nil
    (h : ∀ k p, p ∉ entryAt (accumulatedDefaultRevokes current desired) k)
    (hundeclared : ∀ k : DefaultPrivKey, desired.defaultPrivileges[k]? = none →
      k.grantee.isPublic = false → current.defaultPrivileges[k]? = none) :
    defaultRevokes current desired = [] := by
  refine List.eq_nil_iff_forall_not_mem.2 fun c hc => ?_
  obtain ⟨k, s, hk, -⟩ := mem_defaultRevokes.1 hc
  have hsome : (accumulatedDefaultRevokes current desired)[k]?.isSome := by rw [hk]; rfl
  rcases isSome_accumulatedDefaultRevokes.1 hsome with ⟨p, hp⟩ | ⟨hd, hc, hpub⟩
  · exact h k p hp
  · rw [hundeclared k hd hpub] at hc
    cases hc

theorem memberRemoves_eq_nil (hplain : PlainMemberships current desired)
    (h : current.memberships = desired.memberships) : memberRemoves current desired = [] := by
  refine List.eq_nil_iff_forall_not_mem.2 fun c hc => ?_
  obtain ⟨a, ha, hno, -⟩ := hplain.mem_memberRemoves_iff.1 hc
  rw [h] at ha
  exact hno ha

theorem memberAdds_eq_nil (hplain : PlainMemberships current desired)
    (h : current.memberships = desired.memberships) : memberAdds current desired = [] := by
  refine List.eq_nil_iff_forall_not_mem.2 fun c hc => ?_
  obtain ⟨d, hd, hno, -⟩ := hplain.mem_memberAdds_iff.1 hc
  rw [← h] at hd
  exact hno hd

/-! ## Plain graphs -/

/-- Two graphs with concrete object names, non-empty privilege sets, ordinary grantees, one edge per
pair, no inspection-only grantor or ownership facts and no absence rules, where the desired schemas
have owners and extend the current ones. -/
structure PlainGraphs (current desired : RoleGraph) : Prop where
  current_names : ∀ (k : GrantKey) s, current.grants[k]? = some s → k.isWildcard = false
  desired_names : ∀ (k : GrantKey) s, desired.grants[k]? = some s → k.isWildcard = false
  alias_names : ∀ (a : String × String) (name : String), current.routineAliases[a]? = some name →
    name ≠ wildcardName
  current_grants : NoEmptyEntries current.grants
  desired_grants : NoEmptyEntries desired.grants
  current_defaults : NoEmptyEntries current.defaultPrivileges
  desired_defaults : NoEmptyEntries desired.defaultPrivileges
  current_grantees : ∀ (k : GrantKey) s, current.grants[k]? = some s → k.role.isPublic = false
  desired_grantees : ∀ (k : GrantKey) s, desired.grants[k]? = some s → k.role.isPublic = false
  current_default_grantees : ∀ (k : DefaultPrivKey) s, current.defaultPrivileges[k]? = some s →
    k.grantee.isPublic = false
  desired_default_grantees : ∀ (k : DefaultPrivKey) s, desired.defaultPrivileges[k]? = some s →
    k.grantee.isPublic = false
  current_edges : OneEdgePerPair current.memberships
  desired_edges : OneEdgePerPair desired.memberships
  no_edge_grantors : current.membershipEdgeGrantors = ∅
  no_edge_options : current.membershipEdgeOptions = ∅
  no_entry_grantors : current.grantEntryGrantors = ∅
  no_inherent : current.inherentGrants = ∅
  no_absences : desired.grantAbsences = ∅
  no_default_absences : desired.defaultPrivilegeAbsences = ∅
  schemas_contained : ∀ n ∈ current.schemas, n ∈ desired.schemas
  schemas_owned : ∀ (n : String) (d : SchemaState), desired.schemas[n]? = some d → d.owner.isSome
  same_owners : ∀ (n : String) (c d : SchemaState), current.schemas[n]? = some c →
    desired.schemas[n]? = some d → c.owner = d.owner
  current_owner_privileges : ∀ (n : String) (c : SchemaState), current.schemas[n]? = some c →
    c.ownerPrivileges ⊆ {.create, .usage}
  desired_owner_privileges : ∀ (n : String) (d : SchemaState), desired.schemas[n]? = some d →
    d.ownerPrivileges ⊆ {.create, .usage}

/-- Executing the diff succeeds, gives `target` on the five maps, and leaves nothing to plan. -/
def ConvergesTo (current desired target : RoleGraph) : Prop :=
  ∃ g, applyChanges current (diff current desired) = some g ∧
    g.roles = target.roles ∧ g.schemas = target.schemas ∧ g.grants = target.grants ∧
      g.defaultPrivileges = target.defaultPrivileges ∧ g.memberships = target.memberships ∧
        diff g desired = []

namespace PlainGraphs

variable (h : PlainGraphs current desired)

include h

theorem plainMemberships :
    PlainMemberships current (desired.resolveRoutineAliases current.routineAliases) where
  no_grantors := by
    intro pair
    simp [recordedGrantors, h.no_edge_grantors]
  current_edges := h.current_edges
  desired_edges := by
    rw [resolveRoutineAliases_memberships]
    exact h.desired_edges

theorem resolved_absences :
    (desired.resolveRoutineAliases current.routineAliases).grantAbsences = ∅ := by
  refine ExtTreeMap.ext_getElem? fun k => ?_
  have hnone : ¬ (desired.resolveRoutineAliases current.routineAliases).grantAbsences[k]?.isSome := by
    rw [isSome_resolvedAbsences]
    rintro ⟨a, -, ha⟩
    simp [h.no_absences] at ha
  simpa using hnone

/-- Resolving routines brings in no wildcard. -/
theorem concreteNames :
    ConcreteNames current (desired.resolveRoutineAliases current.routineAliases) where
  current_grants := h.current_names
  desired_grants := by
    intro k s hk
    have hsome : (desired.resolveRoutineAliases current.routineAliases).grants[k]?.isSome := by
      rw [hk]
      rfl
    obtain ⟨a, rfl, ha⟩ := isSome_resolvedGrants.1 hsome
    obtain ⟨t, ht⟩ := Option.isSome_iff_exists.1 ha
    exact resolveKey_concrete h.alias_names (h.desired_names a t ht)
  desired_absences := by
    intro k s hk
    rw [h.resolved_absences] at hk
    simp at hk

theorem resolved_noEmpty :
    NoEmptyEntries (desired.resolveRoutineAliases current.routineAliases).grants := by
  intro k hk
  have hsome : (desired.resolveRoutineAliases current.routineAliases).grants[k]?.isSome := by
    rw [hk]
    rfl
  obtain ⟨a, hres, ha⟩ := isSome_resolvedGrants.1 hsome
  obtain ⟨t, ht⟩ := Option.isSome_iff_exists.1 ha
  have hne : t ≠ ∅ := by
    rintro rfl
    exact h.desired_grants a ht
  obtain ⟨p, hp⟩ := Finset.nonempty_iff_ne_empty.2 hne
  have hmem : p ∈ entryAt (desired.resolveRoutineAliases current.routineAliases).grants k :=
    mem_entryAt_resolvedGrants.2 ⟨a, hres, by rwa [entryAt_of_getElem? ht]⟩
  rw [entryAt_of_getElem? hk] at hmem
  exact Finset.notMem_empty p hmem

/-- No schema changes owner. -/
theorem no_transfer (n o : String) :
    .alterSchemaOwner n o ∉
      schemaChanges current (desired.resolveRoutineAliases current.routineAliases) := by
  intro hmem
  obtain ⟨m, d, hd, ⟨-, heq⟩ | ⟨t, o', ht, ho, hne, -⟩⟩ := mem_schemaChanges.1 hmem
  · cases heq
  · rw [resolveRoutineAliases_schemas] at hd
    rw [h.same_owners m t d ht hd, ho] at hne
    exact hne rfl

/-- The grants after the plan are those desired. -/
theorem grants_eq :
    (diffResolved current (desired.resolveRoutineAliases current.routineAliases)).foldl grantsStep
        current.grants =
      (desired.resolveRoutineAliases current.routineAliases).grants := by
  refine NoEmptyEntries.ext
    (noEmptyEntries_foldl_grantsStep h.current_grants h.resolved_noEmpty) h.resolved_noEmpty ?_
  intro k
  ext p
  rw [mem_foldl_grantsStep h.concreteNames, revokes_plannedRevokes]
  have habsorbed : ¬ AbsorbedEntry current
      (desired.resolveRoutineAliases current.routineAliases) k := by
    rintro ⟨n, o, hmem, -⟩
    exact h.no_transfer n o hmem
  have hincoming : ¬ IncomingOwnerKey current
      (desired.resolveRoutineAliases current.routineAliases) k := by
    rintro ⟨-, n, -, hmem⟩
    exact h.no_transfer n _ hmem
  -- Revoked is what is held and not declared; every grantee is an ordinary role.
  have hrevoked : p ∈ entryAt current.grants k →
      (Revokes (revokeChanges current (desired.resolveRoutineAliases current.routineAliases)) k p ↔
        p ∉ entryAt (desired.resolveRoutineAliases current.routineAliases).grants k) := by
    intro hp
    have hget := getElem?_of_mem_entryAt hp
    rw [h.concreteNames.revokes_revokeChanges_iff (h.current_names k _ hget), h.resolved_absences,
      h.no_inherent]
    simp [entryAt_of_getElem?_none, hp, h.current_grantees k _ hget]
  have hunheld : p ∉ entryAt current.grants k →
      p ∈ entryAt (desired.resolveRoutineAliases current.routineAliases).grants k →
      ¬ Revokes (revokeChanges current (desired.resolveRoutineAliases current.routineAliases)) k p := by
    intro hno hp
    have hk := h.concreteNames.desired_grants k _ (getElem?_of_mem_entryAt hp)
    rw [h.concreteNames.revokes_revokeChanges_iff hk]
    exact fun hall => hno hall.2.1
  tauto

/-- The default privileges after the plan are those desired. -/
theorem defaults_eq :
    (diffResolved current (desired.resolveRoutineAliases current.routineAliases)).foldl defaultsStep
        current.defaultPrivileges =
      desired.defaultPrivileges := by
  have hdes : NoEmptyEntries
      (desired.resolveRoutineAliases current.routineAliases).defaultPrivileges := by
    rw [resolveRoutineAliases_defaultPrivileges]
    exact h.desired_defaults
  refine NoEmptyEntries.ext (noEmptyEntries_foldl_defaultsStep h.current_defaults hdes)
    h.desired_defaults ?_
  intro k
  ext p
  rw [mem_foldl_defaultsStep, mem_accumulatedDefaultRevokes,
    resolveRoutineAliases_defaultPrivileges, resolveRoutineAliases_defaultPrivilegeAbsences,
    h.no_default_absences]
  have hpublic : p ∈ entryAt current.defaultPrivileges k → k.grantee.isPublic = false :=
    fun hp => h.current_default_grantees k _ (getElem?_of_mem_entryAt hp)
  have hnone : p ∉ entryAt (∅ : BTreeMap DefaultPrivKey (Finset Privilege)) k := by simp [entryAt]
  tauto

/-- The schemas after the plan are those desired. -/
theorem schemas_eq
    (howner : ∀ (n : String) (d : SchemaState), desired.schemas[n]? = some d →
      d.ownerPrivileges = {.create, .usage}) :
    (diffResolved current (desired.resolveRoutineAliases current.routineAliases)).foldl schemasStep
        current.schemas =
      desired.schemas := by
  refine ExtTreeMap.ext_getElem? fun n => ?_
  rw [getElem?_foldl_schemasStep, resolveRoutineAliases_schemas]
  cases hd : desired.schemas[n]? with
  | none =>
      simp only
      rw [← not_mem_iff_getElem?] at hd ⊢
      exact fun hin => hd (h.schemas_contained n hin)
  | some d =>
      obtain ⟨o, ho⟩ := Option.isSome_iff_exists.1 (h.schemas_owned n d hd)
      have hd_eq : d = ⟨some o, defaultSchemaOwnerPrivileges o⟩ := by
        have hpriv := howner n d hd
        obtain ⟨downer, dpriv⟩ := d
        simp only at ho hpriv
        rw [ho, hpriv]
        rfl
      cases hc : current.schemas[n]? with
      | none => simp [convergedSchema, hd_eq]
      | some t =>
          have hto : t.owner = some o := by rw [h.same_owners n t d hc hd, ho]
          have hsub : t.ownerPrivileges ⊆ defaultSchemaOwnerPrivileges o :=
            h.current_owner_privileges n t hc
          simp [convergedSchema, hd_eq, hto, Finset.union_eq_right.2 hsub]

end PlainGraphs

/-- A graph that holds the desired maps leaves nothing to plan. -/
theorem diffResolved_eq_nil (hroles : current.roles = desired.roles)
    (hschemas : ConvergedSchemas current desired) (hgrants : current.grants = desired.grants)
    (hdefaults : current.defaultPrivileges = desired.defaultPrivileges)
    (habs : desired.grantAbsences = ∅) (hdabs : desired.defaultPrivilegeAbsences = ∅)
    (hplain : PlainMemberships current desired)
    (hmembers : current.memberships = desired.memberships) :
    diffResolved current desired = [] := by
  have hrevokes : ∀ k p, p ∉ entryAt (accumulatedRevokes current desired) k := by
    intro k p hp
    rcases mem_accumulatedRevokes.1 hp with ⟨-, -, hp⟩ | ⟨hp, -⟩
    · have hsub := shadowFilter_subset hp
      rw [hgrants, sdiff_self] at hsub
      exact Finset.notMem_empty p hsub
    · simp [habs, entryAt] at hp
  have hdrevokes : ∀ k p, p ∉ entryAt (accumulatedDefaultRevokes current desired) k := by
    intro k p hp
    rcases mem_accumulatedDefaultRevokes.1 hp with ⟨-, hp, hno⟩ | ⟨hp, -⟩
    · rw [hdefaults] at hp
      exact hno hp
    · simp [hdabs, entryAt] at hp
  have hgrant : ∀ (k : GrantKey) s, desired.grants[k]? = some s →
      current.grants[k]? ≠ none ∧ s ⊆ entryAt current.grants k := by
    intro k s hk
    rw [hgrants, entryAt_of_getElem? hk, hk]
    exact ⟨Option.some_ne_none s, Finset.Subset.refl s⟩
  have hset : ∀ (k : DefaultPrivKey) s, desired.defaultPrivileges[k]? = some s →
      current.defaultPrivileges[k]? ≠ none ∧ s ⊆ entryAt current.defaultPrivileges k := by
    intro k s hk
    rw [hdefaults, entryAt_of_getElem? hk, hk]
    exact ⟨Option.some_ne_none s, Finset.Subset.refl s⟩
  rw [diffResolved, roleCreates_eq_nil hroles, roleAlters_eq_nil hroles, roleDrops_eq_nil hroles,
    schemaChanges_eq_nil hschemas, schemaGrants_eq_nil hschemas, grantChanges_eq_nil hgrant,
    defaultSets_eq_nil hset, plannedRevokes_eq_nil hrevokes, memberRemoves_eq_nil hplain hmembers,
    memberAdds_eq_nil hplain hmembers,
    defaultRevokes_eq_nil hdrevokes fun k hk _ => by rw [hdefaults]; exact hk]
  rfl

/-! ## A schema owner and a routine -/

/-- A catalog that spells the routine `f(int)` as `f(integer)`. -/
def aliasedCurrent : RoleGraph :=
  { routineAliases := (∅ : BTreeMap (String × String) String).insert ("app", "f(int)") "f(integer)" }

/-- A routine by a spelling that is not the server's own. -/
def aliasedRoutine : GrantKey := ⟨.role "caller", .function, some "app", some "f(int)"⟩

/-- One owned schema and one grant on the routine; the owner's privileges are a parameter. -/
def ownedSchemaDesired (privileges : Finset Privilege) : RoleGraph :=
  { schemas := (∅ : BTreeMap String SchemaState).insert "app" ⟨some "app", privileges⟩
    grants := extendEntry ∅ aliasedRoutine {.execute} }

/-- The graphs are plain. -/
theorem ownedSchemaDesired_plain {privileges : Finset Privilege}
    (hsub : privileges ⊆ {.create, .usage}) :
    PlainGraphs aliasedCurrent (ownedSchemaDesired privileges) := by
  have hgrant : ∀ (k : GrantKey) s, (ownedSchemaDesired privileges).grants[k]? = some s →
      k = aliasedRoutine ∧ s = {.execute} := by
    intro k s hk
    rw [ownedSchemaDesired, getElem?_extendEntry] at hk
    split_ifs at hk with heq
    · refine ⟨heq.symm, ?_⟩
      rw [← Option.some.inj hk]
      simp [entryAt]
    · simp at hk
  have hschema : ∀ (n : String) d, (ownedSchemaDesired privileges).schemas[n]? = some d →
      d = ⟨some "app", privileges⟩ := by
    intro n d hd
    rw [ownedSchemaDesired, getElem?_insert_eq] at hd
    split_ifs at hd
    · exact (Option.some.inj hd).symm
    · simp at hd
  have halias : ∀ (a : String × String) (name : String),
      aliasedCurrent.routineAliases[a]? = some name → name = "f(integer)" := by
    intro a name ha
    rw [aliasedCurrent, getElem?_insert_eq] at ha
    split_ifs at ha
    · exact (Option.some.inj ha).symm
    · simp at ha
  refine
    { current_names := fun k s hk => by simp [aliasedCurrent] at hk
      desired_names := fun k s hk => by rw [(hgrant k s hk).1]; decide
      alias_names := fun a name ha => by rw [halias a name ha]; decide
      current_grants := fun k => by simp [aliasedCurrent]
      desired_grants := fun k hk => absurd (hgrant k ∅ hk).2 (by decide)
      current_defaults := fun k => by simp [aliasedCurrent]
      desired_defaults := fun k => by simp [ownedSchemaDesired]
      current_grantees := fun k s hk => by simp [aliasedCurrent] at hk
      desired_grantees := fun k s hk => by rw [(hgrant k s hk).1]; rfl
      current_default_grantees := fun k s hk => by simp [aliasedCurrent] at hk
      desired_default_grantees := fun k s hk => by simp [ownedSchemaDesired] at hk
      current_edges := fun a ha => absurd ha ExtTreeSet.not_mem_empty
      desired_edges := fun a ha => absurd ha ExtTreeSet.not_mem_empty
      no_edge_grantors := rfl
      no_edge_options := rfl
      no_entry_grantors := rfl
      no_inherent := rfl
      no_absences := rfl
      no_default_absences := rfl
      schemas_contained := fun n hn => absurd hn ExtTreeMap.not_mem_empty
      schemas_owned := fun n d hd => by rw [hschema n d hd]; rfl
      same_owners := fun n c d hc => by simp [aliasedCurrent] at hc
      current_owner_privileges := fun n c hc => by simp [aliasedCurrent] at hc
      desired_owner_privileges := fun n d hd => by rw [hschema n d hd]; exact hsub }

/-- A desired owner without `CREATE` is given it all the same, and the grant lands on the catalog's
spelling of the routine. -/
theorem ownedSchemaDesired_not_convergesTo :
    PlainGraphs aliasedCurrent (ownedSchemaDesired {.usage}) ∧
      (∀ g, applyChanges aliasedCurrent (diff aliasedCurrent (ownedSchemaDesired {.usage})) = some g →
        g.schemas ≠ (ownedSchemaDesired {.usage}).schemas ∧
          g.grants ≠ (ownedSchemaDesired {.usage}).grants) ∧
      ¬ ConvergesTo aliasedCurrent (ownedSchemaDesired {.usage}) (ownedSchemaDesired {.usage}) := by
  have hrun : (applyChanges aliasedCurrent
      (diff aliasedCurrent (ownedSchemaDesired {.usage}))).map
        (fun g => (g.schemas["app"]?, g.grants[aliasedRoutine]?)) =
      some (some ⟨some "app", {.create, .usage}⟩, none) := by
    decide
  have hdiffers : ∀ g, applyChanges aliasedCurrent
      (diff aliasedCurrent (ownedSchemaDesired {.usage})) = some g →
        g.schemas ≠ (ownedSchemaDesired {.usage}).schemas ∧
          g.grants ≠ (ownedSchemaDesired {.usage}).grants := by
    intro g hg
    rw [hg, Option.map_some, Option.some.injEq, Prod.mk.injEq] at hrun
    refine ⟨fun heq => ?_, fun heq => ?_⟩
    · rw [heq] at hrun
      exact absurd hrun.1 (by decide)
    · rw [heq] at hrun
      exact absurd hrun.2 (by decide)
  refine ⟨ownedSchemaDesired_plain (by decide), hdiffers, ?_⟩
  rintro ⟨g, hg, -, hschemas, -⟩
  exact (hdiffers g hg).1 hschemas

/-! ## Convergence -/

/-- Executing the diff between plain graphs gives the desired graph with its routine names resolved,
fails at no step, and leaves nothing to plan, where the desired owners hold `CREATE` and `USAGE`. -/
theorem diff_converges (h : PlainGraphs current desired)
    (howner : ∀ (n : String) (d : SchemaState), desired.schemas[n]? = some d →
      d.ownerPrivileges = {.create, .usage}) :
    ConvergesTo current desired (desired.resolveRoutineAliases current.routineAliases) := by
  obtain ⟨g, hg⟩ := applyChanges_diffResolved h.plainMemberships
  have hroles : g.roles = (desired.resolveRoutineAliases current.routineAliases).roles :=
    (applyChanges_roles hg).trans foldl_rolesStep_eq
  have hschemas : g.schemas = (desired.resolveRoutineAliases current.routineAliases).schemas := by
    rw [applyChanges_schemas hg, h.schemas_eq howner, resolveRoutineAliases_schemas]
  have hgrants : g.grants = (desired.resolveRoutineAliases current.routineAliases).grants :=
    (applyChanges_grants hg).trans h.grants_eq
  have hdefaults : g.defaultPrivileges =
      (desired.resolveRoutineAliases current.routineAliases).defaultPrivileges := by
    rw [applyChanges_defaultPrivileges hg, h.defaults_eq, resolveRoutineAliases_defaultPrivileges]
  have hmembers : g.memberships =
      (desired.resolveRoutineAliases current.routineAliases).memberships :=
    (applyChanges_memberships hg).trans h.plainMemberships.foldl_membershipsStep_eq
  obtain ⟨haliases, -, hgrantors, -⟩ := applyChanges_facts hg
  refine ⟨g, hg, hroles, hschemas, hgrants, hdefaults, hmembers, ?_⟩
  rw [diff, haliases]
  refine diffResolved_eq_nil hroles ?_ hgrants hdefaults h.resolved_absences ?_ ?_ hmembers
  · intro n d hd
    refine ⟨d, by rw [hschemas, hd], fun o ho => ⟨ho, ?_⟩⟩
    rw [resolveRoutineAliases_schemas] at hd
    rw [howner n d hd]
    exact Finset.Subset.refl _
  · rw [resolveRoutineAliases_defaultPrivilegeAbsences]
    exact h.no_default_absences
  · refine ⟨fun pair => ?_, ?_, h.plainMemberships.desired_edges⟩
    · simp [recordedGrantors, hgrantors, h.no_edge_grantors]
    · rw [hmembers]
      exact h.plainMemberships.desired_edges

/-- A team's graph: the schema `app` whose owner may not create, a reader with a grant too many and a
membership, and a role that is no longer declared. -/
def teamCurrent : RoleGraph :=
  { aliasedCurrent with
    roles := ExtTreeMap.ofList [("app", {}), ("old", {}), ("reader", { login := true })] compare
    schemas := ExtTreeMap.ofList [("app", ⟨some "app", {.usage}⟩)] compare
    grants := ExtTreeMap.ofList
      [(⟨.role "reader", .table, some "app", some "orders"⟩, {.select, .insert})] compare
    defaultPrivileges := ExtTreeMap.ofList
      [(⟨"app", .schema "app", .table, .role "reader"⟩, {.select, .insert})] compare
    memberships := ExtTreeSet.ofList [⟨"app", "reader", true, false⟩] compare }

/-- The team as it is to be: an auditor joins, who may call the routine, the reader has a connection
limit, and the owner its ordinary privileges. -/
def teamDesired : RoleGraph :=
  { roles := ExtTreeMap.ofList
      [("app", {}), ("auditor", {}), ("reader", { login := true, connectionLimit := 5 })] compare
    schemas := ExtTreeMap.ofList [("app", ⟨some "app", {.create, .usage}⟩)] compare
    grants := ExtTreeMap.ofList
      [(⟨.role "auditor", .function, some "app", some "f(int)"⟩, {.execute}),
        (⟨.role "reader", .table, some "app", some "orders"⟩, {.select})] compare
    defaultPrivileges := ExtTreeMap.ofList
      [(⟨"app", .schema "app", .table, .role "reader"⟩, {.select})] compare
    memberships := ExtTreeSet.ofList
      [⟨"app", "auditor", true, false⟩, ⟨"app", "reader", true, true⟩] compare }

/-- The graphs of the team are plain. -/
theorem teamGraph_plain : PlainGraphs teamCurrent teamDesired where
  current_names := forall_entries.2 (by decide +kernel)
  desired_names := forall_entries.2 (by decide +kernel)
  alias_names := forall_entries.2 (by decide +kernel)
  current_grants k hk := (forall_entries (P := fun _ s => s ≠ ∅)).2 (by decide +kernel) k ∅ hk rfl
  desired_grants k hk := (forall_entries (P := fun _ s => s ≠ ∅)).2 (by decide +kernel) k ∅ hk rfl
  current_defaults k hk := (forall_entries (P := fun _ s => s ≠ ∅)).2 (by decide +kernel) k ∅ hk rfl
  desired_defaults k hk := (forall_entries (P := fun _ s => s ≠ ∅)).2 (by decide +kernel) k ∅ hk rfl
  current_grantees := forall_entries.2 (by decide +kernel)
  desired_grantees := forall_entries.2 (by decide +kernel)
  current_default_grantees := forall_entries.2 (by decide +kernel)
  desired_default_grantees := forall_entries.2 (by decide +kernel)
  current_edges := oneEdgePerPair_iff.2 (by decide +kernel)
  desired_edges := oneEdgePerPair_iff.2 (by decide +kernel)
  no_edge_grantors := rfl
  no_edge_options := rfl
  no_entry_grantors := rfl
  no_inherent := rfl
  no_absences := rfl
  no_default_absences := rfl
  schemas_contained n hn := by
    obtain ⟨state, hn⟩ := mem_iff_exists_getElem?.1 hn
    exact ExtTreeMap.contains_iff_mem.1 ((forall_entries (P := fun n _ =>
      teamDesired.schemas.contains n = true)).2 (by decide +kernel) n state hn)
  schemas_owned := forall_entries.2 (by decide +kernel)
  same_owners n c d hc hd := by
    have hcurrent := (forall_entries (P := fun _ state => state.owner = some "app")).2
      (by decide +kernel) n c hc
    exact hcurrent.trans ((forall_entries (P := fun _ state => some "app" = state.owner)).2
      (by decide +kernel) n d hd)
  current_owner_privileges := forall_entries.2 (by decide +kernel)
  desired_owner_privileges := forall_entries.2 (by decide +kernel)

/-- The plan of the team adds, changes, drops and revokes, and leads to the team as it is to be. -/
theorem teamGraph_converges :
    (.createRole "auditor" {} ∈ diff teamCurrent teamDesired ∧
      .alterRole "reader" [.connectionLimit 5] ∈ diff teamCurrent teamDesired ∧
      .dropRole "old" ∈ diff teamCurrent teamDesired ∧
      .revoke ⟨.role "reader", .table, some "app", some "orders"⟩ {.insert} none ∈
        diff teamCurrent teamDesired) ∧
    ConvergesTo teamCurrent teamDesired
      (teamDesired.resolveRoutineAliases teamCurrent.routineAliases) := by
  refine ⟨by decide +kernel, diff_converges teamGraph_plain ?_⟩
  exact forall_entries.2 (by decide +kernel)

end PgRoles.Semantics

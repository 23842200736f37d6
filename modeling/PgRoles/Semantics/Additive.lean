import PgRoles.Core.PlanSpec
import PgRoles.Semantics.ApplyChanges
import PgRoles.Semantics.MembershipConvergence

/-!
# Additive mode

An additive plan is a full plan with what takes access away filtered out. Executed on the state it
was planned for, it keeps every role with its attributes, every schema owner and every privilege.
Memberships are the exception: a pair without recorded grantors whose options differ is planned as a
removal and an addition, the filter drops the removal, and since PostgreSQL 16 the addition that
remains sets INHERIT on the row it is attributed to. Additive mode keeps all access exactly when no
such addition turns off the only INHERIT of its pair (`additive_keeps_access_iff`).
-/

set_option autoImplicit false

namespace PgRoles.Semantics

open Std PgRoles.Lib PgRoles.Core PgRoles.Sql PgRoles.Inspect

/-! ## Execution -/

/-- What a plan acts on. -/
structure DatabaseState where
  roles : BTreeMap String RoleState
  schemas : BTreeMap String SchemaState
  grants : BTreeMap GrantKey (Finset Privilege)
  defaultPrivileges : BTreeMap DefaultPrivKey (Finset Privilege)
  memberships : MembershipCatalog

/-- The state a graph describes, over a catalog of memberships. -/
def stateOf (g : RoleGraph) (catalog : MembershipCatalog) : DatabaseState :=
  ⟨g.roles, g.schemas, g.grants, g.defaultPrivileges, catalog⟩

/-- Execute a batch, unless the renderer refuses it. -/
def executeBatch (server : ServerDefaults) (pgMajorVersion : Nat) (db : DatabaseState)
    (changes : List Change) : Except SqlRenderError DatabaseState := do
  let statements ← renderMemberships pgMajorVersion changes
  return {
    roles := changes.foldl rolesStep db.roles
    schemas := changes.foldl schemasStep db.schemas
    grants := changes.foldl grantsStep db.grants
    defaultPrivileges := changes.foldl defaultsStep db.defaultPrivileges
    memberships := statements.foldl (execStatement server) db.memberships }

/-- Nothing is taken away. -/
structure KeepsAccess (before after : DatabaseState) : Prop where
  roles : ∀ (n : String) (s : RoleState), before.roles[n]? = some s → after.roles[n]? = some s
  schemas : ∀ (n : String) (s : SchemaState), before.schemas[n]? = some s →
    ∃ s' : SchemaState, after.schemas[n]? = some s' ∧ s'.owner = s.owner ∧
      s.ownerPrivileges ⊆ s'.ownerPrivileges
  grants : ∀ k : GrantKey, entryAt before.grants k ⊆ entryAt after.grants k
  defaultPrivileges : ∀ k : DefaultPrivKey,
    entryAt before.defaultPrivileges k ⊆ entryAt after.defaultPrivileges k
  memberships : ∀ role member g : String, (role, member, g) ∈ before.memberships →
    (role, member, g) ∈ after.memberships
  inherit : ∀ role member, Supplied before.memberships role member (·.inherit) →
    Supplied after.memberships role member (·.inherit)
  admin : ∀ role member, Supplied before.memberships role member (·.admin) →
    Supplied after.memberships role member (·.admin)

/-- The graph reports the effective edges of the catalog; per-grantor options, where it records
them, are the rows. -/
structure ReportsCatalog (current : RoleGraph) (catalog : MembershipCatalog) : Prop where
  memberships : ReportsEffective current catalog
  options : ∀ (pair : String × String) (os : BTreeMap String MembershipOptions),
    current.membershipEdgeOptions[pair]? = some os →
      ∀ g : String, os[g]? = catalog[(pair.1, pair.2, g)]?

/-! ## What an additive plan contains -/

section Plan

variable {current desired : RoleGraph} {m : PolicyManifest} {e : ExpandedManifest} {c : Change}

theorem isDestructive_of_kept {l : List Change} (h : keptByAdditive l c = true) :
    isDestructive c = false := by
  cases c with
  | setDefaultPrivilege key privileges => rfl
  | _ => simp_all [keptByAdditive, isDestructive]

/-- Additive plans have no revokes, so the last pass leaves them alone. -/
theorem planChanges_additive :
    planChanges current desired m e .additive =
      filterExternalRoleChanges (filterAdditiveChanges (fullPlan current desired m)) e.roles
        e.memberships := by
  have hsingle : ∀ c ∈ filterExternalRoleChanges (filterAdditiveChanges
      (fullPlan current desired m)) e.roles e.memberships,
      preserveGrants e.roles (desired.resolveRoutineAliases current.routineAliases) c = [c] := by
    intro c hc
    have hkept := (List.mem_filter.1 (List.mem_filter.1 hc).1).2
    cases c with
    | revoke key privileges grantor => cases isDestructive_of_kept hkept
    | _ => rfl
  exact (List.flatMap_congr hsingle).trans (List.flatMap_singleton' _)

/-- The full plan adds only retirement steps to the diff. -/
theorem mem_diff_of_mem_fullPlan (h : c ∈ fullPlan current desired m)
    (hphase : c.phase ≠ .retirement) :
    c ∈ diff current (desired.resolveRoutineAliases current.routineAliases) := by
  have hfilter := filter_applyRoleRetirements (q := fun p => p != .retirement) rfl
    (diff current (desired.resolveRoutineAliases current.routineAliases)) m.retirements
  have hmem : c ∈ (fullPlan current desired m).filter fun c => c.phase != .retirement :=
    List.mem_filter.2 ⟨h, by simpa using hphase⟩
  rw [fullPlan, hfilter] at hmem
  exact (List.mem_filter.1 hmem).1

/-- A change of an additive plan takes nothing away, and comes from the diff. -/
theorem of_mem_additive (h : c ∈ planChanges current desired m e .additive) :
    isDestructive c = false ∧ keptByAdditive (fullPlan current desired m) c = true ∧
      ∃ c₀ ∈ diff current (desired.resolveRoutineAliases current.routineAliases),
        keepIncreases c₀ = some c := by
  rw [planChanges_additive] at h
  obtain ⟨hmem, hkept⟩ := List.mem_filter.1 (List.mem_filter.1 h).1
  obtain ⟨c₀, hc₀, hkeep⟩ := List.mem_filterMap.1 hmem
  have hdestructive := isDestructive_of_kept hkept
  refine ⟨hdestructive, hkept, c₀, mem_diff_of_mem_fullPlan hc₀ ?_, hkeep⟩
  intro hphase
  rw [← phase_of_keepIncreases hkeep] at hphase
  cases c <;> simp_all [Change.phase, isDestructive]

/-- An additive plan creates only roles that are not there, and alters only those. -/
theorem role_of_mem_additive (h : c ∈ planChanges current desired m e .additive) (n : String)
    (hc : (∃ s, c = .createRole n s) ∨ ∃ attributes, c = .alterRole n attributes) :
    current.roles[n]? = none := by
  have hcreate : ∀ s, .createRole n s ∈ diff current
      (desired.resolveRoutineAliases current.routineAliases) → current.roles[n]? = none := by
    intro s hs
    obtain ⟨n', s', -, hnone, heq⟩ := mem_roleCreates.1 (mem_roleCreates_of_create hs)
    obtain ⟨rfl, rfl⟩ := Change.createRole.inj heq
    exact hnone
  obtain ⟨-, hkept, c₀, hc₀, hkeep⟩ := of_mem_additive h
  rcases hc with ⟨s, rfl⟩ | ⟨attributes, rfl⟩
  · cases c₀ <;> simp [keepIncreases] at hkeep
    obtain ⟨rfl, rfl⟩ := hkeep
    exact hcreate _ hc₀
  · simp only [keptByAdditive, Bool.and_eq_true, createsRole, List.any_eq_true] at hkept
    obtain ⟨⟨c₁, hc₁, hname⟩, -⟩ := hkept
    cases c₁ <;> simp at hname
    subst hname
    exact hcreate _ (mem_diff_of_mem_fullPlan hc₁ (by simp [Change.phase]))

theorem schema_of_mem_additive {n : String} {o : Option String}
    (h : .createSchema n o ∈ planChanges current desired m e .additive) :
    current.schemas[n]? = none := by
  obtain ⟨-, -, c₀, hc₀, hkeep⟩ := of_mem_additive h
  cases c₀ <;> simp [keepIncreases] at hkeep
  obtain ⟨rfl, rfl⟩ := hkeep
  obtain ⟨n', d, -, ⟨hnone, heq⟩ | ⟨t, o, -, -, -, heq⟩⟩ :=
    mem_schemaChanges.1 (mem_schemaChanges_of_create hc₀)
  · obtain ⟨rfl, rfl⟩ := Change.createSchema.inj heq
    exact hnone
  · cases heq

/-- The mode keeps a membership addition as it is. -/
theorem keepIncreases_of_mem_memberAdds {l : List Change} (h : c ∈ memberAdds current desired) :
    keepIncreases c = some c ∧ keptByAdditive l c = true := by
  obtain ⟨pair, d, -, hc⟩ := mem_memberAdds.1 h
  rcases mem_pairAdds.1 hc with ⟨-, rfl⟩ | ⟨_, -, -, ⟨-, rfl⟩ | ⟨gs, -, hc⟩⟩
  · exact ⟨rfl, rfl⟩
  · exact ⟨rfl, rfl⟩
  · obtain ⟨hsome, rfl⟩ := mem_optionIncreases.1 hc
    have hdrop : ∀ b b' : Bool, dropReduction (optionIncrease b b') = optionIncrease b b' := by
      decide
    have hfalse : ∀ b b' : Bool, (optionIncrease b b' == some false) = false := by decide
    refine ⟨?_, by simp [keptByAdditive, isDestructive, hfalse]⟩
    rw [keepIncreases, hdrop, hdrop, if_neg]
    rcases hsome with hsome | hsome <;> simp [← Option.not_isSome, hsome]

/-- The mode drops a membership removal. -/
theorem keepIncreases_of_mem_memberRemoves {l : List Change}
    (h : c ∈ memberRemoves current desired) :
    (keepIncreases c).filter (keptByAdditive l) = none := by
  rcases mem_memberRemoves.1 h with ⟨pair, d, -, hc⟩ | ⟨pair, d, -, -, hc⟩
  · rcases mem_pairRemoves.1 hc with ⟨_, -, -, ⟨-, rfl⟩ | ⟨gs, -, hc⟩⟩
    · rfl
    · obtain ⟨g, -, -, rfl⟩ := mem_optionReductions.1 hc
      have hdrop : ∀ o : Option Bool, o ≠ some true → dropReduction o = none := by decide
      rw [keepIncreases, hdrop _ inheritReduction_ne_true, hdrop _ adminReduction_ne_true]
      rfl
  · rcases mem_removeAllEdges.1 hc with ⟨-, rfl⟩ | ⟨_, _, -, -, -, rfl⟩ <;> rfl

/-- Of the membership changes an additive plan keeps the additions. -/
theorem filter_membership_additive :
    (planChanges current desired m e .additive).filter (fun c => c.phase == .membership) =
      (memberAdds current desired).filter (keptForExternal e.roles e.memberships) := by
  have hfull : (fullPlan current desired m).filter (fun c => c.phase == .membership) =
      memberRemoves current desired ++ memberAdds current desired := by
    rw [fullPlan, filter_applyRoleRetirements (q := (· == .membership)) rfl,
      filter_membership_diff]
    simp [membershipChanges, memberRemoves, memberAdds, resolveRoutineAliases_memberships]
  -- The selection of the phase commutes with every pass.
  have hkeep : ((fullPlan current desired m).filterMap keepIncreases).filter
        (fun c => c.phase == .membership) =
      ((fullPlan current desired m).filter fun c => c.phase == .membership).filterMap
        keepIncreases := by
    rw [List.filter_filterMap, List.filterMap_filter]
    refine List.filterMap_congr fun c _ => ?_
    cases hc : keepIncreases c with
    | none => simp
    | some c' => simp [Option.filter_some, phase_of_keepIncreases hc]
  rw [planChanges_additive, filterExternalRoleChanges, filterAdditiveChanges,
    List.filter_comm _ (keptForExternal e.roles e.memberships),
    List.filter_comm _ (keptByAdditive (fullPlan current desired m)), hkeep, hfull,
    List.filter_filterMap, List.filterMap_append]
  have hremoves : (memberRemoves current desired).filterMap
      (fun c => (keepIncreases c).filter (keptByAdditive (fullPlan current desired m))) = [] := by
    rw [List.filterMap_eq_nil_iff]
    intro c hc
    exact keepIncreases_of_mem_memberRemoves hc
  have hadds : (memberAdds current desired).filterMap
      (fun c => (keepIncreases c).filter (keptByAdditive (fullPlan current desired m))) =
        memberAdds current desired := by
    rw [List.filterMap_congr (g := some), List.filterMap_some]
    intro c hc
    obtain ⟨hsome, hkept⟩ := keepIncreases_of_mem_memberAdds hc
    rw [hsome, Option.filter_some, if_pos hkept]
  rw [hremoves, hadds, List.nil_append]

end Plan

/-! ## Roles, schemas and privileges -/

section Components

variable {current desired : RoleGraph} {m : PolicyManifest} {e : ExpandedManifest}
  {changes : List Change}

/-- The change acts on roles and schemas that are not there, or only adds. -/
def Harmless (current : RoleGraph) : Change → Prop
  | .createRole n _ | .alterRole n _ => current.roles[n]? = none
  | .createSchema n _ => current.schemas[n]? = none
  | .setComment .. => False
  | c => isDestructive c = false

theorem harmless_of_mem_additive {c : Change}
    (h : c ∈ planChanges current desired m e .additive) : Harmless current c := by
  obtain ⟨hdestructive, hkept, -⟩ := of_mem_additive h
  cases c with
  | createRole n s => exact role_of_mem_additive h n (Or.inl ⟨s, rfl⟩)
  | alterRole n attributes => exact role_of_mem_additive h n (Or.inr ⟨attributes, rfl⟩)
  | createSchema n o => exact schema_of_mem_additive h
  | setComment n comment => cases hkept
  | _ => exact hdestructive

variable (hall : ∀ c ∈ changes, Harmless current c)

include hall

theorem roles_of_harmless {n : String} {s : RoleState} (hs : current.roles[n]? = some s) :
    (changes.foldl rolesStep current.roles)[n]? = some s := by
  refine foldl_invariant (fun roles : BTreeMap String RoleState => roles[n]? = some s) ?_ hs
  intro roles hroles c hc
  have hharmless := hall c hc
  have hother : ∀ a : String, current.roles[a]? = none → a ≠ n := by
    intro a ha hn
    rw [hn, hs] at ha
    cases ha
  cases c with
  | createRole a state => rw [rolesStep, getElem?_insert_eq, if_neg (hother a hharmless), hroles]
  | alterRole a attributes =>
      rw [rolesStep, getElem?_alter_eq, if_neg (hother a hharmless), hroles]
  | setComment a comment => exact hharmless.elim
  | dropRole a => cases hharmless
  | _ => exact hroles

/-- They leave the schemas that are there, with their owners' privileges. -/
theorem schemas_of_harmless {n : String} {s : SchemaState} (hs : current.schemas[n]? = some s) :
    ∃ s' : SchemaState, (changes.foldl schemasStep current.schemas)[n]? = some s' ∧
      s'.owner = s.owner ∧ s.ownerPrivileges ⊆ s'.ownerPrivileges := by
  refine foldl_invariant
    (fun schemas : BTreeMap String SchemaState => ∃ s' : SchemaState, schemas[n]? = some s' ∧
      s'.owner = s.owner ∧ s.ownerPrivileges ⊆ s'.ownerPrivileges) ?_
    ⟨s, hs, rfl, Finset.Subset.refl _⟩
  intro schemas hinv c hc
  obtain ⟨s', hs', howner, hsub⟩ := hinv
  have hharmless := hall c hc
  cases c with
  | createSchema a o =>
      have hne : a ≠ n := by
        intro ha
        have hnone : current.schemas[a]? = none := hharmless
        rw [ha, hs] at hnone
        cases hnone
      exact ⟨s', by rw [schemasStep, getElem?_insert_eq, if_neg hne, hs'], howner, hsub⟩
  | ensureSchemaOwnerPrivileges a o privileges =>
      rw [schemasStep, getElem?_alter_eq, hs']
      split_ifs
      · exact ⟨_, rfl, howner, hsub.trans Finset.subset_union_left⟩
      · exact ⟨s', rfl, howner, hsub⟩
  | alterSchemaOwner a o => cases hharmless
  | _ => exact ⟨s', hs', howner, hsub⟩

theorem grants_of_harmless (k : GrantKey) :
    entryAt current.grants k ⊆ entryAt (changes.foldl grantsStep current.grants) k := by
  refine foldl_invariant
    (fun grants : BTreeMap GrantKey (Finset Privilege) =>
      entryAt current.grants k ⊆ entryAt grants k) ?_ (Finset.Subset.refl _)
  intro grants hsub c hc
  have hharmless := hall c hc
  cases c with
  | grant key privileges =>
      intro p hp
      exact mem_entryAt_extendEntry.2 (Or.inl (hsub hp))
  | alterSchemaOwner a o => cases hharmless
  | revoke key privileges grantor => cases hharmless
  | _ => exact hsub

theorem defaults_of_harmless (k : DefaultPrivKey) :
    entryAt current.defaultPrivileges k ⊆
      entryAt (changes.foldl defaultsStep current.defaultPrivileges) k := by
  refine foldl_invariant
    (fun defaults : BTreeMap DefaultPrivKey (Finset Privilege) =>
      entryAt current.defaultPrivileges k ⊆ entryAt defaults k) ?_ (Finset.Subset.refl _)
  intro defaults hsub c hc
  have hharmless := hall c hc
  cases c with
  | setDefaultPrivilege key privileges =>
      intro p hp
      exact mem_entryAt_extendEntry.2 (Or.inl (hsub hp))
  | revokeDefaultPrivilege key privileges => cases hharmless
  | _ => exact hsub

end Components

/-! ## Resolution keeps a batch harmless -/

theorem of_resolveMembershipOptions_eq_ok {current : RoleGraph} {authority : MembershipAuthority}
    {changes resolved : List Change}
    (h : resolveMembershipOptions changes current authority = .ok resolved) :
    (∀ c ∈ changes, Resolves current authority c) ∧
      resolved = changes.map (resolvedChange current authority) := by
  have hall : ∀ c ∈ changes, Resolves current authority c := by
    intro c hc
    obtain ⟨c', -, hok⟩ := exists_of_mem_of_mapM h hc
    exact (resolves_of_ok hok).1
  refine ⟨hall, ?_⟩
  rw [resolveMembershipOptions_eq_map hall] at h
  exact (Except.ok.inj h).symm

/-- A resolved option change has the same options, under a grantor bound to the proven ones. -/
theorem resolvedChange_update {current : RoleGraph} {authority : MembershipAuthority}
    {role member g : String} {inherit admin : Option Bool}
    {binding : Option MembershipOptionBinding}
    (h : Resolves current authority (.updateMemberOptions role member g inherit admin binding)) :
    ∃ os a, provenOptions current role member = some os ∧
      resolvedChange current authority (.updateMemberOptions role member g inherit admin binding) =
        boundOptionChange authority os role member a inherit admin := by
  unfold Resolves at h
  cases hos : provenOptions current role member with
  | none => simp [resolveMembershipOption, hos] at h
  | some os =>
      by_cases hinc : inherit = some true ∨ admin = some true
      · refine ⟨os, increaseGrantor authority role os, rfl, ?_⟩
        simp only [resolveMembershipOption, hos, if_pos hinc] at h
        exact (Except.ok.inj h).symm
      · by_cases hg : os.contains g = true
        · refine ⟨os, g, rfl, ?_⟩
          simp only [resolveMembershipOption, hos, if_neg hinc, if_pos hg] at h
          exact (Except.ok.inj h).symm
        · simp only [resolveMembershipOption, hos, if_neg hinc, if_neg hg] at h
          cases h

theorem harmless_resolvedChange {current : RoleGraph} {authority : MembershipAuthority}
    {c : Change} (hres : Resolves current authority c) (h : Harmless current c) :
    Harmless current (resolvedChange current authority c) := by
  cases c with
  | updateMemberOptions role member g inherit admin binding =>
      obtain ⟨os, a, -, heq⟩ := resolvedChange_update hres
      rw [heq]
      exact h
  | _ => exact h

/-! ## Membership rows after an additive batch -/

/-- The filter for roles owned elsewhere lets an addition to the pair through. -/
def additionAllowed (e : ExpandedManifest) (role member : String) : Bool :=
  !isUnmanaged e.roles role || declaresMember e.memberships role member

theorem addMemberOf_eq {d : MembershipEdge} {role member : String} (hd : d.pair = (role, member)) :
    addMemberOf d = .addMember role member d.inherit d.admin := by
  obtain ⟨r, m, i, a⟩ := d
  obtain ⟨rfl, rfl⟩ := Prod.mk.inj hd
  rfl

/-- Proven options are the recorded ones. -/
theorem membershipEdgeOptions_of_provenOptions {current : RoleGraph} {role member : String}
    {os : BTreeMap String MembershipOptions} (h : provenOptions current role member = some os) :
    current.membershipEdgeOptions[(role, member)]? = some os := by
  have hcomplete := (Option.filter_eq_some_iff.1 h).1
  simp only [RoleGraph.completeMembershipOptions, Option.bind_eq_bind,
    Option.bind_eq_some_iff] at hcomplete
  obtain ⟨gs, -, os', hos', hif⟩ := hcomplete
  split_ifs at hif
  rw [hos', ← Option.some.inj hif]

/-- What additive mode leaves of a pair's additions. -/
theorem filter_pairAdds {current : RoleGraph} {e : ExpandedManifest} {role member : String}
    {d : MembershipEdge} (hd : d.pair = (role, member)) :
    (pairAdds current (role, member) d).filter (keptForExternal e.roles e.memberships) =
      if additionAllowed e role member then pairAdds current (role, member) d else [] := by
  have hkept : ∀ c ∈ pairAdds current (role, member) d,
      keptForExternal e.roles e.memberships c = additionAllowed e role member := by
    intro c hc
    rcases mem_pairAdds.1 hc with ⟨-, rfl⟩ | ⟨_, -, -, ⟨-, rfl⟩ | ⟨gs, -, hc⟩⟩
    · rw [addMemberOf_eq hd]
      rfl
    · rw [addMemberOf_eq hd]
      rfl
    · obtain ⟨-, rfl⟩ := mem_optionIncreases.1 hc
      rfl
  cases hallow : additionAllowed e role member with
  | true => exact List.filter_eq_self.2 fun c hc => by rw [hkept c hc, hallow]
  | false =>
      refine List.filter_eq_nil_iff.2 fun c hc => ?_
      rw [hkept c hc, hallow]
      exact Bool.false_ne_true

/-- An allowed addition to a pair is in the plan. -/
theorem mem_additive_of_pairAdds {current desired : RoleGraph} {m : PolicyManifest}
    {e : ExpandedManifest} {role member : String} {d : MembershipEdge} {c : Change}
    (hd : (membershipMap desired.memberships)[(role, member)]? = some d)
    (hallow : additionAllowed e role member = true) (hc : c ∈ pairAdds current (role, member) d) :
    c ∈ planChanges current desired m e .additive := by
  have hkept : c ∈ (pairAdds current (role, member) d).filter
      (keptForExternal e.roles e.memberships) := by
    rw [filter_pairAdds (of_membershipMap_eq_some hd).2, if_pos hallow]
    exact hc
  have hmem : c ∈ (memberAdds current desired).filter (keptForExternal e.roles e.memberships) :=
    List.mem_filter.2 ⟨mem_memberAdds.2 ⟨_, d, hd, hc⟩, (List.mem_filter.1 hkept).2⟩
  rw [← filter_membership_additive (m := m)] at hmem
  exact (List.mem_filter.1 hmem).1

section Rows

variable {current desired : RoleGraph} {m : PolicyManifest} {e : ExpandedManifest}
  {authority : MembershipAuthority} {server : ServerDefaults} {v : Nat}
  {catalog : MembershipCatalog} {changes : List Change}
  (hres : resolveMembershipOptions (planChanges current desired m e .additive) current authority =
    .ok changes)
  {role member g : String}

include hres

/-- A row sees the additions to its own pair only. -/
theorem row_of_additive :
    (execMemberships server v catalog changes)[(role, member, g)]? =
      match (membershipMap desired.memberships)[(role, member)]? with
      | some d =>
          (if additionAllowed e role member then pairAdds current (role, member) d else []).foldl
            (resolvedRow server v current authority (role, member, g)) catalog[(role, member, g)]?
      | none => catalog[(role, member, g)]? := by
  obtain ⟨hall, rfl⟩ := of_resolveMembershipOptions_eq_ok hres
  have hphase : (planChanges current desired m e .additive).foldl
        (resolvedRow server v current authority (role, member, g)) catalog[(role, member, g)]? =
      ((memberAdds current desired).filter (keptForExternal e.roles e.memberships)).foldl
        (resolvedRow server v current authority (role, member, g)) catalog[(role, member, g)]? := by
    rw [← filter_membership_additive (m := m)]
    apply foldl_eq_foldl_filter
    intro row c hc
    have hne : c.phase ≠ .membership := by simpa using hc
    rw [resolvedRow, (resolves_of_phase_ne authority hne).2, changeRow_of_pair_ne]
    rw [membershipPair_of_phase_ne hne]
    exact (Option.some_ne_none _).symm
  have hadds : (memberAdds current desired).filter (keptForExternal e.roles e.memberships) =
      (membershipMap desired.memberships).toList.flatMap fun entry =>
        (pairAdds current entry.1 entry.2).filter (keptForExternal e.roles e.memberships) := by
    rw [memberAdds, List.filter_flatMap]
  rw [getElem?_execMemberships, List.foldl_map]
  refine hphase.trans ?_
  rw [hadds, foldl_flatMap_toList (membershipMap desired.memberships) (role, member)]
  · cases hd : (membershipMap desired.memberships)[(role, member)]? with
    | none => rfl
    | some d => simp only [filter_pairAdds (of_membershipMap_eq_some hd).2]
  · intro entry hentry hne c hc row
    apply changeRow_of_pair_ne
    have hplan : c ∈ planChanges current desired m e .additive := by
      have hmem : c ∈ (memberAdds current desired).filter
          (keptForExternal e.roles e.memberships) := by
        rw [hadds]
        exact mem_flatMap_toList.2 ⟨entry.1, entry.2, hentry, hc⟩
      rw [← filter_membership_additive (m := m)] at hmem
      exact (List.mem_filter.1 hmem).1
    rw [membershipPair_resolvedChange (hall c hplan),
      membershipPair_of_mem_pairAdds (of_membershipMap_eq_some hentry).2 (List.mem_filter.1 hc).1]
    simpa using hne

omit hres in
/-- An addition to an existing row sets INHERIT since PostgreSQL 16, and never takes ADMIN. -/
theorem resolvedRow_addMember {inherit admin : Bool} {o : MembershipOptions} :
    resolvedRow server v current authority (role, member, g) (some o)
        (.addMember role member inherit admin) =
      some (if server.attributedTo role member = g then
        ⟨if 16 ≤ v then inherit else o.inherit, o.admin || admin, o.set⟩ else o) := by
  by_cases hg : server.attributedTo role member = g
  · by_cases hv : 16 ≤ v <;> cases admin <;>
      simp [resolvedRow, resolvedChange, resolveMembershipOption, changeRow, renderMembership,
        renderAddMember, supportsGrantWithOptions, rowStep, statementRow, rowEffect, grantOptions,
        hg, hv]
  · simp [resolvedRow, resolvedChange, resolveMembershipOption, changeRow, renderMembership,
      renderAddMember, rowStep, statementRow, hg]

/-- The plan adds the pair again without INHERIT, which it has: the pair has no recorded grantors,
so its removal was planned beside the addition. -/
def ReaddedWithoutInherit (current desired : RoleGraph) (e : ExpandedManifest)
    (role member : String) : Prop :=
  ∃ c d : MembershipEdge, (membershipMap current.memberships)[(role, member)]? = some c ∧
    (membershipMap desired.memberships)[(role, member)]? = some d ∧
    c.inherit = true ∧ d.inherit = false ∧ recordedGrantors current (role, member) = none ∧
      additionAllowed e role member = true

omit hres in
/-- A resolved increase only adds to the row. -/
theorem row_kept_of_increases (hrep : ReportsCatalog current catalog) {gs : BTreeSet String}
    {c d : MembershipEdge} (hmem : ∀ x ∈ optionIncreases (role, member) gs c d,
      Resolves current authority x) {o : MembershipOptions}
    (ho : catalog[(role, member, g)]? = some o) :
    ∃ o', (optionIncreases (role, member) gs c d).foldl
        (resolvedRow server v current authority (role, member, g)) (some o) = some o' ∧
      (o.admin = true → o'.admin = true) ∧ (o.inherit = true → o'.inherit = true) := by
  by_cases hempty : optionIncreases (role, member) gs c d = []
  · rw [hempty]
    exact ⟨o, rfl, id, id⟩
  · obtain ⟨x, hx⟩ := List.exists_mem_of_ne_nil _ hempty
    obtain ⟨hsome, rfl⟩ := mem_optionIncreases.1 hx
    have hlist : optionIncreases (role, member) gs c d =
        [.updateMemberOptions role member (gs.toList.headD "")
          (optionIncrease c.inherit d.inherit) (optionIncrease c.admin d.admin) none] := by
      rw [optionIncreases, if_neg]
      rcases hsome with hsome | hsome <;> simp [← Option.not_isSome, hsome]
    obtain ⟨os, a, hos, heq⟩ := resolvedChange_update (hmem _ hx)
    rw [hlist, List.foldl_cons, List.foldl_nil, resolvedRow, heq, boundOptionChange]
    by_cases ha : a = g
    · subst ha
      have hrecorded : os[a]? = some o := by
        have hfacts : current.membershipEdgeOptions[(role, member)]? = some os :=
          membershipEdgeOptions_of_provenOptions hos
        rw [hrep.options _ os hfacts a, ho]
      rw [changeRow_increase optionIncrease_ne_false optionIncrease_ne_false
        (hsome.imp optionIncrease_eq_true_of_isSome optionIncrease_eq_true_of_isSome)
        (by simp [createsEdge, hrecorded])]
      refine ⟨_, rfl, fun h => ?_, fun h => ?_⟩ <;> simp [increased, h]
    · rw [changeRow_update_of_ne ha]
      exact ⟨o, rfl, id, id⟩

variable (server v) in
/-- What the additions to a pair do to one of its rows: ADMIN stays, and INHERIT stays unless the
pair is added again without it at this row. -/
theorem row_kept (hrep : ReportsCatalog current catalog) {o : MembershipOptions}
    (ho : catalog[(role, member, g)]? = some o) :
    ∃ o', (execMemberships server v catalog changes)[(role, member, g)]? = some o' ∧
      (o.admin = true → o'.admin = true) ∧
        (o.inherit = true → o'.inherit = true ∨ (16 ≤ v ∧ server.attributedTo role member = g ∧
          ReaddedWithoutInherit current desired e role member)) := by
  obtain ⟨hall, -⟩ := of_resolveMembershipOptions_eq_ok hres
  have hkeep : ∃ o', some o = some o' ∧ (o.admin = true → o'.admin = true) ∧
      (o.inherit = true → o'.inherit = true ∨ (16 ≤ v ∧ server.attributedTo role member = g ∧
        ReaddedWithoutInherit current desired e role member)) := ⟨o, rfl, id, Or.inl⟩
  rw [row_of_additive hres, ho]
  cases hd : (membershipMap desired.memberships)[(role, member)]? with
  | none => exact hkeep
  | some d =>
      cases hallow : additionAllowed e role member with
      | false => exact hkeep
      | true =>
          obtain ⟨c, hc, hci, -⟩ :=
            hrep.memberships.exists_currentEdge (mem_iff_exists_getElem?.2 ⟨o, ho⟩)
          cases hsame : sameOptions c d with
          | true => simpa [pairAdds, hc, hsame] using hkeep
          | false =>
              cases hgs : recordedGrantors current (role, member) with
              | none =>
                  have hlist : pairAdds current (role, member) d =
                      [.addMember role member d.inherit d.admin] := by
                    simp [pairAdds, hc, hsame, hgs,
                      addMemberOf_eq (of_membershipMap_eq_some hd).2]
                  simp only [if_true, hlist, List.foldl_cons, List.foldl_nil,
                    resolvedRow_addMember]
                  refine ⟨_, rfl, fun hadmin => by split_ifs <;> simp [hadmin], fun hinherit => ?_⟩
                  by_cases hg : server.attributedTo role member = g
                  · by_cases hv : 16 ≤ v
                    · cases hdi : d.inherit with
                      | true => exact Or.inl (by simp [hg, hv])
                      | false =>
                          exact Or.inr ⟨hv, hg, c, d, hc, hd, hci.2 ⟨g, o, ho, hinherit⟩, hdi,
                            hgs, hallow⟩
                    · exact Or.inl (by simp [hg, hv, hinherit])
                  · exact Or.inl (by simp [hg, hinherit])
              | some gs =>
                  have hlist : pairAdds current (role, member) d =
                      optionIncreases (role, member) gs c d := by simp [pairAdds, hc, hsame, hgs]
                  simp only [if_true, hlist]
                  have hresolves : ∀ x ∈ optionIncreases (role, member) gs c d,
                      Resolves current authority x := by
                    intro x hx
                    rw [← hlist] at hx
                    exact hall x (mem_additive_of_pairAdds hd hallow hx)
                  obtain ⟨o', ho', hadmin, hinherit⟩ := row_kept_of_increases hrep hresolves ho
                  exact ⟨o', ho', hadmin, fun h => Or.inl (hinherit h)⟩

variable (server catalog g) in
/-- The row a pair is added to again without INHERIT loses it; the others stay. -/
theorem row_readded (hv : 16 ≤ v) (h : ReaddedWithoutInherit current desired e role member) :
    (server.attributedTo role member = g → ∃ o',
      (execMemberships server v catalog changes)[(role, member, g)]? = some o' ∧
        o'.inherit = false) ∧
    (server.attributedTo role member ≠ g →
      (execMemberships server v catalog changes)[(role, member, g)]? =
        catalog[(role, member, g)]?) := by
  obtain ⟨c, d, hc, hd, hci, hdi, hgs, hallow⟩ := h
  have hsame : sameOptions c d = false := by simp [sameOptions, hci, hdi]
  have hlist : pairAdds current (role, member) d = [.addMember role member false d.admin] := by
    simp [pairAdds, hc, hsame, hgs, addMemberOf_eq (of_membershipMap_eq_some hd).2, hdi]
  rw [row_of_additive hres, hd]
  simp only [hallow, if_true, hlist, List.foldl_cons, List.foldl_nil]
  constructor
  · intro hg
    cases catalog[(role, member, g)]? <;>
      simp [resolvedRow, resolvedChange, resolveMembershipOption, changeRow, renderMembership,
        renderAddMember, supportsGrantWithOptions, hv, rowStep, statementRow, rowEffect,
        grantOptions, hg]
  · intro hg
    simp [resolvedRow, resolvedChange, resolveMembershipOption, changeRow, renderMembership,
      renderAddMember, rowStep, statementRow, hg]

end Rows

/-! ## When additive mode keeps all access -/

/-- No addition turns off the only INHERIT of its pair: before PostgreSQL 16 none does, and since
then the INHERIT of a pair that is added again without it also comes from another row. -/
def InheritElsewhere (current desired : RoleGraph) (e : ExpandedManifest) (server : ServerDefaults)
    (v : Nat) (catalog : MembershipCatalog) : Prop :=
  v < 16 ∨ ∀ role member, ReaddedWithoutInherit current desired e role member →
    ∃ (g : String) (o : MembershipOptions), server.attributedTo role member ≠ g ∧
      catalog[(role, member, g)]? = some o ∧ o.inherit = true

theorem executeBatch_eq_ok {server : ServerDefaults} {v : Nat} {db after : DatabaseState}
    {changes : List Change} (h : executeBatch server v db changes = .ok after) :
    after = ⟨changes.foldl rolesStep db.roles, changes.foldl schemasStep db.schemas,
      changes.foldl grantsStep db.grants, changes.foldl defaultsStep db.defaultPrivileges,
      execMemberships server v db.memberships changes⟩ := by
  obtain ⟨statements, hrender, hafter⟩ := bind_eq_ok.1 h
  obtain ⟨-, hrest⟩ := check_bind_eq_ok.1 hrender
  obtain ⟨-, hstatements⟩ := check_bind_eq_ok.1 hrest
  rw [← Except.ok.inj hafter, ← Except.ok.inj hstatements]
  rfl

section Access

variable {current desired : RoleGraph} {m : PolicyManifest} {e : ExpandedManifest}
  {authority : MembershipAuthority} {server : ServerDefaults} {v : Nat}
  {catalog : MembershipCatalog} {changes : List Change}
  (hrep : ReportsCatalog current catalog)
  (hres : resolveMembershipOptions (planChanges current desired m e .additive) current authority =
    .ok changes)

include hrep hres

theorem supplied_inherit_of_elsewhere
    (h : InheritElsewhere current desired e server v catalog) {role member : String}
    (hsup : Supplied catalog role member (·.inherit)) :
    Supplied (execMemberships server v catalog changes) role member (·.inherit) := by
  obtain ⟨g, o, ho, hinherit⟩ := hsup
  obtain ⟨o', ho', -, hkept⟩ := row_kept server v hres hrep ho
  rcases hkept hinherit with hkept | ⟨hv, hg, hreadded⟩
  · exact ⟨g, o', ho', hkept⟩
  · obtain ⟨a, oa, hne, hoa, hainherit⟩ :=
      h.resolve_left (Nat.not_lt.2 hv) role member hreadded
    obtain ⟨oa', hoa', -, hkept⟩ := row_kept server v hres hrep hoa
    rcases hkept hainherit with hkept | ⟨-, ha, -⟩
    · exact ⟨a, oa', hoa', hkept⟩
    · exact absurd ha hne

/-- INHERIT that stays supplied everywhere is supplied elsewhere. -/
theorem elsewhere_of_supplied
    (h : ∀ role member, Supplied catalog role member (·.inherit) →
      Supplied (execMemberships server v catalog changes) role member (·.inherit)) :
    InheritElsewhere current desired e server v catalog := by
  rcases Nat.lt_or_ge v 16 with hv | hv
  · exact Or.inl hv
  · refine Or.inr fun role member hreadded => ?_
    have hpresent := hreadded
    obtain ⟨c, d, hc, -, hci, -⟩ := hpresent
    obtain ⟨hmem, hpair⟩ := of_membershipMap_eq_some hc
    obtain ⟨rfl, rfl⟩ := Prod.mk.inj hpair
    obtain ⟨-, hi, -⟩ := (hrep.memberships c).1 hmem
    obtain ⟨g, o, ho, hinherit⟩ := h c.role c.member (hi.1 hci)
    have hrow := row_readded server catalog hres g hv hreadded
    have hne : server.attributedTo c.role c.member ≠ g := by
      intro hg
      obtain ⟨o', ho', hoff⟩ := hrow.1 hg
      rw [ho] at ho'
      rw [← Option.some.inj ho'] at hoff
      exact Bool.false_ne_true (hoff.symm.trans hinherit)
    exact ⟨g, o, hne, by rw [← hrow.2 hne, ho], hinherit⟩

/-- Executing an additive plan takes nothing away exactly when no addition turns off the only
INHERIT of its pair. -/
theorem additive_keeps_access_iff {after : DatabaseState}
    (hexec : executeBatch server v (stateOf current catalog) changes = .ok after) :
    KeepsAccess (stateOf current catalog) after ↔
      InheritElsewhere current desired e server v catalog := by
  obtain ⟨hall, hmap⟩ := of_resolveMembershipOptions_eq_ok hres
  have hharmless : ∀ c ∈ changes, Harmless current c := by
    intro c hc
    rw [hmap] at hc
    obtain ⟨c₀, hc₀, rfl⟩ := List.mem_map.1 hc
    exact harmless_resolvedChange (hall c₀ hc₀) (harmless_of_mem_additive hc₀)
  rw [executeBatch_eq_ok hexec]
  constructor
  · intro hkeeps
    exact elsewhere_of_supplied hrep hres hkeeps.inherit
  · intro helsewhere
    constructor
    · intro n s hs
      exact roles_of_harmless hharmless hs
    · intro n s hs
      exact schemas_of_harmless hharmless hs
    · exact grants_of_harmless hharmless
    · exact defaults_of_harmless hharmless
    · intro role member g hrow
      obtain ⟨o, ho⟩ := mem_iff_exists_getElem?.1 hrow
      obtain ⟨o', ho', -⟩ := row_kept server v hres hrep ho
      exact mem_iff_exists_getElem?.2 ⟨o', ho'⟩
    · intro role member hsup
      exact supplied_inherit_of_elsewhere hrep hres helsewhere hsup
    · intro role member hsup
      obtain ⟨g, o, ho, hadmin⟩ := hsup
      obtain ⟨o', ho', hkept, -⟩ := row_kept server v hres hrep ho
      exact ⟨g, o', ho', hkept hadmin⟩

end Access

/-! ## An inspection without grantors -/

/-- The graph without its per-grantor facts. -/
def withoutGrantors (g : RoleGraph) : RoleGraph :=
  { g with
    membershipEdgeGrantors := ∅
    membershipEdgeOptions := ∅
    executorAuthorityEdges := ∅ }

theorem reportsCatalog_withoutGrantors {g : RoleGraph} {catalog : MembershipCatalog}
    (h : RecordsCatalog g catalog) : ReportsCatalog (withoutGrantors g) catalog where
  memberships := h.memberships
  options pair os hos := by simp [withoutGrantors] at hos

/-- `alice` is declared a member of `app` without INHERIT. -/
def plainManifest : PolicyManifest :=
  { roles := [{ name := "alice" }, { name := "app" }]
    memberships := [{ role := "app", members := [{ name := "alice", inherit := some false }] }] }

/-- What that manifest expands to. -/
def plainExpanded : ExpandedManifest :=
  { roles := plainManifest.roles, memberships := plainManifest.memberships }

/-- The graph of that manifest. -/
def plainDesired : RoleGraph :=
  { roles := ExtTreeMap.ofList [("alice", {}), ("app", {})] compare
    memberships := ExtTreeSet.ofList [⟨"app", "alice", false, false⟩] compare }

/-- The membership with INHERIT, as `postgres` granted it. -/
def plainCatalog : MembershipCatalog :=
  ExtTreeMap.ofList [(("app", "alice", "postgres"), ⟨true, false, true⟩)] compare

/-- The database as inspected, with both roles and no grantors recorded. -/
def plainCurrent : RoleGraph :=
  withoutGrantors (recordMemberships plainDesired (catalogRows plainCatalog fun _ => false))

/-- The executor is `postgres`, and no grantor is known to be usable. -/
def plainAuthority : MembershipAuthority := ⟨"postgres", ∅⟩

/-- Statements are attributed to the given role. -/
def attributingTo (grantor : String) : ServerDefaults := ⟨fun _ _ => grantor, fun _ => true⟩

/-- The plan in additive mode. -/
def plainPlan : List Change := [.addMember "app" "alice" false false]

theorem planChanges_plain :
    planChanges plainCurrent plainDesired plainManifest plainExpanded .additive = plainPlan := by
  decide +kernel

theorem plain_executes (grantor : String) :
    executeBatch (attributingTo grantor) 16 (stateOf plainCurrent plainCatalog) plainPlan =
      .ok (stateOf plainCurrent
        (execMemberships (attributingTo grantor) 16 plainCatalog plainPlan)) := rfl

theorem plain_resolves :
    resolveMembershipOptions (planChanges plainCurrent plainDesired plainManifest plainExpanded
      .additive) plainCurrent plainAuthority = .ok plainPlan := by
  rw [planChanges_plain]
  rfl

theorem plainCurrent_reports : ReportsCatalog plainCurrent plainCatalog :=
  reportsCatalog_withoutGrantors (recordsCatalog_recordMemberships plainDesired)

theorem plain_elsewhere :
    InheritElsewhere plainCurrent plainDesired plainExpanded (attributingTo "bob") 16
      plainCatalog := by
  refine Or.inr fun role member hreadded => ?_
  obtain ⟨c, d, hc, -, hci, -⟩ := hreadded
  obtain ⟨hmem, hpair⟩ := of_membershipMap_eq_some hc
  obtain ⟨rfl, rfl⟩ := Prod.mk.inj hpair
  obtain ⟨-, hi, -⟩ := (plainCurrent_reports.memberships c).1 hmem
  obtain ⟨g, o, ho, hinherit⟩ := hi.1 hci
  refine ⟨g, o, ?_, ho, hinherit⟩
  -- The only row is the one of `postgres`.
  intro hbob
  have hkey := mem_of_getElem?_ofList ho
  simp only [List.mem_singleton, Prod.mk.injEq] at hkey
  have hpostgres : "bob" = "postgres" := hbob.trans hkey.1.2.2
  exact absurd hpostgres (by decide)

/-- Attributed to another role than the grantor of the row, the addition leaves the row alone. -/
theorem plain_keeps_access :
    KeepsAccess (stateOf plainCurrent plainCatalog)
      (stateOf plainCurrent (execMemberships (attributingTo "bob") 16 plainCatalog plainPlan)) :=
  (additive_keeps_access_iff plainCurrent_reports plain_resolves (plain_executes "bob")).2
    plain_elsewhere

/-- Attributed to the grantor of the row, the addition turns its INHERIT off. -/
theorem plain_loses_inherit :
    expandManifest plainManifest = .ok plainExpanded ∧
      RoleGraph.fromExpanded plainExpanded plainManifest.defaultOwner = .ok plainDesired ∧
      ReportsCatalog plainCurrent plainCatalog ∧
      ∃ changes after, resolveMembershipOptions (planChanges plainCurrent plainDesired
          plainManifest plainExpanded .additive) plainCurrent plainAuthority = .ok changes ∧
        executeBatch (attributingTo "postgres") 16 (stateOf plainCurrent plainCatalog) changes =
          .ok after ∧
        ¬ KeepsAccess (stateOf plainCurrent plainCatalog) after := by
  refine ⟨by decide +kernel, rfl, plainCurrent_reports, plainPlan, _, plain_resolves,
    plain_executes "postgres", fun hkeeps => ?_⟩
  obtain ⟨g, o, ho, hinherit⟩ := hkeeps.inherit "app" "alice"
    ⟨"postgres", ⟨true, false, true⟩, by decide +kernel, rfl⟩
  have hafter : (stateOf plainCurrent (execMemberships (attributingTo "postgres") 16 plainCatalog
      plainPlan)).memberships = ExtTreeMap.ofList
        [(("app", "alice", "postgres"), ⟨false, false, true⟩)] compare := by
    decide +kernel
  rw [hafter] at ho
  have hrow := mem_of_getElem?_ofList ho
  simp only [List.mem_singleton, Prod.mk.injEq] at hrow
  rw [hrow.2] at hinherit
  cases hinherit

end PgRoles.Semantics

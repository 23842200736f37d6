import PgRoles.Core.ExportBounds

/-!
# Acceptance of an exported manifest

An exported manifest is accepted exactly where the validator has nothing against the graph: its names
and sizes are within the bounds, no role is predefined or called PUBLIC, grants on databases name
them, default privileges are on types of their scope, and timestamps and settings have the form that
the checks ask for (`export_accepted_iff`).
-/

set_option autoImplicit false

namespace PgRoles.Core

open Std PgRoles.Lib

/-! ## Exportable graphs -/

/-- What the validator asks of a graph whose export it is given. -/
structure RoleGraph.Exportable (g : RoleGraph) : Prop where
  bounds : g.WithinBounds
  managed : ∀ name ∈ g.roles, isPredefinedRole name = false
  role_names : publicRoleName ∉ g.roles
  schema_owners : ∀ (name : String) state, g.schemas[name]? = some state →
    state.owner ≠ some publicRoleName
  default_owners : ∀ key ∈ g.defaultPrivileges, key.owner ≠ publicRoleName
  members : ∀ edge ∈ g.memberships, edge.role ≠ publicRoleName ∧ edge.member ≠ publicRoleName
  databases : ∀ key ∈ g.grants, key ∉ g.inherentGrants → key.objectType = .database →
    key.name ≠ none
  default_types : ∀ key ∈ g.defaultPrivileges, allowedDefaultType key.scope key.onType = true
  timestamps : ∀ (name : String) state value, g.roles[name]? = some state →
    state.passwordValidUntil = some value → isValidIso8601Timestamp value = true
  parameters : ∀ (name : String) state (parameter value : String), g.roles[name]? = some state →
    state.config[parameter]? = some value → isValidConfigParameterName parameter = true
  /-- A `role` setting to a managed role is backed by a membership. -/
  switches : ∀ (name : String) state (parameter value : String), g.roles[name]? = some state →
    state.config[parameter]? = some value → toAsciiLowercase parameter = "role" →
      value ∈ g.roles → ∃ edge ∈ g.memberships, edge.role = value ∧ edge.member = name

section Acceptance

variable {g : RoleGraph}

theorem mem_exportedRoles {d : RoleDefinition} :
    d ∈ (roleGraphToManifest g).roles ↔
      ∃ name state, g.roles[name]? = some state ∧ exportRole name state = d := by
  show d ∈ List.map _ _ ↔ _
  rw [List.mem_map]
  constructor
  · intro h
    obtain ⟨⟨name, state⟩, hmem, rfl⟩ := h
    exact ⟨name, state, mem_toList_iff.1 hmem, rfl⟩
  · intro h
    obtain ⟨name, state, hname, rfl⟩ := h
    exact ⟨(name, state), mem_toList_iff.2 hname, rfl⟩

theorem exportedRoles_names :
    (roleGraphToManifest g).roles.map (·.name) = g.roles.toList.map Prod.fst := by
  show List.map _ (List.map _ _) = _
  rw [List.map_map]
  rfl

theorem mem_exportedRoles_names {name : String} :
    name ∈ (roleGraphToManifest g).roles.map (·.name) ↔ name ∈ g.roles := by
  rw [exportedRoles_names, ExtTreeMap.map_fst_toList_eq_keys, ExtTreeMap.mem_keys]

/-- No binding of an exported manifest binds a profile. -/
theorem expandBindings_export : expandBindings (roleGraphToManifest g) = .ok [] := by
  obtain ⟨expansions, hmap⟩ : ∃ expansions, (roleGraphToManifest g).schemas.mapM (fun binding =>
      binding.profiles.mapM (expandProfile (roleGraphToManifest g) binding)) = .ok expansions := by
    refine exists_mapM_eq_ok fun binding hbinding => ?_
    obtain ⟨e, -, rfl⟩ := List.mem_map.1 hbinding
    exact ⟨[], rfl⟩
  refine bind_eq_ok.2 ⟨expansions, hmap, congrArg Except.ok ?_⟩
  refine List.flatten_eq_nil_iff.2 fun l hl => ?_
  obtain ⟨binding, hbinding, hok⟩ := exists_of_mem_mapM hmap hl
  obtain ⟨e, -, rfl⟩ := List.mem_map.1 hbinding
  exact (Except.ok.inj hok).symm

theorem rejectReserved_some {value context : String} :
    rejectReserved (some value) context = .ok () ↔ value ≠ publicRoleName := by
  rw [rejectReserved, rejectIf_eq_ok]
  simp

theorem reservedRoles_export :
    ((exportedExpansion g).roles.forM fun role =>
        rejectReserved (some role.name) "a role name") = .ok () ↔ publicRoleName ∉ g.roles := by
  rw [forM_eq_ok, ← mem_exportedRoles_names, List.mem_map]
  constructor
  · intro hall hmem
    obtain ⟨d, hd, hname⟩ := hmem
    exact rejectReserved_some.1 (hall d hd) hname
  · intro hnot d hd
    exact rejectReserved_some.2 fun hname => hnot ⟨d, hd, hname⟩

/-- No exported schema is owned by PUBLIC. -/
theorem reservedSchemaOwners_export :
    ((exportedExpansion g).schemas.forM fun schema =>
        rejectReserved schema.owner "a schema owner") = .ok () ↔
      ∀ (name : String) state, g.schemas[name]? = some state →
        state.owner ≠ some publicRoleName := by
  rw [forM_eq_ok]
  constructor
  · intro hall name state hstate howner
    have hmem : (⟨name, state.owner.or none⟩ : ExpandedSchema) ∈ (exportedExpansion g).schemas :=
      List.mem_map.2 ⟨exportSchema name state,
        List.mem_map.2 ⟨(name, state), mem_toList_iff.2 hstate, rfl⟩, rfl⟩
    have hcheck := hall _ hmem
    rw [Option.or_none, howner] at hcheck
    exact rejectReserved_some.1 hcheck rfl
  · intro hall schema hschema
    obtain ⟨binding, hbinding, rfl⟩ := List.mem_map.1 hschema
    obtain ⟨⟨name, state⟩, hmem, rfl⟩ := List.mem_map.1 hbinding
    have howner := hall name state (mem_toList_iff.1 hmem)
    show rejectReserved (state.owner.or none) _ = _
    rw [Option.or_none]
    cases ho : state.owner with
    | none => rfl
    | some owner =>
        rw [ho] at howner
        exact rejectReserved_some.2 fun heq => howner (congrArg some heq)

/-- No owner of default privileges is named PUBLIC. -/
theorem reservedDefaultOwners_export :
    ((exportedExpansion g).defaultPrivileges.forM fun d =>
        rejectReserved d.owner "a default privilege owner") = .ok () ↔
      ∀ key ∈ g.defaultPrivileges, key.owner ≠ publicRoleName := by
  rw [forM_eq_ok, exportedExpansion_defaultPrivileges]
  constructor
  · intro hall key hkey
    obtain ⟨privileges, hkey⟩ := mem_iff_exists_getElem?.1 hkey
    obtain ⟨grants, hgroup, -⟩ := mem_defaultGroups.2 ⟨key, privileges, hkey, rfl, rfl, rfl⟩
    have hcheck := hall _ (mem_exportedDefaults.2 ⟨_, _, _, hgroup, rfl⟩)
    rw [exportDefaultPrivilege_owner] at hcheck
    exact rejectReserved_some.1 hcheck
  · intro hall d hd
    obtain ⟨owner, scope, grants, hgroup, rfl⟩ := mem_exportedDefaults.1 hd
    rw [exportDefaultPrivilege_owner]
    -- A group has a grantee, whose rule has the owner of the group.
    obtain ⟨hne, -⟩ := groupInto_eq_some hgroup
    obtain ⟨grant, hgrant⟩ := List.exists_mem_of_ne_nil grants hne
    obtain ⟨key, privileges, hkey, rfl, -, -⟩ := mem_defaultGroups.1 ⟨grants, hgroup, hgrant⟩
    exact rejectReserved_some.2 (hall key (mem_iff_exists_getElem?.2 ⟨privileges, hkey⟩))

/-- No membership is in PUBLIC or of it. -/
theorem reservedMembers_export :
    ((exportedExpansion g).memberships.forM fun membership => do
        rejectReserved (some membership.role) "a membership role"
        membership.members.forM fun member =>
          rejectReserved (some member.name) "a membership member") = .ok () ↔
      ∀ edge ∈ g.memberships, edge.role ≠ publicRoleName ∧ edge.member ≠ publicRoleName := by
  rw [forM_eq_ok]
  constructor
  · intro hall edge hedge
    obtain ⟨members, hgroup, hmember⟩ := mem_memberGroups.2 ⟨edge, hedge, rfl, rfl⟩
    obtain ⟨hrole, hrest⟩ :=
      check_bind_eq_ok.1 (hall _ (mem_exportedMemberships.2 ⟨_, _, hgroup, rfl⟩))
    exact ⟨rejectReserved_some.1 hrole,
      rejectReserved_some.1 (forM_eq_ok.1 hrest _ hmember)⟩
  · intro hall membership hmembership
    obtain ⟨role, members, hgroup, rfl⟩ := mem_exportedMemberships.1 hmembership
    refine check_bind_eq_ok.2 ⟨?_, forM_eq_ok.2 fun member hmember => ?_⟩
    · obtain ⟨hne, -⟩ := groupInto_eq_some hgroup
      obtain ⟨member, hmember⟩ := List.exists_mem_of_ne_nil members hne
      obtain ⟨edge, hedge, rfl, -⟩ := mem_memberGroups.1 ⟨members, hgroup, hmember⟩
      exact rejectReserved_some.2 (hall edge hedge).1
    · obtain ⟨edge, hedge, -, rfl⟩ := mem_memberGroups.1 ⟨members, hgroup, hmember⟩
      exact rejectReserved_some.2 (hall edge hedge).2

/-- The name of the pseudo-role is kept free exactly where the graph keeps it free. -/
theorem validatePublicReservation_export :
    validatePublicReservation (roleGraphToManifest g) (exportedExpansion g).roles
        (exportedExpansion g).schemas (exportedExpansion g).defaultPrivileges
        (exportedExpansion g).memberships = .ok () ↔
      publicRoleName ∉ g.roles ∧
      (∀ (name : String) state, g.schemas[name]? = some state →
        state.owner ≠ some publicRoleName) ∧
      (∀ key ∈ g.defaultPrivileges, key.owner ≠ publicRoleName) ∧
      ∀ edge ∈ g.memberships, edge.role ≠ publicRoleName ∧ edge.member ≠ publicRoleName := by
  unfold validatePublicReservation
  rw [check_bind_eq_ok, check_bind_eq_ok, check_bind_eq_ok, check_bind_eq_ok, check_bind_eq_ok,
    reservedRoles_export, reservedSchemaOwners_export, reservedDefaultOwners_export,
    reservedMembers_export]
  constructor
  · intro h
    obtain ⟨-, h₁, h₂, h₃, h₄, -⟩ := h
    exact ⟨h₁, h₂, h₃, h₄⟩
  · intro h
    obtain ⟨h₁, h₂, h₃, h₄⟩ := h
    exact ⟨rfl, h₁, h₂, h₃, h₄, rfl⟩

theorem validateDatabaseGrantTargets_export :
    validateDatabaseGrantTargets (exportedExpansion g).grants = .ok () ↔
      ∀ key ∈ g.grants, key ∉ g.inherentGrants → key.objectType = .database → key.name ≠ none := by
  rw [validateDatabaseGrantTargets, rejectIf_eq_ok, List.any_eq_false]
  constructor
  · intro h key hkey hown htype hname
    obtain ⟨privileges, hkey⟩ := mem_iff_exists_getElem?.1 hkey
    apply h _ (mem_exportedGrants.2 ⟨key, privileges, hkey, hown, rfl⟩)
    simp [exportGrant, htype, hname]
  · intro h grant hgrant hbad
    obtain ⟨key, privileges, hkey, hown, rfl⟩ := mem_exportedGrants.1 hgrant
    rw [Bool.and_eq_true, beq_iff_eq, Option.isNone_iff_eq_none] at hbad
    exact h key (mem_iff_exists_getElem?.2 ⟨privileges, hkey⟩) hown hbad.1 hbad.2

/-- Every exported default privilege is on a type that its scope allows. -/
theorem validateDefaultPrivilegeScope_export :
    (exportedExpansion g).defaultPrivileges.forM validateDefaultPrivilegeScope = .ok () ↔
      ∀ key ∈ g.defaultPrivileges, allowedDefaultType key.scope key.onType = true := by
  rw [forM_eq_ok, exportedExpansion_defaultPrivileges]
  constructor
  · intro h key hkey
    obtain ⟨privileges, hkey⟩ := mem_iff_exists_getElem?.1 hkey
    obtain ⟨grants, hgroup, hgrant⟩ := mem_defaultGroups.2 ⟨key, privileges, hkey, rfl, rfl, rfl⟩
    have hcheck := h _ (mem_exportedDefaults.2 ⟨_, _, _, hgroup, rfl⟩)
    rw [validateDefaultPrivilegeScope, resolvedScope_exportDefaultPrivilege,
      exportDefaultPrivilege_grant] at hcheck
    have hgrants := rejectIf_eq_ok.1 (forM_eq_ok.1 hcheck _ hgrant)
    exact (Bool.not_eq_false' _).mp hgrants
  · intro h d hd
    obtain ⟨owner, scope, grants, hgroup, rfl⟩ := mem_exportedDefaults.1 hd
    rw [validateDefaultPrivilegeScope, resolvedScope_exportDefaultPrivilege,
      exportDefaultPrivilege_grant]
    refine forM_eq_ok.2 fun grant hgrant => rejectIf_eq_ok.2 ?_
    obtain ⟨key, privileges, hkey, -, rfl, rfl⟩ := mem_defaultGroups.1 ⟨grants, hgroup, hgrant⟩
    exact (Bool.not_eq_false' _).mpr (h key (mem_iff_exists_getElem?.2 ⟨privileges, hkey⟩))

/-- Nothing exported is asserted absent, so nothing contradicts anything. -/
theorem validateEnsureConflicts_export :
    validateEnsureConflicts none (exportedExpansion g).grants
      (exportedExpansion g).defaultPrivileges = .ok () := by
  have hpresent : ∀ a ∈ grantAssertions (exportedExpansion g).grants, a.1.ensure = .present := by
    intro a ha
    obtain ⟨grant, hgrant, hmem⟩ := List.mem_flatMap.1 ha
    obtain ⟨p, -, rfl⟩ := List.mem_map.1 hmem
    obtain ⟨key, privileges, -, -, rfl⟩ := mem_exportedGrants.1 hgrant
    rfl
  have hconsistent : Consistent (grantAssertions (exportedExpansion g).grants) :=
    { same_target := fun a ha b hb _ => (hpresent a ha).trans (hpresent b hb).symm
      same_selectors := fun a ha b hb _ _ _ => (hpresent a ha).trans (hpresent b hb).symm }
  obtain ⟨noted, hnoted⟩ := noteAssertions_isOk_iff.2 hconsistent
  have hassertions : ∀ d ∈ (exportedExpansion g).defaultPrivileges, ∃ as,
      defaultAssertions none d = .ok as ∧ ∀ a ∈ as, a.ensure = .present := by
    intro d hd
    rw [exportedExpansion_defaultPrivileges] at hd
    obtain ⟨owner, scope, grants, hgroup, rfl⟩ := mem_exportedDefaults.1 hd
    rw [defaultAssertions, resolvedScope_exportDefaultPrivilege]
    refine ⟨_, rfl, fun a ha => ?_⟩
    obtain ⟨grant, hgrant, ha⟩ := List.mem_flatMap.1 ha
    obtain ⟨key, privileges, -, -, -, rfl⟩ := exported_named hd hgrant
    obtain ⟨p, -, rfl⟩ := List.mem_map.1 ha
    rfl
  obtain ⟨assertions, hmap⟩ := exists_mapM_eq_ok fun d hd =>
    (hassertions d hd).imp fun _ h => h.1
  have hdefaults : ∀ a ∈ assertions.flatten, a.ensure = .present := by
    intro a ha
    obtain ⟨as, has, ha⟩ := List.mem_flatten.1 ha
    obtain ⟨d, hd, hok⟩ := exists_of_mem_mapM hmap has
    obtain ⟨as', hok', hall⟩ := hassertions d hd
    obtain rfl : as' = as := Except.ok.inj (hok'.symm.trans hok)
    exact hall a ha
  obtain ⟨state, hstate⟩ := (@noteDefaultAssertions_isOk_iff assertions.flatten ∅).2
    ⟨fun a ha b hb _ => (hdefaults a ha).trans (hdefaults b hb).symm,
      fun a _ ensure hget => by simp at hget⟩
  exact bind_eq_ok.2 ⟨noted, hnoted, bind_eq_ok.2
    ⟨state, noteDefaultPrivileges_eq_ok.2 ⟨assertions, hmap, hstate⟩, rfl⟩⟩

theorem declaresMember_export {role member : String} :
    declaresMember (exportedExpansion g).memberships role member = true ↔
      ∃ edge ∈ g.memberships, edge.role = role ∧ edge.member = member := by
  rw [declaresMember, List.any_eq_true]
  constructor
  · intro h
    obtain ⟨membership, hmembership, h⟩ := h
    obtain ⟨held, members, hgroup, rfl⟩ := mem_exportedMemberships.1 hmembership
    rw [Bool.and_eq_true, beq_iff_eq, List.any_eq_true] at h
    obtain ⟨hrole, spec, hspec, hname⟩ := h
    obtain ⟨edge, hedge, hheld, rfl⟩ := mem_memberGroups.1 ⟨members, hgroup, hspec⟩
    exact ⟨edge, hedge, hheld.trans hrole, beq_iff_eq.1 hname⟩
  · intro h
    obtain ⟨edge, hedge, rfl, rfl⟩ := h
    obtain ⟨members, hgroup, hmember⟩ := mem_memberGroups.2 ⟨edge, hedge, rfl, rfl⟩
    refine ⟨_, mem_exportedMemberships.2 ⟨_, _, hgroup, rfl⟩, ?_⟩
    rw [Bool.and_eq_true, List.any_eq_true]
    exact ⟨beq_iff_eq.2 rfl, exportMember edge, hmember, beq_iff_eq.2 rfl⟩

/-- What a setting of an exported role has to meet. -/
theorem validateConfigEntry_export {name parameter value : String} {state : RoleState} :
    validateConfigEntry ((exportedExpansion g).roles.map (·.name))
        (exportedExpansion g).memberships (exportRole name state) (parameter, value) = .ok () ↔
      isValidConfigParameterName parameter = true ∧
        (toAsciiLowercase parameter = "role" → value ∈ g.roles →
          ∃ edge ∈ g.memberships, edge.role = value ∧ edge.member = name) := by
  rw [validateConfigEntry, check_bind_eq_ok, rejectIf_eq_ok, rejectIf_eq_ok, Bool.not_eq_false']
  refine and_congr_right fun _ => ?_
  have hcontains : ((exportedExpansion g).roles.map (·.name)).contains value = true ↔
      value ∈ g.roles := by
    rw [List.contains_iff_mem]
    exact mem_exportedRoles_names
  rw [← declaresMember_export, ← hcontains]
  show (_ && _ && !declaresMember _ _ name) = false ↔ _
  cases hrole : toAsciiLowercase parameter == "role" with
  | false =>
      rw [beq_eq_false_iff_ne] at hrole
      simp [hrole]
  | true =>
      rw [beq_iff_eq] at hrole
      cases ((exportedExpansion g).roles.map (·.name)).contains value <;> simp [hrole]

theorem validTimestamps_export :
    ((exportedExpansion g).roles.forM fun role =>
        rejectIf (role.passwordValidUntil.any fun value => !isValidIso8601Timestamp value)
          (ManifestError.invalidValidUntil role.name (role.passwordValidUntil.getD ""))) =
        .ok () ↔
      ∀ (name : String) state value, g.roles[name]? = some state →
        state.passwordValidUntil = some value → isValidIso8601Timestamp value = true := by
  rw [forM_eq_ok]
  constructor
  · intro h name state value hstate hvalue
    have hcheck := rejectIf_eq_ok.1 (h _ (mem_exportedRoles.2 ⟨name, state, hstate, rfl⟩))
    have hany : state.passwordValidUntil.any (fun value => !isValidIso8601Timestamp value) =
        false := hcheck
    rw [hvalue] at hany
    exact (Bool.not_eq_false' _).mp hany
  · intro h d hd
    obtain ⟨name, state, hstate, rfl⟩ := mem_exportedRoles.1 hd
    refine rejectIf_eq_ok.2 ?_
    show state.passwordValidUntil.any _ = false
    cases hvalue : state.passwordValidUntil with
    | none => rfl
    | some value => exact (Bool.not_eq_false' _).mpr (h name state value hstate hvalue)

theorem validConfigs_export :
    ((exportedExpansion g).roles.forM fun role =>
        role.config.toList.forM (validateConfigEntry ((exportedExpansion g).roles.map (·.name))
          (exportedExpansion g).memberships role)) = .ok () ↔
      ∀ (name : String) state (parameter value : String), g.roles[name]? = some state →
        state.config[parameter]? = some value → isValidConfigParameterName parameter = true ∧
          (toAsciiLowercase parameter = "role" → value ∈ g.roles →
            ∃ edge ∈ g.memberships, edge.role = value ∧ edge.member = name) := by
  rw [forM_eq_ok]
  constructor
  · intro h name state parameter value hstate hvalue
    have hcheck := h _ (mem_exportedRoles.2 ⟨name, state, hstate, rfl⟩)
    exact validateConfigEntry_export.1
      (forM_eq_ok.1 hcheck (parameter, value) (mem_toList_iff.2 hvalue))
  · intro h d hd
    obtain ⟨name, state, hstate, rfl⟩ := mem_exportedRoles.1 hd
    refine forM_eq_ok.2 fun entry hentry => ?_
    exact validateConfigEntry_export.2
      (h name state entry.1 entry.2 hstate (mem_toList_iff.1 hentry))

/-- What the checks on the expanded manifest come to. -/
theorem validateExpanded_export :
    validateExpanded (roleGraphToManifest g) (exportedExpansion g) = .ok () ↔
      (publicRoleName ∉ g.roles ∧
        (∀ (name : String) state, g.schemas[name]? = some state →
          state.owner ≠ some publicRoleName) ∧
        (∀ key ∈ g.defaultPrivileges, key.owner ≠ publicRoleName) ∧
        ∀ edge ∈ g.memberships, edge.role ≠ publicRoleName ∧ edge.member ≠ publicRoleName) ∧
      (∀ key ∈ g.grants, key ∉ g.inherentGrants → key.objectType = .database →
        key.name ≠ none) ∧
      (∀ key ∈ g.defaultPrivileges, allowedDefaultType key.scope key.onType = true) ∧
      (∀ (name : String) state value, g.roles[name]? = some state →
        state.passwordValidUntil = some value → isValidIso8601Timestamp value = true) ∧
      ∀ (name : String) state (parameter value : String), g.roles[name]? = some state →
        state.config[parameter]? = some value → isValidConfigParameterName parameter = true ∧
          (toAsciiLowercase parameter = "role" → value ∈ g.roles →
            ∃ edge ∈ g.memberships, edge.role = value ∧ edge.member = name) := by
  have hduplicates : rejectDuplicates .duplicateRole []
      ((exportedExpansion g).roles.map (·.name)) = .ok () := by
    refine rejectDuplicates_nil_eq_ok.2 ?_
    show ((roleGraphToManifest g).roles.map (·.name)).Nodup
    rw [exportedRoles_names]
    exact nodup_fst_toList g.roles
  have hpasswords : ((exportedExpansion g).roles.forM fun role =>
      rejectIf (role.password.isSome && role.login != some true)
        (ManifestError.passwordWithoutLogin role.name)) = .ok () := by
    refine forM_eq_ok.2 fun d hd => ?_
    obtain ⟨name, state, -, rfl⟩ := mem_exportedRoles.1 hd
    rfl
  unfold validateExpanded
  rw [check_bind_eq_ok, check_bind_eq_ok, check_bind_eq_ok, check_bind_eq_ok, check_bind_eq_ok,
    check_bind_eq_ok, check_bind_eq_ok, check_bind_eq_ok, validatePublicReservation_export,
    validateDatabaseGrantTargets_export, validateDefaultPrivilegeScope_export,
    validTimestamps_export, validConfigs_export]
  constructor
  · intro h
    obtain ⟨h₁, h₂, h₃, -, -, -, -, h₄, h₅⟩ := h
    exact ⟨h₁, h₂, h₃, h₄, h₅⟩
  · intro h
    obtain ⟨h₁, h₂, h₃, h₄, h₅⟩ := h
    exact ⟨h₁, h₂, h₃, validateEnsureConflicts_export, hduplicates, rfl, hpasswords, h₄, h₅⟩

/-- An exported manifest that is accepted expands to its own declarations. -/
theorem expandManifest_exported {e : ExpandedManifest} :
    expandManifest (roleGraphToManifest g) = .ok e ↔ g.Exportable ∧ e = exportedExpansion g := by
  have hpredefined : (roleGraphToManifest g).roles.forM validatePredefined = .ok () ↔
      ∀ name ∈ g.roles, isPredefinedRole name = false := by
    rw [forM_eq_ok]
    constructor
    · intro h name hname
      obtain ⟨state, hstate⟩ := mem_iff_exists_getElem?.1 hname
      have hcheck := rejectIf_eq_ok.1 (h _ (mem_exportedRoles.2 ⟨name, state, hstate, rfl⟩))
      have hand : (isPredefinedRole name && true) = false := hcheck
      rwa [Bool.and_true] at hand
    · intro h d hd
      obtain ⟨name, state, hstate, rfl⟩ := mem_exportedRoles.1 hd
      refine rejectIf_eq_ok.2 ?_
      show (isPredefinedRole name && true) = false
      rw [Bool.and_true]
      exact h name (mem_iff_exists_getElem?.2 ⟨state, hstate⟩)
  have hexclusive : (roleGraphToManifest g).memberships.forM
      (validateExclusive (roleGraphToManifest g)) = .ok () := by
    refine forM_eq_ok.2 fun membership hmembership => ?_
    obtain ⟨role, members, -, rfl⟩ := mem_exportedMemberships.1 hmembership
    rfl
  have hschemas : rejectDuplicates .duplicateSchema []
      ((roleGraphToManifest g).schemas.map (·.name)) = .ok () := by
    refine rejectDuplicates_nil_eq_ok.2 ?_
    show ((List.map _ _).map _).Nodup
    rw [List.map_map]
    exact nodup_fst_toList g.schemas
  have hnamed : (roleGraphToManifest g).defaultPrivileges.forM validateDefaultPrivilegeRoles =
      .ok () := by
    refine forM_eq_ok.2 fun d hd => forM_eq_ok.2 fun grant hgrant => ?_
    obtain ⟨key, privileges, -, -, -, rfl⟩ := exported_named hd hgrant
    rfl
  constructor
  · intro h
    obtain ⟨expansions, hbounds, hmanaged, -, -, hexpansions, -, hvalid, rfl⟩ :=
      of_expandManifest_eq_ok h
    rw [expandBindings_export] at hexpansions
    obtain rfl := Except.ok.inj hexpansions
    obtain ⟨⟨h₁, h₂, h₃, h₄⟩, h₅, h₆, h₇, h₈⟩ := validateExpanded_export.1 hvalid
    exact ⟨{ bounds := validateBounds_export.1 hbounds
             managed := hpredefined.1 hmanaged
             role_names := h₁
             schema_owners := h₂
             default_owners := h₃
             members := h₄
             databases := h₅
             default_types := h₆
             timestamps := h₇
             parameters := fun n s p v hs hv => (h₈ n s p v hs hv).1
             switches := fun n s p v hs hv => (h₈ n s p v hs hv).2 }, rfl⟩
  · intro h
    obtain ⟨hg, rfl⟩ := h
    refine check_bind_eq_ok.2 ⟨validateBounds_export.2 hg.bounds, check_bind_eq_ok.2
      ⟨hpredefined.2 hg.managed, check_bind_eq_ok.2 ⟨hexclusive, check_bind_eq_ok.2 ⟨hschemas,
        bind_eq_ok.2 ⟨[], expandBindings_export, check_bind_eq_ok.2 ⟨hnamed,
          check_bind_eq_ok.2 ⟨?_, rfl⟩⟩⟩⟩⟩⟩⟩
    exact validateExpanded_export.2 ⟨⟨hg.role_names, hg.schema_owners, hg.default_owners,
      hg.members⟩, hg.databases, hg.default_types, hg.timestamps,
      fun n s p v hs hv => ⟨hg.parameters n s p v hs hv, hg.switches n s p v hs hv⟩⟩

/-- An exported manifest is accepted exactly when its graph is exportable. -/
theorem export_accepted_iff :
    (∃ e, expandManifest (roleGraphToManifest g) = .ok e) ↔ g.Exportable := by
  constructor
  · intro h
    obtain ⟨e, he⟩ := h
    exact (expandManifest_exported.1 he).1
  · intro h
    exact ⟨exportedExpansion g, expandManifest_exported.2 ⟨h, rfl⟩⟩

end Acceptance

end PgRoles.Core

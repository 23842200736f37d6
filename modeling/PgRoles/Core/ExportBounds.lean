import PgRoles.Core.Export

/-!
# Bounds of an exported manifest

The bounds on content, said of the graph that is exported: how many roles, schemas, grants and
memberships it has, how long its names are, and how large the groups are that its default privileges
and memberships are written in (`RoleGraph.WithinBounds`). An exported manifest passes the check of its
bounds exactly when its graph is within them (`validateBounds_export`).
-/

set_option autoImplicit false

namespace PgRoles.Core

open Std PgRoles.Lib

/-! ## Bounds of a graph -/

/-- A name that PostgreSQL holds in full. -/
structure FitsIdentifier (name : String) : Prop where
  characters : name.length ≤ maxIdentifier
  bytes : name.utf8ByteSize ≤ maxIdentifier

/-- The texts and settings of a role are within the bounds. -/
structure RoleState.WithinBounds (state : RoleState) : Prop where
  comment : ∀ comment, state.comment = some comment → comment.length ≤ maxObjectName
  passwordValidUntil : ∀ value, state.passwordValidUntil = some value →
    value.length ≤ maxTimestamp
  config_count : state.config.size ≤ maxConfigEntries
  config : ∀ parameter value : String, state.config[parameter]? = some value →
    FitsIdentifier parameter ∧ value.length ≤ maxConfigValue

/-- The names and sizes of a graph are within the bounds. Entries that belong to an owner do not
count, since they are not exported. -/
structure RoleGraph.WithinBounds (g : RoleGraph) : Prop where
  schema_count : g.schemas.size ≤ maxSchemas
  role_count : g.roles.size ≤ maxRoles
  grant_count : (g.grants.keys.filter fun key => !g.inherentGrants.contains key).length ≤ maxGrants
  /-- Default privileges are written in one declaration for each owner and scope. -/
  scope_count : (g.defaultPrivileges.keys.map fun key => (key.owner, key.scope)).toFinset.card ≤
    maxDefaultPrivileges
  scope_grants : ∀ scope, (g.defaultPrivileges.keys.countP fun key =>
    (key.owner, key.scope) = scope) ≤ maxDefaultPrivilegeGrants
  /-- Memberships are written in one declaration for each role that has members. -/
  held_count : (g.memberships.toList.map (·.role)).toFinset.card ≤ maxMemberships
  member_count : ∀ role, (g.memberships.toList.countP fun edge => edge.role = role) ≤ maxMembers
  schemas : ∀ (name : String) state, g.schemas[name]? = some state →
    FitsIdentifier name ∧ ∀ owner, state.owner = some owner → FitsIdentifier owner
  roles : ∀ (name : String) state, g.roles[name]? = some state →
    FitsIdentifier name ∧ state.WithinBounds
  grants : ∀ key ∈ g.grants, key ∉ g.inherentGrants → FitsIdentifier key.role.asStr ∧
    (∀ schema, key.schema = some schema → FitsIdentifier schema) ∧
      ∀ name, key.name = some name → name.length ≤ maxObjectName
  defaults : ∀ key ∈ g.defaultPrivileges, FitsIdentifier key.owner ∧
    (∀ schema, key.scope = .schema schema → FitsIdentifier schema) ∧
      FitsIdentifier key.grantee.asStr
  memberships : ∀ edge ∈ g.memberships, FitsIdentifier edge.role ∧ FitsIdentifier edge.member

/-! ## The checks of one text -/

theorem checkEntries_eq_ok {collection : String} {actual limit : Nat} :
    checkEntries collection actual limit = .ok () ↔ actual ≤ limit := by
  rw [checkEntries, rejectIf_eq_ok, decide_eq_false_iff_not, Nat.not_lt]

/-- Identifiers are counted in characters and in bytes. -/
theorem checkText_identifier {context value : String} :
    checkText context value maxIdentifier = .ok () ↔ FitsIdentifier value := by
  rw [checkText, check_bind_eq_ok, rejectIf_eq_ok, rejectIf_eq_ok, decide_eq_false_iff_not,
    Nat.not_lt, beq_self_eq_true, Bool.true_and, decide_eq_false_iff_not, Nat.not_lt]
  exact ⟨fun h => ⟨h.1, h.2⟩, fun h => ⟨h.characters, h.bytes⟩⟩

/-- Other texts are counted in characters. -/
theorem checkText_other {context value : String} {limit : Nat} (hlimit : limit ≠ maxIdentifier) :
    checkText context value limit = .ok () ↔ value.length ≤ limit := by
  rw [checkText, check_bind_eq_ok, rejectIf_eq_ok, rejectIf_eq_ok, decide_eq_false_iff_not,
    Nat.not_lt, beq_false_of_ne hlimit, Bool.false_and]
  exact and_iff_left rfl

theorem checkOptionalText_eq_ok {context : String} {value : Option String} {limit : Nat} :
    checkOptionalText context value limit = .ok () ↔
      ∀ v, value = some v → checkText context v limit = .ok () := by
  cases value with
  | none => exact ⟨fun _ _ h => absurd h.symm (Option.some_ne_none _), fun _ => rfl⟩
  | some v => exact ⟨fun h w hw => Option.some.inj hw ▸ h, fun h => h v rfl⟩

theorem checkOptionalText_identifier {context : String} {value : Option String} :
    checkOptionalText context value maxIdentifier = .ok () ↔
      ∀ v, value = some v → FitsIdentifier v := by
  rw [checkOptionalText_eq_ok]
  exact forall₂_congr fun _ _ => checkText_identifier

theorem checkOptionalText_other {context : String} {value : Option String} {limit : Nat}
    (hlimit : limit ≠ maxIdentifier) :
    checkOptionalText context value limit = .ok () ↔ ∀ v, value = some v → v.length ≤ limit := by
  rw [checkOptionalText_eq_ok]
  exact forall₂_congr fun _ _ => checkText_other hlimit

/-- Settings pass when they are not too many, and their names and values fit. -/
theorem checkConfig_eq_ok {context : String} {config : BTreeMap String String} :
    checkConfig context config = .ok () ↔ config.size ≤ maxConfigEntries ∧
      ∀ parameter value : String, config[parameter]? = some value →
        FitsIdentifier parameter ∧ value.length ≤ maxConfigValue := by
  rw [checkConfig, check_bind_eq_ok, checkEntries_eq_ok, forM_eq_ok]
  refine and_congr_right fun _ => ?_
  have hentry : ∀ e : String × String, (do
      checkText (context ++ ".config key") e.1 maxIdentifier
      checkText (context ++ ".config[" ++ e.1 ++ "]") e.2 maxConfigValue) = .ok () ↔
        FitsIdentifier e.1 ∧ e.2.length ≤ maxConfigValue := fun e => by
    rw [check_bind_eq_ok, checkText_identifier, checkText_other (by decide)]
  constructor
  · intro h parameter value hvalue
    exact (hentry (parameter, value)).1 (h (parameter, value) (mem_toList_iff.2 hvalue))
  · intro h e he
    exact (hentry e).2 (h e.1 e.2 (mem_toList_iff.1 he))

/-! ## The checks of one declaration -/

/-- A listed set of privileges is never too long. -/
theorem length_listPrivileges_le (privileges : Finset Privilege) :
    (listPrivileges privileges).length ≤ maxPrivileges :=
  (List.length_filter_le _ _).trans (by decide)

theorem validateRoleBounds_export {name : String} {state : RoleState} :
    validateRoleBounds (exportRole name state) = .ok () ↔
      FitsIdentifier name ∧ state.WithinBounds := by
  rw [validateRoleBounds, check_bind_eq_ok, check_bind_eq_ok, check_bind_eq_ok,
    checkText_identifier, checkOptionalText_other (by decide), checkOptionalText_other (by decide),
    checkConfig_eq_ok]
  refine and_congr_right fun _ => ?_
  constructor
  · intro h
    obtain ⟨hcomment, htimestamp, hcount, hconfig⟩ := h
    exact ⟨hcomment, htimestamp, hcount, hconfig⟩
  · intro h
    exact ⟨h.comment, h.passwordValidUntil, h.config_count, h.config⟩

theorem validateSchemaBounds_export {name : String} {state : SchemaState} :
    validateSchemaBounds (exportSchema name state) = .ok () ↔
      FitsIdentifier name ∧ ∀ owner, state.owner = some owner → FitsIdentifier owner := by
  rw [validateSchemaBounds, check_bind_eq_ok, check_bind_eq_ok, check_bind_eq_ok,
    check_bind_eq_ok, checkText_identifier, checkOptionalText_identifier]
  refine and_congr_right fun _ => ?_
  constructor
  · intro h
    exact h.2.2.2
  · intro h
    exact ⟨rfl, rfl, rfl, h⟩

theorem validateGrantBounds_export {key : GrantKey} {privileges : Finset Privilege} :
    validateGrantBounds (exportGrant key privileges) = .ok () ↔
      FitsIdentifier key.role.asStr ∧
        (∀ schema, key.schema = some schema → FitsIdentifier schema) ∧
          ∀ name, key.name = some name → name.length ≤ maxObjectName := by
  rw [validateGrantBounds, check_bind_eq_ok, check_bind_eq_ok, check_bind_eq_ok,
    checkText_identifier, checkEntries_eq_ok, checkOptionalText_identifier,
    checkOptionalText_other (by decide)]
  exact and_congr_right fun _ => and_iff_right (length_listPrivileges_le privileges)

/-- A group of default privileges passes when its owner, its scope and its grantees do, and when it
is not too large. -/
theorem validateDefaultPrivilegeBounds_export {owner : String} {scope : DefaultPrivilegeScope}
    {grant : List DefaultPrivilegeGrant}
    (hgrant : ∀ d ∈ grant, ∃ key privileges, exportDefaultGrant key privileges = d) :
    validateDefaultPrivilegeBounds (exportDefaultPrivilege owner scope grant) = .ok () ↔
      (∀ schema, scope = .schema schema → FitsIdentifier schema) ∧ FitsIdentifier owner ∧
        grant.length ≤ maxDefaultPrivilegeGrants ∧
          ∀ d ∈ grant, ∀ role, d.role = some role → FitsIdentifier role := by
  have hgrants : (grant.forM fun d => do
      checkEntries "default_privileges[].grant[].privileges" d.privileges.length maxPrivileges
      checkOptionalText "default privilege role" d.role maxIdentifier) = .ok () ↔
        ∀ d ∈ grant, ∀ role, d.role = some role → FitsIdentifier role := by
    rw [forM_eq_ok]
    refine forall₂_congr fun d hd => ?_
    rw [check_bind_eq_ok, checkEntries_eq_ok, checkOptionalText_identifier]
    obtain ⟨key, privileges, rfl⟩ := hgrant d hd
    exact and_iff_right (length_listPrivileges_le privileges)
  rw [validateDefaultPrivilegeBounds, check_bind_eq_ok, check_bind_eq_ok, check_bind_eq_ok,
    check_bind_eq_ok, exportDefaultPrivilege_owner, exportDefaultPrivilege_grant,
    checkOptionalText_identifier, checkOptionalText_identifier, checkOptionalText_identifier,
    checkEntries_eq_ok, hgrants]
  cases scope with
  | global => simp [exportDefaultPrivilege]
  | schema schema => simp [exportDefaultPrivilege]

theorem validateMembershipBounds_export {role : String} {members : List MemberSpec} :
    validateMembershipBounds ⟨role, members, false⟩ = .ok () ↔
      FitsIdentifier role ∧ members.length ≤ maxMembers ∧
        ∀ member ∈ members, FitsIdentifier member.name := by
  rw [validateMembershipBounds, check_bind_eq_ok, check_bind_eq_ok, checkText_identifier,
    checkEntries_eq_ok, forM_eq_ok]
  exact and_congr_right fun _ => and_congr_right fun _ =>
    forall₂_congr fun _ _ => checkText_identifier

/-! ## The check of the whole manifest -/

section Export

variable {g : RoleGraph}

/-- The exported schemas pass by their number and their names. -/
theorem validateSchemas_export :
    (checkEntries "schemas" (roleGraphToManifest g).schemas.length maxSchemas = .ok () ∧
        (roleGraphToManifest g).schemas.forM validateSchemaBounds = .ok ()) ↔
      g.schemas.size ≤ maxSchemas ∧ ∀ (name : String) state, g.schemas[name]? = some state →
        FitsIdentifier name ∧ ∀ owner, state.owner = some owner → FitsIdentifier owner := by
  show (checkEntries "schemas" (List.map _ _).length _ = _ ∧ List.forM (List.map _ _) _ = _) ↔ _
  rw [checkEntries_eq_ok, List.length_map, ExtTreeMap.length_toList, forM_eq_ok,
    List.forall_mem_map]
  refine and_congr_right fun _ => ?_
  constructor
  · intro h name state hstate
    exact validateSchemaBounds_export.1 (h (name, state) (mem_toList_iff.2 hstate))
  · intro h e he
    exact validateSchemaBounds_export.2 (h e.1 e.2 (mem_toList_iff.1 he))

/-- The exported roles pass by their number, their names and their states. -/
theorem validateRoles_export :
    (checkEntries "roles" (roleGraphToManifest g).roles.length maxRoles = .ok () ∧
        (roleGraphToManifest g).roles.forM validateRoleBounds = .ok ()) ↔
      g.roles.size ≤ maxRoles ∧ ∀ (name : String) state, g.roles[name]? = some state →
        FitsIdentifier name ∧ state.WithinBounds := by
  show (checkEntries "roles" (List.map _ _).length _ = _ ∧ List.forM (List.map _ _) _ = _) ↔ _
  rw [checkEntries_eq_ok, List.length_map, ExtTreeMap.length_toList, forM_eq_ok,
    List.forall_mem_map]
  refine and_congr_right fun _ => ?_
  constructor
  · intro h name state hstate
    exact validateRoleBounds_export.1 (h (name, state) (mem_toList_iff.2 hstate))
  · intro h e he
    exact validateRoleBounds_export.2 (h e.1 e.2 (mem_toList_iff.1 he))

theorem exportedGrants_length :
    (roleGraphToManifest g).grants.length =
      (g.grants.keys.filter fun key => !g.inherentGrants.contains key).length := by
  show (List.map _ (List.filter _ _)).length = _
  rw [List.length_map, ← ExtTreeMap.map_fst_toList_eq_keys, List.filter_map, List.length_map]
  rfl

/-- The exported grants pass by their number and their keys. -/
theorem validateGrants_export :
    (checkEntries "grants" (roleGraphToManifest g).grants.length maxGrants = .ok () ∧
        (roleGraphToManifest g).grants.forM validateGrantBounds = .ok ()) ↔
      (g.grants.keys.filter fun key => !g.inherentGrants.contains key).length ≤ maxGrants ∧
        ∀ key ∈ g.grants, key ∉ g.inherentGrants → FitsIdentifier key.role.asStr ∧
          (∀ schema, key.schema = some schema → FitsIdentifier schema) ∧
            ∀ name, key.name = some name → name.length ≤ maxObjectName := by
  rw [checkEntries_eq_ok, exportedGrants_length, forM_eq_ok]
  refine and_congr_right fun _ => ?_
  constructor
  · intro h key hkey hown
    obtain ⟨privileges, hkey⟩ := mem_iff_exists_getElem?.1 hkey
    exact validateGrantBounds_export.1 (h _ (mem_exportedGrants.2 ⟨key, _, hkey, hown, rfl⟩))
  · intro h grant hgrant
    obtain ⟨key, privileges, hkey, hown, rfl⟩ := mem_exportedGrants.1 hgrant
    exact validateGrantBounds_export.2 (h key (mem_iff_exists_getElem?.2 ⟨_, hkey⟩) hown)

/-- The declarations of default privileges are the different owners and scopes. -/
theorem exportedDefaults_length :
    (roleGraphToManifest g).defaultPrivileges.length =
      (g.defaultPrivileges.keys.map fun key => (key.owner, key.scope)).toFinset.card := by
  show (List.map _ _).length = _
  rw [List.length_map, ExtTreeMap.length_toList, defaultGroups, size_groupInto, List.map_map,
    ← ExtTreeMap.map_fst_toList_eq_keys, List.map_map]
  rfl

theorem defaultGroups_length_le :
    (∀ (scope : String × DefaultPrivilegeScope) (grant : List DefaultPrivilegeGrant),
        (defaultGroups g)[scope]? = some grant → grant.length ≤ maxDefaultPrivilegeGrants) ↔
      ∀ scope, (g.defaultPrivileges.keys.countP fun key =>
        (key.owner, key.scope) = scope) ≤ maxDefaultPrivilegeGrants := by
  rw [defaultGroups, groupInto_length_le]
  refine forall_congr' fun scope => ?_
  rw [List.countP_map, ← ExtTreeMap.map_fst_toList_eq_keys, List.countP_map]
  rfl

/-- The exported default privileges pass by their groups and their keys. -/
theorem validateDefaults_export :
    (checkEntries "default_privileges" (roleGraphToManifest g).defaultPrivileges.length
          maxDefaultPrivileges = .ok () ∧
        (roleGraphToManifest g).defaultPrivileges.forM validateDefaultPrivilegeBounds = .ok ()) ↔
      (g.defaultPrivileges.keys.map fun key => (key.owner, key.scope)).toFinset.card ≤
          maxDefaultPrivileges ∧
        (∀ scope, (g.defaultPrivileges.keys.countP fun key =>
          (key.owner, key.scope) = scope) ≤ maxDefaultPrivilegeGrants) ∧
        ∀ key ∈ g.defaultPrivileges, FitsIdentifier key.owner ∧
          (∀ schema, key.scope = .schema schema → FitsIdentifier schema) ∧
            FitsIdentifier key.grantee.asStr := by
  rw [checkEntries_eq_ok, exportedDefaults_length, ← defaultGroups_length_le, forM_eq_ok]
  refine and_congr_right fun _ => ?_
  -- Every grant of a group is written from a rule of its owner and scope.
  have hgroup : ∀ owner scope grants, (defaultGroups g)[(owner, scope)]? = some grants →
      ∀ d ∈ grants, ∃ key privileges, g.defaultPrivileges[key]? = some privileges ∧
        key.owner = owner ∧ key.scope = scope ∧ exportDefaultGrant key privileges = d :=
    fun owner scope grants hgrants d hd => mem_defaultGroups.1 ⟨grants, hgrants, hd⟩
  have hbounds : ∀ owner scope grants, (defaultGroups g)[(owner, scope)]? = some grants →
      (validateDefaultPrivilegeBounds (exportDefaultPrivilege owner scope grants) = .ok () ↔ _) :=
    fun owner scope grants hgrants => validateDefaultPrivilegeBounds_export fun d hd =>
      let ⟨key, privileges, _, _, _, heq⟩ := hgroup owner scope grants hgrants d hd
      ⟨key, privileges, heq⟩
  constructor
  · intro h
    have hchecked := fun owner scope grants hgrants => (hbounds owner scope grants hgrants).1
      (h _ (mem_exportedDefaults.2 ⟨owner, scope, grants, hgrants, rfl⟩))
    refine ⟨fun scope grants hgrants => (hchecked scope.1 scope.2 grants hgrants).2.2.1, ?_⟩
    intro key hkey
    obtain ⟨privileges, hkey⟩ := mem_iff_exists_getElem?.1 hkey
    obtain ⟨grants, hgrants, hmem⟩ := mem_defaultGroups.2 ⟨key, privileges, hkey, rfl, rfl, rfl⟩
    obtain ⟨hscope, howner, -, hroles⟩ := hchecked _ _ _ hgrants
    exact ⟨howner, hscope, hroles _ hmem _ rfl⟩
  · intro h d hd
    obtain ⟨hlength, hkeys⟩ := h
    obtain ⟨owner, scope, grants, hgrants, rfl⟩ := mem_exportedDefaults.1 hd
    -- A group has a grantee, whose rule has the owner and the scope of the group.
    obtain ⟨first, hfirst⟩ := List.exists_mem_of_ne_nil grants (groupInto_eq_some hgrants).1
    obtain ⟨key, privileges, hkey, rfl, rfl, -⟩ := hgroup _ _ _ hgrants first hfirst
    obtain ⟨howner, hscope, -⟩ := hkeys key (mem_iff_exists_getElem?.2 ⟨_, hkey⟩)
    refine (hbounds _ _ _ hgrants).2 ⟨hscope, howner, hlength _ _ hgrants, ?_⟩
    intro d hd role hrole
    obtain ⟨held, _, hheld, -, -, rfl⟩ := hgroup _ _ _ hgrants d hd
    obtain rfl : held.grantee.asStr = role := Option.some.inj hrole
    exact (hkeys held (mem_iff_exists_getElem?.2 ⟨_, hheld⟩)).2.2

/-- The declarations of memberships are the different roles with members. -/
theorem exportedMemberships_length :
    (roleGraphToManifest g).memberships.length =
      (g.memberships.toList.map (·.role)).toFinset.card := by
  show (List.map _ _).length = _
  rw [List.length_map, ExtTreeMap.length_toList, memberGroups, size_groupInto, List.map_map]
  rfl

theorem memberGroups_length_le :
    (∀ (role : String) (members : List MemberSpec), (memberGroups g)[role]? = some members →
        members.length ≤ maxMembers) ↔
      ∀ role, (g.memberships.toList.countP fun edge => edge.role = role) ≤ maxMembers := by
  rw [memberGroups, groupInto_length_le]
  refine forall_congr' fun role => ?_
  rw [List.countP_map]
  rfl

/-- The exported memberships pass by their groups and their edges. -/
theorem validateMemberships_export :
    (checkEntries "memberships" (roleGraphToManifest g).memberships.length maxMemberships =
          .ok () ∧
        (roleGraphToManifest g).memberships.forM validateMembershipBounds = .ok ()) ↔
      (g.memberships.toList.map (·.role)).toFinset.card ≤ maxMemberships ∧
        (∀ role, (g.memberships.toList.countP fun edge => edge.role = role) ≤ maxMembers) ∧
        ∀ edge ∈ g.memberships, FitsIdentifier edge.role ∧ FitsIdentifier edge.member := by
  rw [checkEntries_eq_ok, exportedMemberships_length, ← memberGroups_length_le, forM_eq_ok]
  refine and_congr_right fun _ => ?_
  constructor
  · intro h
    have hchecked := fun role members hmembers => validateMembershipBounds_export.1
      (h _ (mem_exportedMemberships.2 ⟨role, members, hmembers, rfl⟩))
    refine ⟨fun role members hmembers => (hchecked role members hmembers).2.1, ?_⟩
    intro edge hedge
    obtain ⟨members, hmembers, hmem⟩ := mem_memberGroups.2 ⟨edge, hedge, rfl, rfl⟩
    obtain ⟨hrole, -, hnames⟩ := hchecked _ _ hmembers
    exact ⟨hrole, hnames _ hmem⟩
  · intro h membership hmembership
    obtain ⟨hlength, hedges⟩ := h
    obtain ⟨role, members, hmembers, rfl⟩ := mem_exportedMemberships.1 hmembership
    obtain ⟨first, hfirst⟩ := List.exists_mem_of_ne_nil members (groupInto_eq_some hmembers).1
    obtain ⟨edge, hedge, rfl, -⟩ := mem_memberGroups.1 ⟨members, hmembers, hfirst⟩
    refine validateMembershipBounds_export.2 ⟨(hedges edge hedge).1, hlength _ _ hmembers, ?_⟩
    intro member hmember
    obtain ⟨edge, hedge, -, rfl⟩ := mem_memberGroups.1 ⟨members, hmembers, hmember⟩
    exact (hedges edge hedge).2

/-- The export is within the bounds on content exactly when the graph is. -/
theorem validateBounds_export :
    validateBounds (roleGraphToManifest g) = .ok () ↔ g.WithinBounds := by
  unfold validateBounds
  simp only [check_bind_eq_ok]
  constructor
  · intro h
    obtain ⟨-, -, hcount, hschemas, -, -, hroleCount, hroles, hgrantCount, hgrants,
      hdefaultCount, hdefaults, hheldCount, hmemberships, -, -⟩ := h
    have hschemas := validateSchemas_export.1 ⟨hcount, hschemas⟩
    have hroles := validateRoles_export.1 ⟨hroleCount, hroles⟩
    have hgrants := validateGrants_export.1 ⟨hgrantCount, hgrants⟩
    have hdefaults := validateDefaults_export.1 ⟨hdefaultCount, hdefaults⟩
    have hmemberships := validateMemberships_export.1 ⟨hheldCount, hmemberships⟩
    exact { schema_count := hschemas.1
            role_count := hroles.1
            grant_count := hgrants.1
            scope_count := hdefaults.1
            scope_grants := hdefaults.2.1
            held_count := hmemberships.1
            member_count := hmemberships.2.1
            schemas := hschemas.2
            roles := hroles.2
            grants := hgrants.2
            defaults := hdefaults.2.2
            memberships := hmemberships.2.2 }
  · intro h
    obtain ⟨hcount, hschemas⟩ := validateSchemas_export.2 ⟨h.schema_count, h.schemas⟩
    obtain ⟨hroleCount, hroles⟩ := validateRoles_export.2 ⟨h.role_count, h.roles⟩
    obtain ⟨hgrantCount, hgrants⟩ := validateGrants_export.2 ⟨h.grant_count, h.grants⟩
    obtain ⟨hdefaultCount, hdefaults⟩ :=
      validateDefaults_export.2 ⟨h.scope_count, h.scope_grants, h.defaults⟩
    obtain ⟨hheldCount, hmemberships⟩ :=
      validateMemberships_export.2 ⟨h.held_count, h.member_count, h.memberships⟩
    exact ⟨rfl, rfl, hcount, hschemas, rfl, rfl, hroleCount, hroles, hgrantCount, hgrants,
      hdefaultCount, hdefaults, hheldCount, hmemberships, rfl, rfl⟩

end Export

end PgRoles.Core

import PgRoles.Core.ExpandSpec

/-!
# The keys an accepted manifest declares

Which roles, grant targets, default-privilege rules and memberships the desired graph of a manifest
has, in terms of the manifest itself: what it declares at the top level, and what its bindings
give by way of their profiles.
-/

set_option autoImplicit false

namespace PgRoles.Core

open Std PgRoles.Lib

/-! ## Profiles -/

/-- The name of the role that a profile bound to a schema gives. -/
def profileRoleName (m : PolicyManifest) (binding : SchemaBinding) (profileName : String) :
    String :=
  substitutePlaceholders (bindingPattern m binding) binding.name profileName

/-- The target of a profile's grant. -/
def profileGrantKey (m : PolicyManifest) (binding : SchemaBinding) (profileName : String)
    (grant : ProfileGrant) : GrantKey :=
  grantKeyFromManifest ⟨profileRoleName m binding profileName, grant.privileges,
    profileTarget binding grant.object, .present⟩

/-- The owner that the default privileges of a binding are keyed by. -/
def bindingOwner (m : PolicyManifest) (binding : SchemaBinding) : String :=
  (binding.owner.or m.defaultOwner).getD "postgres"

/-- The rule of a profile's default privilege. -/
def profileDefaultKey (m : PolicyManifest) (binding : SchemaBinding) (profileName : String)
    (grant : DefaultPrivilegeGrant) : DefaultPrivKey :=
  ⟨bindingOwner m binding, .schema binding.name, grant.onType,
    .parse (profileRoleName m binding profileName)⟩

/-- A profile that the manifest binds to a schema. -/
structure BoundProfile (m : PolicyManifest) (binding : SchemaBinding) (profileName : String)
    (profile : Profile) : Prop where
  binding_mem : binding ∈ m.schemas
  profile_mem : profileName ∈ binding.profiles
  profile_eq : m.profiles[profileName]? = some profile

/-- The rules a declaration is about. -/
def DefaultKeyOf (defaultOwner : Option String) (d : DefaultPrivilege) (k : DefaultPrivKey) :
    Prop :=
  ∃ grant ∈ d.grant, ∃ role, grant.role = some role ∧ ∃ scope, d.resolvedScope = .ok scope ∧
    k = ⟨defaultPrivilegeOwner defaultOwner d, scope, grant.onType, .parse role⟩

section Expansions

variable {m : PolicyManifest} {expansions : List ProfileExpansion}

theorem mem_expansions (h : expandBindings m = .ok expansions) {x : ProfileExpansion} :
    x ∈ expansions ↔ ∃ b ∈ m.schemas, ∃ name ∈ b.profiles, expandProfile m b name = .ok x := by
  obtain ⟨lists, hlists, heq⟩ := bind_eq_ok.1 h
  rw [← Except.ok.inj heq, List.mem_flatten]
  constructor
  · intro hx
    obtain ⟨l, hl, hxl⟩ := hx
    obtain ⟨b, hb, hbl⟩ := exists_of_mem_mapM hlists hl
    obtain ⟨name, hname, hx⟩ := exists_of_mem_mapM hbl hxl
    exact ⟨b, hb, name, hname, hx⟩
  · intro hx
    obtain ⟨b, hb, name, hname, hx⟩ := hx
    obtain ⟨l, hl, hbl⟩ := exists_of_mem_of_mapM hlists hb
    obtain ⟨x', hx', hexpand⟩ := exists_of_mem_of_mapM hbl hname
    rw [hx] at hexpand
    rw [Except.ok.inj hexpand]
    exact ⟨l, hl, hx'⟩

/-- What a bound profile expands to. -/
structure ExpandsTo (m : PolicyManifest) (binding : SchemaBinding) (profileName : String)
    (profile : Profile) (x : ProfileExpansion) : Prop where
  role : x.role.name = profileRoleName m binding profileName
  grants : ∀ k, (∃ grant ∈ x.grants, grantKeyFromManifest grant = k) ↔
    ∃ grant ∈ profile.grants, profileGrantKey m binding profileName grant = k
  defaults : ∀ k, (∃ d ∈ x.defaultPrivileges, DefaultKeyOf m.defaultOwner d k) ↔
    ∃ grant ∈ profile.defaultPrivileges, profileDefaultKey m binding profileName grant = k

theorem expandProfileGrants_keys {binding : SchemaBinding} {profileName : String}
    {grants : List ProfileGrant} {grants' : List Grant}
    (h : grants.mapM (expandProfileGrant (profileRoleName m binding profileName) profileName
      binding) = .ok grants') (k : GrantKey) :
    (∃ grant ∈ grants', grantKeyFromManifest grant = k) ↔
      ∃ grant ∈ grants, profileGrantKey m binding profileName grant = k := by
  constructor
  · intro hk
    obtain ⟨grant', hgrant', rfl⟩ := hk
    obtain ⟨grant, hgrant, hexpand⟩ := exists_of_mem_mapM h hgrant'
    obtain ⟨-, hexpand⟩ := check_bind_eq_ok.1 hexpand
    rw [← Except.ok.inj hexpand]
    exact ⟨grant, hgrant, rfl⟩
  · intro hk
    obtain ⟨grant, hgrant, rfl⟩ := hk
    obtain ⟨grant', hgrant', hexpand⟩ := exists_of_mem_of_mapM h hgrant
    obtain ⟨-, hexpand⟩ := check_bind_eq_ok.1 hexpand
    rw [← Except.ok.inj hexpand] at hgrant'
    exact ⟨_, hgrant', rfl⟩

theorem profileDefaults_keys {binding : SchemaBinding} {profileName : String} {profile : Profile}
    {defaults : List DefaultPrivilege}
    (h : profileDefaultPrivileges m binding (profileRoleName m binding profileName) profileName
      profile = .ok defaults) (k : DefaultPrivKey) :
    (∃ d ∈ defaults, DefaultKeyOf m.defaultOwner d k) ↔
      ∃ grant ∈ profile.defaultPrivileges, profileDefaultKey m binding profileName grant = k := by
  unfold profileDefaultPrivileges at h
  by_cases hempty : profile.defaultPrivileges.isEmpty = true
  · rw [if_pos hempty] at h
    rw [← Except.ok.inj h, List.isEmpty_iff.1 hempty]
    simp
  · rw [if_neg hempty] at h
    obtain ⟨grants, hgrants, h⟩ := bind_eq_ok.1 h
    rw [← Except.ok.inj h]
    have hor : (binding.owner.or m.defaultOwner).or m.defaultOwner =
        binding.owner.or m.defaultOwner := by
      cases binding.owner with
      | some o => rfl
      | none => cases m.defaultOwner with
        | some o => rfl
        | none => rfl
    have howner : defaultPrivilegeOwner m.defaultOwner
        ⟨binding.owner.or m.defaultOwner, some binding.name, none, grants⟩ =
          bindingOwner m binding := congrArg (fun o => o.getD "postgres") hor
    constructor
    · intro hk
      obtain ⟨d, hd, grant', hgrant', role, hrole, scope, hscope, rfl⟩ := hk
      rw [List.mem_singleton] at hd
      subst hd
      obtain ⟨grant, hgrant, hexpand⟩ := exists_of_mem_mapM hgrants hgrant'
      obtain ⟨-, hexpand⟩ := check_bind_eq_ok.1 hexpand
      refine ⟨grant, hgrant, ?_⟩
      rw [howner, ← Except.ok.inj hscope]
      rw [← Except.ok.inj hexpand] at hrole ⊢
      rw [← Option.some.inj hrole]
      rfl
    · intro hk
      obtain ⟨grant, hgrant, rfl⟩ := hk
      obtain ⟨grant', hgrant', hexpand⟩ := exists_of_mem_of_mapM hgrants hgrant
      obtain ⟨-, hexpand⟩ := check_bind_eq_ok.1 hexpand
      rw [← Except.ok.inj hexpand] at hgrant'
      refine ⟨_, List.mem_singleton.2 rfl, _, hgrant', _, rfl, _, rfl, ?_⟩
      rw [howner]
      rfl

theorem of_expandProfile_eq_ok {binding : SchemaBinding} {profileName : String}
    {x : ProfileExpansion} (h : expandProfile m binding profileName = .ok x) :
    ∃ profile, m.profiles[profileName]? = some profile ∧
      ExpandsTo m binding profileName profile x := by
  unfold expandProfile at h
  cases hprofile : m.profiles[profileName]? with
  | none =>
      rw [hprofile] at h
      cases h
  | some profile =>
      rw [hprofile] at h
      obtain ⟨-, h⟩ := check_bind_eq_ok.1 h
      obtain ⟨grants, hgrants, h⟩ := bind_eq_ok.1 h
      obtain ⟨defaults, hdefaults, h⟩ := bind_eq_ok.1 h
      rw [← Except.ok.inj h]
      exact ⟨profile, rfl, rfl, expandProfileGrants_keys hgrants, profileDefaults_keys hdefaults⟩

/-- Every bound profile has its expansion. -/
theorem exists_expansion (h : expandBindings m = .ok expansions) {b : SchemaBinding}
    {name : String} {profile : Profile} (hbound : BoundProfile m b name profile) :
    ∃ x ∈ expansions, ExpandsTo m b name profile x := by
  obtain ⟨lists, hlists, heq⟩ := bind_eq_ok.1 h
  obtain ⟨l, hl, hbl⟩ := exists_of_mem_of_mapM hlists hbound.binding_mem
  obtain ⟨x, hx, hexpand⟩ := exists_of_mem_of_mapM hbl hbound.profile_mem
  obtain ⟨profile', hprofile', hspec⟩ := of_expandProfile_eq_ok hexpand
  rw [hbound.profile_eq] at hprofile'
  rw [Option.some.inj hprofile']
  refine ⟨x, ?_, hspec⟩
  rw [← Except.ok.inj heq]
  exact List.mem_flatten.2 ⟨l, hl, hx⟩

/-- Every expansion is of a bound profile. -/
theorem exists_bound (h : expandBindings m = .ok expansions) {x : ProfileExpansion}
    (hx : x ∈ expansions) :
    ∃ b name profile, BoundProfile m b name profile ∧ ExpandsTo m b name profile x := by
  obtain ⟨b, hb, name, hname, hexpand⟩ := (mem_expansions h).1 hx
  obtain ⟨profile, hprofile, hspec⟩ := of_expandProfile_eq_ok hexpand
  exact ⟨b, name, profile, ⟨hb, hname, hprofile⟩, hspec⟩

end Expansions

/-! ## Keys of the desired graph -/

section Keys

variable {m : PolicyManifest} {e : ExpandedManifest} {g : RoleGraph}
  (h : expandManifest m = .ok e) (hgraph : RoleGraph.fromExpanded e m.defaultOwner = .ok g)

include h in
/-- The declared roles are the definitions and what the bindings give. -/
theorem mem_names_iff {name : String} :
    name ∈ e.roles.map (·.name) ↔ (∃ d ∈ m.roles, d.name = name) ∨
      ∃ b profileName profile, BoundProfile m b profileName profile ∧
        profileRoleName m b profileName = name := by
  obtain ⟨expansions, -, -, -, -, hexpansions, -, -, rfl⟩ := of_expandManifest_eq_ok h
  rw [List.mem_map]
  constructor
  · intro hname
    obtain ⟨d, hd, rfl⟩ := hname
    rcases List.mem_append.1 hd with hd | hd
    · obtain ⟨x, hx, rfl⟩ := List.mem_map.1 hd
      obtain ⟨b, profileName, profile, hbound, hspec⟩ := exists_bound hexpansions hx
      exact Or.inr ⟨b, profileName, profile, hbound, hspec.role.symm⟩
    · exact Or.inl ⟨d, hd, rfl⟩
  · intro hname
    rcases hname with ⟨d, hd, rfl⟩ | ⟨b, profileName, profile, hbound, rfl⟩
    · exact ⟨d, List.mem_append_right _ hd, rfl⟩
    · obtain ⟨x, hx, hspec⟩ := exists_expansion hexpansions hbound
      exact ⟨x.role, List.mem_append_left _ (List.mem_map.2 ⟨x, hx, rfl⟩), hspec.role⟩

theorem mem_roles_iff {defaultOwner : Option String}
    (hgraph : RoleGraph.fromExpanded e defaultOwner = .ok g) {name : String} :
    name ∈ g.roles ↔ name ∈ e.roles.map (·.name) := by
  constructor
  · intro hmem
    obtain ⟨entries, -, rfl⟩ := of_fromExpanded_eq_ok hgraph
    obtain ⟨s, hs⟩ := mem_iff_exists_getElem?.1 hmem
    obtain ⟨d, hd, heq⟩ := List.mem_map.1 (mem_of_getElem?_ofList hs)
    exact List.mem_map.2 ⟨d, hd, (Prod.mk.inj heq).1⟩
  · intro hmem
    obtain ⟨d, hd, rfl⟩ := List.mem_map.1 hmem
    exact mem_roles_of_declared hgraph hd

theorem mem_grants_or_absences {defaultOwner : Option String}
    (hgraph : RoleGraph.fromExpanded e defaultOwner = .ok g) {k : GrantKey} :
    k ∈ g.grants ∨ k ∈ g.grantAbsences ↔ ∃ grant ∈ e.grants, grantKeyFromManifest grant = k := by
  obtain ⟨entries, -, rfl⟩ := of_fromExpanded_eq_ok hgraph
  have hkey : ∀ ensure, k ∈ extendEntries ∅ (grantEntries ensure e.grants) ↔
      ∃ grant ∈ e.grants, grant.ensure = ensure ∧ grantKeyFromManifest grant = k := by
    intro ensure
    rw [ExtTreeMap.mem_iff_isSome_getElem?, isSome_extendEntries]
    constructor
    · intro hmem
      rcases hmem with hmem | ⟨s, hs⟩
      · simp at hmem
      · obtain ⟨grant, hgrant, heq⟩ := List.mem_map.1 hs
        obtain ⟨hgrant, hensure⟩ := List.mem_filter.1 hgrant
        exact ⟨grant, hgrant, by simpa using hensure, (Prod.mk.inj heq).1⟩
    · intro hmem
      obtain ⟨grant, hgrant, hensure, rfl⟩ := hmem
      exact Or.inr ⟨_, List.mem_map.2
        ⟨grant, List.mem_filter.2 ⟨hgrant, by simpa using hensure⟩, rfl⟩⟩
  rw [hkey, hkey]
  constructor
  · intro hmem
    rcases hmem with ⟨grant, hgrant, -, heq⟩ | ⟨grant, hgrant, -, heq⟩
    · exact ⟨grant, hgrant, heq⟩
    · exact ⟨grant, hgrant, heq⟩
  · intro hmem
    obtain ⟨grant, hgrant, heq⟩ := hmem
    cases hensure : grant.ensure with
    | present => exact Or.inl ⟨grant, hgrant, hensure, heq⟩
    | absent => exact Or.inr ⟨grant, hgrant, hensure, heq⟩

include h hgraph in
/-- The grant targets are those of the declared grants and of the bound profiles. -/
theorem mem_grant_keys_iff {k : GrantKey} :
    k ∈ g.grants ∨ k ∈ g.grantAbsences ↔ (∃ grant ∈ m.grants, grantKeyFromManifest grant = k) ∨
      ∃ b profileName profile, BoundProfile m b profileName profile ∧
        ∃ grant ∈ profile.grants, profileGrantKey m b profileName grant = k := by
  obtain ⟨expansions, -, -, -, -, hexpansions, -, -, rfl⟩ := of_expandManifest_eq_ok h
  rw [mem_grants_or_absences hgraph]
  constructor
  · intro hk
    obtain ⟨grant, hgrant, hkey⟩ := hk
    rcases List.mem_append.1 hgrant with hgrant | hgrant
    · obtain ⟨x, hx, hgrant⟩ := List.mem_flatMap.1 hgrant
      obtain ⟨b, profileName, profile, hbound, hspec⟩ := exists_bound hexpansions hx
      exact Or.inr ⟨b, profileName, profile, hbound, (hspec.grants k).1 ⟨grant, hgrant, hkey⟩⟩
    · exact Or.inl ⟨grant, hgrant, hkey⟩
  · intro hk
    rcases hk with ⟨grant, hgrant, hkey⟩ | ⟨b, profileName, profile, hbound, hkey⟩
    · exact ⟨grant, List.mem_append_right _ hgrant, hkey⟩
    · obtain ⟨x, hx, hspec⟩ := exists_expansion hexpansions hbound
      obtain ⟨grant, hgrant, hkey⟩ := (hspec.grants k).2 hkey
      exact ⟨grant, List.mem_append_left _ (List.mem_flatMap.2 ⟨x, hx, hgrant⟩), hkey⟩

/-- The entries of one declaration have the keys it is about. -/
theorem mem_defaultPrivilegeEntries {defaultOwner : Option String} {d : DefaultPrivilege}
    {entries : List DefaultPrivilegeEntry}
    (hentries : defaultPrivilegeEntries defaultOwner d = .ok entries) {k : DefaultPrivKey} :
    (∃ entry ∈ entries, entry.key = k) ↔ DefaultKeyOf defaultOwner d k := by
  obtain ⟨scope, hscope, hentries⟩ := bind_eq_ok.1 hentries
  constructor
  · intro hk
    obtain ⟨entry, hentry, rfl⟩ := hk
    obtain ⟨grant, hgrant, hok⟩ := exists_of_mem_mapM hentries hentry
    cases hrole : grant.role with
    | none =>
        simp only [hrole] at hok
        cases hok
    | some role =>
        simp only [hrole] at hok
        rw [← Except.ok.inj hok]
        exact ⟨grant, hgrant, role, hrole, scope, hscope, rfl⟩
  · intro hk
    obtain ⟨grant, hgrant, role, hrole, scope', hscope', rfl⟩ := hk
    rw [hscope] at hscope'
    obtain ⟨entry, hentry, hok⟩ := exists_of_mem_of_mapM hentries hgrant
    simp only [hrole] at hok
    refine ⟨entry, hentry, ?_⟩
    rw [← Except.ok.inj hok, ← Except.ok.inj hscope']

theorem mem_defaults_or_absences {defaultOwner : Option String}
    (hgraph : RoleGraph.fromExpanded e defaultOwner = .ok g) {k : DefaultPrivKey} :
    k ∈ g.defaultPrivileges ∨ k ∈ g.defaultPrivilegeAbsences ↔
      ∃ d ∈ e.defaultPrivileges, DefaultKeyOf defaultOwner d k := by
  obtain ⟨entries, hentries, rfl⟩ := of_fromExpanded_eq_ok hgraph
  have hkey : ∀ ensure, k ∈ extendEntries ∅ (entriesWith ensure entries.flatten) ↔
      ∃ entry ∈ entries.flatten, entry.ensure = ensure ∧ entry.key = k := by
    intro ensure
    rw [ExtTreeMap.mem_iff_isSome_getElem?, isSome_extendEntries]
    constructor
    · intro hmem
      rcases hmem with hmem | ⟨s, hs⟩
      · simp at hmem
      · obtain ⟨entry, hentry, heq⟩ := List.mem_map.1 hs
        obtain ⟨hentry, hensure⟩ := List.mem_filter.1 hentry
        exact ⟨entry, hentry, by simpa using hensure, (Prod.mk.inj heq).1⟩
    · intro hmem
      obtain ⟨entry, hentry, hensure, rfl⟩ := hmem
      exact Or.inr ⟨_, List.mem_map.2
        ⟨entry, List.mem_filter.2 ⟨hentry, by simpa using hensure⟩, rfl⟩⟩
  rw [hkey, hkey]
  constructor
  · intro hmem
    have hentry : ∃ entry ∈ entries.flatten, entry.key = k := by
      rcases hmem with ⟨entry, hentry, -, heq⟩ | ⟨entry, hentry, -, heq⟩
      · exact ⟨entry, hentry, heq⟩
      · exact ⟨entry, hentry, heq⟩
    obtain ⟨entry, hentry, heq⟩ := hentry
    obtain ⟨l, hl, hentry⟩ := List.mem_flatten.1 hentry
    obtain ⟨d, hd, hok⟩ := exists_of_mem_mapM hentries hl
    exact ⟨d, hd, (mem_defaultPrivilegeEntries hok).1 ⟨entry, hentry, heq⟩⟩
  · intro hmem
    obtain ⟨d, hd, hk⟩ := hmem
    obtain ⟨l, hl, hok⟩ := exists_of_mem_of_mapM hentries hd
    obtain ⟨entry, hentry, heq⟩ := (mem_defaultPrivilegeEntries hok).2 hk
    have hmem := List.mem_flatten.2 ⟨l, hl, hentry⟩
    cases hensure : entry.ensure with
    | present => exact Or.inl ⟨entry, hmem, hensure, heq⟩
    | absent => exact Or.inr ⟨entry, hmem, hensure, heq⟩

/-- The default owner that expansion fills in is the one the key falls back to. -/
theorem defaultKeyOf_filled {defaultOwner : Option String} {d : DefaultPrivilege}
    {k : DefaultPrivKey} :
    DefaultKeyOf defaultOwner { d with owner := d.owner.or defaultOwner } k ↔
      DefaultKeyOf defaultOwner d k := by
  have howner : defaultPrivilegeOwner defaultOwner { d with owner := d.owner.or defaultOwner } =
      defaultPrivilegeOwner defaultOwner d := by
    unfold defaultPrivilegeOwner
    cases d.owner with
    | some o => rfl
    | none => cases defaultOwner with
      | some o => rfl
      | none => rfl
  -- The scope reads the owner only for its errors.
  have hscope : ∀ scope, DefaultPrivilege.resolvedScope
      { d with owner := d.owner.or defaultOwner } = .ok scope ↔ d.resolvedScope = .ok scope := by
    intro scope
    obtain ⟨owner, schema, scopeSpec, grant⟩ := d
    unfold DefaultPrivilege.resolvedScope
    cases schema with
    | some schema =>
        cases scopeSpec with
        | some spec => simp
        | none => rfl
    | none =>
        cases scopeSpec with
        | none => simp
        | some spec =>
            obtain ⟨scopeType, schema⟩ := spec
            cases scopeType <;> cases schema <;> rfl
  unfold DefaultKeyOf
  simp only [howner, hscope]

include h hgraph in
/-- The default-privilege rules are those of the declarations and of the bound profiles. -/
theorem mem_default_keys_iff {k : DefaultPrivKey} :
    k ∈ g.defaultPrivileges ∨ k ∈ g.defaultPrivilegeAbsences ↔
      (∃ d ∈ m.defaultPrivileges, DefaultKeyOf m.defaultOwner d k) ∨
      ∃ b profileName profile, BoundProfile m b profileName profile ∧
        ∃ grant ∈ profile.defaultPrivileges, profileDefaultKey m b profileName grant = k := by
  obtain ⟨expansions, -, -, -, -, hexpansions, -, -, rfl⟩ := of_expandManifest_eq_ok h
  rw [mem_defaults_or_absences hgraph]
  constructor
  · intro hk
    obtain ⟨d, hd, hkey⟩ := hk
    obtain ⟨declared, hdeclared, rfl⟩ := List.mem_map.1 hd
    rw [defaultKeyOf_filled] at hkey
    rcases List.mem_append.1 hdeclared with hx | htop
    · obtain ⟨x, hx, hgiven⟩ := List.mem_flatMap.1 hx
      obtain ⟨b, profileName, profile, hbound, hspec⟩ := exists_bound hexpansions hx
      exact Or.inr ⟨b, profileName, profile, hbound,
        (hspec.defaults k).1 ⟨declared, hgiven, hkey⟩⟩
    · exact Or.inl ⟨declared, htop, hkey⟩
  · intro hk
    rcases hk with ⟨d, hd, hkey⟩ | ⟨b, profileName, profile, hbound, hkey⟩
    · exact ⟨_, List.mem_map.2 ⟨d, List.mem_append_right _ hd, rfl⟩, defaultKeyOf_filled.2 hkey⟩
    · obtain ⟨x, hx, hspec⟩ := exists_expansion hexpansions hbound
      obtain ⟨d, hd, hkey⟩ := (hspec.defaults k).2 hkey
      exact ⟨_, List.mem_map.2 ⟨d, List.mem_append_left _ (List.mem_flatMap.2 ⟨x, hx, hd⟩), rfl⟩,
        defaultKeyOf_filled.2 hkey⟩

end Keys

/-! ## Memberships -/

theorem mem_memberships_iff {e : ExpandedManifest} {g : RoleGraph} {defaultOwner : Option String}
    (hgraph : RoleGraph.fromExpanded e defaultOwner = .ok g) {edge : MembershipEdge} :
    edge ∈ g.memberships ↔ edge ∈ membershipEdges e.memberships := by
  obtain ⟨entries, -, rfl⟩ := of_fromExpanded_eq_ok hgraph
  rw [ExtTreeSet.mem_ofList, List.contains_iff_mem]

theorem memberships_of_expandManifest {m : PolicyManifest} {e : ExpandedManifest}
    (h : expandManifest m = .ok e) : e.memberships = m.memberships := by
  obtain ⟨expansions, -, -, -, -, -, -, -, rfl⟩ := of_expandManifest_eq_ok h
  rfl

end PgRoles.Core

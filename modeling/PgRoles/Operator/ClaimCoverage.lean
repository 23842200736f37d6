import PgRoles.Sql.Target
import PgRoles.Core.Attribution
import PgRoles.Operator.OwnershipClaims

/-!
# What the claims of a policy cover

Two policies that manage something in common are to have overlapping claims. The claims are read off
the spec, what a policy manages is in the graph of its expansion, and the two differ where the graph
falls back: a rule for PUBLIC on an object without a schema is about the schema `public`, and a
global default privilege for PUBLIC without an owner is about `postgres`, while neither claims
anything. Everything else is claimed (`claims_cover_iff`).
-/

set_option autoImplicit false

namespace PgRoles.Operator

open Std PgRoles.Lib PgRoles.Core PgRoles.Sql

/-! ## What two graphs have in common -/

/-- The target is present or absent in the graph. -/
def rulesGrant (g : RoleGraph) (k : GrantKey) : Prop := k ∈ g.grants ∨ k ∈ g.grantAbsences

/-- The default-privilege rule is present or absent in the graph. -/
def rulesDefault (g : RoleGraph) (k : DefaultPrivKey) : Prop :=
  k ∈ g.defaultPrivileges ∨ k ∈ g.defaultPrivilegeAbsences

/-- The two targets are one grantee and one text. -/
def SameTarget (k k' : GrantKey) : Prop :=
  k.role = k'.role ∧ formatObjectTarget k.objectType k.schema k.name =
    formatObjectTarget k'.objectType k'.schema k'.name

/-- The two graphs manage something in common. -/
inductive InCommon (g g' : RoleGraph) : Prop
  | role (name : String) (h : name ∈ g.roles) (h' : name ∈ g'.roles)
  | schema (name : String) (h : name ∈ g.schemas) (h' : name ∈ g'.schemas)
  | grant (k k' : GrantKey) (h : rulesGrant g k) (h' : rulesGrant g' k') (hsame : SameTarget k k')
  | defaultPrivilege (k : DefaultPrivKey) (h : rulesDefault g k) (h' : rulesDefault g' k)
  | membership (edge edge' : MembershipEdge) (h : edge ∈ g.memberships)
      (h' : edge' ∈ g'.memberships) (hpair : edge.pair = edge'.pair)

/-! ## Rules that fall back -/

/-- A rule for PUBLIC on an object, or all objects, of the schema that is left out. -/
def LeavesOutSchema (grant : Grant) : Prop :=
  grant.role = publicRoleName ∧ grant.object.objectType ≠ .database ∧ claimedSchema grant = none

/-- A global default privilege whose owner is left out. -/
def LeavesOutOwner (m : PolicyManifest) (d : DefaultPrivilege) : Prop :=
  d.resolvedScope = .ok .global ∧ d.owner.or m.defaultOwner = none

/-- A rule for PUBLIC that both manifests declare rests on a fallback in one of them. -/
inductive FallbackInCommon (m m' : PolicyManifest) : Prop
  | grant (grant grant' : Grant) (h : grant ∈ m.grants) (h' : grant' ∈ m'.grants)
      (hsame : SameTarget (grantKeyFromManifest grant) (grantKeyFromManifest grant'))
      (hfallback : LeavesOutSchema grant ∨ LeavesOutSchema grant')
  | defaultPrivilege (d d' : DefaultPrivilege) (k : DefaultPrivKey) (h : d ∈ m.defaultPrivileges)
      (h' : d' ∈ m'.defaultPrivileges) (hkey : DefaultKeyOf m.defaultOwner d k)
      (hkey' : DefaultKeyOf m'.defaultOwner d' k) (hpublic : k.grantee = .publicRole)
      (hfallback : LeavesOutOwner m d ∨ LeavesOutOwner m' d')

/-- The manifests name a common role, schema or database with PUBLIC rules, in whatever place. -/
def NamesInCommon (m m' : PolicyManifest) (e e' : ExpandedManifest) : Prop :=
  (∃ name, name ∈ e.roles.map (·.name) ++ mentionedRoles m ∧
      name ∈ e'.roles.map (·.name) ++ mentionedRoles m') ∨
    (∃ name, name ∈ mentionedSchemas m ∧ name ∈ mentionedSchemas m') ∨
    ∃ name, name ∈ mentionedPublicDatabases m ∧ name ∈ mentionedPublicDatabases m'

theorem overlaps_iff_namesInCommon {spec spec' : PostgresPolicySpec}
    {claims claims' : OwnershipClaims} {e e' : ExpandedManifest}
    (h : spec.ownershipClaims = .ok claims) (h' : spec'.ownershipClaims = .ok claims')
    (he : expandManifest spec.toPolicyManifest = .ok e)
    (he' : expandManifest spec'.toPolicyManifest = .ok e') :
    claims.overlaps claims' = true ↔
      NamesInCommon spec.toPolicyManifest spec'.toPolicyManifest e e' := by
  obtain ⟨expanded, hexpanded, h⟩ := bind_eq_ok.1 h
  obtain ⟨expanded', hexpanded', h'⟩ := bind_eq_ok.1 h'
  obtain rfl : expanded = e := Except.ok.inj (hexpanded.symm.trans he)
  obtain rfl : expanded' = e' := Except.ok.inj (hexpanded'.symm.trans he')
  rw [← Except.ok.inj h, ← Except.ok.inj h', OwnershipClaims.overlaps_iff]
  simp only [mem_ofList_names]
  rfl

/-! ## Rules of an accepted manifest -/

section Accepted

variable {m : PolicyManifest} {e : ExpandedManifest} {g : RoleGraph}
  (h : expandManifest m = .ok e) (hgraph : RoleGraph.fromExpanded e m.defaultOwner = .ok g)

theorem ne_public_of_parse {s name : String} (h : Grantee.parse s = .role name) :
    s = name ∧ s ≠ publicRoleName := by
  unfold Grantee.parse at h
  split at h
  · cases h
  · next hne => exact ⟨Grantee.role.inj h, hne⟩

include h in
/-- No role is called PUBLIC. -/
theorem name_ne_public {name : String} (hname : name ∈ e.roles.map (·.name)) :
    name ≠ publicRoleName := by
  have hpublic := (expandedChecks_of_expandManifest h).public_reservation
  obtain ⟨-, hpublic⟩ := check_bind_eq_ok.1 hpublic
  obtain ⟨hroles, -⟩ := check_bind_eq_ok.1 hpublic
  obtain ⟨role, hrole, rfl⟩ := List.mem_map.1 hname
  have hreserved := forM_eq_ok.1 hroles role hrole
  unfold rejectReserved at hreserved
  rw [rejectIf_eq_ok] at hreserved
  simpa using hreserved

include h in
theorem profileRoleName_mem {b : SchemaBinding} {profileName : String} {profile : Profile}
    (hbound : BoundProfile m b profileName profile) :
    profileRoleName m b profileName ∈ e.roles.map (·.name) :=
  (mem_names_iff h).2 (Or.inr ⟨b, profileName, profile, hbound, rfl⟩)

include h hgraph in
/-- The grantee of a rule is a claimed role, or the rule is a declared one for PUBLIC. -/
theorem grantee_claimed {k : GrantKey} (hk : rulesGrant g k) :
    (∃ name, k.role = .role name ∧ name ∈ e.roles.map (·.name) ++ mentionedRoles m) ∨
      ∃ grant ∈ m.grants, grantKeyFromManifest grant = k ∧ grant.role = publicRoleName := by
  rcases (mem_grant_keys_iff h hgraph).1 hk with ⟨grant, hgrant, rfl⟩ |
    ⟨b, profileName, profile, hbound, grant, -, rfl⟩
  · by_cases hpublic : grant.role = publicRoleName
    · exact Or.inr ⟨grant, hgrant, rfl, hpublic⟩
    · refine Or.inl ⟨grant.role, ?_, List.mem_append_right _ ?_⟩
      · unfold grantKeyFromManifest Grantee.parse
        rw [if_neg hpublic]
      · have hrole : grant.role ∈ (m.grants.map (·.role)).filter (· != publicRoleName) :=
          List.mem_filter.2 ⟨List.mem_map.2 ⟨grant, hgrant, rfl⟩, by simpa using hpublic⟩
        unfold mentionedRoles
        simp only [List.mem_append]
        tauto
  · have hname := profileRoleName_mem h hbound
    refine Or.inl ⟨profileRoleName m b profileName, ?_, List.mem_append_left _ hname⟩
    unfold profileGrantKey grantKeyFromManifest Grantee.parse
    rw [if_neg (name_ne_public h hname)]

include h hgraph in
/-- The grantee of a default-privilege rule is a claimed role, or the rule is a declared one for
PUBLIC. -/
theorem defaultGrantee_claimed {k : DefaultPrivKey} (hk : rulesDefault g k) :
    (∃ name, k.grantee = .role name ∧ name ∈ e.roles.map (·.name) ++ mentionedRoles m) ∨
      ∃ d ∈ m.defaultPrivileges, DefaultKeyOf m.defaultOwner d k ∧ k.grantee = .publicRole := by
  rcases (mem_default_keys_iff h hgraph).1 hk with ⟨d, hd, hkey⟩ |
    ⟨b, profileName, profile, hbound, grant, -, rfl⟩
  · cases hgrantee : k.grantee with
    | publicRole => exact Or.inr ⟨d, hd, hkey, rfl⟩
    | role name =>
        obtain ⟨grant, hgrant, role, hrole, scope, -, rfl⟩ := hkey
        obtain ⟨rfl, hpublic⟩ := ne_public_of_parse hgrantee
        refine Or.inl ⟨role, rfl, List.mem_append_right _ ?_⟩
        have hmem : role ∈ (m.defaultPrivileges.flatMap fun d => d.grant.filterMap (·.role)).filter
            (· != publicRoleName) := by
          refine List.mem_filter.2 ⟨List.mem_flatMap.2 ⟨d, hd, ?_⟩, by simpa using hpublic⟩
          exact List.mem_filterMap.2 ⟨grant, hgrant, hrole⟩
        unfold mentionedRoles
        simp only [List.mem_append]
        tauto
  · have hname := profileRoleName_mem h hbound
    refine Or.inl ⟨profileRoleName m b profileName, ?_, List.mem_append_left _ hname⟩
    unfold profileDefaultKey Grantee.parse
    simp only [if_neg (name_ne_public h hname)]

include h in
/-- A rule on a database names it. -/
theorem database_name {grant : Grant} (hgrant : grant ∈ m.grants)
    (htype : grant.object.objectType = .database) : ∃ name, grant.object.name = some name := by
  have hdatabases := (expandedChecks_of_expandManifest h).database_targets
  obtain ⟨expansions, -, -, -, -, -, -, -, rfl⟩ := of_expandManifest_eq_ok h
  unfold validateDatabaseGrantTargets at hdatabases
  rw [rejectIf_eq_ok, List.any_eq_false] at hdatabases
  have hnamed := hdatabases grant (List.mem_append_right _ hgrant)
  cases hname : grant.object.name with
  | none =>
      rw [htype, hname] at hnamed
      exact absurd rfl hnamed
  | some name => exact ⟨name, rfl⟩

end Accepted

/-! ## Coverage -/

section Coverage

variable {m m' : PolicyManifest} {e e' : ExpandedManifest} {g g' : RoleGraph}
  (he : expandManifest m = .ok e) (he' : expandManifest m' = .ok e')
  (hg : RoleGraph.fromExpanded e m.defaultOwner = .ok g)
  (hg' : RoleGraph.fromExpanded e' m'.defaultOwner = .ok g')

/-- A rule that names its schema claims it, and the text of the rule names it. -/
theorem container_of_claimedSchema {grant : Grant} {schema : String}
    (h : claimedSchema grant = some schema) :
    targetContainer grant.object.objectType grant.object.schema grant.object.name = schema := by
  unfold claimedSchema at h
  unfold targetContainer
  split at h
  · cases h
  · next htype => rw [htype, h]; rfl
  · next hdatabase hschema =>
      split
      · next htype => exact absurd htype hschema
      · next htype => exact absurd htype hdatabase
      · rw [h]
        rfl

include he he' in
/-- Declared rules for PUBLIC with one text claim one schema or database, unless one falls back. -/
theorem namesInCommon_of_public {grant grant' : Grant} (hgrant : grant ∈ m.grants)
    (hgrant' : grant' ∈ m'.grants) (hpublic : grant.role = publicRoleName)
    (hpublic' : grant'.role = publicRoleName)
    (hsame : SameTarget (grantKeyFromManifest grant) (grantKeyFromManifest grant'))
    (hfallback : ¬ FallbackInCommon m m') : NamesInCommon m m' e e' := by
  obtain ⟨hkind, hcontainer⟩ := formatObjectTarget_inj hsame.2
  change (grant.object.objectType = .database ↔ grant'.object.objectType = .database) at hkind
  change targetContainer grant.object.objectType grant.object.schema grant.object.name =
    targetContainer grant'.object.objectType grant'.object.schema grant'.object.name at hcontainer
  by_cases htype : grant.object.objectType = .database
  · have htype' := hkind.1 htype
    obtain ⟨name, hname⟩ := database_name he hgrant htype
    obtain ⟨name', hname'⟩ := database_name he' hgrant' htype'
    rw [htype, htype', hname, hname'] at hcontainer
    obtain rfl : name = name' := hcontainer
    have hmem : ∀ {m : PolicyManifest} {grant : Grant}, grant ∈ m.grants →
        grant.role = publicRoleName → grant.object.objectType = .database →
          grant.object.name = some name → name ∈ mentionedPublicDatabases m := by
      intro m grant hgrant hpublic htype hname
      exact List.mem_filterMap.2 ⟨grant, List.mem_filter.2 ⟨hgrant, by simp [htype, hpublic]⟩, hname⟩
    exact Or.inr (Or.inr ⟨name, hmem hgrant hpublic htype hname,
      hmem hgrant' hpublic' htype' hname'⟩)
  · have htype' : grant'.object.objectType ≠ .database := fun h => htype (hkind.2 h)
    have hclaimed : ∃ schema, claimedSchema grant = some schema := by
      rw [← Option.isSome_iff_exists, Option.isSome_iff_ne_none]
      intro hnone
      exact hfallback (.grant grant grant' hgrant hgrant' hsame (Or.inl ⟨hpublic, htype, hnone⟩))
    have hclaimed' : ∃ schema, claimedSchema grant' = some schema := by
      rw [← Option.isSome_iff_exists, Option.isSome_iff_ne_none]
      intro hnone
      exact hfallback (.grant grant grant' hgrant hgrant' hsame
        (Or.inr ⟨hpublic', htype', hnone⟩))
    obtain ⟨schema, hschema⟩ := hclaimed
    obtain ⟨schema', hschema'⟩ := hclaimed'
    rw [container_of_claimedSchema hschema, container_of_claimedSchema hschema'] at hcontainer
    subst hcontainer
    have hmem : ∀ {m : PolicyManifest} {grant : Grant}, grant ∈ m.grants →
        claimedSchema grant = some schema → schema ∈ mentionedSchemas m := by
      intro m grant hgrant hschema
      unfold mentionedSchemas
      simp only [List.mem_append]
      exact Or.inl (Or.inr (List.mem_filterMap.2 ⟨grant, hgrant, hschema⟩))
    exact Or.inr (Or.inl ⟨schema, hmem hgrant hschema, hmem hgrant' hschema'⟩)

/-- A declared default-privilege rule claims its schema, or its owner unless that is left out. -/
theorem claims_of_defaultKey {m : PolicyManifest} {d : DefaultPrivilege} {k : DefaultPrivKey}
    (hd : d ∈ m.defaultPrivileges) (hkey : DefaultKeyOf m.defaultOwner d k) :
    match k.scope with
    | .schema schema => schema ∈ mentionedSchemas m
    | .global => LeavesOutOwner m d ∨ k.owner ∈ mentionedRoles m := by
  obtain ⟨grant, -, role, -, scope, hscope, rfl⟩ := hkey
  cases scope with
  | schema schema =>
      have hclaimed : claimedDefaultSchema d = some schema := by
        unfold claimedDefaultSchema
        rw [hscope]
        rfl
      unfold mentionedSchemas
      simp only [List.mem_append]
      exact Or.inr (List.mem_filterMap.2 ⟨d, hd, hclaimed⟩)
  | global =>
      cases howner : d.owner.or m.defaultOwner with
      | none => exact Or.inl ⟨hscope, howner⟩
      | some owner =>
          right
          have hclaimed : claimedOwner m.defaultOwner d = some owner := by
            unfold claimedOwner
            rw [hscope]
            exact howner
          have hkeyed : defaultPrivilegeOwner m.defaultOwner d = owner := by
            rw [defaultPrivilegeOwner, howner]
            rfl
          change defaultPrivilegeOwner m.defaultOwner d ∈ mentionedRoles m
          rw [hkeyed]
          unfold mentionedRoles
          simp only [List.mem_append]
          exact Or.inr (List.mem_filterMap.2 ⟨d, hd, hclaimed⟩)

theorem namesInCommon_of_publicDefault {d d' : DefaultPrivilege} {k : DefaultPrivKey}
    (hd : d ∈ m.defaultPrivileges) (hd' : d' ∈ m'.defaultPrivileges)
    (hkey : DefaultKeyOf m.defaultOwner d k) (hkey' : DefaultKeyOf m'.defaultOwner d' k)
    (hpublic : k.grantee = .publicRole) (hfallback : ¬ FallbackInCommon m m') :
    NamesInCommon m m' e e' := by
  have hclaim := claims_of_defaultKey hd hkey
  have hclaim' := claims_of_defaultKey hd' hkey'
  cases hscope : k.scope with
  | schema schema =>
      rw [hscope] at hclaim hclaim'
      exact Or.inr (Or.inl ⟨schema, hclaim, hclaim'⟩)
  | global =>
      rw [hscope] at hclaim hclaim'
      rcases hclaim with hleft | hclaim
      · exact absurd (.defaultPrivilege d d' k hd hd' hkey hkey' hpublic (Or.inl hleft)) hfallback
      · rcases hclaim' with hleft | hclaim'
        · exact absurd (.defaultPrivilege d d' k hd hd' hkey hkey' hpublic (Or.inr hleft)) hfallback
        · exact Or.inl ⟨k.owner, List.mem_append_right _ hclaim, List.mem_append_right _ hclaim'⟩

/-- The members of a membership are mentioned, and so is the role. -/
theorem role_mentioned_of_edge {m : PolicyManifest} {edge : MembershipEdge}
    (h : edge ∈ membershipEdges m.memberships) : edge.role ∈ mentionedRoles m := by
  obtain ⟨membership, hmembership, hedge⟩ := List.mem_flatMap.1 h
  obtain ⟨member, -, rfl⟩ := List.mem_map.1 hedge
  have hrole : membership.role ∈ m.memberships.map (·.role) :=
    List.mem_map.2 ⟨membership, hmembership, rfl⟩
  unfold mentionedRoles
  simp only [List.mem_append]
  tauto

theorem schema_mentioned {m : PolicyManifest} {e : ExpandedManifest} {g : RoleGraph}
    (h : expandManifest m = .ok e) (hgraph : RoleGraph.fromExpanded e m.defaultOwner = .ok g)
    {name : String} (hname : name ∈ g.schemas) : name ∈ mentionedSchemas m := by
  obtain ⟨expansions, -, -, -, -, -, -, -, rfl⟩ := of_expandManifest_eq_ok h
  obtain ⟨entries, -, rfl⟩ := of_fromExpanded_eq_ok hgraph
  obtain ⟨state, hstate⟩ := mem_iff_exists_getElem?.1 hname
  obtain ⟨schema, hschema, heq⟩ := List.mem_map.1 (mem_of_getElem?_ofList hstate)
  obtain ⟨binding, hbinding, rfl⟩ := List.mem_map.1 hschema
  obtain ⟨rfl, -⟩ := Prod.mk.inj heq
  unfold mentionedSchemas
  simp only [List.mem_append]
  exact Or.inl (Or.inl (List.mem_map.2 ⟨binding, hbinding, rfl⟩))

include he he' hg hg' in
/-- What two graphs have in common is named by both manifests, unless it falls back. -/
theorem namesInCommon_of_inCommon (hcommon : InCommon g g') (hfallback : ¬ FallbackInCommon m m') :
    NamesInCommon m m' e e' := by
  cases hcommon with
  | role name h h' =>
      exact Or.inl ⟨name, List.mem_append_left _ ((mem_roles_iff hg).1 h),
        List.mem_append_left _ ((mem_roles_iff hg').1 h')⟩
  | schema name h h' =>
      exact Or.inr (Or.inl ⟨name, schema_mentioned he hg h, schema_mentioned he' hg' h'⟩)
  | grant k k' h h' hsame =>
      rcases grantee_claimed he hg h with ⟨name, hrole, hname⟩ | ⟨grant, hgrant, rfl, hpublic⟩
      · rcases grantee_claimed he' hg' h' with
          ⟨name', hrole', hname'⟩ | ⟨grant', hgrant', rfl, hpublic'⟩
        · have hsame' := hsame.1
          rw [hrole, hrole'] at hsame'
          exact Or.inl ⟨name, hname, Grantee.role.inj hsame' ▸ hname'⟩
        · have hsame' := hsame.1
          rw [hrole] at hsame'
          exact absurd hpublic' (ne_public_of_parse hsame'.symm).2
      · rcases grantee_claimed he' hg' h' with
          ⟨name', hrole', hname'⟩ | ⟨grant', hgrant', rfl, hpublic'⟩
        · have hsame' := hsame.1
          rw [hrole'] at hsame'
          exact absurd hpublic (ne_public_of_parse hsame').2
        · exact namesInCommon_of_public he he' hgrant hgrant' hpublic hpublic' hsame hfallback
  | defaultPrivilege k h h' =>
      rcases defaultGrantee_claimed he hg h with ⟨name, hgrantee, hname⟩ | ⟨d, hd, hkey, hpublic⟩
      · rcases defaultGrantee_claimed he' hg' h' with
          ⟨name', hgrantee', hname'⟩ | ⟨d', hd', hkey', hpublic'⟩
        · rw [hgrantee] at hgrantee'
          exact Or.inl ⟨name, hname, Grantee.role.inj hgrantee' ▸ hname'⟩
        · rw [hgrantee] at hpublic'
          cases hpublic'
      · rcases defaultGrantee_claimed he' hg' h' with
          ⟨name', hgrantee', hname'⟩ | ⟨d', hd', hkey', hpublic'⟩
        · rw [hpublic] at hgrantee'
          cases hgrantee'
        · exact namesInCommon_of_publicDefault hd hd' hkey hkey' hpublic hfallback
  | membership edge edge' h h' hpair =>
      rw [mem_memberships_iff hg, memberships_of_expandManifest he] at h
      rw [mem_memberships_iff hg', memberships_of_expandManifest he'] at h'
      have hrole : edge.role = edge'.role := (Prod.mk.inj hpair).1
      exact Or.inl ⟨edge.role, List.mem_append_right _ (role_mentioned_of_edge h),
        List.mem_append_right _ (hrole ▸ role_mentioned_of_edge h')⟩

include he he' hg hg' in
/-- A common rule that falls back is in both graphs. -/
theorem inCommon_of_fallback (h : FallbackInCommon m m') : InCommon g g' := by
  cases h with
  | grant grant grant' h h' hsame hfallback =>
      exact .grant _ _ ((mem_grant_keys_iff he hg).2 (Or.inl ⟨grant, h, rfl⟩))
        ((mem_grant_keys_iff he' hg').2 (Or.inl ⟨grant', h', rfl⟩)) hsame
  | defaultPrivilege d d' k h h' hkey hkey' hpublic hfallback =>
      exact .defaultPrivilege k ((mem_default_keys_iff he hg).2 (Or.inl ⟨d, h, hkey⟩))
        ((mem_default_keys_iff he' hg').2 (Or.inl ⟨d', h', hkey'⟩))

end Coverage

/-- Two accepted policies that manage something in common have overlapping claims exactly when they
name something in common or no common rule for PUBLIC rests on a fallback. -/
theorem claims_cover_iff {spec spec' : PostgresPolicySpec} {claims claims' : OwnershipClaims}
    {e e' : ExpandedManifest} {g g' : RoleGraph} (h : spec.ownershipClaims = .ok claims)
    (h' : spec'.ownershipClaims = .ok claims')
    (he : expandManifest spec.toPolicyManifest = .ok e)
    (he' : expandManifest spec'.toPolicyManifest = .ok e')
    (hg : RoleGraph.fromExpanded e spec.toPolicyManifest.defaultOwner = .ok g)
    (hg' : RoleGraph.fromExpanded e' spec'.toPolicyManifest.defaultOwner = .ok g') :
    (InCommon g g' → claims.overlaps claims' = true) ↔
      (¬ FallbackInCommon spec.toPolicyManifest spec'.toPolicyManifest ∨
        NamesInCommon spec.toPolicyManifest spec'.toPolicyManifest e e') := by
  rw [overlaps_iff_namesInCommon h h' he he']
  constructor
  · intro hcovered
    by_cases hfallback : FallbackInCommon spec.toPolicyManifest spec'.toPolicyManifest
    · exact Or.inr (hcovered (inCommon_of_fallback he he' hg hg' hfallback))
    · exact Or.inl hfallback
  · intro hcondition hcommon
    rcases hcondition with hfallback | hnames
    · exact namesInCommon_of_inCommon he he' hg hg' hcommon hfallback
    · exact hnames

/-! ### A rule without a schema -/

/-- A policy that takes a table's privileges from PUBLIC. -/
def publicTable (schema : Option String) : PostgresPolicySpec :=
  { connection := {}
    content := { grants := [⟨publicRoleName, [.select], ⟨.table, schema, some "orders"⟩, .absent⟩] } }

/-- An accepted policy with its claims and its graph. -/
structure Accepts (spec : PostgresPolicySpec) (claims : OwnershipClaims) (e : ExpandedManifest)
    (g : RoleGraph) : Prop where
  claims_eq : spec.ownershipClaims = .ok claims
  expands : expandManifest spec.toPolicyManifest = .ok e
  graph : RoleGraph.fromExpanded e spec.toPolicyManifest.defaultOwner = .ok g

theorem exists_accepts (spec : PostgresPolicySpec)
    (h : (do
      let e ← expandManifest spec.toPolicyManifest
      RoleGraph.fromExpanded e spec.toPolicyManifest.defaultOwner).isOk = true) :
    ∃ claims e g, Accepts spec claims e g := by
  cases he : expandManifest spec.toPolicyManifest with
  | error error =>
      rw [he] at h
      cases h
  | ok e =>
      rw [he] at h
      change (RoleGraph.fromExpanded e spec.toPolicyManifest.defaultOwner).isOk = true at h
      cases hg : RoleGraph.fromExpanded e spec.toPolicyManifest.defaultOwner with
      | error error =>
          rw [hg] at h
          cases h
      | ok g =>
          have hclaims : ∃ claims, spec.ownershipClaims = .ok claims := by
            unfold PostgresPolicySpec.ownershipClaims
            simp only [he]
            exact ⟨_, rfl⟩
          obtain ⟨claims, hclaims⟩ := hclaims
          exact ⟨claims, e, g, hclaims, he, hg⟩

/-- Policies that name the schema of the table have overlapping claims. -/
theorem publicTable_covered : ∃ claims e g, Accepts (publicTable (some "public")) claims e g ∧
    InCommon g g ∧ claims.overlaps claims = true := by
  obtain ⟨claims, e, g, h⟩ := exists_accepts (publicTable (some "public")) (by decide +kernel)
  have hcommon : InCommon g g := by
    have hrule : rulesGrant g ⟨.publicRole, .table, some "public", some "orders"⟩ :=
      (mem_grant_keys_iff h.expands h.graph).2 (Or.inl ⟨_, List.mem_singleton.2 rfl, rfl⟩)
    exact .grant _ _ hrule hrule ⟨rfl, rfl⟩
  have hnames : "public" ∈ mentionedSchemas (publicTable (some "public")).toPolicyManifest := by
    decide
  exact ⟨claims, e, g, h, hcommon, (claims_cover_iff h.claims_eq h.claims_eq h.expands h.expands
    h.graph h.graph).2 (Or.inr (Or.inr (Or.inl ⟨"public", hnames, hnames⟩))) hcommon⟩

/-- A policy that leaves the schema out manages the same table and claims nothing. -/
theorem publicTable_uncovered : ∃ claims claims' e e' g g',
    Accepts (publicTable none) claims e g ∧ Accepts (publicTable (some "public")) claims' e' g' ∧
      InCommon g g' ∧ claims.overlaps claims' = false := by
  obtain ⟨claims, e, g, h⟩ := exists_accepts (publicTable none) (by decide +kernel)
  obtain ⟨claims', e', g', h'⟩ := exists_accepts (publicTable (some "public")) (by decide +kernel)
  have hcommon : InCommon g g' := by
    refine inCommon_of_fallback h.expands h'.expands h.graph h'.graph (.grant
      ⟨publicRoleName, [.select], ⟨.table, none, some "orders"⟩, .absent⟩
      ⟨publicRoleName, [.select], ⟨.table, some "public", some "orders"⟩, .absent⟩
      (List.mem_singleton.2 rfl) (List.mem_singleton.2 rfl) ⟨rfl, rfl⟩
      (Or.inl ⟨rfl, by decide, rfl⟩))
  have hnone : (publicTable none).ownershipClaims.toOption.any (fun c =>
      (publicTable (some "public")).ownershipClaims.toOption.any fun c' =>
        !c.overlaps c') = true := by decide +kernel
  rw [h.claims_eq, h'.claims_eq] at hnone
  exact ⟨claims, claims', e, e', g, g', h, h', hcommon, by simpa [Except.toOption] using hnone⟩

end PgRoles.Operator

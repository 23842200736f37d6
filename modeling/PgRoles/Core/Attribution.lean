import PgRoles.Core.MergedSchemas
import PgRoles.Core.ExpandKeys

/-!
# Attribution of what a bundle declares

A composed bundle is to own what it declares: every key of the desired graph is registered for the
one document whose own expansion has it, and every registered key is in the graph. The index is
filled from each document expanded alone and the graph from the merged manifest, so the two agree
where the fallbacks of both expansions do. They do for names, grants and memberships. The owner that
keys the default privileges of a binding is looked up in the binding, and there the other document's
owner facet shows only after the merge (`attributed_iff`).
-/

set_option autoImplicit false

namespace PgRoles.Core

open Std PgRoles.Lib

variable {bundle : PolicyBundle} {documents : List PolicyDocument}

/-! ## Owners -/

/-- The key is registered for the one document that has it. -/
def OwnedByOne {K : Type} [Ord K] [TransOrd K] (register : BTreeMap K String)
    (has : PolicyDocument → Bool) (documents : List PolicyDocument) (k : K) : Prop :=
  ∃ d, documents.filter has = [d] ∧ register[k]? = some d.label

/-- One document has a key that is claimed once. -/
theorem filter_eq_singleton_of_nodup {K : Type} {keys : PolicyDocument → List K}
    {has : PolicyDocument → Bool} {k : K} (hnodup : (documents.flatMap keys).Nodup)
    (hkeys : ∀ d ∈ documents, has d = true → k ∈ keys d)
    {d : PolicyDocument} (hd : d ∈ documents) (hhas : has d = true) : documents.filter has = [d] := by
  induction documents with
  | nil => exact absurd hd List.not_mem_nil
  | cons first rest ih =>
      rw [List.flatMap_cons, List.nodup_append] at hnodup
      obtain ⟨-, hrest, hapart⟩ := hnodup
      by_cases hfirst : has first = true
      · have hnone : rest.filter has = [] := by
          rw [List.filter_eq_nil_iff]
          intro other hother hhas'
          have hk : k ∈ rest.flatMap keys :=
            List.mem_flatMap.2 ⟨other, hother, hkeys other (List.mem_cons_of_mem _ hother) hhas'⟩
          exact hapart k (hkeys first List.mem_cons_self hfirst) k hk rfl
        rw [List.filter_cons_of_pos hfirst, hnone]
        rcases List.mem_cons.1 hd with rfl | hd
        · rfl
        · have hmem : d ∈ rest.filter has := List.mem_filter.2 ⟨hd, hhas⟩
          rw [hnone] at hmem
          exact absurd hmem List.not_mem_nil
      · have hd : d ∈ rest := by
          rcases List.mem_cons.1 hd with rfl | hd
          · exact absurd hhas hfirst
          · exact hd
        rw [List.filter_cons_of_neg hfirst]
        exact ih hrest (fun e he => hkeys e (List.mem_cons_of_mem _ he)) hd

/-- A key that some document has, and that is claimed by whoever has it, is owned. -/
theorem ownedByOne_of_mem {K : Type} [Ord K] [TransOrd K] [LawfulEqOrd K]
    {keys : PolicyDocument → List K} {has : PolicyDocument → Bool} {k : K}
    (hnodup : (documents.flatMap keys).Nodup)
    (hkeys : ∀ d ∈ documents, has d = true → k ∈ keys d)
    (hex : ∃ d ∈ documents, has d = true) :
    OwnedByOne (ExtTreeMap.ofList (labelled keys documents) compare) has documents k := by
  obtain ⟨d, hd, hhas⟩ := hex
  refine ⟨d, filter_eq_singleton_of_nodup hnodup hkeys hd hhas, ?_⟩
  rw [getElem?_ofList_iff (by rw [map_fst_labelled]; exact hnodup), mem_labelled]
  exact ⟨d, hd, hkeys d hd hhas, rfl⟩

/-! ## Keys of a document's own graph -/

/-- The document alone declares the role. -/
def hasRole (bundle : PolicyBundle) (name : String) (d : PolicyDocument) : Bool :=
  (expansionOf bundle d).desired.roles.contains name

/-- The document alone has the grant target, present or absent. -/
def hasGrant (bundle : PolicyBundle) (k : GrantKey) (d : PolicyDocument) : Bool :=
  (expansionOf bundle d).desired.grants.contains k ||
    (expansionOf bundle d).desired.grantAbsences.contains k

/-- The document alone has the default-privilege rule, present or absent. -/
def hasDefault (bundle : PolicyBundle) (k : DefaultPrivKey) (d : PolicyDocument) : Bool :=
  (expansionOf bundle d).desired.defaultPrivileges.contains k ||
    (expansionOf bundle d).desired.defaultPrivilegeAbsences.contains k

/-- The document alone has the membership. -/
def hasMembership (bundle : PolicyBundle) (k : MembershipKey) (d : PolicyDocument) : Bool :=
  (expansionOf bundle d).desired.memberships.toList.any fun e => e.key == k

/-- Everything a composed bundle declares has its owner, and everything owned is declared. The
roles that a document retires are owned without being declared. -/
structure Attributed (bundle : PolicyBundle) (documents : List PolicyDocument)
    (c : ComposedPolicy) : Prop where
  roles : ∀ name ∈ c.desired.roles,
    OwnedByOne c.ownership.roles (hasRole bundle name) documents name
  grants : ∀ k, k ∈ c.desired.grants ∨ k ∈ c.desired.grantAbsences →
    OwnedByOne c.ownership.grants (hasGrant bundle k) documents k
  defaultPrivileges : ∀ k,
    k ∈ c.desired.defaultPrivileges ∨ k ∈ c.desired.defaultPrivilegeAbsences →
      OwnedByOne c.ownership.defaultPrivileges (hasDefault bundle k) documents k
  memberships : ∀ e ∈ c.desired.memberships,
    OwnedByOne c.ownership.memberships (hasMembership bundle e.key) documents e.key
  roles_declared : ∀ name ∈ c.ownership.roles,
    (∀ d ∈ documents, ∀ r ∈ d.fragment.retirements, r.role ≠ name) → name ∈ c.desired.roles
  grants_declared : ∀ k ∈ c.ownership.grants,
    k ∈ c.desired.grants ∨ k ∈ c.desired.grantAbsences
  defaultPrivileges_declared : ∀ k ∈ c.ownership.defaultPrivileges,
    k ∈ c.desired.defaultPrivileges ∨ k ∈ c.desired.defaultPrivilegeAbsences
  memberships_declared : ∀ k ∈ c.ownership.memberships, ∃ e ∈ c.desired.memberships, e.key = k

theorem mem_grantKeys {k : GrantKey} {d : PolicyDocument} :
    k ∈ grantKeys bundle d ↔ (k ∈ (expansionOf bundle d).desired.grants ∨
      k ∈ (expansionOf bundle d).desired.grantAbsences) := by
  unfold grantKeys DocumentExpansion.grantKeys
  rw [ExtTreeSet.mem_toList, ExtTreeSet.mem_ofList, List.contains_iff_mem, List.mem_append,
    ExtTreeMap.mem_keys, ExtTreeMap.mem_keys]

theorem mem_defaultPrivilegeKeys {k : DefaultPrivKey} {d : PolicyDocument} :
    k ∈ defaultPrivilegeKeys bundle d ↔ (k ∈ (expansionOf bundle d).desired.defaultPrivileges ∨
      k ∈ (expansionOf bundle d).desired.defaultPrivilegeAbsences) := by
  unfold defaultPrivilegeKeys DocumentExpansion.defaultPrivilegeKeys
  rw [ExtTreeSet.mem_toList, ExtTreeSet.mem_ofList, List.contains_iff_mem, List.mem_append,
    ExtTreeMap.mem_keys, ExtTreeMap.mem_keys]

theorem hasGrant_iff {k : GrantKey} {d : PolicyDocument} :
    hasGrant bundle k d = true ↔ k ∈ grantKeys bundle d := by
  rw [mem_grantKeys, hasGrant, Bool.or_eq_true, ExtTreeMap.contains_iff_mem,
    ExtTreeMap.contains_iff_mem]

theorem hasDefault_iff {k : DefaultPrivKey} {d : PolicyDocument} :
    hasDefault bundle k d = true ↔ k ∈ defaultPrivilegeKeys bundle d := by
  rw [mem_defaultPrivilegeKeys, hasDefault, Bool.or_eq_true, ExtTreeMap.contains_iff_mem,
    ExtTreeMap.contains_iff_mem]

theorem hasMembership_iff {k : MembershipKey} {d : PolicyDocument} :
    hasMembership bundle k d = true ↔ k ∈ membershipKeys bundle d := by
  unfold hasMembership membershipKeys DocumentExpansion.membershipKeys
  rw [List.any_eq_true, List.mem_map]
  simp only [beq_iff_eq]

theorem hasRole_iff {name : String} {d : PolicyDocument} :
    hasRole bundle name d = true ↔ name ∈ (expansionOf bundle d).desired.roles := by
  rw [hasRole, ExtTreeMap.contains_iff_mem]

/-! ## Both expansions -/

/-- The rule with another owner. -/
def DefaultPrivKey.withOwner (k : DefaultPrivKey) (owner : String) : DefaultPrivKey :=
  { k with owner }

theorem DefaultPrivKey.withOwner_self (k : DefaultPrivKey) : k.withOwner k.owner = k := rfl

theorem withOwner_bindingOwner (m : PolicyManifest) (b : SchemaBinding) (profileName : String)
    (grant : DefaultPrivilegeGrant) :
    (profileDefaultKey m b profileName grant).withOwner (bindingOwner m b) =
      profileDefaultKey m b profileName grant :=
  DefaultPrivKey.withOwner_self _

section Expansions

variable {expanded : ExpandedManifest} {desired : RoleGraph}

theorem mem_mergedManifest_schemas {b : SchemaBinding} :
    b ∈ (mergedManifest bundle documents).schemas ↔
      ∃ name : String, (mergedSchemas documents)[name]? = some b := by
  unfold mergedManifest
  rw [List.mem_map]
  constructor
  · intro h
    obtain ⟨⟨name, b⟩, hmem, rfl⟩ := h
    exact ⟨name, mem_toList_iff.1 hmem⟩
  · intro h
    obtain ⟨name, hget⟩ := h
    exact ⟨(name, b), mem_toList_iff.2 hget, rfl⟩

/-- The two bindings name their roles and their schema alike. -/
structure NamedAlike (m m' : PolicyManifest) (b b' : SchemaBinding) : Prop where
  name : b'.name = b.name
  pattern : bindingPattern m' b' = bindingPattern m b

theorem NamedAlike.profileRoleName_eq {m m' : PolicyManifest} {b b' : SchemaBinding}
    (h : NamedAlike m m' b b') (profileName : String) :
    profileRoleName m' b' profileName = profileRoleName m b profileName := by
  rw [profileRoleName, profileRoleName, h.name, h.pattern]

theorem NamedAlike.profileGrantKey_eq {m m' : PolicyManifest} {b b' : SchemaBinding}
    (h : NamedAlike m m' b b') (profileName : String) (grant : ProfileGrant) :
    profileGrantKey m' b' profileName grant = profileGrantKey m b profileName grant := by
  have htarget : profileTarget b' grant.object = profileTarget b grant.object := by
    unfold profileTarget
    rw [h.name]
  rw [profileGrantKey, profileGrantKey, h.profileRoleName_eq, htarget]

/-- The keys differ in the owner at most. -/
theorem NamedAlike.profileDefaultKey_eq {m m' : PolicyManifest} {b b' : SchemaBinding}
    (h : NamedAlike m m' b b') (profileName : String) (grant : DefaultPrivilegeGrant) :
    profileDefaultKey m' b' profileName grant =
      (profileDefaultKey m b profileName grant).withOwner (bindingOwner m' b') := by
  unfold profileDefaultKey DefaultPrivKey.withOwner
  rw [h.profileRoleName_eq, h.name]

/-- Both patterns fall back from the binding to the document, then to the bundle. -/
theorem namedAlike_of_pattern {d : PolicyDocument} {b merged : SchemaBinding}
    (hname : merged.name = b.name)
    (hpattern : merged.rolePattern = b.rolePattern.or d.fragment.rolePattern) :
    NamedAlike (documentManifest bundle d.fragment) (mergedManifest bundle documents) b merged := by
  refine ⟨hname, ?_⟩
  unfold bindingPattern
  rw [hpattern, Option.or_assoc]
  rfl

/-- A profile bound by a document is bound by the merged manifest. -/
theorem exists_bound_merged (hadm : Admissible bundle documents expanded desired)
    {d : PolicyDocument} (hd : d ∈ documents) {b : SchemaBinding} {name : String}
    {profile : Profile} (hbound : BoundProfile (documentManifest bundle d.fragment) b name profile) :
    ∃ merged, (mergedSchemas documents)[b.name]? = some merged ∧
      BoundProfile (mergedManifest bundle documents) merged name profile ∧
      NamedAlike (documentManifest bundle d.fragment) (mergedManifest bundle documents) b
        merged := by
  obtain ⟨merged, hmerged, -, hfields⟩ :=
    merged_binding hadm.expand hadm.keys hd hbound.binding_mem
  obtain ⟨hprofiles, hpattern⟩ := hfields (List.ne_nil_of_mem hbound.profile_mem)
  refine ⟨merged, hmerged, ⟨mem_mergedManifest_schemas.2 ⟨_, hmerged⟩, ?_, hbound.profile_eq⟩,
    namedAlike_of_pattern (mergedSchemas_name hmerged) hpattern⟩
  rw [hprofiles]
  exact hbound.profile_mem

/-- A profile bound by the merged manifest is bound by a document. -/
theorem exists_bound_document (hadm : Admissible bundle documents expanded desired)
    {merged : SchemaBinding} {name : String} {profile : Profile}
    (hbound : BoundProfile (mergedManifest bundle documents) merged name profile) :
    ∃ d ∈ documents, ∃ b, BoundProfile (documentManifest bundle d.fragment) b name profile ∧
      (mergedSchemas documents)[b.name]? = some merged ∧
      NamedAlike (documentManifest bundle d.fragment) (mergedManifest bundle documents) b
        merged := by
  obtain ⟨schema, hmerged⟩ := mem_mergedManifest_schemas.1 hbound.binding_mem
  obtain ⟨d, hd, b, hb, rfl, hprofiles, hpattern⟩ := exists_binding_of_profiles hadm.expand
    hadm.keys hmerged (List.ne_nil_of_mem hbound.profile_mem)
  refine ⟨d, hd, b, ⟨hb, ?_, hbound.profile_eq⟩, hmerged,
    namedAlike_of_pattern (mergedSchemas_name hmerged) hpattern⟩
  rw [hprofiles]
  exact hbound.profile_mem

/-- The composed roles are those of the documents. -/
theorem mem_composed_roles (hadm : Admissible bundle documents expanded desired) {name : String} :
    name ∈ desired.roles ↔ ∃ d ∈ documents, hasRole bundle name d = true := by
  rw [mem_roles_iff hadm.graph, mem_names_iff hadm.expands]
  have hdocument : ∀ d ∈ documents, (hasRole bundle name d = true ↔
      (∃ r ∈ d.fragment.roles, r.name = name) ∨
        ∃ b profileName profile, BoundProfile (documentManifest bundle d.fragment) b profileName
          profile ∧ profileRoleName (documentManifest bundle d.fragment) b profileName = name) := by
    intro d hd
    obtain ⟨-, hexpands, hgraph⟩ := of_expandDocument_eq_ok (hadm.expand d hd)
    rw [hasRole_iff, mem_roles_iff hgraph, mem_names_iff hexpands]
    rfl
  constructor
  · intro h
    rcases h with ⟨r, hr, hname⟩ | ⟨merged, profileName, profile, hbound, hname⟩
    · obtain ⟨d, hd, hr⟩ := List.mem_flatMap.1 hr
      exact ⟨d, hd, (hdocument d hd).2 (Or.inl ⟨r, hr, hname⟩)⟩
    · obtain ⟨d, hd, b, hbound', -, halike⟩ := exists_bound_document hadm hbound
      exact ⟨d, hd, (hdocument d hd).2 (Or.inr ⟨b, profileName, profile, hbound',
        (halike.profileRoleName_eq profileName).symm.trans hname⟩)⟩
  · intro h
    obtain ⟨d, hd, hrole⟩ := h
    rcases (hdocument d hd).1 hrole with ⟨r, hr, hname⟩ | ⟨b, profileName, profile, hbound, hname⟩
    · exact Or.inl ⟨r, List.mem_flatMap.2 ⟨d, hd, hr⟩, hname⟩
    · obtain ⟨merged, -, hbound', halike⟩ := exists_bound_merged hadm hd hbound
      exact Or.inr ⟨merged, profileName, profile, hbound',
        (halike.profileRoleName_eq profileName).trans hname⟩

/-- The composed grant targets are those of the documents. -/
theorem mem_composed_grants (hadm : Admissible bundle documents expanded desired) {k : GrantKey} :
    k ∈ desired.grants ∨ k ∈ desired.grantAbsences ↔
      ∃ d ∈ documents, hasGrant bundle k d = true := by
  rw [mem_grant_keys_iff hadm.expands hadm.graph]
  have hdocument : ∀ d ∈ documents, (hasGrant bundle k d = true ↔
      (∃ grant ∈ d.fragment.grants, grantKeyFromManifest grant = k) ∨
        ∃ b profileName profile, BoundProfile (documentManifest bundle d.fragment) b profileName
          profile ∧ ∃ grant ∈ profile.grants,
            profileGrantKey (documentManifest bundle d.fragment) b profileName grant = k) := by
    intro d hd
    obtain ⟨-, hexpands, hgraph⟩ := of_expandDocument_eq_ok (hadm.expand d hd)
    rw [hasGrant_iff, mem_grantKeys, mem_grant_keys_iff hexpands hgraph]
    rfl
  constructor
  · intro h
    rcases h with ⟨grant, hgrant, hkey⟩ | ⟨merged, profileName, profile, hbound, grant, hgrant, hkey⟩
    · obtain ⟨d, hd, hgrant⟩ := List.mem_flatMap.1 hgrant
      exact ⟨d, hd, (hdocument d hd).2 (Or.inl ⟨grant, hgrant, hkey⟩)⟩
    · obtain ⟨d, hd, b, hbound', -, halike⟩ := exists_bound_document hadm hbound
      exact ⟨d, hd, (hdocument d hd).2 (Or.inr ⟨b, profileName, profile, hbound', grant, hgrant,
        (halike.profileGrantKey_eq profileName grant).symm.trans hkey⟩)⟩
  · intro h
    obtain ⟨d, hd, hhas⟩ := h
    rcases (hdocument d hd).1 hhas with
      ⟨grant, hgrant, hkey⟩ | ⟨b, profileName, profile, hbound, grant, hgrant, hkey⟩
    · exact Or.inl ⟨grant, List.mem_flatMap.2 ⟨d, hd, hgrant⟩, hkey⟩
    · obtain ⟨merged, -, hbound', halike⟩ := exists_bound_merged hadm hd hbound
      exact Or.inr ⟨merged, profileName, profile, hbound', grant, hgrant,
        (halike.profileGrantKey_eq profileName grant).trans hkey⟩

/-- The composed memberships are those of the documents. -/
theorem mem_composed_memberships (hadm : Admissible bundle documents expanded desired)
    {k : MembershipKey} :
    (∃ edge ∈ desired.memberships, edge.key = k) ↔
      ∃ d ∈ documents, hasMembership bundle k d = true := by
  have hedges : ∀ edge, edge ∈ desired.memberships ↔
      ∃ d ∈ documents, edge ∈ (expansionOf bundle d).desired.memberships := by
    intro edge
    rw [mem_memberships_iff hadm.graph, memberships_of_expandManifest hadm.expands]
    have hdocument : ∀ d ∈ documents, (edge ∈ (expansionOf bundle d).desired.memberships ↔
        edge ∈ membershipEdges d.fragment.memberships) := by
      intro d hd
      obtain ⟨-, hexpands, hgraph⟩ := of_expandDocument_eq_ok (hadm.expand d hd)
      rw [mem_memberships_iff hgraph, memberships_of_expandManifest hexpands]
      rfl
    have hmerged : edge ∈ membershipEdges (mergedManifest bundle documents).memberships ↔
        ∃ d ∈ documents, edge ∈ membershipEdges d.fragment.memberships := by
      unfold membershipEdges mergedManifest
      simp only [List.mem_flatMap]
      constructor
      · intro h
        obtain ⟨membership, ⟨d, hd, hmembership⟩, hedge⟩ := h
        exact ⟨d, hd, membership, hmembership, hedge⟩
      · intro h
        obtain ⟨d, hd, membership, hmembership, hedge⟩ := h
        exact ⟨membership, ⟨d, hd, hmembership⟩, hedge⟩
    rw [hmerged]
    exact exists_congr fun d => and_congr_right fun hd => (hdocument d hd).symm
  have hhas : ∀ d, hasMembership bundle k d = true ↔
      ∃ edge ∈ (expansionOf bundle d).desired.memberships, edge.key = k := by
    intro d
    unfold hasMembership
    rw [List.any_eq_true]
    simp only [ExtTreeSet.mem_toList, beq_iff_eq]
  simp only [hedges, hhas]
  constructor
  · intro h
    obtain ⟨edge, ⟨d, hd, hedge⟩, hkey⟩ := h
    exact ⟨d, hd, edge, hedge, hkey⟩
  · intro h
    obtain ⟨d, hd, edge, hedge, hkey⟩ := h
    exact ⟨edge, ⟨d, hd, hedge⟩, hkey⟩

/-! ## Owners of default privileges -/

/-- The document declares the rule at its top level. -/
def DeclaresDefault (bundle : PolicyBundle) (k : DefaultPrivKey) (d : PolicyDocument) : Prop :=
  ∃ declared ∈ d.fragment.defaultPrivileges, DefaultKeyOf bundle.shared.defaultOwner declared k

/-- The document gives the rule by way of a profile. -/
def GivesDefault (bundle : PolicyBundle) (k : DefaultPrivKey) (d : PolicyDocument) : Prop :=
  ∃ b profileName profile, BoundProfile (documentManifest bundle d.fragment) b profileName
    profile ∧ ∃ grant ∈ profile.defaultPrivileges,
      profileDefaultKey (documentManifest bundle d.fragment) b profileName grant = k

/-- The rule that a document's profile gives once its binding is merged. -/
def GivesMergedDefault (bundle : PolicyBundle) (documents : List PolicyDocument)
    (k : DefaultPrivKey) (d : PolicyDocument) : Prop :=
  ∃ b profileName profile, BoundProfile (documentManifest bundle d.fragment) b profileName
    profile ∧ ∃ grant ∈ profile.defaultPrivileges, ∃ merged,
      (mergedSchemas documents)[b.name]? = some merged ∧
      k = (profileDefaultKey (documentManifest bundle d.fragment) b profileName grant).withOwner
        (bindingOwner (mergedManifest bundle documents) merged)

/-- Where a document binds profiles with default privileges to a schema that some document sets the
owner of, the binding resolves to that owner by itself; or else both rules, the one keyed by what
the binding resolves to and the one keyed by the owner, are declared at the top level, the first of
them by the same document. -/
def DefaultOwnersAgree (bundle : PolicyBundle) (documents : List PolicyDocument) : Prop :=
  ∀ d ∈ documents, ∀ b profileName profile,
    BoundProfile (documentManifest bundle d.fragment) b profileName profile →
    ∀ grant ∈ profile.defaultPrivileges,
    ∀ d' ∈ documents, ∀ b' ∈ d'.fragment.schemas, b'.name = b.name →
    ∀ owner, b'.owner = some owner →
      let own := profileDefaultKey (documentManifest bundle d.fragment) b profileName grant
      own.owner = owner ∨ (DeclaresDefault bundle own d ∧
        ∃ d'' ∈ documents, DeclaresDefault bundle (own.withOwner owner) d'')

theorem hasDefault_cases (hadm : Admissible bundle documents expanded desired)
    {d : PolicyDocument} (hd : d ∈ documents) {k : DefaultPrivKey} :
    hasDefault bundle k d = true ↔ DeclaresDefault bundle k d ∨ GivesDefault bundle k d := by
  obtain ⟨-, hexpands, hgraph⟩ := of_expandDocument_eq_ok (hadm.expand d hd)
  rw [hasDefault_iff, mem_defaultPrivilegeKeys, mem_default_keys_iff hexpands hgraph]
  rfl

/-- The composed rules: declared by a document, or given by a merged binding. -/
theorem mem_composed_defaults (hadm : Admissible bundle documents expanded desired)
    {k : DefaultPrivKey} :
    k ∈ desired.defaultPrivileges ∨ k ∈ desired.defaultPrivilegeAbsences ↔
      (∃ d ∈ documents, DeclaresDefault bundle k d) ∨
        ∃ d ∈ documents, GivesMergedDefault bundle documents k d := by
  rw [mem_default_keys_iff hadm.expands hadm.graph]
  refine or_congr ?_ ?_
  · constructor
    · intro h
      obtain ⟨declared, hdeclared, hkey⟩ := h
      obtain ⟨d, hd, hdeclared⟩ := List.mem_flatMap.1 hdeclared
      exact ⟨d, hd, declared, hdeclared, hkey⟩
    · intro h
      obtain ⟨d, hd, declared, hdeclared, hkey⟩ := h
      exact ⟨declared, List.mem_flatMap.2 ⟨d, hd, hdeclared⟩, hkey⟩
  · constructor
    · intro h
      obtain ⟨merged, profileName, profile, hbound, grant, hgrant, rfl⟩ := h
      obtain ⟨d, hd, b, hbound', hmerged, halike⟩ := exists_bound_document hadm hbound
      exact ⟨d, hd, b, profileName, profile, hbound', grant, hgrant, merged, hmerged,
        halike.profileDefaultKey_eq profileName grant⟩
    · intro h
      obtain ⟨d, hd, b, profileName, profile, hbound, grant, hgrant, merged, hmerged, rfl⟩ := h
      obtain ⟨merged', hmerged', hbound', halike⟩ := exists_bound_merged hadm hd hbound
      rw [hmerged] at hmerged'
      rw [Option.some.inj hmerged']
      exact ⟨merged', profileName, profile, hbound', grant, hgrant,
        halike.profileDefaultKey_eq profileName grant⟩

/-- Without an owner in any document the binding and the merged binding fall back alike. -/
theorem bindingOwner_of_none (hadm : Admissible bundle documents expanded desired)
    {d : PolicyDocument} (hd : d ∈ documents) {b merged : SchemaBinding}
    (hb : b ∈ d.fragment.schemas) (hmerged : (mergedSchemas documents)[b.name]? = some merged)
    (hnone : merged.owner = none) :
    bindingOwner (mergedManifest bundle documents) merged =
      bindingOwner (documentManifest bundle d.fragment) b := by
  have howner : b.owner = none := by
    by_contra hsome
    obtain ⟨o, ho⟩ := Option.ne_none_iff_exists'.1 hsome
    have := (merged_owner_iff hadm.expand hadm.keys hmerged).2 ⟨d, hd, b, hb, rfl, ho⟩
    rw [hnone] at this
    cases this
  unfold bindingOwner
  rw [hnone, howner]
  rfl

theorem bindingOwner_of_some {m : PolicyManifest} {b : SchemaBinding} {o : String}
    (h : b.owner = some o) : bindingOwner m b = o := by
  rw [bindingOwner, h]
  rfl

/-- Where the owners agree, the composed rules are those of the documents. -/
theorem DefaultOwnersAgree.mem_composed_iff (hadm : Admissible bundle documents expanded desired)
    (hagree : DefaultOwnersAgree bundle documents) {k : DefaultPrivKey} :
    k ∈ desired.defaultPrivileges ∨ k ∈ desired.defaultPrivilegeAbsences ↔
      ∃ d ∈ documents, hasDefault bundle k d = true := by
  rw [mem_composed_defaults hadm]
  constructor
  · intro h
    rcases h with ⟨d, hd, hdeclares⟩ | ⟨d, hd, b, profileName, profile, hbound, grant, hgrant,
      merged, hmerged, rfl⟩
    · exact ⟨d, hd, (hasDefault_cases hadm hd).2 (Or.inl hdeclares)⟩
    · have hgives : GivesDefault bundle
          (profileDefaultKey (documentManifest bundle d.fragment) b profileName grant) d :=
        ⟨b, profileName, profile, hbound, grant, hgrant, rfl⟩
      cases howner : merged.owner with
      | none =>
          have hsame := bindingOwner_of_none hadm hd hbound.binding_mem hmerged howner
          refine ⟨d, hd, (hasDefault_cases hadm hd).2 (Or.inr ?_)⟩
          rw [hsame, withOwner_bindingOwner]
          exact hgives
      | some o =>
          obtain ⟨d', hd', b', hb', hname, hb'owner⟩ :=
            (merged_owner_iff hadm.expand hadm.keys hmerged).1 howner
          have hmergedOwner := bindingOwner_of_some (m := mergedManifest bundle documents) howner
          rw [hmergedOwner]
          rcases hagree d hd b profileName profile hbound grant hgrant d' hd' b' hb' hname o
            hb'owner with hown | ⟨-, d'', hd'', hdeclares⟩
          · refine ⟨d, hd, (hasDefault_cases hadm hd).2 (Or.inr ?_)⟩
            rw [← hown, DefaultPrivKey.withOwner_self]
            exact hgives
          · exact ⟨d'', hd'', (hasDefault_cases hadm hd'').2 (Or.inl hdeclares)⟩
  · intro h
    obtain ⟨d, hd, hhas⟩ := h
    rcases (hasDefault_cases hadm hd).1 hhas with hdeclares | hgives
    · exact Or.inl ⟨d, hd, hdeclares⟩
    · obtain ⟨b, profileName, profile, hbound, grant, hgrant, rfl⟩ := hgives
      obtain ⟨merged, hmerged, -, -⟩ := exists_bound_merged hadm hd hbound
      have hsame : bindingOwner (mergedManifest bundle documents) merged =
          bindingOwner (documentManifest bundle d.fragment) b → GivesMergedDefault bundle documents
            (profileDefaultKey (documentManifest bundle d.fragment) b profileName grant) d := by
        intro hown
        refine ⟨b, profileName, profile, hbound, grant, hgrant, merged, hmerged, ?_⟩
        rw [hown, withOwner_bindingOwner]
      cases howner : merged.owner with
      | none =>
          exact Or.inr ⟨d, hd, hsame
            (bindingOwner_of_none hadm hd hbound.binding_mem hmerged howner)⟩
      | some o =>
          obtain ⟨d', hd', b', hb', hname, hb'owner⟩ :=
            (merged_owner_iff hadm.expand hadm.keys hmerged).1 howner
          rcases hagree d hd b profileName profile hbound grant hgrant d' hd' b' hb' hname o
            hb'owner with hown | ⟨hdeclares, -⟩
          · exact Or.inr ⟨d, hd, hsame ((bindingOwner_of_some howner).trans hown.symm)⟩
          · exact Or.inl ⟨d, hd, hdeclares⟩

/-- Only one document binds profiles to a schema, and it does so once. -/
theorem binding_unique (hadm : Admissible bundle documents expanded desired)
    {d d' : PolicyDocument} (hd : d ∈ documents) (hd' : d' ∈ documents) {b b' : SchemaBinding}
    {name name' : String} {profile profile' : Profile}
    (hbound : BoundProfile (documentManifest bundle d.fragment) b name profile)
    (hbound' : BoundProfile (documentManifest bundle d'.fragment) b' name' profile')
    (hschema : b'.name = b.name) : d' = d ∧ b' = b := by
  have hmanages : ∀ {s : SchemaBinding} {n : String}, n ∈ s.profiles →
      s.managesBindings = true := by
    intro s n hn
    have hne : s.profiles.isEmpty = false := by simpa using List.ne_nil_of_mem hn
    rw [SchemaBinding.managesBindings, hne]
    rfl
  have hfacet := (facets_of_binding (hadm.expand d hd) hbound.binding_mem).1
    (hmanages hbound.profile_mem)
  have hfacet' := (facets_of_binding (hadm.expand d' hd') hbound'.binding_mem).1
    (hmanages hbound'.profile_mem)
  rw [hschema] at hfacet'
  have hdocument : d' = d :=
    eq_of_nodup_flatMap hadm.keys.schemaFacets hd' hd hfacet' hfacet
  subst hdocument
  obtain ⟨-, hexpands, -⟩ := of_expandDocument_eq_ok (hadm.expand d' hd)
  exact ⟨rfl, List.inj_on_of_nodup_map (nodup_schemas_of_expandManifest hexpands)
    hbound'.binding_mem hbound.binding_mem hschema⟩

/-- Where the composed rules are those of the documents, the owners agree. -/
theorem defaultOwnersAgree_of_mem_composed (hadm : Admissible bundle documents expanded desired)
    (h : ∀ k, k ∈ desired.defaultPrivileges ∨ k ∈ desired.defaultPrivilegeAbsences ↔
      ∃ d ∈ documents, hasDefault bundle k d = true) : DefaultOwnersAgree bundle documents := by
  intro d hd b profileName profile hbound grant hgrant d' hd' b' hb' hname o howner own
  by_cases hown : own.owner = o
  · exact Or.inl hown
  · have hgives : GivesDefault bundle own d := ⟨b, profileName, profile, hbound, grant, hgrant, rfl⟩
    obtain ⟨merged, hmerged, -, -⟩ := exists_bound_merged hadm hd hbound
    have hmergedOwner : bindingOwner (mergedManifest bundle documents) merged = o :=
      bindingOwner_of_some ((merged_owner_iff hadm.expand hadm.keys hmerged).2
        ⟨d', hd', b', hb', hname, howner⟩)
    refine Or.inr ⟨?_, ?_⟩
    · -- The document's own rule is composed only if some document declares it.
      have hcomposed := (h own).2 ⟨d, hd, (hasDefault_cases hadm hd).2 (Or.inr hgives)⟩
      rcases (mem_composed_defaults hadm).1 hcomposed with
        ⟨d₁, hd₁, hdeclares⟩ | ⟨d₁, hd₁, b₁, name₁, profile₁, hbound₁, grant₁, -, merged₁,
          hmerged₁, heq⟩
      · have hkey₁ := hasDefault_iff.1 ((hasDefault_cases hadm hd₁).2 (Or.inl hdeclares))
        have hkey := hasDefault_iff.1 ((hasDefault_cases hadm hd).2 (Or.inr hgives))
        have hsame := eq_of_nodup_flatMap hadm.keys.defaultPrivileges hd₁ hd hkey₁ hkey
        rw [← hsame]
        exact hdeclares
      · have hscope : own.scope = .schema b₁.name := congrArg DefaultPrivKey.scope heq
        have hb₁ : b₁.name = b.name := (DefaultPrivilegeScope.schema.inj hscope).symm
        rw [hb₁, hmerged] at hmerged₁
        rw [← Option.some.inj hmerged₁, hmergedOwner] at heq
        exact absurd (congrArg DefaultPrivKey.owner heq) hown
    · -- The merged rule has a document only if some document declares it.
      have hcomposed := (mem_composed_defaults hadm).2 (Or.inr ⟨d, hd, b, profileName, profile,
        hbound, grant, hgrant, merged, hmerged, rfl⟩)
      rw [hmergedOwner] at hcomposed
      obtain ⟨d₁, hd₁, hhas⟩ := (h _).1 hcomposed
      rcases (hasDefault_cases hadm hd₁).1 hhas with hdeclares | hgives₁
      · exact ⟨d₁, hd₁, hdeclares⟩
      · obtain ⟨b₁, name₁, profile₁, hbound₁, grant₁, -, heq⟩ := hgives₁
        have hscope := congrArg DefaultPrivKey.scope heq
        have hb₁ : b₁.name = b.name := DefaultPrivilegeScope.schema.inj hscope
        obtain ⟨rfl, rfl⟩ := binding_unique hadm hd hd₁ hbound hbound₁ hb₁
        exact absurd (congrArg DefaultPrivKey.owner heq) hown

end Expansions

/-! ## Attribution -/

/-- A composed bundle owns what it declares and declares what it owns exactly when the owners of its
default privileges agree. -/
theorem attributed_iff {c : ComposedPolicy} (h : composeBundle bundle documents = .ok c) :
    Attributed bundle documents c ↔ DefaultOwnersAgree bundle documents := by
  obtain ⟨expanded, desired, stanzas, hadm, hstanzas, rfl⟩ := composeBundle_eq_ok_iff.1 h
  constructor
  · intro hattributed
    refine defaultOwnersAgree_of_mem_composed hadm fun k => ⟨fun hk => ?_, fun hk => ?_⟩
    · obtain ⟨d, hd, -⟩ := hattributed.defaultPrivileges k hk
      have hmem : d ∈ documents.filter (hasDefault bundle k) := by
        rw [hd]
        exact List.mem_singleton.2 rfl
      obtain ⟨hmem, hhas⟩ := List.mem_filter.1 hmem
      exact ⟨d, hmem, hhas⟩
    · obtain ⟨d, hd, hhas⟩ := hk
      refine hattributed.defaultPrivileges_declared k ?_
      exact mem_ofList_labelled.2 (List.mem_flatMap.2 ⟨d, hd, hasDefault_iff.1 hhas⟩)
  · intro hagree
    have hrole : ∀ {name : String} {d : PolicyDocument}, d ∈ documents →
        (hasRole bundle name d = true ↔
          name ∈ (expansionOf bundle d).expanded.roles.map (·.name)) := by
      intro name d hd
      obtain ⟨-, -, hgraph⟩ := of_expandDocument_eq_ok (hadm.expand d hd)
      rw [hasRole_iff, mem_roles_iff hgraph]
    have howned : ∀ {name : String}, ∀ d ∈ documents, hasRole bundle name d = true →
        name ∈ roleKeys bundle d := fun d hd hhas =>
      List.mem_append_left _ ((hrole hd).1 hhas)
    refine ⟨?_, ?_, ?_, ?_, ?_, ?_, ?_, ?_⟩
    · intro name hname
      exact ownedByOne_of_mem hadm.keys.roles howned ((mem_composed_roles hadm).1 hname)
    · intro k hk
      exact ownedByOne_of_mem hadm.keys.grants (fun d _ => hasGrant_iff.1)
        ((mem_composed_grants hadm).1 hk)
    · intro k hk
      exact ownedByOne_of_mem hadm.keys.defaultPrivileges (fun d _ => hasDefault_iff.1)
        ((hagree.mem_composed_iff hadm).1 hk)
    · intro edge hedge
      exact ownedByOne_of_mem hadm.keys.memberships (fun d _ => hasMembership_iff.1)
        ((mem_composed_memberships hadm).1 ⟨edge, hedge, rfl⟩)
    · intro name hname hretired
      obtain ⟨d, hd, hkey⟩ := List.mem_flatMap.1 (mem_ofList_labelled.1 hname)
      rcases List.mem_append.1 hkey with hkey | hkey
      · exact (mem_composed_roles hadm).2 ⟨d, hd, (hrole hd).2 hkey⟩
      · obtain ⟨r, hr, heq⟩ := List.mem_map.1 hkey
        exact absurd heq (hretired d hd r hr)
    · intro k hk
      obtain ⟨d, hd, hkey⟩ := List.mem_flatMap.1 (mem_ofList_labelled.1 hk)
      exact (mem_composed_grants hadm).2 ⟨d, hd, hasGrant_iff.2 hkey⟩
    · intro k hk
      obtain ⟨d, hd, hkey⟩ := List.mem_flatMap.1 (mem_ofList_labelled.1 hk)
      exact (hagree.mem_composed_iff hadm).2 ⟨d, hd, hasDefault_iff.2 hkey⟩
    · intro k hk
      obtain ⟨d, hd, hkey⟩ := List.mem_flatMap.1 (mem_ofList_labelled.1 hk)
      exact (mem_composed_memberships hadm).2 ⟨d, hd, hasMembership_iff.2 hkey⟩

/-! ### An owner facet in another document -/

/-- Readers of a schema get SELECT on its future tables. -/
def readerProfile : Profile :=
  { defaultPrivileges := [{ privileges := [.select], onType := .table }] }

/-- The owner of the schema, in a document of its own. -/
def ownerDocument (owner : String) : PolicyDocument :=
  { source := "platform.yaml"
    fragment :=
      { scope := { schemas := [⟨"app", [.owner]⟩] }
        schemas := [{ name := "app", owner := some owner }] } }

/-- The bindings of the schema, in another. -/
def bindingsDocument : PolicyDocument :=
  { source := "app.yaml"
    fragment :=
      { scope := { schemas := [⟨"app", [.bindings]⟩] }
        schemas := [{ name := "app", profiles := ["reader"] }] } }

/-- A bundle of two documents over a shared profile. -/
def appBundle : PolicyBundle :=
  { shared := { profiles := (∅ : BTreeMap String Profile).insert "reader" readerProfile }
    sources := [⟨"platform.yaml"⟩, ⟨"app.yaml"⟩] }

/-- With the owner that bindings fall back to, the index and the graph agree. -/
theorem appBundle_attributed :
    ∃ c, composeBundle appBundle [ownerDocument "postgres", bindingsDocument] = .ok c ∧
      Attributed appBundle [ownerDocument "postgres", bindingsDocument] c := by
  have hok : (composeBundle appBundle [ownerDocument "postgres", bindingsDocument]).isOk =
      true := by decide +kernel
  cases hc : composeBundle appBundle [ownerDocument "postgres", bindingsDocument] with
  | error e =>
      rw [hc] at hok
      cases hok
  | ok c =>
      refine ⟨c, rfl, (attributed_iff hc).2 ?_⟩
      intro d hd b profileName profile hbound grant hgrant d' hd' b' hb' hname owner howner own
      have howner' : owner = "postgres" := by
        simp only [List.mem_cons, List.not_mem_nil, or_false] at hd'
        rcases hd' with rfl | rfl
        · rw [List.mem_singleton.1 hb'] at howner
          exact (Option.some.inj howner).symm
        · rw [List.mem_singleton.1 hb'] at howner
          cases howner
      have hbinding : b.owner = none ∨ b.owner = some "postgres" := by
        have hb := hbound.binding_mem
        simp only [List.mem_cons, List.not_mem_nil, or_false] at hd
        rcases hd with rfl | rfl
        · rw [List.mem_singleton.1 hb]
          exact Or.inr rfl
        · rw [List.mem_singleton.1 hb]
          exact Or.inl rfl
      left
      rw [howner']
      rcases hbinding with hnone | hsome
      · exact congrArg (fun o => (o.or none).getD "postgres") hnone
      · exact congrArg (fun o => (o.or none).getD "postgres") hsome

/-- The rule that the composed graph has for the readers of the schema. -/
def aliceTables : DefaultPrivKey := ⟨"alice", .schema "app", .table, .role "app-reader"⟩

/-- The composed graph sets default privileges of `alice`, for which no document is registered; the
index holds them for `postgres`. -/
theorem appBundle_not_attributed :
    ∃ c, composeBundle appBundle [ownerDocument "alice", bindingsDocument] = .ok c ∧
      ¬ Attributed appBundle [ownerDocument "alice", bindingsDocument] c := by
  have hkeys : (composeBundle appBundle [ownerDocument "alice", bindingsDocument]).toOption.any
      (fun c => c.desired.defaultPrivileges.contains aliceTables &&
        !c.ownership.defaultPrivileges.contains aliceTables) = true := by decide +kernel
  cases hc : composeBundle appBundle [ownerDocument "alice", bindingsDocument] with
  | error e =>
      rw [hc] at hkeys
      cases hkeys
  | ok c =>
      rw [hc] at hkeys
      simp only [Except.toOption, Option.any_some, Bool.and_eq_true, Bool.not_eq_true'] at hkeys
      obtain ⟨hdeclared, hunowned⟩ := hkeys
      refine ⟨c, rfl, fun hattributed => ?_⟩
      obtain ⟨d, -, howner⟩ := hattributed.defaultPrivileges aliceTables
        (Or.inl (ExtTreeMap.contains_iff_mem.1 hdeclared))
      have howned : aliceTables ∈ c.ownership.defaultPrivileges :=
        mem_iff_exists_getElem?.2 ⟨_, howner⟩
      rw [ExtTreeMap.contains_iff_mem.2 howned] at hunowned
      cases hunowned

end PgRoles.Core

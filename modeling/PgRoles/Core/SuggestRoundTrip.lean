import PgRoles.Core.CompositionSpec
import PgRoles.Core.ExpandPasswords
import PgRoles.Core.SilentPlan
import PgRoles.Core.SuggestClusters
import PgRoles.Core.SuggestPatterns

/-!
# A suggestion means the same

The manifest that is suggested has the policy of the manifest it was made from
(`suggestProfiles_samePolicy`). The plan between the two graphs is only half of the argument: it
says that nothing is granted, and nothing revoked that a revoke can be planned for. The assertions
that a plan does not show, absences and what a wildcard shadows, are those of roles that stay flat,
which are the same declarations on both sides, or of roles in profiles, whose claims say what their
profile expands to.
-/

set_option autoImplicit false

namespace PgRoles.Core.Suggest

open Std PgRoles.Lib

/-! ## Expansions -/

/-- What a profile's grant becomes in a schema. -/
def boundGrant (roleName : String) (b : SchemaBinding) (grant : ProfileGrant) : Grant :=
  ⟨roleName, grant.privileges, profileTarget b grant.object, .present⟩

/-- What a bound profile gives its role, grant by grant. -/
structure GivesTo (m : PolicyManifest) (b : SchemaBinding) (profileName : String)
    (profile : Profile) (x : ProfileExpansion) : Prop where
  role : x.role.name = profileRoleName m b profileName
  grants : ∀ grant, grant ∈ x.grants ↔
    ∃ source ∈ profile.grants, boundGrant (profileRoleName m b profileName) b source = grant
  defaults : ∀ d ∈ x.defaultPrivileges, ∀ grant ∈ d.grant,
    grant.role = some (profileRoleName m b profileName) ∧ grant.ensure = .present

theorem givesTo_of_expandProfile {m : PolicyManifest} {b : SchemaBinding} {profileName : String}
    {x : ProfileExpansion} (h : expandProfile m b profileName = .ok x) :
    ∃ profile, m.profiles[profileName]? = some profile ∧ GivesTo m b profileName profile x := by
  unfold expandProfile at h
  cases hprofile : m.profiles[profileName]? with
  | none =>
      rw [hprofile] at h
      cases h
  | some profile =>
      rw [hprofile] at h
      obtain ⟨-, h⟩ := check_bind_eq_ok.1 h
      obtain ⟨grants, hgrants, h⟩ := bind_eq_ok.1 h
      obtain ⟨defaults, hdefaults, h⟩ := bind_eq_ok.1 h
      rw [← Except.ok.inj h]
      refine ⟨profile, rfl, rfl, fun grant => ⟨fun hgrant => ?_, fun hgrant => ?_⟩,
        fun d hd grant hgrant => ?_⟩
      · obtain ⟨source, hsource, hexpand⟩ := exists_of_mem_mapM hgrants hgrant
        obtain ⟨-, hexpand⟩ := check_bind_eq_ok.1 hexpand
        exact ⟨source, hsource, Except.ok.inj hexpand⟩
      · obtain ⟨source, hsource, rfl⟩ := hgrant
        obtain ⟨grant, hgrant, hexpand⟩ := exists_of_mem_of_mapM hgrants hsource
        obtain ⟨-, hexpand⟩ := check_bind_eq_ok.1 hexpand
        rw [← Except.ok.inj hexpand] at hgrant
        exact hgrant
      · unfold profileDefaultPrivileges at hdefaults
        by_cases hempty : profile.defaultPrivileges.isEmpty = true
        · rw [if_pos hempty] at hdefaults
          rw [← Except.ok.inj hdefaults] at hd
          exact absurd hd List.not_mem_nil
        · rw [if_neg hempty] at hdefaults
          obtain ⟨sources, hsources, hdefaults⟩ := bind_eq_ok.1 hdefaults
          rw [← Except.ok.inj hdefaults] at hd
          obtain rfl := List.mem_singleton.1 hd
          obtain ⟨source, -, hexpand⟩ := exists_of_mem_mapM hsources hgrant
          obtain ⟨-, hexpand⟩ := check_bind_eq_ok.1 hexpand
          rw [← Except.ok.inj hexpand]
          exact ⟨rfl, rfl⟩

/-- A bound profile gives its role what it has. -/
theorem exists_gives {m : PolicyManifest} {expansions : List ProfileExpansion}
    (h : expandBindings m = .ok expansions) {b : SchemaBinding} {name : String} {profile : Profile}
    (hbound : BoundProfile m b name profile) : ∃ x ∈ expansions, GivesTo m b name profile x := by
  obtain ⟨lists, hlists, heq⟩ := bind_eq_ok.1 h
  obtain ⟨l, hl, hbl⟩ := exists_of_mem_of_mapM hlists hbound.binding_mem
  obtain ⟨x, hx, hexpand⟩ := exists_of_mem_of_mapM hbl hbound.profile_mem
  obtain ⟨found, hfound, hgives⟩ := givesTo_of_expandProfile hexpand
  rw [hbound.profile_eq] at hfound
  rw [Option.some.inj hfound]
  refine ⟨x, ?_, hgives⟩
  rw [← Except.ok.inj heq]
  exact List.mem_flatten.2 ⟨l, hl, hx⟩

/-- A manifest without profiles expands to itself. -/
theorem expansions_eq_nil {m : PolicyManifest} (hflat : m.profiles.isEmpty = true)
    {expansions : List ProfileExpansion} (h : expandBindings m = .ok expansions) :
    expansions = [] := by
  rw [ExtTreeMap.isEmpty_iff] at hflat
  refine List.eq_nil_iff_forall_not_mem.2 fun x hx => ?_
  obtain ⟨b, -, name, -, hexpand⟩ := (mem_expansions h).1 hx
  obtain ⟨profile, hprofile, -⟩ := givesTo_of_expandProfile hexpand
  rw [hflat, ExtTreeMap.getElem?_empty] at hprofile
  cases hprofile

section Wildcards

variable {inventory : Inventory} {source given grant : Grant}

/-- A grant expands to itself, or a wildcard to the objects of its scope. -/
theorem expandWildcard_cases (h : grant ∈ expandWildcard inventory source) :
    grant = source ∨ ∃ scope name, wildcardScope? source = some scope ∧
      grant = { source with object := { source.object with name := some name } } := by
  unfold expandWildcard at h
  split at h
  · exact Or.inl (List.mem_singleton.1 h)
  · next scope hscope =>
      split at h
      · obtain ⟨name, -, hname⟩ := List.mem_map.1 h
        exact Or.inr ⟨scope, name, hscope, hname.symm⟩
      · exact Or.inl (List.mem_singleton.1 h)

theorem expandWildcard_role (h : grant ∈ expandWildcard inventory source) :
    grant.role = source.role := by
  rcases expandWildcard_cases h with rfl | ⟨scope, name, -, rfl⟩
  · rfl
  · rfl

theorem expandWildcard_ensure (h : grant ∈ expandWildcard inventory source) :
    grant.ensure = source.ensure := by
  rcases expandWildcard_cases h with rfl | ⟨scope, name, -, rfl⟩
  · rfl
  · rfl

theorem expandWildcard_privileges (h : grant ∈ expandWildcard inventory source) :
    grant.privileges = source.privileges := by
  rcases expandWildcard_cases h with rfl | ⟨scope, name, -, rfl⟩
  · rfl
  · rfl

theorem expandWildcard_objectType (h : grant ∈ expandWildcard inventory source) :
    grant.object.objectType = source.object.objectType := by
  rcases expandWildcard_cases h with rfl | ⟨scope, name, -, rfl⟩
  · rfl
  · rfl

theorem wildcardScope?_of_named {scope : String × ObjectType} {name : String}
    (h : namedObject? source = some (scope, name)) : wildcardScope? source = none := by
  obtain ⟨-, -, -, hname, hne⟩ := namedObject?_eq_some.1 h
  refine Option.eq_none_iff_forall_ne_some.2 fun found hfound => ?_
  obtain ⟨-, -, -, hstar⟩ := wildcardScope?_eq_some.1 hfound
  exact hne (Option.some.inj (hname.symm.trans hstar))

/-- Schemas and databases have no wildcards. -/
theorem wildcardScope?_of_not_inSchema (h : ¬ InSchema source.object.objectType) :
    wildcardScope? source = none :=
  Option.eq_none_iff_forall_ne_some.2 fun _ hscope => h (wildcardScope?_eq_some.1 hscope).1

/-- What is no wildcard stays as it is. -/
theorem eq_of_mem_expandWildcard (hwild : wildcardScope? source = none)
    (h : grant ∈ expandWildcard inventory source) : grant = source := by
  rcases expandWildcard_cases h with rfl | ⟨scope, name, hscope, -⟩
  · rfl
  · rw [hwild] at hscope
    cases hscope

/-- A wildcard over a known scope expands to each of its objects. -/
theorem mem_expandWildcard_of_scope {scope : String × ObjectType} {names : BTreeSet String}
    {name : String} (hscope : wildcardScope? source = some scope)
    (hnames : inventory[scope]? = some names) (hname : name ∈ names) :
    { source with object := { source.object with name := some name } } ∈
      expandWildcard inventory source := by
  unfold expandWildcard
  simp only [hscope, hnames]
  exact List.mem_map.2 ⟨name, ExtTreeSet.mem_toList.2 hname, rfl⟩

/-- A grant on the target of another expands as that does. -/
theorem expandWildcard_copy (hobject : given.object = source.object)
    (h : grant ∈ expandWildcard inventory source) :
    { given with object := grant.object } ∈ expandWildcard inventory given := by
  have hself : { given with object := source.object } = given := by rw [← hobject]
  have hscope : wildcardScope? given = wildcardScope? source := by
    unfold wildcardScope?
    rw [hobject]
  unfold expandWildcard at h ⊢
  rw [hscope]
  cases hwild : wildcardScope? source with
  | none =>
      simp only [hwild, List.mem_singleton] at h ⊢
      subst h
      exact hself
  | some scope =>
      cases hnames : inventory[scope]? with
      | none =>
          simp only [hwild, hnames, List.mem_singleton] at h ⊢
          subst h
          exact hself
      | some names =>
          simp only [hwild, hnames] at h ⊢
          obtain ⟨name, hname, rfl⟩ := List.mem_map.1 h
          refine List.mem_map.2 ⟨name, hname, ?_⟩
          rw [hobject]

end Wildcards

/-! ## Policies -/

/-- The graphs say the same, up to comments: of every role its attributes, of every target what is
granted and what must be absent, and the schemas and memberships. -/
structure SamePolicy (g g' : RoleGraph) : Prop where
  roles : ∀ name : String, g.roles[name]?.map (·.withoutComment) =
    g'.roles[name]?.map (·.withoutComment)
  schemas : g.schemas = g'.schemas
  grants : ∀ k, entryAt g.grants k = entryAt g'.grants k
  grantAbsences : ∀ k, entryAt g.grantAbsences k = entryAt g'.grantAbsences k
  defaultPrivileges : ∀ k, entryAt g.defaultPrivileges k = entryAt g'.defaultPrivileges k
  defaultPrivilegeAbsences : ∀ k,
    entryAt g.defaultPrivilegeAbsences k = entryAt g'.defaultPrivilegeAbsences k
  memberships : g.memberships = g'.memberships
  exclusiveMembershipRoles : g.exclusiveMembershipRoles = g'.exclusiveMembershipRoles

/-- Both sides of a round trip that passed. -/
structure RoundTrip (m candidate : PolicyManifest) (inventory : Inventory)
    (e e' : ExpandedManifest) (g g' : RoleGraph) : Prop where
  expands : expandManifest m = .ok e
  graph : RoleGraph.fromExpanded (withWildcardsExpanded e inventory) m.defaultOwner = .ok g
  candidate_expands : expandManifest candidate = .ok e'
  candidate_graph : RoleGraph.fromExpanded (withWildcardsExpanded e' inventory)
    candidate.defaultOwner = .ok g'
  silent : ∀ c ∈ diffResolved g g', c.IsComment

theorem isComment_iff {c : Change} : c.IsComment ↔ isSetComment c = true := by
  cases c with
  | setComment => exact ⟨fun _ => rfl, fun _ => trivial⟩
  | _ => exact ⟨fun h => h.elim, fun h => absurd h Bool.false_ne_true⟩

theorem exists_roundTrip {m candidate : PolicyManifest} {inventory : Inventory}
    (h : checkRoundTrip m candidate inventory = .ok ()) :
    ∃ e e' g g', RoundTrip m candidate inventory e e' g g' := by
  obtain ⟨e, he, h⟩ := bind_eq_ok.1 h
  obtain ⟨g, hg, h⟩ := bind_eq_ok.1 h
  obtain ⟨e', he', h⟩ := bind_eq_ok.1 h
  obtain ⟨g', hg', h⟩ := bind_eq_ok.1 h
  rw [rejectIf_eq_ok, Bool.not_eq_false', List.isEmpty_iff, List.filter_eq_nil_iff] at h
  refine ⟨e, e', g, g', mapError_eq_ok.1 he, mapError_eq_ok.1 hg, mapError_eq_ok.1 he',
    mapError_eq_ok.1 hg', fun c hc => isComment_iff.2 ?_⟩
  have haliases : g.routineAliases.isEmpty = true := by
    obtain ⟨entries, -, rfl⟩ := of_fromExpanded_eq_ok (mapError_eq_ok.1 hg)
    rfl
  have hplan : diff g g' = diffResolved g g' := by
    rw [diff, resolveRoutineAliases_of_isEmpty haliases]
  have hc := h c (by rw [hplan]; exact hc)
  simpa using hc

/-! ## Accepted suggestions -/

/-- A round trip that passed, of a candidate whose profiles are claimed. -/
structure Accepted (m : PolicyManifest) (used : Option Inventory) (state : ClusterState)
    (inventory : Inventory) (e e' : ExpandedManifest) (g g' : RoleGraph) : Prop where
  flat : m.profiles.isEmpty = true
  plain : ∀ b ∈ m.schemas, containsText b.name profilePlaceholder = false
  claims : Claims m used state
  complete : ∀ known, used = some known → inventory = known
  roundTrip : RoundTrip m (candidateManifest m state) inventory e e' g g'

namespace Accepted

variable {m : PolicyManifest} {used : Option Inventory} {state : ClusterState}
  {inventory : Inventory} {e e' : ExpandedManifest} {g g' : RoleGraph}
  (h : Accepted m used state inventory e e' g g')

include h

theorem expanded : e = mergeExpansions m [] := by
  obtain ⟨expansions, -, -, -, -, hexpansions, -, -, rfl⟩ :=
    of_expandManifest_eq_ok h.roundTrip.expands
  rw [expansions_eq_nil h.flat hexpansions]

theorem exists_expansions : ∃ expansions,
    expandBindings (candidateManifest m state) = .ok expansions ∧
      e' = mergeExpansions (candidateManifest m state) expansions := by
  obtain ⟨expansions, -, -, -, -, hexpansions, -, -, heq⟩ :=
    of_expandManifest_eq_ok h.roundTrip.candidate_expands
  exact ⟨expansions, hexpansions, heq⟩

/-! ### Roles -/

theorem mem_names_iff {name : String} :
    name ∈ m.roles.map (·.name) ↔ name ∈ e'.roles.map (·.name) := by
  have hroles := silent_roles h.roundTrip.silent name
  have hleft : name ∈ g.roles ↔ name ∈ m.roles.map (·.name) := by
    rw [mem_roles_iff h.roundTrip.graph, h.expanded]
    rfl
  have hright : name ∈ g'.roles ↔ name ∈ e'.roles.map (·.name) :=
    mem_roles_iff h.roundTrip.candidate_graph
  rw [← hleft, ← hright, ExtTreeMap.mem_iff_isSome_getElem?, ExtTreeMap.mem_iff_isSome_getElem?,
    ← Option.isSome_map (f := RoleState.withoutComment), hroles, Option.isSome_map]

/-- A profile gives its role to one that was taken into it: a role that stays flat would be declared
twice. -/
theorem expansion_clustered {expansions : List ProfileExpansion}
    (heq : e' = mergeExpansions (candidateManifest m state) expansions) {x : ProfileExpansion}
    (hx : x ∈ expansions) : x.role.name ∈ state.clustered := by
  have hnames : e'.roles.map (·.name) = expansions.map (fun x => x.role.name) ++
      (candidateManifest m state).roles.map (·.name) := by
    rw [heq]
    simp [mergeExpansions]
  have hnodup := nodup_roles_of_expandManifest h.roundTrip.candidate_expands
  rw [hnames] at hnodup
  have hexpanded : x.role.name ∈ expansions.map fun x => x.role.name :=
    List.mem_map.2 ⟨x, hx, rfl⟩
  have hdeclared : x.role.name ∈ m.roles.map (·.name) := by
    rw [h.mem_names_iff, hnames]
    exact List.mem_append_left _ hexpanded
  obtain ⟨d, hd, hname⟩ := List.mem_map.1 hdeclared
  by_contra hflat
  refine (List.disjoint_of_nodup_append hnodup) hexpanded (List.mem_map.2 ⟨d, ?_, hname⟩)
  refine List.mem_filter.2 ⟨hd, ?_⟩
  rw [hname, Bool.not_eq_true', contains_eq_false_iff]
  exact hflat

/-- The role of a profile, and why it was taken. -/
theorem exists_eligible {role : String} (hrole : role ∈ state.clustered) :
    ∃ d ∈ m.roles, d.name = role ∧ ∃ el,
      IsEligible m (grantsOf m used d.name) (defaultsOf m d.name) d el := by
  obtain ⟨el, pattern, name, representative, rfl, hclaim⟩ := h.claims.claimed role hrole
  obtain ⟨d, hd, hel⟩ := of_mem_eligibleRoles hclaim.eligible
  exact ⟨d, hd, hel.name.symm, el, hel⟩

/-- No role of a profile is `public`. -/
theorem not_public {role : String} (hrole : role ∈ state.clustered) :
    (Grantee.parse role).isPublic = false := by
  obtain ⟨d, hd, rfl, -⟩ := h.exists_eligible hrole
  have hreserved := (expandedChecks_of_expandManifest h.roundTrip.expands).public_reservation
  obtain ⟨-, hreserved⟩ := check_bind_eq_ok.1 hreserved
  obtain ⟨hroles, -⟩ := check_bind_eq_ok.1 hreserved
  rw [h.expanded] at hroles
  have hrole := rejectIf_eq_ok.1 (forM_eq_ok.1 hroles d hd)
  have hne : d.name ≠ publicRoleName := by simpa using hrole
  rw [Grantee.parse, if_neg hne]
  rfl

/-! ### Grants -/

omit h in
theorem mem_candidate_grants {expansions : List ProfileExpansion}
    (heq : e' = mergeExpansions (candidateManifest m state) expansions) {grant : Grant} :
    grant ∈ e'.grants ↔ (∃ x ∈ expansions, grant ∈ x.grants) ∨
      grant ∈ m.grants ∧ grant.role ∉ state.clustered := by
  rw [heq]
  show grant ∈ expansions.flatMap (·.grants) ++ m.grants.filter _ ↔ _
  rw [List.mem_append, List.mem_flatMap, List.mem_filter, Bool.not_eq_true',
    contains_eq_false_iff]

/-- The grants that profiles give are present, and go to roles of profiles. -/
theorem of_mem_expansion {expansions : List ProfileExpansion}
    (hexpansions : expandBindings (candidateManifest m state) = .ok expansions)
    (heq : e' = mergeExpansions (candidateManifest m state) expansions) {x : ProfileExpansion}
    (hx : x ∈ expansions) {grant : Grant} (hgrant : grant ∈ x.grants) :
    grant.role ∈ state.clustered ∧ grant.ensure = .present := by
  obtain ⟨b, -, name, -, hexpand⟩ := (mem_expansions hexpansions).1 hx
  obtain ⟨profile, -, hgives⟩ := givesTo_of_expandProfile hexpand
  obtain ⟨source, -, rfl⟩ := (hgives.grants grant).1 hgrant
  refine ⟨?_, rfl⟩
  show profileRoleName _ b name ∈ state.clustered
  rw [← hgives.role]
  exact h.expansion_clustered heq hx

/-- A role that stays flat has the same grants on both sides. -/
theorem flat_grants {grant : Grant} (hflat : grant.role ∉ state.clustered) :
    grant ∈ expandWildcards e.grants inventory ↔ grant ∈ expandWildcards e'.grants inventory := by
  obtain ⟨expansions, hexpansions, heq⟩ := h.exists_expansions
  have hsource : ∀ source : Grant, source.role ∉ state.clustered →
      (source ∈ e.grants ↔ source ∈ e'.grants) := by
    intro source hrole
    rw [mem_candidate_grants heq, h.expanded]
    constructor
    · exact fun hmem => Or.inr ⟨hmem, hrole⟩
    · intro hmem
      rcases hmem with ⟨x, hx, hmem⟩ | ⟨hmem, -⟩
      · exact absurd (h.of_mem_expansion hexpansions heq hx hmem).1 hrole
      · exact hmem
  rw [expandWildcards, expandWildcards, List.mem_flatMap, List.mem_flatMap]
  refine exists_congr fun source => and_congr_left fun hmem => hsource source ?_
  rw [← expandWildcard_role hmem]
  exact hflat

/-- A role of a profile has present grants alone. -/
theorem clustered_present {grant : Grant} (hgrant : grant ∈ expandWildcards e'.grants inventory)
    (hrole : grant.role ∈ state.clustered) : grant.ensure = .present := by
  obtain ⟨expansions, hexpansions, heq⟩ := h.exists_expansions
  have hsource : ∀ source ∈ e'.grants, source.role ∈ state.clustered → source.ensure = .present := by
    intro source hmem hsourceRole
    rcases (mem_candidate_grants heq).1 hmem with ⟨x, hx, hmem⟩ | ⟨-, hflat⟩
    · exact (h.of_mem_expansion hexpansions heq hx hmem).2
    · exact absurd hsourceRole hflat
  obtain ⟨source, hmem, hexpand⟩ := List.mem_flatMap.1 hgrant
  rw [expandWildcard_ensure hexpand]
  rw [expandWildcard_role hexpand] at hrole
  exact hsource source hmem hrole

/-! ### Claims -/

omit h in
theorem mem_signature {grants : List Grant} {defaults : List RoleDefault} {schema : String}
    {entry : SignatureGrant} :
    entry ∈ (computeSignature grants defaults schema).grants ↔
      ∃ grant ∈ grants, signatureGrant schema grant = entry := by
  show entry ∈ dedupRuns _ ↔ _
  rw [mem_dedupRuns, mem_sortBy, List.mem_map]

omit h in
/-- The target of a profile's grant, bound to a schema, is that of the grant it was made from. -/
theorem profileTarget_profileGrantOf {b : SchemaBinding} {grant : Grant}
    (htype : InSchema grant.object.objectType) :
    profileTarget b (profileGrantOf grant).object =
      ⟨grant.object.objectType, some b.name, grant.object.name⟩ := by
  obtain ⟨hschema, -⟩ := htype
  unfold profileTarget profileGrantOf
  cases ht : grant.object.objectType with
  | schema => exact absurd ht hschema
  | _ => rfl

omit h in
theorem signatureGrant_eq_iff {schema schema' : String} {a b : Grant}
    (htype : InSchema b.object.objectType) :
    signatureGrant schema a = signatureGrant schema' b ↔
      a.object.objectType = b.object.objectType ∧ a.object.name = b.object.name ∧
        canonicalPrivs a.privileges = canonicalPrivs b.privileges := by
  obtain ⟨hschema, -⟩ := htype
  have hname : ∀ (s : String) (grant : Grant), grant.object.objectType = b.object.objectType →
      (signatureGrant s grant).name = grant.object.name := by
    intro s grant ht
    unfold signatureGrant
    rw [← ht] at hschema
    split
    · next hs => exact absurd hs hschema
    · rfl
  constructor
  · intro heq
    have ht : a.object.objectType = b.object.objectType := congrArg SignatureGrant.objectType heq
    refine ⟨ht, ?_, congrArg SignatureGrant.privileges heq⟩
    rw [← hname schema a ht, heq, hname schema' b rfl]
  · rintro ⟨ht, hn, hp⟩
    have hfields : signatureGrant schema a =
        ⟨a.object.objectType, (signatureGrant schema a).name, canonicalPrivs a.privileges⟩ := rfl
    rw [hfields, hname schema a ht, ht, hn, hp, ← hname schema' b rfl]
    rfl

/-- What a role of a profile holds on the objects of its schema, the profile gives it. -/
theorem exists_given {role : String} (hrole : role ∈ state.clustered) {grant : Grant}
    (hgrant : grant ∈ grantsOf m used role) (htype : InSchema grant.object.objectType) :
    ∃ given ∈ e'.grants, given.role = role ∧ given.ensure = .present ∧
      given.object = grant.object ∧ ∀ p, p ∈ given.privileges ↔ p ∈ grant.privileges := by
  obtain ⟨el, pattern, name, representative, rfl, hclaim⟩ := h.claims.claimed role hrole
  obtain ⟨d, -, hel⟩ := of_mem_eligibleRoles hclaim.eligible
  obtain ⟨d', -, hrep⟩ := of_mem_eligibleRoles hclaim.built_from
  rw [← hel.name] at hel
  rw [← hrep.name] at hrep
  obtain ⟨-, hschema⟩ := hel.held grant hgrant
  rw [grantSchema?_of_inSchema htype] at hschema
  -- The role the profile was built from holds the same, in its own schema.
  have hentry : signatureGrant el.schema grant ∈ el.signature.grants := by
    rw [hel.signature]
    exact mem_signature.2 ⟨grant, hgrant, rfl⟩
  rw [← hclaim.signature, hrep.signature] at hentry
  obtain ⟨source, hsource, hsame⟩ := mem_signature.1 hentry
  obtain ⟨hsourceType, hsourceName, hsourcePrivileges⟩ := (signatureGrant_eq_iff htype).1 hsame
  -- The schema is declared, and bound to the profile under its pattern.
  obtain ⟨owner, howner⟩ := hel.declared
  obtain ⟨b, hb, heq⟩ := List.mem_map.1 (mem_of_getElem?_ofList howner)
  obtain ⟨hname, -⟩ := Prod.mk.inj heq
  obtain ⟨login, inherit, hbuilt⟩ := hclaim.built
  have hbound : BoundProfile (candidateManifest m state) (candidateSchema state b) name
      (buildProfile login inherit (grantsOf m used representative.roleName)
        (defaultsOf m representative.roleName)) := by
    refine ⟨mem_sortBy.2 (List.mem_map.2 ⟨b, hb, rfl⟩), mem_sortBy.2 ?_, hbuilt⟩
    rw [hname]
    exact hclaim.bound
  have hpattern : bindingPattern (candidateManifest m state) (candidateSchema state b) =
      pattern := by
    unfold bindingPattern candidateSchema
    simp only [hname, hclaim.committed, Option.some_or, Option.getD_some]
  have hexpanded : profileRoleName (candidateManifest m state) (candidateSchema state b) name =
      el.roleName := by
    rw [profileRoleName, hpattern]
    show substitutePlaceholders pattern b.name name = el.roleName
    refine substitute_of_matchPattern hclaim.pattern_mem (h.plain b hb) ?_
    rw [hname]
    exact hclaim.matched
  obtain ⟨expansions, hexpansions, hmerge⟩ := h.exists_expansions
  obtain ⟨x, hx, hgives⟩ := exists_gives hexpansions hbound
  refine ⟨_, (mem_candidate_grants hmerge).2 (Or.inl ⟨x, hx, (hgives.grants _).2
    ⟨profileGrantOf source, mem_sortBy.2 (List.mem_map.2 ⟨source, hsource, rfl⟩), rfl⟩⟩),
    hexpanded, rfl, ?_, fun p => ?_⟩
  · show profileTarget (candidateSchema state b) (profileGrantOf source).object = grant.object
    rw [← hsourceType] at htype
    rw [profileTarget_profileGrantOf htype, hsourceType, hsourceName]
    show (⟨_, some b.name, _⟩ : ObjectTarget) = _
    rw [hname, ← hschema]
  · show p ∈ canonicalPrivs source.privileges ↔ p ∈ grant.privileges
    rw [hsourcePrivileges, mem_canonicalPrivs]

/-! ### The graphs -/

theorem mem_original {grant : Grant} :
    grant ∈ expandWildcards e.grants inventory ↔
      ∃ source ∈ m.grants, grant ∈ expandWildcard inventory source := by
  rw [expandWildcards, List.mem_flatMap, h.expanded]
  rfl

omit h in
theorem role_eq_of_key {grant : Grant} {k : GrantKey} {role : String}
    (hkey : grantKeyFromManifest grant = k) (hk : k.role = .parse role) : grant.role = role := by
  rw [← hkey] at hk
  exact Grantee.parse_injective hk

/-- Whatever the manifest says of a role of a profile about the objects of its schema, the profile
grants it. -/
theorem held_of_source {source : Grant} (hsource : source ∈ m.grants)
    (hrole : source.role ∈ state.clustered) (htype : InSchema source.object.objectType)
    {grant : Grant} (hgrant : grant ∈ expandWildcard inventory source) {p : Privilege}
    (hp : p ∈ grant.privileges) : p ∈ entryAt g'.grants (grantKeyFromManifest grant) := by
  rw [mem_entryAt_grants h.roundTrip.candidate_graph]
  show ∃ given ∈ expandWildcards e'.grants inventory, _
  rcases @grantsOf_cases m used source hsource with hheld | ⟨known, hknown, wildcard, hheld, scope,
    name, hstands⟩
  · -- The grant itself, with its own expansion.
    obtain ⟨given, hgiven, hgivenRole, hensure, hobject, hprivileges⟩ :=
      h.exists_given hrole hheld htype
    refine ⟨_, List.mem_flatMap.2 ⟨given, hgiven, expandWildcard_copy hobject hgrant⟩, hensure,
      grantKeyFromManifest_eq_iff.2 ⟨hgivenRole.trans (expandWildcard_role hgrant).symm, rfl⟩,
      (hprivileges p).2 ?_⟩
    rw [← expandWildcard_privileges hgrant]
    exact hp
  · -- A wildcard in its place, over an inventory that has the object.
    obtain ⟨-, hschema, htypeEq, hname, -⟩ := namedObject?_eq_some.1 hstands.named
    obtain rfl := eq_of_mem_expandWildcard (wildcardScope?_of_named hstands.named) hgrant
    have hwildType : InSchema wildcard.object.objectType := by
      rw [hstands.object, ← htypeEq]
      exact htype
    obtain ⟨given, hgiven, hgivenRole, hensure, hobject, hprivileges⟩ :=
      h.exists_given hrole hheld hwildType
    obtain ⟨names, hnames, hin⟩ := hstands.inventory
    rw [← h.complete known hknown] at hnames
    rw [hstands.object] at hobject
    rw [hstands.object] at hwildType
    have hscope : wildcardScope? given = some scope := by
      refine wildcardScope?_eq_some.2 ⟨?_, ?_, ?_, ?_⟩
      · rw [hobject]
        exact hwildType
      · rw [hobject]
      · rw [hobject]
      · rw [hobject]
    refine ⟨_, List.mem_flatMap.2 ⟨given, hgiven, mem_expandWildcard_of_scope hscope hnames hin⟩,
      hensure, grantKeyFromManifest_eq_iff.2 ⟨hgivenRole, ?_⟩, (hprivileges p).2 ?_⟩
    · rw [hobject]
      show (⟨scope.2, some scope.1, some name⟩ : ObjectTarget) = grant.object
      rw [← htypeEq, ← hschema, ← hname]
    · rw [hstands.privileges, mem_canonicalPrivs]
      exact hp

/-- A role of a profile has grants in one schema. -/
theorem exists_schema {role : String} (hrole : role ∈ state.clustered) :
    ∃ schema, ∀ source ∈ m.grants, source.role = role → grantSchema? source = some schema := by
  obtain ⟨d, -, rfl, el, hel⟩ := h.exists_eligible hrole
  exact ⟨el.schema, fun source hsource hname => (eligible_grants hel hsource hname).1⟩

/-- Nothing is asserted absent of a role of a profile. -/
theorem no_candidate_absences {k : GrantKey} {role : String} (hrole : role ∈ state.clustered)
    (hk : k.role = .parse role) (p : Privilege) : p ∉ entryAt g'.grantAbsences k := by
  intro hp
  obtain ⟨grant, hgrant, hensure, hkey, -⟩ :=
    (mem_entryAt_grantAbsences h.roundTrip.candidate_graph).1 hp
  obtain rfl := role_eq_of_key hkey hk
  rw [h.clustered_present hgrant hrole] at hensure
  cases hensure

/-- The schemas that a role of a profile is granted something on are one. -/
theorem exists_schema_name {role : String} (hrole : role ∈ state.clustered) :
    ∃ schema, ∀ k : GrantKey, k.role = .parse role → k.objectType = .schema →
      g.grants[k]?.isSome → k.name = some schema := by
  obtain ⟨schema, hschema⟩ := h.exists_schema hrole
  refine ⟨schema, fun k hk htype hsome => ?_⟩
  obtain ⟨grant, hgrant, -, rfl⟩ := (isSome_grants h.roundTrip.graph).1 hsome
  obtain ⟨source, hsource, hexpand⟩ := h.mem_original.1 hgrant
  have htype : grant.object.objectType = .schema := htype
  have hsourceType : ¬ InSchema source.object.objectType := fun hin =>
    hin.1 ((expandWildcard_objectType hexpand).symm.trans htype)
  obtain rfl := eq_of_mem_expandWildcard (wildcardScope?_of_not_inSchema hsourceType) hexpand
  have hown := hschema grant hsource (role_eq_of_key rfl hk)
  unfold grantSchema? at hown
  rw [htype] at hown
  exact hown

/-- A schema that a role of a profile is granted something on, its profile grants it: the plan would
revoke it otherwise. -/
theorem held_of_schema {k : GrantKey} {role : String} (hrole : role ∈ state.clustered)
    (hk : k.role = .parse role) (htype : k.objectType = .schema) {p : Privilege}
    (hp : p ∈ entryAt g.grants k) : p ∈ entryAt g'.grants k := by
  obtain ⟨schema, hnames⟩ := h.exists_schema_name hrole
  have hsome : ∀ {a : GrantKey}, p ∈ entryAt g.grants a → g.grants[a]?.isSome := by
    intro a ha
    rw [getElem?_of_mem_entryAt ha]
    rfl
  have hname := hnames k hk htype (hsome hp)
  obtain ⟨hgrantors, hinherent⟩ : g.grantEntryGrantors = ∅ ∧ g.inherentGrants = ∅ := by
    obtain ⟨entries, -, rfl⟩ := of_fromExpanded_eq_ok h.roundTrip.graph
    exact ⟨rfl, rfl⟩
  by_contra hno
  have hexcess : p ∈ entryAt g.grants k \ entryAt g'.grants k := Finset.mem_sdiff.2 ⟨hp, hno⟩
  -- No revoke is planned: it would be on a wildcard that leaves objects of other names alone.
  have hshadow : p ∉ shadowFilter g' k (entryAt g.grants k \ entryAt g'.grants k) := by
    intro hshadow
    have hacc : p ∈ entryAt (accumulatedRevokes g g') k := by
      refine mem_accumulatedRevokes.2 (Or.inl ⟨?_, ?_, hshadow⟩)
      · rw [hk]
        exact h.not_public hrole
      · rw [hinherent]
        exact ExtTreeSet.not_mem_empty
    obtain ⟨hwild, a, hscope, hconcrete, ha⟩ :=
      silent_accumulated h.roundTrip.silent hgrantors hinherent hacc
    obtain ⟨haRole, haType, -⟩ := GrantKey.sameScope_iff.1 hscope
    have haName := hnames a (haRole.trans hk) (haType.trans htype) ha
    rw [GrantKey.isWildcard, haName, ← hname, ← GrantKey.isWildcard, hwild] at hconcrete
    cases hconcrete
  cases hwild : k.isWildcard with
  | true =>
      rw [shadowFilter, if_pos hwild] at hshadow
      exact hshadow hexcess
  | false =>
      -- Nor is it shadowed: the wildcard would be a schema of another name.
      refine hshadow ((mem_shadowFilter hwild).2 ⟨hexcess, fun hcovered => ?_, fun habsent => ?_⟩)
      · unfold desiredWildcard at hcovered
        split at hcovered
        · have hheld := silent_grants_subset h.roundTrip.silent k.wildcard hcovered
          have hstar := hnames k.wildcard hk htype (hsome hheld)
          have hsame : k.isWildcard = k.wildcard.isWildcard := by
            rw [GrantKey.isWildcard, GrantKey.isWildcard, hname, hstar]
          rw [hwild, GrantKey.isWildcard_wildcard] at hsame
          cases hsame
        · exact Finset.notMem_empty p hcovered
      · unfold absenceWildcard at habsent
        split at habsent
        · exact h.no_candidate_absences (k := k.wildcard) hrole hk p habsent
        · exact Finset.notMem_empty p habsent

/-- Both graphs grant the same. -/
theorem grants_eq (k : GrantKey) : entryAt g.grants k = entryAt g'.grants k := by
  by_cases hk : ∃ role ∈ state.clustered, k.role = .parse role
  · obtain ⟨role, hrole, hk⟩ := hk
    refine (silent_grants_subset h.roundTrip.silent k).antisymm' fun p hp => ?_
    obtain ⟨grant, hgrant, -, rfl, hgranted⟩ := (mem_entryAt_grants h.roundTrip.graph).1 hp
    obtain ⟨source, hsource, hexpand⟩ := h.mem_original.1 hgrant
    have hsourceRole : source.role ∈ state.clustered := by
      rw [← expandWildcard_role hexpand, role_eq_of_key rfl hk]
      exact hrole
    by_cases hschemaType : source.object.objectType = .schema
    · exact h.held_of_schema hrole hk ((expandWildcard_objectType hexpand).trans hschemaType) hp
    · refine h.held_of_source hsource hsourceRole ⟨hschemaType, fun hdatabase => ?_⟩ hexpand hgranted
      obtain ⟨schema, hschema⟩ := h.exists_schema hsourceRole
      have hnone := hschema source hsource rfl
      unfold grantSchema? at hnone
      rw [hdatabase] at hnone
      cases hnone
  · refine Finset.ext fun p => ?_
    rw [mem_entryAt_grants h.roundTrip.graph, mem_entryAt_grants h.roundTrip.candidate_graph]
    refine exists_congr fun grant => and_congr_left fun hrest => h.flat_grants fun hrole => ?_
    obtain ⟨-, rfl, -⟩ := hrest
    exact hk ⟨grant.role, hrole, rfl⟩

/-- A named object is not both granted and asserted absent, by its name or by a wildcard. -/
theorem ensure_eq {a b : Grant} (ha : a ∈ m.grants) (hb : b ∈ m.grants) {grant : Grant}
    (hgrant : grant ∈ expandWildcard inventory a)
    (hkey : grantKeyFromManifest grant = grantKeyFromManifest b) {p : Privilege}
    (hpa : p ∈ a.privileges) (hpb : p ∈ b.privileges) {scope : String × ObjectType} {name : String}
    (hnamed : namedObject? b = some (scope, name)) : a.ensure = b.ensure := by
  obtain ⟨hrole, hobject⟩ := grantKeyFromManifest_eq_iff.1 hkey
  rw [expandWildcard_role hgrant] at hrole
  obtain ⟨noted, hnoted⟩ := exists_assertionsNoted h.roundTrip.expands
  rw [h.expanded] at hnoted
  have hconsistent : Consistent (grantAssertions m.grants) := hnoted.consistent
  rcases expandWildcard_cases hgrant with rfl | ⟨found, n, hwild, rfl⟩
  · refine hconsistent.same_target _ (mem_grantAssertions ha hpa) _ (mem_grantAssertions hb hpb) ?_
    simp only [assertionKey, hrole, hobject]
  · obtain ⟨-, hschema, -, hname, hne⟩ := namedObject?_eq_some.1 hnamed
    obtain ⟨-, -, -, hstar⟩ := wildcardScope?_eq_some.1 hwild
    have htype := congrArg ObjectTarget.objectType hobject
    have hsame := congrArg ObjectTarget.schema hobject
    exact hconsistent.same_selectors _ (mem_grantAssertions ha hpa) _ (mem_grantAssertions hb hpb)
      scope.1 name ⟨rfl, hrole, htype, hsame.trans hschema, hschema, hstar, hname, hne⟩

/-- A role of a profile has no absences: one that was collapsed would be granted by the profile, and
so on both sides. -/
theorem no_original_absences {k : GrantKey} {role : String} (hrole : role ∈ state.clustered)
    (hk : k.role = .parse role) (p : Privilege) : p ∉ entryAt g.grantAbsences k := by
  intro hp
  obtain ⟨grant, hgrant, hensure, rfl, hasserted⟩ :=
    (mem_entryAt_grantAbsences h.roundTrip.graph).1 hp
  obtain ⟨b, hb, hexpand⟩ := h.mem_original.1 hgrant
  have hbRole : b.role = role := by
    rw [← expandWildcard_role hexpand]
    exact role_eq_of_key rfl hk
  obtain ⟨d, -, hd, el, hel⟩ := h.exists_eligible hrole
  rcases (eligible_grants hel hb (hbRole.trans hd.symm)).2 with hpresent | ⟨known, -, wildcard, -,
    scope, name, -, hstands⟩
  · rw [expandWildcard_ensure hexpand, hpresent] at hensure
    cases hensure
  · obtain rfl := eq_of_mem_expandWildcard (wildcardScope?_of_named hstands.named) hexpand
    rw [← hbRole] at hrole
    have hheld := silent_grants_subset h.roundTrip.silent _ (h.held_of_source hb hrole
      (namedObject?_eq_some.1 hstands.named).1 hexpand hasserted)
    obtain ⟨given, hgiven, hpresent, hkey, hgranted⟩ :=
      (mem_entryAt_grants h.roundTrip.graph).1 hheld
    obtain ⟨a, ha, hexpanda⟩ := h.mem_original.1 hgiven
    rw [expandWildcard_privileges hexpanda] at hgranted
    rw [expandWildcard_ensure hexpanda,
      h.ensure_eq ha hb hexpanda hkey hgranted hasserted hstands.named, hensure] at hpresent
    cases hpresent

/-- Both graphs assert the same absent. -/
theorem grantAbsences_eq (k : GrantKey) : entryAt g.grantAbsences k = entryAt g'.grantAbsences k := by
  refine Finset.ext fun p => ?_
  by_cases hk : ∃ role ∈ state.clustered, k.role = .parse role
  · obtain ⟨role, hrole, hk⟩ := hk
    exact iff_of_false (h.no_original_absences hrole hk p) (h.no_candidate_absences hrole hk p)
  · rw [mem_entryAt_grantAbsences h.roundTrip.graph,
      mem_entryAt_grantAbsences h.roundTrip.candidate_graph]
    refine exists_congr fun grant => and_congr_left fun hrest => h.flat_grants fun hrole => ?_
    obtain ⟨-, rfl, -⟩ := hrest
    exact hk ⟨grant.role, hrole, rfl⟩

/-! ### Default privileges -/

omit h in
/-- The default privileges of a graph, by their declarations. -/
theorem mem_defaults {e : ExpandedManifest} {defaultOwner : Option String} {g : RoleGraph}
    (hgraph : RoleGraph.fromExpanded (withWildcardsExpanded e inventory) defaultOwner = .ok g)
    (k : DefaultPrivKey) (p : Privilege) :
    (p ∈ entryAt g.defaultPrivileges k ↔ ∃ entry : DefaultPrivilegeEntry,
      (∃ d ∈ e.defaultPrivileges, d.HasEntry defaultOwner entry) ∧ entry.ensure = .present ∧
        entry.key = k ∧ p ∈ entry.privileges) ∧
    (p ∈ entryAt g.defaultPrivilegeAbsences k ↔ ∃ entry : DefaultPrivilegeEntry,
      (∃ d ∈ e.defaultPrivileges, d.HasEntry defaultOwner entry) ∧ entry.ensure = .absent ∧
        entry.key = k ∧ p ∈ entry.privileges) := by
  obtain ⟨entries, hentries, rfl⟩ := of_fromExpanded_eq_ok hgraph
  constructor
  · refine mem_entryAt_entriesWith.trans (exists_congr fun entry => and_congr_left fun _ => ?_)
    exact mem_flatten_entries_iff hentries
  · refine mem_entryAt_entriesWith.trans (exists_congr fun entry => and_congr_left fun _ => ?_)
    exact mem_flatten_entries_iff hentries

omit h in
/-- What is kept of a declaration is what it says about roles that stay flat. -/
theorem of_keptDefault_eq_some {d kept : DefaultPrivilege} (hkept : keptDefault state d = some kept) :
    kept.owner = d.owner ∧ kept.schema = d.schema ∧ kept.scope = d.scope ∧
      ∀ grant ∈ kept.grant, grant ∈ d.grant ∧
        ∀ role, grant.role = some role → role ∉ state.clustered := by
  unfold keptDefault at hkept
  simp only at hkept
  split at hkept
  · cases hkept
  · obtain rfl := Option.some.inj hkept
    refine ⟨rfl, rfl, rfl, fun grant hgrant => ?_⟩
    obtain ⟨hgrant, hflat⟩ := List.mem_filter.1 hgrant
    refine ⟨hgrant, fun role hrole => ?_⟩
    simp only [hrole] at hflat
    rwa [Bool.not_eq_true', contains_eq_false_iff] at hflat

omit h in
theorem exists_keptDefault {d : DefaultPrivilege} {grant : DefaultPrivilegeGrant}
    (hgrant : grant ∈ d.grant) {role : String} (hrole : grant.role = some role)
    (hflat : role ∉ state.clustered) :
    ∃ kept, keptDefault state d = some kept ∧ kept.owner = d.owner ∧ kept.schema = d.schema ∧
      kept.scope = d.scope ∧ grant ∈ kept.grant := by
  have hkeeps : (!state.clustered.contains role) = true := by
    rwa [Bool.not_eq_true', contains_eq_false_iff]
  unfold keptDefault
  simp only
  rw [if_neg]
  · refine ⟨_, rfl, rfl, rfl, rfl, List.mem_filter.2 ⟨hgrant, ?_⟩⟩
    simp only [hrole]
    exact hkeeps
  · rw [List.isEmpty_iff]
    refine List.ne_nil_of_mem (List.mem_filter.2 ⟨hgrant, ?_⟩)
    simp only [hrole]
    exact hkeeps

/-- A default privilege of the candidate: a profile's, or one that was kept. -/
theorem candidate_default {d : DefaultPrivilege} (hd : d ∈ e'.defaultPrivileges)
    {grant : DefaultPrivilegeGrant} (hgrant : grant ∈ d.grant) {role : String}
    (hrole : grant.role = some role) :
    (role ∈ state.clustered ∧ grant.ensure = .present) ∨
      role ∉ state.clustered ∧ ∃ source ∈ m.defaultPrivileges, grant ∈ source.grant ∧
        d.schema = source.schema ∧ d.scope = source.scope ∧
          d.owner = source.owner.or m.defaultOwner := by
  obtain ⟨expansions, hexpansions, heq⟩ := h.exists_expansions
  rw [heq] at hd
  obtain ⟨declared, hdeclared, rfl⟩ := List.mem_map.1 hd
  rcases List.mem_append.1 hdeclared with hgiven | hkept
  · obtain ⟨x, hx, hgiven⟩ := List.mem_flatMap.1 hgiven
    obtain ⟨b, -, name, -, hexpand⟩ := (mem_expansions hexpansions).1 hx
    obtain ⟨profile, -, hgives⟩ := givesTo_of_expandProfile hexpand
    obtain ⟨hname, hensure⟩ := hgives.defaults declared hgiven grant hgrant
    rw [← hgives.role, hrole] at hname
    rw [Option.some.inj hname]
    exact Or.inl ⟨h.expansion_clustered heq hx, hensure⟩
  · obtain ⟨source, hsource, hkept⟩ := List.mem_filterMap.1 hkept
    obtain ⟨howner, hschema, hscope, hgrants⟩ := of_keptDefault_eq_some hkept
    obtain ⟨hmem, hflat⟩ := hgrants grant hgrant
    refine Or.inr ⟨hflat role hrole, source, hsource, hmem, hschema, hscope, ?_⟩
    rw [← howner]
    rfl

omit h in
/-- The scope of a declaration does not depend on its grants. -/
theorem resolvedScope_congr {d d' : DefaultPrivilege} (hschema : d.schema = d'.schema)
    (hscope : d.scope = d'.scope) {scope : DefaultPrivilegeScope}
    (hresolved : d.resolvedScope = .ok scope) : d'.resolvedScope = .ok scope := by
  obtain ⟨owner, schema, declared, grants⟩ := d
  obtain ⟨owner', schema', declared', grants'⟩ := d'
  obtain rfl : schema = schema' := hschema
  obtain rfl : declared = declared' := hscope
  unfold DefaultPrivilege.resolvedScope at hresolved ⊢
  revert hresolved
  simp only
  split <;> simp

/-- A role that stays flat has the same default privileges on both sides. -/
theorem flat_defaults {entry : DefaultPrivilegeEntry}
    (hflat : ∀ role ∈ state.clustered, entry.key.grantee ≠ .parse role) :
    (∃ d ∈ e.defaultPrivileges, d.HasEntry m.defaultOwner entry) ↔
      ∃ d ∈ e'.defaultPrivileges, d.HasEntry m.defaultOwner entry := by
  rw [h.expanded]
  constructor
  · intro hentry
    obtain ⟨d, hd, grant, hgrant, role, hrole, scope, hscope, rfl⟩ := hentry
    obtain ⟨source, hsource, rfl⟩ := List.mem_map.1 hd
    obtain ⟨kept, hkept, howner, hschema, hdeclared, hmem⟩ :=
      @exists_keptDefault state source grant hgrant role hrole fun hclustered =>
        hflat role hclustered rfl
    obtain ⟨expansions, -, heq⟩ := h.exists_expansions
    refine ⟨{ kept with owner := kept.owner.or m.defaultOwner }, ?_, grant, hmem, role, hrole,
      scope, resolvedScope_congr ?_ ?_ hscope, ?_⟩
    · rw [heq]
      exact List.mem_map.2 ⟨kept, List.mem_append_right _
        (List.mem_filterMap.2 ⟨source, hsource, hkept⟩), rfl⟩
    · exact hschema.symm
    · exact hdeclared.symm
    · unfold defaultPrivilegeOwner
      simp only [howner]
  · intro hentry
    obtain ⟨d, hd, grant, hgrant, role, hrole, scope, hscope, rfl⟩ := hentry
    rcases h.candidate_default hd hgrant hrole with ⟨hclustered, -⟩ | ⟨-, source, hsource, hmem,
      hschema, hdeclared, howner⟩
    · exact absurd rfl (hflat role hclustered)
    · refine ⟨{ source with owner := source.owner.or m.defaultOwner },
        List.mem_map.2 ⟨source, hsource, rfl⟩, grant, hmem, role, hrole, scope,
        resolvedScope_congr ?_ ?_ hscope, ?_⟩
      · exact hschema
      · exact hdeclared
      · unfold defaultPrivilegeOwner
        simp only [howner]

/-- No default privilege of a role of a profile is asserted absent. -/
theorem no_absent_defaults {k : DefaultPrivKey} {role : String} (hrole : role ∈ state.clustered)
    (hk : k.grantee = .parse role) (p : Privilege) :
    p ∉ entryAt g.defaultPrivilegeAbsences k ∧ p ∉ entryAt g'.defaultPrivilegeAbsences k := by
  obtain ⟨d, -, rfl, el, hel⟩ := h.exists_eligible hrole
  constructor
  · intro hp
    obtain ⟨entry, ⟨source, hsource, hentry⟩, hensure, rfl, -⟩ :=
      (mem_defaults h.roundTrip.graph k p).2.1 hp
    rw [h.expanded] at hsource
    obtain ⟨declared, hdeclared, rfl⟩ := List.mem_map.1 hsource
    obtain ⟨grant, hgrant, role, hgrantRole, scope, -, rfl⟩ := hentry
    obtain rfl := Grantee.parse_injective hk
    have hall := List.any_eq_false.1 hel.no_absent_defaults declared hdeclared
    refine hall (List.any_eq_true.2 ⟨grant, hgrant, ?_⟩)
    rw [hgrantRole, show grant.ensure = .absent from hensure]
    simp
  · intro hp
    obtain ⟨entry, ⟨source, hsource, hentry⟩, hensure, rfl, -⟩ :=
      (mem_defaults h.roundTrip.candidate_graph k p).2.1 hp
    obtain ⟨grant, hgrant, role, hgrantRole, scope, -, rfl⟩ := hentry
    obtain rfl := Grantee.parse_injective hk
    rcases h.candidate_default hsource hgrant hgrantRole with ⟨-, hpresent⟩ | ⟨hflat, -⟩
    · rw [show grant.ensure = .absent from hensure] at hpresent
      cases hpresent
    · exact hflat hrole

/-- Both graphs have the same default privileges. -/
theorem defaults_eq (k : DefaultPrivKey) :
    entryAt g.defaultPrivileges k = entryAt g'.defaultPrivileges k ∧
      entryAt g.defaultPrivilegeAbsences k = entryAt g'.defaultPrivilegeAbsences k := by
  by_cases hk : ∃ role ∈ state.clustered, k.grantee = .parse role
  · obtain ⟨role, hrole, hk⟩ := hk
    have hpublic : k.grantee.isPublic = false := by
      rw [hk]
      exact h.not_public hrole
    refine ⟨(silent_defaults_superset h.roundTrip.silent hpublic).antisymm
      (silent_defaults_subset h.roundTrip.silent k), Finset.ext fun p => ?_⟩
    obtain ⟨hleft, hright⟩ := h.no_absent_defaults hrole hk p
    exact iff_of_false hleft hright
  · have hflat : ∀ entry : DefaultPrivilegeEntry, entry.key = k →
        ∀ role ∈ state.clustered, entry.key.grantee ≠ .parse role := by
      rintro entry rfl role hrole hsame
      exact hk ⟨role, hrole, hsame⟩
    constructor
    · refine Finset.ext fun p => ?_
      rw [(mem_defaults h.roundTrip.graph k p).1, (mem_defaults h.roundTrip.candidate_graph k p).1]
      refine exists_congr fun entry => and_congr_left fun hrest => ?_
      exact h.flat_defaults (hflat entry hrest.2.1)
    · refine Finset.ext fun p => ?_
      rw [(mem_defaults h.roundTrip.graph k p).2, (mem_defaults h.roundTrip.candidate_graph k p).2]
      refine exists_congr fun entry => and_congr_left fun hrest => ?_
      exact h.flat_defaults (hflat entry hrest.2.1)

/-! ### Schemas and memberships -/

theorem schemas_eq : g.schemas = g'.schemas := by
  obtain ⟨expansions, -, heq⟩ := h.exists_expansions
  obtain ⟨entries, -, rfl⟩ := of_fromExpanded_eq_ok h.roundTrip.graph
  obtain ⟨entries', -, rfl⟩ := of_fromExpanded_eq_ok h.roundTrip.candidate_graph
  obtain ⟨-, -, -, -, hnodup, -⟩ := of_expandManifest_eq_ok h.roundTrip.expands
  rw [rejectDuplicates_eq_ok] at hnodup
  show ExtTreeMap.ofList (e.schemas.map _) compare = ExtTreeMap.ofList (e'.schemas.map _) compare
  have hperm : e'.schemas.Perm e.schemas := by
    have hsorted : (candidateManifest m state).schemas.Perm (m.schemas.map (candidateSchema state)) :=
      List.perm_insertionSort _ _
    have hsame := hsorted.map fun b => (⟨b.name, b.owner.or m.defaultOwner⟩ : ExpandedSchema)
    rw [List.map_map] at hsame
    rw [heq, h.expanded]
    exact hsame
  refine (ofList_eq_of_perm ?_ (hperm.map _).symm)
  rw [h.expanded]
  simpa [mergeExpansions, Function.comp_def] using hnodup.1

theorem memberships_eq : g.memberships = g'.memberships ∧
    g.exclusiveMembershipRoles = g'.exclusiveMembershipRoles := by
  obtain ⟨expansions, -, heq⟩ := h.exists_expansions
  obtain ⟨entries, -, rfl⟩ := of_fromExpanded_eq_ok h.roundTrip.graph
  obtain ⟨entries', -, rfl⟩ := of_fromExpanded_eq_ok h.roundTrip.candidate_graph
  have hsame : e.memberships = e'.memberships := by
    rw [heq, h.expanded]
    rfl
  show ExtTreeSet.ofList (membershipEdges e.memberships) compare =
      ExtTreeSet.ofList (membershipEdges e'.memberships) compare ∧
    ExtTreeSet.ofList ((e.memberships.filter (·.exclusive)).map (·.role)) compare =
      ExtTreeSet.ofList ((e'.memberships.filter (·.exclusive)).map (·.role)) compare
  rw [hsame]
  exact ⟨rfl, rfl⟩

theorem samePolicy : SamePolicy g g' where
  roles := silent_roles h.roundTrip.silent
  schemas := h.schemas_eq
  grants := h.grants_eq
  grantAbsences := h.grantAbsences_eq
  defaultPrivileges k := (h.defaults_eq k).1
  defaultPrivilegeAbsences k := (h.defaults_eq k).2
  memberships := h.memberships_eq.1
  exclusiveMembershipRoles := h.memberships_eq.2

end Accepted

/-! ## Suggestions -/

/-- What the clusters of a manifest have claimed in the end. -/
def suggestedState (m : PolicyManifest) (opts : SuggestOptions) : ClusterState :=
  let used := usedInventory m opts
  clusterRoles m opts.minSchemas used.1 (used.2 ++ skippedRoles m used.1)

/-- The manifest is returned as it was, or the candidate that passed the round trip. -/
theorem suggestProfiles_cases (m : PolicyManifest) (opts : SuggestOptions) :
    (suggestProfiles m opts).manifest = m ∨
      m.profiles.isEmpty = true ∧
        (suggestProfiles m opts).manifest = candidateManifest m (suggestedState m opts) ∧
          checkRoundTrip m (candidateManifest m (suggestedState m opts))
            (roundTripInventory m opts) = .ok () := by
  unfold suggestProfiles
  split
  · exact Or.inl rfl
  · next hflat =>
      simp only
      split
      · next hcheck => exact Or.inr ⟨by simpa using hflat, rfl, hcheck⟩
      · exact Or.inl rfl

/-- A suggestion is the manifest as it was, or one whose policy is the same: both are accepted, and
over the inventory that wildcards are read with they say the same. -/
theorem suggestProfiles_samePolicy (m : PolicyManifest) (opts : SuggestOptions)
    (hplain : ∀ b ∈ m.schemas, containsText b.name profilePlaceholder = false) :
    (suggestProfiles m opts).manifest = m ∨ ∃ e e' g g',
      RoundTrip m (suggestProfiles m opts).manifest (roundTripInventory m opts) e e' g g' ∧
        SamePolicy g g' := by
  rcases suggestProfiles_cases m opts with hsame | ⟨hflat, hmanifest, hcheck⟩
  · exact Or.inl hsame
  · obtain ⟨e, e', g, g', htrip⟩ := exists_roundTrip hcheck
    rw [hmanifest]
    refine Or.inr ⟨e, e', g, g', htrip, Accepted.samePolicy
      { flat := hflat
        plain := hplain
        claims := claims_clusterRoles m opts.minSchemas (usedInventory m opts).1 _
        complete := fun known hknown => ?_
        roundTrip := htrip }⟩
    rw [roundTripInventory, hknown]
    rfl

/-- Two readers, one of all the tables of its schema and one of the only table of its schema. -/
def readersManifest : PolicyManifest :=
  { defaultOwner := some "owner"
    schemas := [{ name := "a" }, { name := "b" }]
    roles := [{ name := "a-reader" }, { name := "b-reader" }, { name := "app", login := some true }]
    grants := [⟨"a-reader", [.usage], ⟨.schema, none, some "a"⟩, .present⟩,
      ⟨"a-reader", [.select], ⟨.table, some "a", some "t"⟩, .present⟩,
      ⟨"b-reader", [.usage], ⟨.schema, none, some "b"⟩, .present⟩,
      ⟨"b-reader", [.select], ⟨.table, some "b", some wildcardName⟩, .present⟩,
      ⟨"app", [.usage], ⟨.schema, none, some "b"⟩, .present⟩]
    defaultPrivileges :=
      [⟨none, some "a", none, [⟨some "a-reader", [.select], .table, .present⟩]⟩,
        ⟨none, some "b", none, [⟨some "b-reader", [.select], .table, .present⟩]⟩] }

/-- The tables of the two schemas. -/
def readersInventory : Inventory :=
  ExtTreeMap.ofList [(("a", .table), ExtTreeSet.ofList ["t"] compare),
    (("b", .table), ExtTreeSet.ofList ["x", "y"] compare)] compare

theorem suggestProfiles_readers :
    ((suggestProfiles readersManifest { fullInventory := some readersInventory }).profiles.map
        (·.profileName) = ["reader"]) ∧
      ((suggestProfiles readersManifest { fullInventory := some readersInventory }).manifest =
          readersManifest ∨ ∃ e e' g g',
        RoundTrip readersManifest
            (suggestProfiles readersManifest { fullInventory := some readersInventory }).manifest
            (roundTripInventory readersManifest { fullInventory := some readersInventory })
            e e' g g' ∧
          SamePolicy g g') :=
  ⟨by decide +kernel, suggestProfiles_samePolicy readersManifest
    { fullInventory := some readersInventory } (by decide)⟩

end PgRoles.Core.Suggest

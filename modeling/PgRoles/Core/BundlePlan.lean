import PgRoles.Core.Attribution
import PgRoles.Core.Passwords

/-!
# The plan report of a bundle

The report of a bundle's plan names for every change the document that answers for it: the one that
registered the very key the change is about, or else the one that manages the role or the schema the
key lies in. The change surface, which decides what a plan of the bundle may hold, was computed from
the same index, so a change that passes it has an owner (`exists_owner_of_allowsChange`).
-/

set_option autoImplicit false

namespace PgRoles.Core

open Std PgRoles.Lib

/-! ## The report -/

/-- Is the plan shown in full, or with its secrets redacted? -/
inductive PlanOutputMode where
  | full
  | redacted
  deriving DecidableEq

/-- Why a plan has no report. -/
inductive BundlePlanError where
  | missingOwner (change : String)
  | invalidChange (change : String)
  deriving DecidableEq

/-- The part of a policy that a change belongs to. -/
inductive BundleChangeCategory where
  | role
  | schema
  | grant
  | defaultPrivilege
  | membership
  | retirement
  deriving DecidableEq

/-- The key of the index a change is attributed by. -/
inductive ManagedOwnershipKey where
  | role (name : String)
  | schemaFacet (key : SchemaFacetKey)
  | grant (key : GrantKey)
  | defaultPrivilege (key : DefaultPrivKey)
  | membership (key : MembershipKey)
  deriving DecidableEq

/-- The document that a change is attributed to, and the key that it manages there. -/
structure BundleChangeOwner where
  document : String
  managedKey : ManagedOwnershipKey
  deriving DecidableEq

/-- A change with its category and its owner. -/
structure AnnotatedPlanChange where
  category : BundleChangeCategory
  owner : BundleChangeOwner
  change : Change
  deriving DecidableEq

/-- A schema with its managed facets. -/
structure VisualManagedSchema where
  name : String
  owner : Bool
  bindings : Bool
  deriving DecidableEq

/-- The managed scope as the plan lists it. -/
structure VisualManagedScope where
  roles : List String
  schemas : List VisualManagedSchema
  deriving DecidableEq

/-- The managed scope in the order of its maps. -/
def VisualManagedScope.ofScope (scope : ManagedScope) : VisualManagedScope :=
  { roles := scope.roles.toList
    schemas := scope.schemas.toList.map fun (name, managed) =>
      ⟨name, managed.owner, managed.bindings⟩ }

/-- The plan of a bundle, ready to be printed. -/
structure BundlePlanJson where
  schemaVersion : String
  managedScope : VisualManagedScope
  changes : List AnnotatedPlanChange
  deriving DecidableEq

/-- The version that every plan of a bundle carries. -/
def bundlePlanSchemaVersion : String := "pgroles.bundle_plan.v2"

/-- What the report looks changes up in. -/
structure BundleReportContext where
  ownership : OwnershipIndex
  managedScope : ManagedScope

/-- The report's context in a composed policy. -/
def ComposedPolicy.reportContext (c : ComposedPolicy) : BundleReportContext :=
  ⟨c.ownership, c.managedScope⟩

/-! ## Redaction -/

/-- The value of a setting is redacted; every other attribute is shown. -/
def redactAttribute : RoleAttribute → RoleAttribute
  | .setConfig parameter _ => .setConfig parameter redactedPassword
  | other => other

/-- Hide what a change would write into comments, settings and passwords. -/
def redactChange : Change → Change
  | .createRole name state =>
      .createRole name { state with
        comment := state.comment.map fun _ => redactedPassword
        config := state.config.map fun _ _ => redactedPassword }
  | .alterRole name attributes => .alterRole name (attributes.map redactAttribute)
  | .setComment name comment => .setComment name (comment.map fun _ => redactedPassword)
  | .setPassword name _ => .setPassword name redactedPassword
  | other => other

/-- The changes as the output mode shows them. -/
def shapePlanChanges (changes : List Change) : PlanOutputMode → List Change
  | .full => changes
  | .redacted => changes.map redactChange

/-! ## Attribution of a change -/

section Lookup

variable (ownership : OwnershipIndex) (change : Change)

/-- What a register holds for a key, as the owner of the change. -/
def ownerOrMissing (managedKey : ManagedOwnershipKey) :
    Option String → Except BundlePlanError BundleChangeOwner
  | some document => .ok ⟨document, managedKey⟩
  | none => .error (.missingOwner (describeChange change))

/-- The document that owns a role. -/
def lookupBundleRole (name : String) : Except BundlePlanError BundleChangeOwner :=
  ownerOrMissing change (.role name) ownership.roles[name]?

/-- The document that owns one facet of a schema. -/
def lookupBundleSchemaFacet (schema : String) (facet : SchemaBindingFacet) :
    Except BundlePlanError BundleChangeOwner :=
  ownerOrMissing change (.schemaFacet ⟨schema, facet⟩)
    ownership.schemaFacets[(⟨schema, facet⟩ : SchemaFacetKey)]?

/-- The document that owns a schema's owner, or else the one that owns its bindings. -/
def lookupBundleSchemaOwnerOrBindings (schema : String) :
    Except BundlePlanError BundleChangeOwner :=
  match lookupBundleSchemaFacet ownership change schema .owner with
  | .ok owner => .ok owner
  | .error _ => lookupBundleSchemaFacet ownership change schema .bindings

/-- A grant nobody declared belongs to the database role it is held by, or to the schema its target
lies in. -/
def lookupBundleGrant (key : GrantKey) : Except BundlePlanError BundleChangeOwner :=
  match ownership.grants[key]? with
  | some document => .ok ⟨document, .grant key⟩
  | none =>
      if key.objectType = .database then lookupBundleRole ownership change key.role.asStr
      else
        match grantSchemaName key with
        | none => .error (.invalidChange (describeChange change))
        | some schema => lookupBundleSchemaFacet ownership change schema .bindings

/-- Global defaults belong to whichever document owns the role. -/
def lookupBundleDefaultPrivilege (key : DefaultPrivKey) :
    Except BundlePlanError BundleChangeOwner :=
  match ownership.defaultPrivileges[key]? with
  | some document => .ok ⟨document, .defaultPrivilege key⟩
  | none =>
      match key.scope with
      | .schema schema => lookupBundleSchemaFacet ownership change schema .bindings
      | .global => lookupBundleRole ownership change key.owner

/-- The document that asserts a membership, or else the one that owns the granted role. -/
def lookupBundleMembership (key : MembershipKey) : Except BundlePlanError BundleChangeOwner :=
  match ownership.memberships[key]? with
  | some document => .ok ⟨document, .membership key⟩
  | none => lookupBundleRole ownership change key.role

end Lookup

/-- The document that answers for a change. -/
def lookupBundleChangeOwner (change : Change) (ownership : OwnershipIndex) :
    Except BundlePlanError BundleChangeOwner :=
  match change with
  | .createRole name _ | .alterRole name _ | .setComment name _ | .setPassword name _
  | .dropRole name => lookupBundleRole ownership change name
  | .terminateSessions role | .dropOwned role => lookupBundleRole ownership change role
  | .reassignOwned fromRole _ => lookupBundleRole ownership change fromRole
  | .createSchema name _ => lookupBundleSchemaOwnerOrBindings ownership change name
  | .alterSchemaOwner name _ | .ensureSchemaOwnerPrivileges name _ _ =>
      lookupBundleSchemaFacet ownership change name .owner
  | .grant key _ | .revoke key _ _ => lookupBundleGrant ownership change key
  | .setDefaultPrivilege key _ | .revokeDefaultPrivilege key _ =>
      lookupBundleDefaultPrivilege ownership change key
  | .addMember role member _ _ | .updateMemberOptions role member _ _ _ _
  | .removeMember role member _ => lookupBundleMembership ownership change ⟨role, member⟩

/-- The category of a change. -/
def bundleChangeCategory : Change → BundleChangeCategory
  | .createRole .. | .alterRole .. | .setComment .. | .setPassword .. | .dropRole .. => .role
  | .createSchema .. | .alterSchemaOwner .. | .ensureSchemaOwnerPrivileges .. => .schema
  | .grant .. | .revoke .. => .grant
  | .setDefaultPrivilege .. | .revokeDefaultPrivilege .. => .defaultPrivilege
  | .addMember .. | .updateMemberOptions .. | .removeMember .. => .membership
  | .reassignOwned .. | .dropOwned .. | .terminateSessions .. => .retirement

/-- A change with its category and owner, or an error where no document owns it. -/
def annotateChange (ownership : OwnershipIndex) (change : Change) :
    Except BundlePlanError AnnotatedPlanChange := do
  let owner ← lookupBundleChangeOwner change ownership
  return ⟨bundleChangeCategory change, owner, change⟩

/-- The report of a plan; one change without an owner fails it. -/
def buildBundlePlan (changes : List Change) (context : BundleReportContext)
    (mode : PlanOutputMode) : Except BundlePlanError BundlePlanJson := do
  let annotated ← (shapePlanChanges changes mode).mapM (annotateChange context.ownership)
  return ⟨bundlePlanSchemaVersion, .ofScope context.managedScope, annotated⟩

/-! ## What the index holds -/

/-- The document a key is registered for. -/
def OwnershipIndex.documentOf (index : OwnershipIndex) : ManagedOwnershipKey → Option String
  | .role name => index.roles[name]?
  | .schemaFacet key => index.schemaFacets[key]?
  | .grant key => index.grants[key]?
  | .defaultPrivilege key => index.defaultPrivileges[key]?
  | .membership key => index.memberships[key]?

section Owners

variable {ownership : OwnershipIndex} {change : Change} {owner : BundleChangeOwner}

/-- The owner was read off the index, at the key it names. -/
def BundleChangeOwner.RecordedIn (owner : BundleChangeOwner) (ownership : OwnershipIndex) : Prop :=
  ownership.documentOf owner.managedKey = some owner.document

theorem exists_ownerOrMissing {managedKey : ManagedOwnershipKey} {document? : Option String}
    (h : ownership.documentOf managedKey = document?) (hsome : document?.isSome = true) :
    ∃ owner, ownerOrMissing change managedKey document? = .ok owner ∧
      owner.RecordedIn ownership := by
  obtain ⟨document, rfl⟩ := Option.isSome_iff_exists.1 hsome
  exact ⟨⟨document, managedKey⟩, rfl, h⟩

theorem exists_role_owner {name : String} (h : name ∈ ownership.roles) :
    ∃ owner, lookupBundleRole ownership change name = .ok owner ∧ owner.RecordedIn ownership := by
  apply exists_ownerOrMissing rfl
  exact ExtTreeMap.isSome_getElem?_iff_mem.2 h

theorem exists_facet_owner {schema : String} {facet : SchemaBindingFacet}
    (h : (⟨schema, facet⟩ : SchemaFacetKey) ∈ ownership.schemaFacets) :
    ∃ owner, lookupBundleSchemaFacet ownership change schema facet = .ok owner ∧
      owner.RecordedIn ownership := by
  apply exists_ownerOrMissing rfl
  exact ExtTreeMap.isSome_getElem?_iff_mem.2 h

/-- A schema with a recorded facet has an owner. -/
theorem exists_ownerOrBindings {schema : String} {facet : SchemaBindingFacet}
    (h : (⟨schema, facet⟩ : SchemaFacetKey) ∈ ownership.schemaFacets) :
    ∃ owner, lookupBundleSchemaOwnerOrBindings ownership change schema = .ok owner ∧
      owner.RecordedIn ownership := by
  unfold lookupBundleSchemaOwnerOrBindings
  by_cases howner : (⟨schema, .owner⟩ : SchemaFacetKey) ∈ ownership.schemaFacets
  · obtain ⟨owner, hok, hrecorded⟩ := @exists_facet_owner ownership change schema .owner howner
    exact ⟨owner, by rw [hok], hrecorded⟩
  · -- no owner facet: the facet that is there is the bindings one, and the first error is dropped
    have hbindings : (⟨schema, .bindings⟩ : SchemaFacetKey) ∈ ownership.schemaFacets := by
      cases facet with
      | owner => exact absurd h howner
      | bindings => exact h
    have hmissing : lookupBundleSchemaFacet ownership change schema .owner =
        .error (.missingOwner (describeChange change)) := by
      unfold lookupBundleSchemaFacet
      rw [not_mem_iff_getElem?.1 howner]
      rfl
    rw [hmissing]
    exact exists_facet_owner hbindings

/-- The surface marks a schema exactly where the index has the facet. -/
theorem contains_schemasOfFacet {schema : String} {facet : SchemaBindingFacet} :
    (schemasOfFacet ownership facet).contains schema = true ↔
      (⟨schema, facet⟩ : SchemaFacetKey) ∈ ownership.schemaFacets := by
  unfold schemasOfFacet
  rw [ExtTreeSet.contains_iff_mem, ExtTreeSet.mem_ofList, List.contains_iff_mem, List.mem_map]
  constructor
  · rintro ⟨⟨_, facet'⟩, hkey, rfl⟩
    obtain ⟨hkey, hfacet⟩ := List.mem_filter.1 hkey
    rw [← eq_of_beq hfacet]
    exact ExtTreeMap.mem_keys.1 hkey
  · intro h
    refine ⟨⟨schema, facet⟩, List.mem_filter.2 ⟨ExtTreeMap.mem_keys.2 h, ?_⟩, rfl⟩
    exact beq_self_eq_true facet

/-- A grant that may change has an owner. -/
theorem exists_grant_owner {key : GrantKey}
    (h : ownership.managedChangeSurface.allowsGrantChange key = true) :
    ∃ owner, lookupBundleGrant ownership change key = .ok owner ∧ owner.RecordedIn ownership := by
  unfold lookupBundleGrant
  cases hdocument : ownership.grants[key]? with
  | some document => exact ⟨⟨document, .grant key⟩, rfl, hdocument⟩
  | none =>
      simp only [ManagedChangeSurface.allowsGrantChange, Bool.or_eq_true, Bool.and_eq_true,
        OwnershipIndex.managedChangeSurface, contains_keySet] at h
      rcases h with (hexplicit | ⟨hobject, hschema⟩) | ⟨hdatabase, hrole⟩
      · -- an undeclared target is not on the explicit list
        exact absurd hexplicit (not_mem_iff_getElem?.2 hdocument)
      · have hobject : key.objectType ≠ .database := by
          simpa [isBindingSchemaObject] using hobject
        obtain ⟨schema, hname, hcontains⟩ := (Option.any_eq_true _ _).1 hschema
        simp only [if_neg hobject, hname]
        exact exists_facet_owner (contains_schemasOfFacet.1 hcontains)
      · have hdatabase : key.objectType = .database := eq_of_beq hdatabase
        obtain ⟨role, hname, hcontains⟩ := (Option.any_eq_true _ _).1 hrole
        have hrole : key.role = .role role := by
          cases hkey : key.role with
          | publicRole =>
              rw [hkey] at hname
              cases hname
          | role name =>
              rw [hkey] at hname
              exact congrArg Grantee.role (Option.some.inj hname)
        simp only [if_pos hdatabase, hrole]
        exact exists_role_owner (contains_keySet.1 hcontains)

/-- A default privilege that may change has an owner. -/
theorem exists_default_owner {key : DefaultPrivKey}
    (h : ownership.managedChangeSurface.allowsDefaultPrivilegeChange key = true) :
    ∃ owner, lookupBundleDefaultPrivilege ownership change key = .ok owner ∧
      owner.RecordedIn ownership := by
  unfold lookupBundleDefaultPrivilege
  cases hdocument : ownership.defaultPrivileges[key]? with
  | some document => exact ⟨⟨document, .defaultPrivilege key⟩, rfl, hdocument⟩
  | none =>
      simp only [ManagedChangeSurface.allowsDefaultPrivilegeChange, Bool.or_eq_true,
        OwnershipIndex.managedChangeSurface, contains_keySet] at h
      rcases h with hexplicit | hscope
      · exact absurd hexplicit (not_mem_iff_getElem?.2 hdocument)
      · cases hkey : key.scope with
        | schema schema =>
            rw [hkey] at hscope
            exact exists_facet_owner (contains_schemasOfFacet.1 hscope)
        | global =>
            rw [hkey] at hscope
            exact exists_role_owner (contains_keySet.1 hscope)

theorem exists_membership_owner {role member : String}
    (h : ownership.managedChangeSurface.allowsMembershipChange role member = true) :
    ∃ owner, lookupBundleMembership ownership change ⟨role, member⟩ = .ok owner ∧
      owner.RecordedIn ownership := by
  unfold lookupBundleMembership
  cases hdocument : ownership.memberships[(⟨role, member⟩ : MembershipKey)]? with
  | some document => exact ⟨⟨document, .membership ⟨role, member⟩⟩, rfl, hdocument⟩
  | none =>
      simp only [ManagedChangeSurface.allowsMembershipChange, Bool.or_eq_true,
        OwnershipIndex.managedChangeSurface, contains_keySet] at h
      rcases h with hrole | hexplicit
      · exact exists_role_owner hrole
      · exact absurd hexplicit (not_mem_iff_getElem?.2 hdocument)

/-- Whatever the change surface of an index admits, the index has an owner for. -/
theorem exists_owner_of_allowsChange
    (h : ownership.managedChangeSurface.allowsChange change = true) :
    ∃ owner, lookupBundleChangeOwner change ownership = .ok owner ∧
      owner.RecordedIn ownership := by
  cases change with
  | createRole name state => exact exists_role_owner (contains_keySet.1 h)
  | alterRole name attributes => exact exists_role_owner (contains_keySet.1 h)
  | setComment name comment => exact exists_role_owner (contains_keySet.1 h)
  | setPassword name password => exact exists_role_owner (contains_keySet.1 h)
  | dropRole name => exact exists_role_owner (contains_keySet.1 h)
  | terminateSessions role => exact exists_role_owner (contains_keySet.1 h)
  | dropOwned role => exact exists_role_owner (contains_keySet.1 h)
  | reassignOwned fromRole toRole =>
      exact exists_role_owner (contains_keySet.1 (Bool.and_eq_true_iff.1 h).1)
  | createSchema name owner =>
      rcases Bool.or_eq_true_iff.1 h with howner | hbindings
      · exact exists_ownerOrBindings (contains_schemasOfFacet.1 howner)
      · exact exists_ownerOrBindings (contains_schemasOfFacet.1 hbindings)
  | alterSchemaOwner name owner =>
      exact exists_facet_owner (contains_schemasOfFacet.1 (Bool.and_eq_true_iff.1 h).1)
  | ensureSchemaOwnerPrivileges name owner privileges =>
      exact exists_facet_owner (contains_schemasOfFacet.1 (Bool.and_eq_true_iff.1 h).1)
  | grant key privileges => exact exists_grant_owner h
  | revoke key privileges grantor => exact exists_grant_owner h
  | setDefaultPrivilege key privileges => exact exists_default_owner h
  | revokeDefaultPrivilege key privileges => exact exists_default_owner h
  | addMember role member inherit admin => exact exists_membership_owner h
  | updateMemberOptions role member grantor inherit admin binding =>
      exact exists_membership_owner h
  | removeMember role member grantor => exact exists_membership_owner h

/-! ## The report of an admitted plan -/

/-- Redaction leaves every key of a change as it is. -/
theorem allowsChange_redactChange (surface : ManagedChangeSurface) (change : Change) :
    surface.allowsChange (redactChange change) = surface.allowsChange change := by
  cases change <;> rfl

theorem allowsChange_of_mem_shaped {surface : ManagedChangeSurface} {changes : List Change}
    {mode : PlanOutputMode} (h : ∀ change ∈ changes, surface.allowsChange change = true) :
    ∀ change ∈ shapePlanChanges changes mode, surface.allowsChange change = true := by
  intro change hmem
  cases mode with
  | full => exact h change hmem
  | redacted =>
      obtain ⟨original, horiginal, rfl⟩ := List.mem_map.1 hmem
      rw [allowsChange_redactChange]
      exact h original horiginal

theorem exists_annotated (h : ownership.managedChangeSurface.allowsChange change = true) :
    ∃ annotated, annotateChange ownership change = .ok annotated ∧
      annotated.change = change ∧ annotated.owner.RecordedIn ownership := by
  obtain ⟨owner, hok, hrecorded⟩ := exists_owner_of_allowsChange h
  refine ⟨⟨bundleChangeCategory change, owner, change⟩, ?_, rfl, hrecorded⟩
  unfold annotateChange
  rw [hok]
  rfl

/-- An admitted plan is annotated change by change. -/
theorem exists_annotated_mapM {changes : List Change}
    (h : ∀ change ∈ changes, ownership.managedChangeSurface.allowsChange change = true) :
    ∃ annotated, changes.mapM (annotateChange ownership) = .ok annotated ∧
      annotated.map (·.change) = changes ∧ ∀ a ∈ annotated, a.owner.RecordedIn ownership := by
  induction changes with
  | nil => exact ⟨[], rfl, rfl, by simp⟩
  | cons change changes ih =>
      obtain ⟨a, ha, hchange, hrecorded⟩ := exists_annotated (h change List.mem_cons_self)
      obtain ⟨annotated, hok, hchanges, hall⟩ :=
        ih fun c hc => h c (List.mem_cons_of_mem change hc)
      refine ⟨a :: annotated, ?_, ?_, ?_⟩
      · rw [List.mapM_cons, ha, hok]
        rfl
      · rw [List.map_cons, hchange, hchanges]
      · exact List.forall_mem_cons.2 ⟨hrecorded, hall⟩

end Owners

/-! ## The documents of a bundle -/

variable {bundle : PolicyBundle} {documents : List PolicyDocument}

theorem label_of_registered {K : Type} [Ord K] [TransOrd K] [LawfulEqOrd K]
    {keys : PolicyDocument → List K} {key : K} {label : String}
    (h : (ExtTreeMap.ofList (labelled keys documents) compare)[key]? = some label) :
    label ∈ documents.map (·.label) := by
  obtain ⟨d, hd, -, hlabel⟩ := mem_labelled.1 (mem_of_getElem?_ofList h)
  exact List.mem_map.2 ⟨d, hd, hlabel⟩

/-- The index of a composed bundle knows no document but those it was composed of. -/
theorem label_of_recordedIn {c : ComposedPolicy} (h : composeBundle bundle documents = .ok c)
    {owner : BundleChangeOwner} (hrecorded : owner.RecordedIn c.ownership) :
    owner.document ∈ documents.map (·.label) := by
  obtain ⟨expanded, desired, stanzas, -, -, rfl⟩ := composeBundle_eq_ok_iff.1 h
  obtain ⟨document, managedKey⟩ := owner
  cases managedKey with
  | role name => exact label_of_registered hrecorded
  | schemaFacet key => exact label_of_registered hrecorded
  | grant key => exact label_of_registered hrecorded
  | defaultPrivilege key => exact label_of_registered hrecorded
  | membership key => exact label_of_registered hrecorded

theorem managedChangeSurface_of_composeBundle {c : ComposedPolicy}
    (h : composeBundle bundle documents = .ok c) :
    c.managedChangeSurface = c.ownership.managedChangeSurface := by
  obtain ⟨expanded, desired, stanzas, -, -, rfl⟩ := composeBundle_eq_ok_iff.1 h
  rfl

/-- Every change that a composed bundle admits, from whatever graph it was planned, has one of the
bundle's documents for its owner; so a plan that passes the change surface has a report in either
mode, one annotated entry for each of its changes. -/
theorem bundlePlan_attributed {c : ComposedPolicy} (h : composeBundle bundle documents = .ok c) :
    (∀ change, c.managedChangeSurface.allowsChange change = true →
      ∃ owner, lookupBundleChangeOwner change c.ownership = .ok owner ∧
        owner.RecordedIn c.ownership ∧ owner.document ∈ documents.map (·.label)) ∧
    ∀ changes mode,
      validateChangesAgainstManagedSurface changes c.managedChangeSurface = .ok () →
      ∃ plan, buildBundlePlan changes c.reportContext mode = .ok plan ∧
        plan.changes.map (·.change) = shapePlanChanges changes mode ∧
        ∀ annotated ∈ plan.changes, annotated.owner.RecordedIn c.ownership ∧
          annotated.owner.document ∈ documents.map (·.label) := by
  rw [managedChangeSurface_of_composeBundle h]
  constructor
  · intro change hallowed
    obtain ⟨owner, hok, hrecorded⟩ := exists_owner_of_allowsChange hallowed
    exact ⟨owner, hok, hrecorded, label_of_recordedIn h hrecorded⟩
  · intro changes mode hvalid
    have hallowed := validateChangesAgainstManagedSurface_eq_ok.1 hvalid
    obtain ⟨annotated, hok, hchanges, hall⟩ :=
      exists_annotated_mapM (@allowsChange_of_mem_shaped _ changes mode hallowed)
    refine ⟨⟨bundlePlanSchemaVersion, .ofScope c.managedScope, annotated⟩, ?_, hchanges,
      fun a ha => ⟨hall a ha, label_of_recordedIn h (hall a ha)⟩⟩
    unfold buildBundlePlan
    rw [show c.reportContext.ownership = c.ownership from rfl, hok]
    rfl

/-- PUBLIC may read a table nobody declared; its revoke is answered for by the document with the
bindings of the schema. -/
theorem undeclaredPublicRevoke_attributed :
    ∃ c, composeBundle appBundle [ownerDocument "postgres", bindingsDocument] = .ok c ∧
      ∃ owner, lookupBundleChangeOwner
          (.revoke ⟨.publicRole, .table, some "app", some "orders"⟩ {.select} none) c.ownership =
            .ok owner ∧
        owner.RecordedIn c.ownership ∧ owner.document ∈ ["platform.yaml", "app.yaml"] := by
  have hallowed :
      (composeBundle appBundle [ownerDocument "postgres", bindingsDocument]).toOption.any
        (fun c => c.managedChangeSurface.allowsChange
          (.revoke ⟨.publicRole, .table, some "app", some "orders"⟩ {.select} none)) = true := by
    decide +kernel
  cases hc : composeBundle appBundle [ownerDocument "postgres", bindingsDocument] with
  | error e =>
      rw [hc] at hallowed
      cases hallowed
  | ok c =>
      rw [hc] at hallowed
      exact ⟨c, rfl, (bundlePlan_attributed hc).1 _ hallowed⟩

end PgRoles.Core

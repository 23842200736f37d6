import PgRoles.Lib.Grouping
import PgRoles.Core.Approval
import PgRoles.Core.ExpandOrder
import PgRoles.Core.GraphEntries

/-!
# Export of a graph as a manifest

A role graph is written as a flat manifest without profiles: one definition for each role with the
attributes that differ from the defaults, one grant for each object target that nobody holds as its
owner, one binding for each schema, and the default privileges and memberships grouped. Read back,
the manifest gives the graph in its normal form (`fromExpanded_export`).

In debug builds the export also asserts that the graph holds no absence rules; the assertion is not
part of the model.
-/

set_option autoImplicit false

namespace PgRoles.Core

open Std PgRoles.Lib

/-! ## Export -/

/-- The value of an attribute, left out at the default. -/
def nonDefault {α : Type} [DecidableEq α] (value default : α) : Option α :=
  if value ≠ default then some value else none

/-- The privileges in their order. -/
def listPrivileges (privileges : Finset Privilege) : List Privilege :=
  Privilege.inOrder.filter (· ∈ privileges)

/-- The definition of a role. Its password cannot be read from the database. -/
def exportRole (name : String) (state : RoleState) : RoleDefinition :=
  let defaults : RoleState := {}
  { name := name
    login := nonDefault state.login defaults.login
    superuser := nonDefault state.superuser defaults.superuser
    createdb := nonDefault state.createdb defaults.createdb
    createrole := nonDefault state.createrole defaults.createrole
    inherit := nonDefault state.inherit defaults.inherit
    replication := nonDefault state.replication defaults.replication
    bypassrls := nonDefault state.bypassrls defaults.bypassrls
    connectionLimit := nonDefault state.connectionLimit defaults.connectionLimit
    comment := state.comment
    passwordValidUntil := state.passwordValidUntil
    config := state.config }

/-- The grant that a key and its privileges are exported as. -/
def exportGrant (key : GrantKey) (privileges : Finset Privilege) : Grant :=
  ⟨key.role.asStr, listPrivileges privileges, ⟨key.objectType, key.schema, key.name⟩, .present⟩

/-- The binding that a schema is exported as; it has no profiles. -/
def exportSchema (name : String) (state : SchemaState) : SchemaBinding :=
  { name := name, owner := state.owner }

/-- The grant that default privileges are exported as. -/
def exportDefaultGrant (key : DefaultPrivKey) (privileges : Finset Privilege) :
    DefaultPrivilegeGrant :=
  ⟨some key.grantee.asStr, listPrivileges privileges, key.onType, .present⟩

/-- The grantees of each owner's scope. -/
def defaultGroups (g : RoleGraph) :
    BTreeMap (String × DefaultPrivilegeScope) (List DefaultPrivilegeGrant) :=
  groupInto (g.defaultPrivileges.toList.map fun e =>
    ((e.1.owner, e.1.scope), exportDefaultGrant e.1 e.2))

/-- A schema scope takes the shorthand; only the global scope needs the explicit field. -/
def exportDefaultPrivilege (owner : String) (scope : DefaultPrivilegeScope)
    (grant : List DefaultPrivilegeGrant) : DefaultPrivilege :=
  match scope with
  | .schema schema => ⟨some owner, some schema, none, grant⟩
  | .global => ⟨some owner, none, some ⟨.global, none⟩, grant⟩

/-- The member that an edge is exported as; options at their defaults are left out. -/
def exportMember (edge : MembershipEdge) : MemberSpec :=
  { name := edge.member
    inherit := if edge.inherit then none else some false
    admin := if edge.admin then some true else none }

/-- The members of each role. -/
def memberGroups (g : RoleGraph) : BTreeMap String (List MemberSpec) :=
  groupInto (g.memberships.toList.map fun edge => (edge.role, exportMember edge))

/-- Convert a role graph into a flat manifest. -/
def roleGraphToManifest (g : RoleGraph) : PolicyManifest :=
  { schemas := g.schemas.toList.map fun e => exportSchema e.1 e.2
    roles := g.roles.toList.map fun e => exportRole e.1 e.2
    grants := (g.grants.toList.filter fun e => !g.inherentGrants.contains e.1).map fun e =>
      exportGrant e.1 e.2
    defaultPrivileges := (defaultGroups g).toList.map fun e =>
      exportDefaultPrivilege e.1.1 e.1.2 e.2
    memberships := (memberGroups g).toList.map fun e => ⟨e.1, e.2, false⟩ }

/-! ## One entry -/

theorem nonDefault_getD {α : Type} [DecidableEq α] (value default : α) :
    (nonDefault value default).getD default = value := by
  unfold nonDefault
  split
  · rfl
  · next h => exact (not_not.1 h).symm

theorem mem_listPrivileges {privileges : Finset Privilege} {p : Privilege} :
    p ∈ listPrivileges privileges ↔ p ∈ privileges := by
  have hall : p ∈ Privilege.inOrder := by cases p <;> decide
  rw [listPrivileges, List.mem_filter]
  exact ⟨fun h => of_decide_eq_true h.2, fun h => ⟨hall, decide_eq_true h⟩⟩

theorem toFinset_listPrivileges (privileges : Finset Privilege) :
    (listPrivileges privileges).toFinset = privileges :=
  Finset.ext fun _ => List.mem_toFinset.trans mem_listPrivileges

/-- The settings as a definition is read: names in lowercase, list values in canonical form. -/
def readConfig (config : BTreeMap String String) : BTreeMap String String :=
  ExtTreeMap.ofList
    (config.toList.map fun e =>
      let name := toAsciiLowercase e.1
      (name, if isListQuoteParameter name then canonicalizeListGucValue e.2 else e.2)) compare

/-- The exported role is read back, with its settings respelt. -/
theorem fromDefinition_exportRole (name : String) (state : RoleState) :
    RoleState.fromDefinition (exportRole name state) =
      { state with config := readConfig state.config } := by
  have hstate : RoleState.fromDefinition (exportRole name state) =
      { login := (nonDefault state.login false).getD false
        superuser := (nonDefault state.superuser false).getD false
        createdb := (nonDefault state.createdb false).getD false
        createrole := (nonDefault state.createrole false).getD false
        inherit := (nonDefault state.inherit true).getD true
        replication := (nonDefault state.replication false).getD false
        bypassrls := (nonDefault state.bypassrls false).getD false
        connectionLimit := (nonDefault state.connectionLimit (-1)).getD (-1)
        comment := state.comment
        passwordValidUntil := state.passwordValidUntil
        config := readConfig state.config } := rfl
  rw [hstate]
  simp only [nonDefault_getD]

/-- The grantee is spelled as it parses. -/
def Grantee.Spelled (grantee : Grantee) : Prop := Grantee.parse grantee.asStr = grantee

theorem grantKeyFromManifest_exportGrant {key : GrantKey} {privileges : Finset Privilege}
    (h : key.role.Spelled) : grantKeyFromManifest (exportGrant key privileges) = key := by
  show (⟨Grantee.parse key.role.asStr, _, _, _⟩ : GrantKey) = key
  rw [h]
  rfl

theorem resolvedScope_exportDefaultPrivilege (owner : String) (scope : DefaultPrivilegeScope)
    (grant : List DefaultPrivilegeGrant) :
    (exportDefaultPrivilege owner scope grant).resolvedScope = .ok scope := by
  cases scope with
  | global => rfl
  | schema schema => rfl

theorem exportDefaultPrivilege_owner (owner : String) (scope : DefaultPrivilegeScope)
    (grant : List DefaultPrivilegeGrant) :
    (exportDefaultPrivilege owner scope grant).owner = some owner := by
  cases scope with
  | global => rfl
  | schema schema => rfl

theorem exportDefaultPrivilege_grant (owner : String) (scope : DefaultPrivilegeScope)
    (grant : List DefaultPrivilegeGrant) :
    (exportDefaultPrivilege owner scope grant).grant = grant := by
  cases scope with
  | global => rfl
  | schema schema => rfl

theorem exportMember_inheritOption (edge : MembershipEdge) :
    (exportMember edge).inheritOption = edge.inherit := by
  unfold MemberSpec.inheritOption exportMember
  cases edge.inherit <;> rfl

theorem exportMember_adminOption (edge : MembershipEdge) :
    (exportMember edge).adminOption = edge.admin := by
  unfold MemberSpec.adminOption exportMember
  cases edge.admin <;> rfl

/-! ## The graph read back -/

/-- The graph an exported manifest declares: settings in their canonical spelling, owners with the
ordinary privileges, and no entry that belongs to an owner. -/
def RoleGraph.readBack (g : RoleGraph) : RoleGraph :=
  { roles := g.roles.map fun _ state => { state with config := readConfig state.config }
    schemas := g.schemas.map fun _ state =>
      ⟨state.owner, state.owner.elim ∅ defaultSchemaOwnerPrivileges⟩
    grants := g.grants.filter fun key _ => !g.inherentGrants.contains key
    defaultPrivileges := g.defaultPrivileges
    memberships := g.memberships }

/-- The grantees of the graph are spelled as they parse: no ordinary role is named like the
pseudo-role. -/
structure RoleGraph.Spelled (g : RoleGraph) : Prop where
  grants : ∀ key ∈ g.grants, key.role.Spelled
  defaults : ∀ key ∈ g.defaultPrivileges, key.grantee.Spelled

/-- The expansion of an exported manifest, which binds no profile. -/
def exportedExpansion (g : RoleGraph) : ExpandedManifest :=
  mergeExpansions (roleGraphToManifest g) []

section ReadBack

variable {g : RoleGraph}

/-- The exported grants are those that are not inherent. -/
theorem mem_exportedGrants {grant : Grant} :
    grant ∈ (roleGraphToManifest g).grants ↔
      ∃ key privileges, g.grants[key]? = some privileges ∧ key ∉ g.inherentGrants ∧
        exportGrant key privileges = grant := by
  show grant ∈ List.map _ _ ↔ _
  rw [List.mem_map]
  constructor
  · intro h
    obtain ⟨⟨key, privileges⟩, hmem, rfl⟩ := h
    obtain ⟨hin, hown⟩ := List.mem_filter.1 hmem
    refine ⟨key, privileges, mem_toList_iff.1 hin, ?_, rfl⟩
    rwa [Bool.not_eq_true', contains_eq_false_iff] at hown
  · intro h
    obtain ⟨key, privileges, hkey, hown, rfl⟩ := h
    refine ⟨(key, privileges), List.mem_filter.2 ⟨mem_toList_iff.2 hkey, ?_⟩, rfl⟩
    rwa [Bool.not_eq_true', contains_eq_false_iff]

/-- The exported stanzas are the groups of the default privileges. -/
theorem mem_exportedDefaults {d : DefaultPrivilege} :
    d ∈ (roleGraphToManifest g).defaultPrivileges ↔
      ∃ owner scope grant, (defaultGroups g)[(owner, scope)]? = some grant ∧
        exportDefaultPrivilege owner scope grant = d := by
  show d ∈ List.map _ _ ↔ _
  rw [List.mem_map]
  constructor
  · intro h
    obtain ⟨⟨⟨owner, scope⟩, grant⟩, hmem, rfl⟩ := h
    exact ⟨owner, scope, grant, mem_toList_iff.1 hmem, rfl⟩
  · intro h
    obtain ⟨owner, scope, grant, hgroup, rfl⟩ := h
    exact ⟨((owner, scope), grant), mem_toList_iff.2 hgroup, rfl⟩

/-- Default privileges are grouped by owner and scope. -/
theorem mem_defaultGroups {owner : String} {scope : DefaultPrivilegeScope}
    {grant : DefaultPrivilegeGrant} :
    (∃ grants, (defaultGroups g)[(owner, scope)]? = some grants ∧ grant ∈ grants) ↔
      ∃ key privileges, g.defaultPrivileges[key]? = some privileges ∧ key.owner = owner ∧
        key.scope = scope ∧ exportDefaultGrant key privileges = grant := by
  rw [defaultGroups, mem_groupInto, List.mem_map]
  constructor
  · intro h
    obtain ⟨⟨key, privileges⟩, hmem, heq⟩ := h
    obtain ⟨hkey, hgrant⟩ := Prod.mk.inj heq
    obtain ⟨howner, hscope⟩ := Prod.mk.inj hkey
    exact ⟨key, privileges, mem_toList_iff.1 hmem, howner, hscope, hgrant⟩
  · intro h
    obtain ⟨key, privileges, hkey, rfl, rfl, rfl⟩ := h
    exact ⟨(key, privileges), mem_toList_iff.2 hkey, rfl⟩

/-- Memberships are grouped by the granted role. -/
theorem mem_memberGroups {role : String} {member : MemberSpec} :
    (∃ members, (memberGroups g)[role]? = some members ∧ member ∈ members) ↔
      ∃ edge ∈ g.memberships, edge.role = role ∧ exportMember edge = member := by
  rw [memberGroups, mem_groupInto, List.mem_map]
  constructor
  · intro h
    obtain ⟨edge, hmem, heq⟩ := h
    obtain ⟨hrole, hmember⟩ := Prod.mk.inj heq
    exact ⟨edge, ExtTreeSet.mem_toList.1 hmem, hrole, hmember⟩
  · intro h
    obtain ⟨edge, hmem, rfl, rfl⟩ := h
    exact ⟨edge, ExtTreeSet.mem_toList.2 hmem, rfl⟩

theorem mem_exportedMemberships {membership : Membership} :
    membership ∈ (roleGraphToManifest g).memberships ↔
      ∃ role members, (memberGroups g)[role]? = some members ∧
        ⟨role, members, false⟩ = membership := by
  show membership ∈ List.map _ _ ↔ _
  rw [List.mem_map]
  constructor
  · intro h
    obtain ⟨⟨role, members⟩, hmem, rfl⟩ := h
    exact ⟨role, members, mem_toList_iff.1 hmem, rfl⟩
  · intro h
    obtain ⟨role, members, hgroup, rfl⟩ := h
    exact ⟨(role, members), mem_toList_iff.2 hgroup, rfl⟩

/-- The memberships read back are those of the graph. -/
theorem mem_exportedEdges {edge : MembershipEdge} :
    edge ∈ membershipEdges (roleGraphToManifest g).memberships ↔ edge ∈ g.memberships := by
  rw [membershipEdges, List.mem_flatMap]
  constructor
  · intro h
    obtain ⟨membership, hmembership, hedge⟩ := h
    obtain ⟨role, members, hgroup, rfl⟩ := mem_exportedMemberships.1 hmembership
    obtain ⟨member, hmember, rfl⟩ := List.mem_map.1 hedge
    obtain ⟨held, hheld, rfl, rfl⟩ := mem_memberGroups.1 ⟨members, hgroup, hmember⟩
    rw [exportMember_inheritOption, exportMember_adminOption]
    exact hheld
  · intro h
    obtain ⟨members, hgroup, hmember⟩ := mem_memberGroups.2 ⟨edge, h, rfl, rfl⟩
    refine ⟨⟨edge.role, members, false⟩, mem_exportedMemberships.2 ⟨_, _, hgroup, rfl⟩, ?_⟩
    refine List.mem_map.2 ⟨exportMember edge, hmember, ?_⟩
    rw [exportMember_inheritOption, exportMember_adminOption]
    rfl

theorem exportedExpansion_defaultPrivileges :
    (exportedExpansion g).defaultPrivileges = (roleGraphToManifest g).defaultPrivileges := by
  have hfilled : ∀ d : DefaultPrivilege, ({ d with owner := d.owner.or none } : DefaultPrivilege) =
      d := by
    intro d
    rw [Option.or_none]
  show List.map _ ([] ++ (roleGraphToManifest g).defaultPrivileges) = _
  rw [List.nil_append]
  exact (List.map_congr_left fun d _ => hfilled d).trans (List.map_id _)

/-- The entries of the exported default privileges are those of the graph. -/
theorem hasEntry_exported {entry : DefaultPrivilegeEntry} :
    (∃ d ∈ (roleGraphToManifest g).defaultPrivileges, d.HasEntry none entry) ↔
      ∃ (key : DefaultPrivKey) (privileges : Finset Privilege),
        g.defaultPrivileges[key]? = some privileges ∧ entry = ⟨⟨key.owner, key.scope, key.onType,
          .parse key.grantee.asStr⟩, .present, privileges⟩ := by
  constructor
  · intro h
    obtain ⟨d, hd, grant, hgrant, role, hrole, scope, hscope, rfl⟩ := h
    obtain ⟨owner, scope', grants, hgroup, rfl⟩ := mem_exportedDefaults.1 hd
    rw [exportDefaultPrivilege_grant] at hgrant
    rw [resolvedScope_exportDefaultPrivilege] at hscope
    obtain rfl := Except.ok.inj hscope
    obtain ⟨key, privileges, hkey, rfl, rfl, rfl⟩ := mem_defaultGroups.1 ⟨grants, hgroup, hgrant⟩
    obtain rfl : key.grantee.asStr = role := Option.some.inj hrole
    refine ⟨key, privileges, hkey, ?_⟩
    rw [DefaultPrivilegeEntry.ofGrant, defaultPrivilegeOwner, exportDefaultPrivilege_owner]
    exact congrArg (DefaultPrivilegeEntry.mk _ _) (toFinset_listPrivileges privileges)
  · intro h
    obtain ⟨key, privileges, hkey, rfl⟩ := h
    obtain ⟨grants, hgroup, hgrant⟩ := mem_defaultGroups.2 ⟨key, privileges, hkey, rfl, rfl, rfl⟩
    refine ⟨exportDefaultPrivilege key.owner key.scope grants,
      mem_exportedDefaults.2 ⟨_, _, _, hgroup, rfl⟩, exportDefaultGrant key privileges, ?_,
      key.grantee.asStr, rfl, key.scope, resolvedScope_exportDefaultPrivilege _ _ _, ?_⟩
    · rw [exportDefaultPrivilege_grant]
      exact hgrant
    · rw [DefaultPrivilegeEntry.ofGrant, defaultPrivilegeOwner, exportDefaultPrivilege_owner]
      exact congrArg (DefaultPrivilegeEntry.mk _ _) (toFinset_listPrivileges privileges).symm

/-- Every exported default privilege names its grantee. -/
theorem exported_named {d : DefaultPrivilege} (hd : d ∈ (roleGraphToManifest g).defaultPrivileges)
    {grant : DefaultPrivilegeGrant} (hgrant : grant ∈ d.grant) :
    ∃ key privileges, g.defaultPrivileges[key]? = some privileges ∧
      d.resolvedScope = .ok key.scope ∧ d.owner = some key.owner ∧
        exportDefaultGrant key privileges = grant := by
  obtain ⟨owner, scope, grants, hgroup, rfl⟩ := mem_exportedDefaults.1 hd
  rw [exportDefaultPrivilege_grant] at hgrant
  obtain ⟨key, privileges, hkey, rfl, rfl, heq⟩ := mem_defaultGroups.1 ⟨grants, hgroup, hgrant⟩
  exact ⟨key, privileges, hkey, resolvedScope_exportDefaultPrivilege _ _ _,
    exportDefaultPrivilege_owner _ _ _, heq⟩

theorem exists_exportedEntries :
    ∃ entries, (exportedExpansion g).defaultPrivileges.mapM (defaultPrivilegeEntries none) =
      .ok entries := by
  rw [exportedExpansion_defaultPrivileges]
  refine exists_mapM_eq_ok fun d hd => ?_
  obtain ⟨owner, scope, grants, hgroup, rfl⟩ := mem_exportedDefaults.1 hd
  rw [defaultPrivilegeEntries, resolvedScope_exportDefaultPrivilege]
  apply exists_mapM_eq_ok
  intro grant hgrant
  obtain ⟨key, privileges, -, -, -, rfl⟩ := exported_named hd hgrant
  exact ⟨_, rfl⟩

theorem exportedRoles_readBack :
    ExtTreeMap.ofList
        ((exportedExpansion g).roles.map fun d => (d.name, RoleState.fromDefinition d)) compare =
      g.readBack.roles := by
  rw [RoleGraph.readBack, ← ofList_map_toList g.roles]
  refine congrArg (ExtTreeMap.ofList · compare) ?_
  show List.map _ (List.map _ _) = _
  rw [List.map_map]
  exact List.map_congr_left fun e _ => congrArg (Prod.mk e.1) (fromDefinition_exportRole e.1 e.2)

/-- The schemas are read back, with the ordinary privileges of their owners. -/
theorem exportedSchemas_readBack :
    ExtTreeMap.ofList ((exportedExpansion g).schemas.map fun s =>
        (s.name, (⟨s.owner, s.owner.elim ∅ defaultSchemaOwnerPrivileges⟩ : SchemaState))) compare =
      g.readBack.schemas := by
  rw [RoleGraph.readBack, ← ofList_map_toList g.schemas]
  refine congrArg (ExtTreeMap.ofList · compare) ?_
  show List.map _ (List.map _ (List.map _ _)) = _
  rw [List.map_map, List.map_map]
  refine List.map_congr_left fun e _ => ?_
  show (e.1, (⟨e.2.owner.or none, (e.2.owner.or none).elim ∅ defaultSchemaOwnerPrivileges⟩ :
    SchemaState)) = _
  rw [Option.or_none]

/-- The grants read back are the entries that belong to no owner. -/
theorem getElem?_readBack_grants {k : GrantKey} {s : Finset Privilege} :
    g.readBack.grants[k]? = some s ↔ g.grants[k]? = some s ∧ k ∉ g.inherentGrants := by
  rw [RoleGraph.readBack, getElem?_filter_eq, Option.filter_eq_some_iff, Bool.not_eq_true',
    contains_eq_false_iff]

/-- A grantee that is spelled as it parses keeps its key. -/
theorem grantKey_exported (h : g.Spelled) {k : GrantKey} {s : Finset Privilege}
    (hk : g.grants[k]? = some s) : grantKeyFromManifest (exportGrant k s) = k :=
  grantKeyFromManifest_exportGrant (h.grants k (mem_iff_exists_getElem?.2 ⟨s, hk⟩))

/-- The grants that are not inherent are read back. -/
theorem exportedGrants_readBack (h : g.Spelled) :
    extendEntries ∅ (grantEntries .present (exportedExpansion g).grants) =
      g.readBack.grants := by
  refine ext_entries (fun k => ?_) fun k p => ?_
  · rw [isSome_grantEntries, Option.isSome_iff_exists]
    constructor
    · intro hmem
      obtain ⟨grant, hmem, -, rfl⟩ := hmem
      obtain ⟨key, s, hkey, hown, rfl⟩ := mem_exportedGrants.1 hmem
      rw [grantKey_exported h hkey]
      exact ⟨s, getElem?_readBack_grants.2 ⟨hkey, hown⟩⟩
    · intro hmem
      obtain ⟨s, hs⟩ := hmem
      obtain ⟨hkey, hown⟩ := getElem?_readBack_grants.1 hs
      exact ⟨exportGrant k s, mem_exportedGrants.2 ⟨k, s, hkey, hown, rfl⟩, rfl,
        grantKey_exported h hkey⟩
  · rw [mem_entryAt_grantEntries]
    constructor
    · intro hmem
      obtain ⟨grant, hmem, -, rfl, hp⟩ := hmem
      obtain ⟨key, s, hkey, hown, rfl⟩ := mem_exportedGrants.1 hmem
      rw [grantKey_exported h hkey,
        entryAt_of_getElem? (getElem?_readBack_grants.2 ⟨hkey, hown⟩)]
      exact mem_listPrivileges.1 hp
    · intro hmem
      obtain ⟨hkey, hown⟩ := getElem?_readBack_grants.1 (getElem?_of_mem_entryAt hmem)
      exact ⟨exportGrant k _, mem_exportedGrants.2 ⟨k, _, hkey, hown, rfl⟩, rfl,
        grantKey_exported h hkey, mem_listPrivileges.2 hmem⟩

/-- Every exported grant asserts presence. -/
theorem exportedGrants_present :
    grantEntries .absent (exportedExpansion g).grants = [] := by
  refine List.map_eq_nil_iff.2 (List.filter_eq_nil_iff.2 fun grant hmem => ?_)
  obtain ⟨key, privileges, -, -, rfl⟩ := mem_exportedGrants.1 hmem
  exact Bool.false_ne_true

section Entries

variable {entries : List (List DefaultPrivilegeEntry)}

/-- The entries of the exported default privileges hold what the graph does. -/
theorem mem_exportedEntries (h : g.Spelled)
    (hentries : (exportedExpansion g).defaultPrivileges.mapM (defaultPrivilegeEntries none) =
      .ok entries) {entry : DefaultPrivilegeEntry} :
    entry ∈ entries.flatten ↔ ∃ key privileges,
      g.defaultPrivileges[key]? = some privileges ∧ entry = ⟨key, .present, privileges⟩ := by
  rw [mem_flatten_entries_iff hentries, exportedExpansion_defaultPrivileges, hasEntry_exported]
  refine exists_congr fun key => exists_congr fun privileges => and_congr_right fun hkey => ?_
  have hspelled := h.defaults key (mem_iff_exists_getElem?.2 ⟨privileges, hkey⟩)
  rw [hspelled]

variable (hentry : ∀ {entry : DefaultPrivilegeEntry}, entry ∈ entries.flatten ↔
  ∃ key privileges, g.defaultPrivileges[key]? = some privileges ∧
    entry = ⟨key, .present, privileges⟩)

include hentry

/-- The default privileges are read back. -/
theorem exportedDefaults_readBack :
    extendEntries ∅ (entriesWith .present entries.flatten) = g.defaultPrivileges := by
  refine ext_entries (fun k => ?_) fun k p => ?_
  · rw [isSome_entriesWith, Option.isSome_iff_exists]
    constructor
    · intro hmem
      obtain ⟨entry, hmem, -, rfl⟩ := hmem
      obtain ⟨key, s, hkey, rfl⟩ := hentry.1 hmem
      exact ⟨s, hkey⟩
    · intro hmem
      obtain ⟨s, hs⟩ := hmem
      exact ⟨⟨k, .present, s⟩, hentry.2 ⟨k, s, hs, rfl⟩, rfl, rfl⟩
  · rw [mem_entryAt_entriesWith]
    constructor
    · intro hmem
      obtain ⟨entry, hmem, -, rfl, hp⟩ := hmem
      obtain ⟨key, s, hkey, rfl⟩ := hentry.1 hmem
      rwa [entryAt_of_getElem? hkey]
    · intro hmem
      exact ⟨⟨k, .present, _⟩, hentry.2 ⟨k, _, getElem?_of_mem_entryAt hmem, rfl⟩, rfl, rfl,
        hmem⟩

theorem exportedDefaults_present : entriesWith .absent entries.flatten = [] := by
  refine List.map_eq_nil_iff.2 (List.filter_eq_nil_iff.2 fun entry hmem => ?_)
  obtain ⟨key, s, -, rfl⟩ := hentry.1 hmem
  exact Bool.false_ne_true

end Entries

/-- An exported manifest declares the graph it was written from, read back. -/
theorem fromExpanded_export (h : g.Spelled) :
    RoleGraph.fromExpanded (exportedExpansion g) none = .ok g.readBack := by
  obtain ⟨entries, hentries⟩ := exists_exportedEntries (g := g)
  have hmemberships : ExtTreeSet.ofList
      (membershipEdges (exportedExpansion g).memberships) compare = g.memberships := by
    refine ExtTreeSet.ext_mem fun edge => ?_
    rw [ExtTreeSet.mem_ofList, List.contains_iff_mem]
    exact mem_exportedEdges
  have hexclusive : (exportedExpansion g).memberships.filter (·.exclusive) = [] := by
    refine List.filter_eq_nil_iff.2 fun membership hmem => ?_
    obtain ⟨role, members, -, rfl⟩ := mem_exportedMemberships.1 hmem
    exact Bool.false_ne_true
  refine bind_eq_ok.2 ⟨entries, hentries, congrArg Except.ok ?_⟩
  rw [exportedRoles_readBack, exportedSchemas_readBack, exportedGrants_readBack h,
    exportedGrants_present, exportedDefaults_readBack (mem_exportedEntries h hentries),
    exportedDefaults_present (mem_exportedEntries h hentries), hmemberships, hexclusive]
  rfl

end ReadBack

end PgRoles.Core

import PgRoles.Inspect.ManagedScope
import PgRoles.Inspect.SharedPrivileges
import PgRoles.Inspect.Snapshot

/-!
# One read for many scopes

A snapshot read over a wide scope answers for every config it covers what inspecting that config
alone answers (`snapshot_answers_privately`). Each part of the read agrees with the narrow one on what
the derivation keeps: the routines that the config's rules name are resolved alike, the rows of its
roles, schemas and database are the same, and so are its privileges and default privileges. Aliases
of other routines are the one thing a wider snapshot may add, so answers are compared as the rules
see them (`InspectionResult.forRules`).
-/

set_option autoImplicit false

namespace PgRoles.Inspect

open Std PgRoles.Lib PgRoles.Core

/-! ## Rows -/

section Rows

variable {catalog : Catalog} {roles roles' schemas schemas' : List String} {row : AclRow}
  {key : GrantKey} {privilege : Privilege}

/-- A second query that asks for less makes the first one superfluous. -/
theorem filter_filter_of_imp {α : Type} {rows : List α} {wide narrow : α → Bool}
    (h : ∀ a, narrow a = true → wide a = true) :
    (rows.filter wide).filter narrow = rows.filter narrow := by
  rw [List.filter_filter]
  refine List.filter_congr fun a _ => ?_
  cases hnarrow : narrow a with
  | false => rfl
  | true => rw [h a hnarrow]; rfl

theorem filter_fetchSchemas (h : schemas' ⊆ schemas) :
    (fetchSchemas catalog schemas).filter (fun row => schemas'.contains row.schemaName) =
      (fetchSchemas catalog schemas').filter fun row => schemas'.contains row.schemaName := by
  unfold fetchSchemas
  rw [List.filter_map, List.filter_map]
  congr 1
  rw [filter_filter_of_imp, filter_filter_of_imp]
  · exact fun n hn => hn
  · exact fun n hn => List.contains_iff_mem.2 (h (List.contains_iff_mem.1 hn))

/-! ## Database rows -/

theorem mem_fetchDatabasePrivileges :
    row ∈ fetchDatabasePrivileges catalog roles ↔
      ∃ item ∈ catalog.database.acl.getD [], ∃ name ∈ roles, item.grantee = .role name ∧
        catalog.database.object.row (some name) item = row := by
  have hrows : fetchDatabasePrivileges catalog roles =
      (catalog.database.acl.getD []).filterMap (catalog.database.object.roleRow? roles) := by
    simp [fetchDatabasePrivileges, explicitRows, PgDatabase.object]
  rw [hrows, List.mem_filterMap]
  refine exists_congr fun item => and_congr_right fun _ => ?_
  unfold AclObject.roleRow?
  cases item.grantee with
  | publicRole => simp
  | dangling => simp
  | role name => by_cases hname : name ∈ roles <;> simp [hname]

/-- A row of a role among fewer is a row of both queries. -/
theorem mem_fetchDatabasePrivileges_of_subset {name : String} (h : roles' ⊆ roles)
    (hgrantee : row.grantee = some name) (hname : name ∈ roles') :
    row ∈ fetchDatabasePrivileges catalog roles ↔
      row ∈ fetchDatabasePrivileges catalog roles' := by
  rw [mem_fetchDatabasePrivileges, mem_fetchDatabasePrivileges]
  constructor
  · rintro ⟨item, hitem, other, -, hother, rfl⟩
    obtain rfl := Option.some.inj hgrantee
    exact ⟨item, hitem, other, hname, hother, rfl⟩
  · rintro ⟨item, hitem, other, hmem, hother⟩
    exact ⟨item, hitem, other, h hmem, hother⟩

theorem databaseEntry?_eq_some_iff :
    row.databaseEntry? = some (key, privilege) ↔
      ∃ name, row.grantee = some name ∧ aclCharToPrivilege row.privilegeType = some privilege ∧
        key = ⟨.role name, .database, none, some row.objectName⟩ := by
  simp only [AclRow.databaseEntry?, Option.bind_eq_bind, Option.bind_eq_some_iff,
    Option.some.injEq, Prod.mk.injEq]
  constructor
  · rintro ⟨name, hname, _, hprivilege, rfl, rfl⟩
    exact ⟨name, hname, hprivilege, rfl⟩
  · rintro ⟨name, hname, hprivilege, rfl⟩
    exact ⟨name, hname, privilege, hprivilege, rfl, rfl⟩

theorem isGrantTo_iff : isGrantTo roles key = true ↔ ∃ name ∈ roles, key.role = .role name := by
  unfold isGrantTo
  cases key.role <;> simp

theorem mem_entryAt_databaseGrantsOf {rows : List AclRow} :
    privilege ∈ entryAt (databaseGrantsOf rows) key ↔
      ∃ row ∈ rows, row.databaseEntry? = some (key, privilege) := by
  rw [databaseGrantsOf, mem_entryAt_extendEach, List.mem_filterMap]

theorem noEmptyEntries_databaseGrantsOf (rows : List AclRow) :
    NoEmptyEntries (databaseGrantsOf rows) := by
  have hempty : NoEmptyEntries (∅ : BTreeMap GrantKey (Finset Privilege)) := fun key => by simp
  refine hempty.extendEntries fun e he => ?_
  obtain ⟨shown, -, rfl⟩ := List.mem_map.1 he
  exact Finset.singleton_ne_empty _

theorem mem_databaseInherentGrantsOf {rows : List AclRow} :
    key ∈ databaseInherentGrantsOf rows ↔
      ∃ row ∈ rows, row.ownerName = row.grantee ∧
        ∃ privilege, row.databaseEntry? = some (key, privilege) := by
  simp only [databaseInherentGrantsOf, ExtTreeSet.mem_ofList, List.contains_iff_mem,
    List.mem_map, List.mem_filterMap, List.mem_filter, beq_iff_eq]
  constructor
  · rintro ⟨⟨_, privilege⟩, ⟨row, ⟨hrow, howner⟩, hentry⟩, rfl⟩
    exact ⟨row, hrow, howner, privilege, hentry⟩
  · rintro ⟨row, hrow, howner, privilege, hentry⟩
    exact ⟨(key, privilege), ⟨row, ⟨hrow, howner⟩, hentry⟩, rfl⟩

/-- A grant to a role among fewer is shown by the same rows. -/
theorem mem_fetch_iff_of_databaseEntry? (h : roles' ⊆ roles) (hkey : isGrantTo roles' key = true)
    (hrow : row.databaseEntry? = some (key, privilege)) :
    row ∈ fetchDatabasePrivileges catalog roles ↔
      row ∈ fetchDatabasePrivileges catalog roles' := by
  obtain ⟨name, hgrantee, -, rfl⟩ := databaseEntry?_eq_some_iff.1 hrow
  obtain ⟨other, hother, heq⟩ := isGrantTo_iff.1 hkey
  obtain rfl := Grantee.role.inj heq
  exact mem_fetchDatabasePrivileges_of_subset h hgrantee hother

/-- Narrowed to some roles, the database grants are those of a query for them alone. -/
theorem filter_databaseGrants (h : roles' ⊆ roles) :
    ((databaseGrantsOf (fetchDatabasePrivileges catalog roles)).filter fun key _ =>
        isGrantTo roles' key) =
      (databaseGrantsOf (fetchDatabasePrivileges catalog roles')).filter fun key _ =>
        isGrantTo roles' key := by
  refine ExtTreeMap.ext_getElem? fun key => ?_
  rw [getElem?_filter_eq, getElem?_filter_eq]
  cases hkey : isGrantTo roles' key with
  | false => simp
  | true =>
      have hentry : entryAt (databaseGrantsOf (fetchDatabasePrivileges catalog roles)) key =
          entryAt (databaseGrantsOf (fetchDatabasePrivileges catalog roles')) key := by
        refine Finset.ext fun privilege => ?_
        rw [mem_entryAt_databaseGrantsOf, mem_entryAt_databaseGrantsOf]
        exact exists_congr fun row => and_congr_left fun hrow =>
          mem_fetch_iff_of_databaseEntry? h hkey hrow
      rw [NoEmptyEntries.getElem?_congr (noEmptyEntries_databaseGrantsOf _)
        (noEmptyEntries_databaseGrantsOf _) hentry]

theorem mem_databaseInherentGrants_iff (h : roles' ⊆ roles) (hkey : isGrantTo roles' key = true) :
    key ∈ databaseInherentGrantsOf (fetchDatabasePrivileges catalog roles) ↔
      key ∈ databaseInherentGrantsOf (fetchDatabasePrivileges catalog roles') := by
  rw [mem_databaseInherentGrantsOf, mem_databaseInherentGrantsOf]
  refine exists_congr fun row => and_congr_left fun hrow => ?_
  obtain ⟨-, privilege, hentry⟩ := hrow
  exact mem_fetch_iff_of_databaseEntry? h hkey hentry

end Rows

/-! ## Derivations -/

/-- An answer as the rules of its config see it: with the aliases of the routines they name. -/
def InspectionResult.forRules (config : InspectConfig) (result : InspectionResult) :
    InspectionResult :=
  { result with
    graph := { result.graph with
      routineAliases := result.graph.routineAliases.filter fun key _ =>
        (routineTargets config).contains key } }

section Derivations

variable {catalog : Catalog} {scope config : InspectConfig} {routines routines' : RoutineCatalog}

/-- Coverage is about the names that rules give, and holds of the resolved ones. -/
theorem Covers.resolvePublicScopes (h : Covers scope config) (routines : RoutineCatalog) :
    Covers (routines.resolvePublicScopes scope) (routines.resolvePublicScopes config) :=
  { h with
    publicScopes := by
      intro target htarget
      obtain ⟨resolved, hresolved, rfl⟩ := List.mem_map.1 htarget
      obtain ⟨p, hp, rfl⟩ := List.mem_map.1 hresolved
      obtain ⟨q, hq, heq⟩ := List.mem_map.1 (h.publicScopes (List.mem_map_of_mem hp))
      exact List.mem_map.2 ⟨_, List.mem_map_of_mem hq,
        routines.target_resolvePublicScope_congr heq⟩ }

theorem fetchSchemas_eq (catalog : Catalog) (schemas : List String) :
    (if schemas.isEmpty then [] else fetchSchemas catalog schemas) = fetchSchemas catalog schemas := by
  cases schemas with
  | nil => simp [fetchSchemas]
  | cons schema schemas => rfl

theorem fetchDefaultPrivileges_eq (catalog : Catalog) (config : InspectConfig) :
    (if config.privilegeSchemas.isEmpty && config.defaultPrivScopes.isEmpty then ∅
      else fetchDefaultPrivileges catalog config.privilegeSchemas config.managedRoles
        config.defaultPrivScopes) =
      fetchDefaultPrivileges catalog config.privilegeSchemas config.managedRoles
        config.defaultPrivScopes := by
  split_ifs with hempty
  · rw [Bool.and_eq_true, List.isEmpty_iff, List.isEmpty_iff] at hempty
    rw [hempty.1, hempty.2]
    have hrows : defaultAclRows catalog [] [] = [] := by
      have hnone : ∀ d : PgDefaultAcl, d.schema.any ([] : List String).contains = false := by
        intro d
        cases d.schema <;> rfl
      simp [defaultAclRows, schemaDefaultRows, globalPairs, hnone]
    rw [fetchDefaultPrivileges, hrows]
    rfl
  · rfl

theorem filter_roles (h : Covers scope config) :
    (fetchRoles catalog scope.managedRoles).filter
        (fun row => config.managedRoles.contains row.rolname) =
      (fetchRoles catalog config.managedRoles).filter fun row =>
        config.managedRoles.contains row.rolname := by
  unfold fetchRoles
  rw [filter_filter_of_imp, filter_filter_of_imp]
  · exact fun row hrow => hrow
  · exact fun row hrow => List.contains_iff_mem.2 (h.roles (List.contains_iff_mem.1 hrow))

/-- The memberships of a wide read, filtered to the narrow ones. -/
theorem filter_memberships (h : Covers scope config) :
    (fetchMemberships catalog (scope.managedRoles ++ scope.membershipGrantors)).filter
        (fun row => config.managedRoles.contains row.roleName ||
          config.membershipGrantors.contains row.roleName) =
      (fetchMemberships catalog (config.managedRoles ++ config.membershipGrantors)).filter
        fun row => config.managedRoles.contains row.roleName ||
          config.membershipGrantors.contains row.roleName := by
  unfold fetchMemberships
  rw [filter_filter_of_imp, filter_filter_of_imp]
  · intro row hrow
    simpa using hrow
  · intro row hrow
    have hmem : row.roleName ∈ config.managedRoles ∨ row.roleName ∈ config.membershipGrantors := by
      simpa using hrow
    have hwide : row.roleName ∈ scope.managedRoles ∨ row.roleName ∈ scope.membershipGrantors := by
      rcases hmem with hmem | hmem
      · exact Or.inl (h.roles hmem)
      · exact (List.mem_append.1 (h.membershipGrantors hmem)).symm
    simpa using hwide

/-- Database grants of the config's roles are recorded alike. -/
theorem recordDatabaseGrants_congr (h : Covers scope config)
    (hinclude : config.includeDatabasePrivileges = true) (g : RoleGraph) :
    recordDatabaseGrants g
        (if scope.includeDatabasePrivileges then
          databaseGrantsOf (fetchDatabasePrivileges catalog scope.managedRoles) else ∅)
        (if scope.includeDatabasePrivileges then
          databaseInherentGrantsOf (fetchDatabasePrivileges catalog scope.managedRoles) else ∅)
        config.managedRoles =
      recordDatabaseGrants g
        (databaseGrantsOf (fetchDatabasePrivileges catalog config.managedRoles))
        (databaseInherentGrantsOf (fetchDatabasePrivileges catalog config.managedRoles))
        config.managedRoles := by
  rw [if_pos (h.databasePrivileges hinclude), if_pos (h.databasePrivileges hinclude)]
  unfold recordDatabaseGrants
  rw [filter_databaseGrants h.roles]
  dsimp only
  congr 2
  refine List.filter_congr fun key hkey => ?_
  have hgrant : isGrantTo config.managedRoles key = true := by
    obtain ⟨privileges, hheld⟩ := mem_iff_exists_getElem?.1 (ExtTreeMap.mem_keys.1 hkey)
    rw [getElem?_filter_eq] at hheld
    cases hgrant : isGrantTo config.managedRoles key with
    | true => rfl
    | false => simp [hgrant] at hheld
  have hiff := @mem_databaseInherentGrants_iff catalog _ _ key h.roles hgrant
  rw [ExtTreeSet.mem_iff_contains, ExtTreeSet.mem_iff_contains] at hiff
  exact Bool.eq_iff_iff.2 hiff

/-! ## Graphs -/

open RawInspection

theorem routineAliases_graph (snapshot : RawInspection) (config : InspectConfig)
    (privileges : Option PrivilegeInspectionResult) :
    (snapshot.graph config privileges).routineAliases = snapshot.routineAliases config := by
  unfold RawInspection.graph
  cases privileges <;> cases config.includeDatabasePrivileges <;> rfl

/-- Aliases aside, the rows of a wider scope give the graph that the config's own rows give. -/
theorem graph_readRows (h : Covers scope config) (privileges : Option PrivilegeInspectionResult) :
    (readRows catalog scope routines).graph config privileges =
      { (readRows catalog config routines').graph config privileges with
        routineAliases := (readRows catalog scope routines).routineAliases config } := by
  have hroles : (readRows catalog scope routines).roleStates config =
      (readRows catalog config routines').roleStates config := by
    simp only [roleStates, readRows, filter_roles h]
  have hmemberships : (readRows catalog scope routines).membershipRows config =
      (readRows catalog config routines').membershipRows config := by
    simp only [membershipRows, readRows, filter_memberships h]
  have hschemas : (readRows catalog scope routines).schemaStates config =
      (readRows catalog config routines').schemaStates config := by
    simp only [schemaStates, readRows, fetchSchemas_eq, filter_fetchSchemas h.managedSchemas]
  have hdefaults : deriveDefaultPrivileges (readRows catalog scope routines).defaultPrivileges
        config =
      deriveDefaultPrivileges (readRows catalog config routines').defaultPrivileges config := by
    simp only [readRows, fetchDefaultPrivileges_eq, deriveDefaultPrivileges_fetch h]
  simp only [RawInspection.graph, hroles, hmemberships, hschemas, hdefaults]
  cases hinclude : config.includeDatabasePrivileges with
  | false => cases privileges <;> rfl
  | true =>
      simp only [readRows, if_true, recordDatabaseGrants_congr h hinclude,
        recordDatabaseGrants_congr (Covers.refl config) hinclude]
      cases privileges <;> rfl

/-- As the rules of the config see it, a wider read answers what its own read answers. -/
theorem forRules_result (h : Covers scope config) (hroutines : ∀ key ∈ routineTargets config,
      routines'.entry key = routines.entry key) (privileges : Option PrivilegeInspectionResult) :
    ((readRows catalog scope routines).result config privileges).forRules config =
      ((readRows catalog config routines').result config privileges).forRules config := by
  have haliases : ((readRows catalog scope routines).routineAliases config).filter
        (fun key _ => (routineTargets config).contains key) =
      ((readRows catalog config routines').routineAliases config).filter fun key _ =>
        (routineTargets config).contains key := by
    refine ExtTreeMap.ext_getElem? fun key => ?_
    simp only [routineAliases, readRows, getElem?_filter_eq]
    by_cases hkey : key ∈ routineTargets config
    · have hentry : routines'.aliases[key]? = routines.aliases[key]? :=
        congrArg Prod.fst (hroutines key hkey)
      rw [hentry]
    · simp [hkey]
  simp only [result, InspectionResult.forRules, @graph_readRows catalog scope config routines
    routines' h, routineAliases_graph, haliases]

/-! ## Runs -/

/-- The snapshot was read over the scope, and holds nothing but its grantability besides. -/
structure SnapshotOf (catalog : Catalog) (scope : InspectConfig) (snapshot : RawInspection) :
    Prop where
  targets : mismatchedTarget? catalog scope = none
  routines : RoutineCatalog.read catalog scope = .ok snapshot.routines
  rows : { snapshot with grantability := none } = readRows catalog scope snapshot.routines
  grantability : ∀ raw, snapshot.grantability = some raw →
    raw = readRawGrantability catalog (wildcardScopesOf scope.wildcardGrants)

/-- The grantability queries a snapshot may still issue. -/
def RawInspection.pending (snapshot : RawInspection) : Nat :=
  if snapshot.grantability.isSome then 0 else 1

/-- The private answer, or what the snapshot lacks for it. -/
def privateAnswer (catalog : Catalog) (scope config : InspectConfig) :
    Except InspectError InspectionResult :=
  match uncoveredAxis scope config with
  | some axis => .error (.scopeNotCovered axis)
  | none => inspectWithDiagnostics catalog config

variable {snapshot own : RawInspection}

theorem snapshotOf_read (h : RawInspection.read catalog scope = .ok snapshot) :
    SnapshotOf catalog scope snapshot := by
  unfold RawInspection.read at h
  cases htarget : mismatchedTarget? catalog scope with
  | some target => rw [htarget] at h; cases h
  | none =>
      rw [htarget] at h
      cases hroutines : RoutineCatalog.read catalog scope with
      | error e => rw [hroutines] at h; cases h
      | ok routines =>
          rw [hroutines] at h
          cases h
          exact ⟨htarget, hroutines, rfl, fun raw hheld => by cases hheld⟩

/-- A config that is covered can be read on its own, and its routines are resolved alike. -/
theorem SnapshotOf.exists_own (h : SnapshotOf catalog scope snapshot) (hcovers : Covers scope config) :
    ∃ routines', RawInspection.read catalog config = .ok (readRows catalog config routines') ∧
      (∀ key ∈ routineTargets config, routines'.entry key = snapshot.routines.entry key) ∧
        RoutineCatalog.AgreeOn config snapshot.routines routines' := by
  obtain ⟨routines', hread, hentry⟩ := RoutineCatalog.read_of_subset h.routines hcovers.routines
  have htargets : mismatchedTarget? catalog config = none := by
    have hall := h.targets
    simp only [mismatchedTarget?, List.find?_eq_none] at hall ⊢
    exact fun target htarget => hall target (hcovers.databaseTargets htarget)
  refine ⟨routines', ?_, hentry, RoutineCatalog.agreeOn_of_read h.routines hread hentry⟩
  simp only [RawInspection.read, htargets, hread]
  rfl

theorem SnapshotOf.readGrantability (h : SnapshotOf catalog scope snapshot) :
    (snapshot.readGrantability catalog).1 =
        readRawGrantability catalog (wildcardScopesOf scope.wildcardGrants) ∧
      (snapshot.readGrantability catalog).2 = snapshot.pending := by
  have hscope : snapshot.scope = scope := congrArg RawInspection.scope h.rows
  unfold RawInspection.readGrantability RawInspection.pending
  cases hheld : snapshot.grantability with
  | none => simp [hscope]
  | some raw => simp [h.grantability raw hheld]

/-- The privileges that a config's own read derives for it, its routines resolved. -/
def privatePrivileges (catalog : Catalog) (config : InspectConfig) :
    Option PrivilegeInspectionResult :=
  if config.readsNoPrivileges then none
  else
    let derived := derivePrivileges (.read catalog config) config.privilegeSchemas
      config.managedRoles config.wildcardGrants config.publicObjectScopes
    if derived.unsatisfied.isEmpty then some (derived.finish none)
    else some (derived.finish
      (some (readRawGrantability catalog (wildcardScopesOf config.wildcardGrants))))

/-- A covered config gets its own privileges, and using up queries leaves none for later. -/
theorem SnapshotOf.inspectedPrivileges (h : SnapshotOf catalog scope snapshot)
    (hcovers : Covers scope config) :
    let resolved := snapshot.routines.resolvePublicScopes config
    let inspected := snapshot.inspectedPrivileges catalog resolved
    inspected.1 = privatePrivileges catalog resolved ∧
      SnapshotOf catalog scope { snapshot with grantability := inspected.2.2 } ∧
        inspected.2.1 + RawInspection.pending { snapshot with grantability := inspected.2.2 } ≤
          snapshot.pending := by
  intro resolved inspected
  have hresolved : Covers (snapshot.routines.resolvePublicScopes scope) resolved :=
    hcovers.resolvePublicScopes snapshot.routines
  have hprivileges : snapshot.privileges =
      .read catalog (snapshot.routines.resolvePublicScopes scope) :=
    congrArg RawInspection.privileges h.rows
  have hkept : SnapshotOf catalog scope { snapshot with grantability := snapshot.grantability } := h
  simp only [inspected, RawInspection.inspectedPrivileges, privatePrivileges]
  by_cases hreads : resolved.readsNoPrivileges = true
  · simp only [hreads, if_true]
    exact ⟨trivial, hkept, Nat.le_of_eq (Nat.zero_add _)⟩
  · have hderived : snapshot.derived resolved =
        derivePrivileges (.read catalog resolved) resolved.privilegeSchemas resolved.managedRoles
          resolved.wildcardGrants resolved.publicObjectScopes := by
      rw [RawInspection.derived, hprivileges,
        derivePrivileges_read hresolved (Bool.eq_false_of_not_eq_true hreads)]
    simp only [hderived, if_neg hreads]
    split_ifs
    · exact ⟨rfl, hkept, Nat.le_of_eq (Nat.zero_add _)⟩
    · obtain ⟨hraw, hqueries⟩ := h.readGrantability
      refine ⟨?_, ⟨h.targets, h.routines, h.rows, fun raw hheld => ?_⟩, ?_⟩
      · rw [hraw]
        exact congrArg some (finish_readGrantability hresolved unsatisfied_subset)
      · rw [← Option.some.inj hheld]
        exact hraw
      · rw [hqueries]
        simp [RawInspection.pending]

/-- The answer of a snapshot to a config it covers. -/
theorem SnapshotOf.derive_of_covers (h : SnapshotOf catalog scope snapshot)
    (hcovers : Covers scope config) :
    (snapshot.derive catalog config).1.map (·.1) =
      (snapshot.routines.validate config).map fun _ =>
        snapshot.result config
          (privatePrivileges catalog (snapshot.routines.resolvePublicScopes config)) := by
  have hscope : snapshot.scope = scope := congrArg RawInspection.scope h.rows
  unfold RawInspection.derive
  rw [hscope, uncoveredAxis_eq_none_iff.2 hcovers]
  cases hvalid : snapshot.routines.validate config with
  | error e => rfl
  | ok valid =>
      obtain ⟨hprivileges, -, -⟩ := h.inspectedPrivileges hcovers
      simp only [Except.map, hprivileges]
      rfl

/-- One derivation answers as a private inspection, and uses up the queries it issues. -/
theorem SnapshotOf.derive (h : SnapshotOf catalog scope snapshot)
    (hnamed : config.NamesPublicRoutines) :
    ((snapshot.derive catalog config).1.map (·.1)).map (·.forRules config) =
        (privateAnswer catalog scope config).map (·.forRules config) ∧
      SnapshotOf catalog scope (snapshot.derive catalog config).2 ∧
        Answer.queries (snapshot.derive catalog config).1 +
          (snapshot.derive catalog config).2.pending ≤ snapshot.pending := by
  have hscope : snapshot.scope = scope := congrArg RawInspection.scope h.rows
  have hsame : uncoveredAxis snapshot.scope config = uncoveredAxis scope config := by rw [hscope]
  cases haxis : uncoveredAxis scope config with
  | some axis =>
      unfold privateAnswer RawInspection.derive
      rw [hsame, haxis]
      exact ⟨rfl, h, by simp [Answer.queries]⟩
  | none =>
      have hcovers := uncoveredAxis_eq_none_iff.1 haxis
      refine ⟨?_, ?_⟩
      · obtain ⟨routines', hread, hentry, hagree⟩ := h.exists_own hcovers
        have hown := (snapshotOf_read hread).derive_of_covers (Covers.refl config)
        have hprivate : privateAnswer catalog scope config =
            ((readRows catalog config routines').derive catalog config).1.map (·.1) := by
          unfold privateAnswer inspectWithDiagnostics
          rw [haxis, hread]
          rfl
        have hvalid : routines'.validate config = snapshot.routines.validate config :=
          RoutineCatalog.validate_congr hagree
        have hresolve : routines'.resolvePublicScopes config =
            snapshot.routines.resolvePublicScopes config :=
          RoutineCatalog.resolvePublicScopes_congr hagree hnamed
        rw [hprivate, hown, h.derive_of_covers hcovers, except_map_map, except_map_map]
        have hresult : ∀ privileges, (snapshot.result config privileges).forRules config =
            ((readRows catalog config routines').result config privileges).forRules config := by
          intro privileges
          rw [← forRules_result hcovers hentry privileges, ← h.rows]
          rfl
        simp only [hresult]
        rw [← hvalid, ← hresolve]
        rfl
      · unfold RawInspection.derive
        rw [hsame, haxis]
        cases hvalid : snapshot.routines.validate config with
        | error e => exact ⟨h, by simp [Answer.queries]⟩
        | ok valid =>
            obtain ⟨-, hnext, hqueries⟩ := h.inspectedPrivileges hcovers
            exact ⟨hnext, hqueries⟩

/-- Every sequence of derivations answers privately, with at most the queries that are left. -/
theorem SnapshotOf.deriveEach (configs : List InspectConfig)
    (h : SnapshotOf catalog scope snapshot)
    (hnamed : ∀ config ∈ configs, config.NamesPublicRoutines) :
    List.zipWith (fun config answer => (answer.map (·.1)).map (·.forRules config)) configs
        (snapshot.deriveEach catalog configs) =
        configs.map (fun config =>
          (privateAnswer catalog scope config).map (·.forRules config)) ∧
      ((snapshot.deriveEach catalog configs).map Answer.queries).sum ≤ snapshot.pending := by
  induction configs generalizing snapshot with
  | nil => exact ⟨rfl, Nat.zero_le _⟩
  | cons config rest ih =>
      obtain ⟨hanswer, hnext, hqueries⟩ := h.derive (hnamed config List.mem_cons_self)
      obtain ⟨hanswers, hrest⟩ := ih hnext fun other hother =>
        hnamed other (List.mem_cons_of_mem _ hother)
      rw [RawInspection.deriveEach]
      refine ⟨?_, ?_⟩
      · rw [List.zipWith_cons_cons, List.map_cons, hanswer, hanswers]
      · rw [List.map_cons, List.sum_cons]
        omega

end Derivations

/-- A snapshot answers every sequence of derivations as private inspections would, as the rules of
each config see it, except for configs it does not cover, which it refuses; it reads grantability at
most once; and a snapshot over the union of scopes refuses none of them. -/
theorem snapshot_answers_privately {catalog : Catalog} {scope : InspectConfig}
    {snapshot : RawInspection} (hread : RawInspection.read catalog scope = .ok snapshot)
    {configs : List InspectConfig} (hbuilt : ∀ config ∈ configs, config.Built) :
    List.zipWith (fun config answer => (answer.map (·.1)).map (·.forRules config)) configs
        (snapshot.deriveEach catalog configs) =
        configs.map (fun config =>
          (privateAnswer catalog scope config).map (·.forRules config)) ∧
      ((snapshot.deriveEach catalog configs).map RawInspection.Answer.queries).sum ≤ 1 ∧
      ∀ members, scope = .unionOf members → ∀ config ∈ members,
        privateAnswer catalog scope config = inspectWithDiagnostics catalog config := by
  have hof := snapshotOf_read hread
  obtain ⟨hanswers, hqueries⟩ := hof.deriveEach configs fun config hconfig =>
    (hbuilt config hconfig).namesPublicRoutines
  have hpending : snapshot.pending ≤ 1 := by
    unfold RawInspection.pending
    split_ifs <;> omega
  refine ⟨hanswers, hqueries.trans hpending, fun members hunion config hconfig => ?_⟩
  subst hunion
  rw [privateAnswer, uncoveredAxis_eq_none_iff.2 (covers_unionOf hconfig)]

/-- A database with a table that nobody was granted and a routine that everybody may call. -/
def ordersDatabase : Catalog where
  roles := [⟨"reader", false, true, false, false, true, false, false, -1, none, none, none⟩]
  memberships := []
  classes := [⟨"app", "orders", 'r', "app_owner", none⟩]
  procs := [⟨16400, "app", "total", "integer", "order_id integer", "app_owner", none⟩]
  types := []
  namespaces := [⟨"app", "app_owner", none⟩]
  defaultAcls := []
  database := ⟨"shop", "app_owner", none⟩
  currentUser := "app_owner"
  toRegprocedure text := .ok (if text = "\"app\".\"total\"(int)" then some 16400 else none)
  toRegproc _ := .ok none
  hasSchemaPrivilege _ _ _ := true
  acldefault kind owner := if kind = 'f' then [⟨.publicRole, owner, "EXECUTE"⟩] else []
  hasUsage _ := true
  hasGrantOption _ _ _ _ := true

/-- A rule of PUBLIC that spells a type of the routine in another way. -/
def callersScope : InspectConfig :=
  .fromExpanded
    { grants := [⟨"PUBLIC", [.execute], ⟨.function, some "app", some "total(int)"⟩, .present⟩] } false

/-- A wildcard rule that the table does not satisfy. -/
def readersScope : InspectConfig :=
  .fromExpanded
    { roles := [{ name := "reader" }]
      grants := [⟨"reader", [.select], ⟨.table, some "app", some wildcardName⟩, .present⟩] } false

/-- One read of the database answers both as they would be answered alone. -/
theorem ordersDatabase_answers :
    ∃ snapshot, RawInspection.read ordersDatabase (.unionOf [callersScope, readersScope]) =
        .ok snapshot ∧
      List.zipWith (fun config answer => (answer.map (·.1)).map (·.forRules config))
          [callersScope, readersScope]
          (snapshot.deriveEach ordersDatabase [callersScope, readersScope]) =
        [callersScope, readersScope].map (fun config =>
          (inspectWithDiagnostics ordersDatabase config).map (·.forRules config)) := by
  have hok : (RawInspection.read ordersDatabase
      (.unionOf [callersScope, readersScope])).toBool = true := by decide
  cases hread : RawInspection.read ordersDatabase (.unionOf [callersScope, readersScope]) with
  | error e => rw [hread] at hok; cases hok
  | ok snapshot =>
      have hbuilt : ∀ config ∈ [callersScope, readersScope], config.Built := by
        intro config hconfig
        simp only [List.mem_cons, List.not_mem_nil, or_false] at hconfig
        rcases hconfig with rfl | rfl
        · exact .fromExpanded _ _
        · exact .fromExpanded _ _
      obtain ⟨hanswers, -, hunion⟩ := snapshot_answers_privately hread hbuilt
      refine ⟨snapshot, rfl, hanswers.trans (List.map_congr_left fun config hconfig => ?_)⟩
      rw [hunion _ rfl config hconfig]

example : (RoutineCatalog.read ordersDatabase callersScope).map
    (·.canonicalName "app" "total(int)") = .ok "total(integer)" := by decide

end PgRoles.Inspect

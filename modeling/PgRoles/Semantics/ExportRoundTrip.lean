import PgRoles.Core.ExportAcceptance
import PgRoles.Core.SilentPlan
import PgRoles.Semantics.PlanConvergence

/-!
# Adopting an exported manifest

The manifest written from the current graph is planned against that graph. Nothing is created,
granted, revoked, dropped or transferred: the plan respells settings and restores the ordinary
privileges of schema owners, and it is empty exactly when the settings are already in their
canonical spelling and every schema owner holds those privileges (`export_adopted`).
-/

set_option autoImplicit false

namespace PgRoles.Semantics

open Std PgRoles.Lib PgRoles.Core

/-- Settings are spelled as a definition is read, and schema owners hold the ordinary
privileges. -/
structure Settled (g : RoleGraph) : Prop where
  settings : ∀ (name : String) state, g.roles[name]? = some state →
    readConfig state.config = state.config
  owners : ∀ (name : String) state owner, g.schemas[name]? = some state →
    state.owner = some owner → defaultSchemaOwnerPrivileges owner ⊆ state.ownerPrivileges

/-- What respells the settings of a role: the canonical spellings that the role does not have are
written, and the names that are not canonical are removed. -/
def respelling (state : RoleState) : List RoleAttribute :=
  changedConfig state.config (readConfig state.config) ++
    removedConfig state.config (readConfig state.config)

/-- What an adoption plans: the settings of a role become what they are read as, and the owner of a
schema gets the ordinary privileges that it lacks. -/
inductive Adjusts (g : RoleGraph) : Change → Prop
  | respells {name : String} {state : RoleState} (hstate : g.roles[name]? = some state)
      (hspelling : readConfig state.config ≠ state.config) :
      Adjusts g (.alterRole name (respelling state))
  | restores {name : String} {state : SchemaState} {owner : String}
      (hstate : g.schemas[name]? = some state) (howner : state.owner = some owner)
      (hlacks : ¬ defaultSchemaOwnerPrivileges owner ⊆ state.ownerPrivileges) :
      Adjusts g (.ensureSchemaOwnerPrivileges name owner
        (defaultSchemaOwnerPrivileges owner \ state.ownerPrivileges))

/-- The grants of the manifest are the entries that nobody holds as the owner of an object. -/
def ExportsGranted (g : RoleGraph) (m : PolicyManifest) : Prop :=
  ∀ key privileges,
    (∃ grant ∈ m.grants, grantKeyFromManifest grant = key ∧
      grant.privileges.toFinset = privileges) ↔
    g.grants[key]? = some privileges ∧ key ∉ g.inherentGrants

/-! ## Settings -/

/-- Settings differ exactly when some are to be written or removed. -/
theorem configChanges_eq_nil_iff {old new : BTreeMap String String} :
    changedConfig old new = [] ∧ removedConfig old new = [] ↔ old = new := by
  constructor
  · intro h
    exact configChanges_eq_nil h.1 h.2
  · intro h
    subst h
    constructor
    · exact List.flatMap_eq_nil_iff.2 fun e he => if_pos (mem_toList_iff.1 he)
    · refine List.flatMap_eq_nil_iff.2 fun e he => if_pos ?_
      exact mem_iff_exists_getElem?.2 ⟨e.2, mem_toList_iff.1 he⟩

/-- A role whose settings alone are replaced changes by settings. -/
theorem changedAttributes_withConfig (s : RoleState) (config : BTreeMap String String) :
    s.changedAttributes { s with config := config } =
      changedConfig s.config config ++ removedConfig s.config config := by
  simp [RoleState.changedAttributes, changedAttribute]

/-- A respelled role has its settings as they are read, and is as it was otherwise. -/
theorem applyAttributes_respelling (state : RoleState) :
    applyAttributes state (respelling state) =
      { state with config := readConfig state.config } := by
  rw [respelling, ← changedAttributes_withConfig, applyAttributes_changedAttributes]

/-! ## The plan of an adoption -/

section Adoption

variable {g : RoleGraph}

theorem readBack_roles {name : String} {d : RoleState} :
    g.readBack.roles[name]? = some d ↔
      ∃ state, g.roles[name]? = some state ∧ d = { state with config := readConfig state.config } := by
  rw [RoleGraph.readBack, ExtTreeMap.getElem?_map, Option.map_eq_some_iff]
  exact exists_congr fun state => and_congr_right fun _ => eq_comm

theorem readBack_schemas {name : String} {d : SchemaState} :
    g.readBack.schemas[name]? = some d ↔
      ∃ state, g.schemas[name]? = some state ∧
        d = ⟨state.owner, state.owner.elim ∅ defaultSchemaOwnerPrivileges⟩ := by
  rw [RoleGraph.readBack, ExtTreeMap.getElem?_map, Option.map_eq_some_iff]
  exact exists_congr fun state => and_congr_right fun _ => eq_comm

theorem readBack_grants {k : GrantKey} {s : Finset Privilege} :
    g.readBack.grants[k]? = some s ↔ g.grants[k]? = some s ∧ k ∉ g.inherentGrants := by
  rw [RoleGraph.readBack, getElem?_filter_eq, Option.filter_eq_some_iff, Bool.not_eq_true',
    contains_eq_false_iff]

/-- Resolution leaves a graph whose keys the catalog spells so. -/
theorem resolve_readBack (haliases : ∀ k ∈ g.grants, resolveKey g.routineAliases k = k) :
    g.readBack.resolveRoutineAliases g.routineAliases = g.readBack := by
  have hkeys : (g.readBack.grants.keys ++ g.readBack.grantAbsences.keys).all (fun key =>
      resolveKey g.routineAliases key == key) = true := by
    rw [List.all_eq_true]
    intro k hk
    rcases List.mem_append.1 hk with hk | hk
    · obtain ⟨s, hs⟩ := mem_iff_exists_getElem?.1 (ExtTreeMap.mem_keys.1 hk)
      exact beq_iff_eq.2 (haliases k (mem_iff_exists_getElem?.2 ⟨s, (readBack_grants.1 hs).1⟩))
    · have hempty : g.readBack.grantAbsences = ∅ := rfl
      rw [ExtTreeMap.mem_keys, hempty] at hk
      exact absurd hk ExtTreeMap.not_mem_empty
  unfold RoleGraph.resolveRoutineAliases
  rw [if_pos hkeys, ite_self]

theorem roleCreates_readBack : roleCreates g g.readBack = [] := by
  refine List.eq_nil_iff_forall_not_mem.2 fun c hc => ?_
  obtain ⟨n, s, hd, hnone, -⟩ := mem_roleCreates.1 hc
  obtain ⟨state, hstate, -⟩ := readBack_roles.1 hd
  rw [hstate] at hnone
  cases hnone

theorem roleDrops_readBack : roleDrops g g.readBack = [] := by
  refine List.eq_nil_iff_forall_not_mem.2 fun c hc => ?_
  obtain ⟨n, s, hs, hnone, -⟩ := mem_roleDrops.1 hc
  rw [readBack_roles.2 ⟨s, hs, rfl⟩] at hnone
  cases hnone

theorem schemaChanges_readBack : schemaChanges g g.readBack = [] := by
  refine List.eq_nil_iff_forall_not_mem.2 fun c hc => ?_
  obtain ⟨n, d, hd, hor⟩ := mem_schemaChanges.1 hc
  obtain ⟨state, hstate, rfl⟩ := readBack_schemas.1 hd
  rcases hor with ⟨hnone, -⟩ | ⟨t, o, ht, ho, hne, -⟩
  · rw [hstate] at hnone
    cases hnone
  · rw [hstate] at ht
    obtain rfl := Option.some.inj ht
    exact hne ho

theorem grantChanges_readBack : grantChanges g g.readBack = [] := by
  refine grantChanges_eq_nil fun k s hk => ?_
  obtain ⟨hk, -⟩ := readBack_grants.1 hk
  rw [entryAt_of_getElem? hk, hk]
  exact ⟨Option.some_ne_none s, Finset.Subset.refl s⟩

theorem defaultSets_readBack : defaultSets g g.readBack = [] := by
  refine defaultSets_eq_nil fun k s hk => ?_
  have hheld : g.defaultPrivileges[k]? = some s := hk
  rw [entryAt_of_getElem? hheld, hheld]
  exact ⟨Option.some_ne_none s, Finset.Subset.refl s⟩

/-- What an owner holds as owner is not exported, and is not revoked either. -/
theorem plannedRevokes_readBack : plannedRevokes g g.readBack = [] := by
  refine plannedRevokes_eq_nil fun k p hp => ?_
  rcases mem_accumulatedRevokes.1 hp with ⟨-, hown, hp⟩ | ⟨hp, -⟩
  · obtain ⟨hheld, hnot⟩ := Finset.mem_sdiff.1 (shadowFilter_subset hp)
    have hk := readBack_grants.2 ⟨getElem?_of_mem_entryAt hheld, hown⟩
    rw [entryAt_of_getElem? hk] at hnot
    exact hnot hheld
  · have hempty : g.readBack.grantAbsences = ∅ := rfl
    simp [hempty, entryAt] at hp

theorem defaultRevokes_readBack : defaultRevokes g g.readBack = [] := by
  refine defaultRevokes_eq_nil (fun k p hp => ?_) fun k hk _ => hk
  rcases mem_accumulatedDefaultRevokes.1 hp with ⟨-, hp, hno⟩ | ⟨hp, -⟩
  · exact hno hp
  · have hempty : g.readBack.defaultPrivilegeAbsences = ∅ := rfl
    simp [hempty, entryAt] at hp

/-- Memberships that are declared as they are stay, whoever granted them. -/
theorem members_eq_nil {current desired : RoleGraph}
    (h : current.memberships = desired.memberships) :
    memberRemoves current desired = [] ∧ memberAdds current desired = [] := by
  have hsame : ∀ e : MembershipEdge, sameOptions e e = true := by
    intro e
    simp [sameOptions]
  constructor
  · refine List.eq_nil_iff_forall_not_mem.2 fun c hc => ?_
    rcases mem_memberRemoves.1 hc with ⟨pair, e, he, hc⟩ | ⟨pair, e, he, hnone, -⟩
    · rw [← h] at he
      obtain ⟨held, hheld, hdiffer, -⟩ := mem_pairRemoves.1 hc
      rw [he] at hheld
      rw [← Option.some.inj hheld, hsame] at hdiffer
      cases hdiffer
    · rw [h, hnone] at he
      cases he
  · refine List.eq_nil_iff_forall_not_mem.2 fun c hc => ?_
    obtain ⟨pair, e, he, hc⟩ := mem_memberAdds.1 hc
    rw [← h] at he
    rw [pairAdds, he] at hc
    simp [hsame] at hc

/-- All that an adoption plans. -/
theorem diff_readBack (haliases : ∀ k ∈ g.grants, resolveKey g.routineAliases k = k) :
    diff g g.readBack = roleAlters g g.readBack ++ schemaGrants g g.readBack := by
  obtain ⟨hremoves, hadds⟩ := @members_eq_nil g g.readBack rfl
  rw [diff, resolve_readBack haliases, diffResolved, roleCreates_readBack, schemaChanges_readBack,
    grantChanges_readBack, defaultSets_readBack, plannedRevokes_readBack, hremoves, hadds,
    defaultRevokes_readBack, roleDrops_readBack]
  simp only [List.nil_append, List.append_nil]

/-- Roles are altered exactly where their settings are read otherwise. -/
theorem mem_roleAlters_readBack {c : Change} :
    c ∈ roleAlters g g.readBack ↔ ∃ name state, g.roles[name]? = some state ∧
      readConfig state.config ≠ state.config ∧ c = .alterRole name (respelling state) := by
  have hsettings : ∀ state : RoleState,
      state.changedAttributes { state with config := readConfig state.config } = [] ↔
        readConfig state.config = state.config := by
    intro state
    rw [changedAttributes_withConfig, List.append_eq_nil_iff, configChanges_eq_nil_iff, eq_comm]
  constructor
  · intro hc
    obtain ⟨name, d, hd, hor⟩ := mem_roleAlters.1 hc
    obtain ⟨state, hstate, rfl⟩ := readBack_roles.1 hd
    rcases hor with ⟨hnone, -⟩ | ⟨t, ht, ⟨hne, rfl⟩ | ⟨hne, -⟩⟩
    · rw [hstate] at hnone
      cases hnone
    · rw [hstate] at ht
      obtain rfl := Option.some.inj ht
      exact ⟨name, state, hstate, fun heq => hne ((hsettings state).2 heq),
        congrArg (Change.alterRole name) (changedAttributes_withConfig _ _)⟩
    · rw [hstate] at ht
      obtain rfl := Option.some.inj ht
      exact absurd rfl hne
  · intro h
    obtain ⟨name, state, hstate, hne, rfl⟩ := h
    rw [respelling, ← changedAttributes_withConfig]
    exact mem_roleAlters.2 ⟨name, _, readBack_roles.2 ⟨state, hstate, rfl⟩, Or.inr
      ⟨state, hstate, Or.inl ⟨fun hnil => hne ((hsettings state).1 hnil), rfl⟩⟩⟩

/-- Owners of schemas are given exactly what they lack of the ordinary privileges. -/
theorem mem_schemaGrants_readBack {c : Change} :
    c ∈ schemaGrants g g.readBack ↔ ∃ name state owner, g.schemas[name]? = some state ∧
      state.owner = some owner ∧ ¬ defaultSchemaOwnerPrivileges owner ⊆ state.ownerPrivileges ∧
      c = .ensureSchemaOwnerPrivileges name owner
        (defaultSchemaOwnerPrivileges owner \ state.ownerPrivileges) := by
  have hmissing : ∀ (state : SchemaState) owner, state.owner = some owner →
      missingOwnerPrivileges state owner =
        defaultSchemaOwnerPrivileges owner \ state.ownerPrivileges := by
    intro state owner howner
    rw [missingOwnerPrivileges, if_pos howner]
  constructor
  · intro hc
    obtain ⟨name, d, state, owner, hd, hstate, howner, hne, rfl⟩ := mem_schemaGrants.1 hc
    obtain ⟨state', hstate', rfl⟩ := readBack_schemas.1 hd
    rw [hstate] at hstate'
    obtain rfl := Option.some.inj hstate'
    rw [hmissing state owner howner] at hne ⊢
    exact ⟨name, state, owner, hstate, howner,
      fun hsub => hne (Finset.sdiff_eq_empty_iff_subset.2 hsub), rfl⟩
  · intro h
    obtain ⟨name, state, owner, hstate, howner, hlacks, rfl⟩ := h
    rw [← hmissing state owner howner]
    refine mem_schemaGrants.2 ⟨name, _, state, owner, readBack_schemas.2 ⟨state, hstate, rfl⟩,
      hstate, howner, ?_, rfl⟩
    rw [hmissing state owner howner]
    exact fun hnone => hlacks (Finset.sdiff_eq_empty_iff_subset.1 hnone)

/-- The plan of an adoption is what adjusts the graph. -/
theorem mem_diff_readBack (haliases : ∀ k ∈ g.grants, resolveKey g.routineAliases k = k)
    {c : Change} : c ∈ diff g g.readBack ↔ Adjusts g c := by
  rw [diff_readBack haliases, List.mem_append, mem_roleAlters_readBack, mem_schemaGrants_readBack]
  constructor
  · intro h
    rcases h with ⟨name, state, hstate, hne, rfl⟩ | ⟨name, state, owner, hstate, howner, hlacks, rfl⟩
    · exact .respells hstate hne
    · exact .restores hstate howner hlacks
  · intro h
    cases h with
    | respells hstate hne => exact .inl ⟨_, _, hstate, hne, rfl⟩
    | restores hstate howner hlacks => exact .inr ⟨_, _, _, hstate, howner, hlacks, rfl⟩

/-- There is nothing to adjust in a graph that is settled. -/
theorem settled_iff : Settled g ↔ ∀ c, ¬ Adjusts g c := by
  constructor
  · intro h c hc
    cases hc with
    | respells hstate hne => exact hne (h.settings _ _ hstate)
    | restores hstate howner hlacks => exact hlacks (h.owners _ _ _ hstate howner)
  · intro h
    constructor
    · intro name state hstate
      by_contra hne
      exact h _ (.respells hstate hne)
    · intro name state owner hstate howner
      by_contra hlacks
      exact h _ (.restores hstate howner hlacks)

/-- Entries that are inherent to owners are not exported, and every other entry is. -/
theorem exportsGranted (hspelled : g.Spelled) : ExportsGranted g (roleGraphToManifest g) := by
  intro key privileges
  constructor
  · intro h
    obtain ⟨grant, hgrant, rfl, rfl⟩ := h
    obtain ⟨key, privileges, hkey, hown, rfl⟩ := mem_exportedGrants.1 hgrant
    have hgrantee := hspelled.grants key (mem_iff_exists_getElem?.2 ⟨privileges, hkey⟩)
    rw [grantKeyFromManifest_exportGrant hgrantee]
    exact ⟨hkey.trans (congrArg some (toFinset_listPrivileges privileges).symm), hown⟩
  · intro h
    obtain ⟨hkey, hown⟩ := h
    have hgrantee := hspelled.grants key (mem_iff_exists_getElem?.2 ⟨privileges, hkey⟩)
    exact ⟨exportGrant key privileges, mem_exportedGrants.2 ⟨key, privileges, hkey, hown, rfl⟩,
      grantKeyFromManifest_exportGrant hgrantee, toFinset_listPrivileges privileges⟩

end Adoption

/-- A graph that its own validator takes is exported to a manifest that leaves out what owners hold
as owners. It is accepted, and what it declares is planned against the graph by exactly the changes
that adjust the graph, none of which revokes; there are none exactly when the graph is settled. -/
theorem export_adopted {g : RoleGraph} (hg : g.Exportable) (hspelled : g.Spelled)
    (haliases : ∀ k ∈ g.grants, resolveKey g.routineAliases k = k) :
    ExportsGranted g (roleGraphToManifest g) ∧
    ∃ e d, expandManifest (roleGraphToManifest g) = .ok e ∧
      RoleGraph.fromExpanded e (roleGraphToManifest g).defaultOwner = .ok d ∧
        (∀ c, c ∈ diff g d ↔ Adjusts g c) ∧
        (∀ name attributes state, Change.alterRole name attributes ∈ diff g d →
          g.roles[name]? = some state →
            applyAttributes state attributes = { state with config := readConfig state.config }) ∧
        (diff g d = [] ↔ Settled g) := by
  refine ⟨exportsGranted hspelled, exportedExpansion g, g.readBack,
    expandManifest_exported.2 ⟨hg, rfl⟩, fromExpanded_export hspelled,
    fun c => mem_diff_readBack haliases, ?_, ?_⟩
  · intro name attributes state hc hstate
    cases (mem_diff_readBack haliases).1 hc with
    | respells hheld _ =>
      rw [hstate] at hheld
      rw [Option.some.inj hheld, applyAttributes_respelling]
  · rw [settled_iff, List.eq_nil_iff_forall_not_mem]
    exact forall_congr' fun c => not_congr (mem_diff_readBack haliases)

/-- An inspected graph: a schema and its owner, whose own entry is inherent, and a reader with a
list setting, a grant, a default privilege and a membership. -/
def inspectedGraph : RoleGraph :=
  { roles := ExtTreeMap.ofList
      [("app", {}),
        ("reader", { login := true, connectionLimit := 5,
                     config := ExtTreeMap.ofList [("search_path", "app, public")] compare })]
      compare
    schemas := ExtTreeMap.ofList [("app", ⟨some "app", {.create, .usage}⟩), ("public", ⟨none, ∅⟩)]
      compare
    grants := ExtTreeMap.ofList
      [(⟨.role "app", .table, some "app", some "orders"⟩, {.select, .insert}),
        (⟨.role "reader", .table, some "app", some "orders"⟩, {.select}),
        (⟨.publicRole, .database, none, some "main"⟩, {.connect})] compare
    defaultPrivileges := ExtTreeMap.ofList
      [(⟨"app", .schema "app", .table, .role "reader"⟩, {.select}),
        (⟨"app", .global, .function, .publicRole⟩, {.execute})] compare
    memberships := ExtTreeSet.ofList [⟨"app", "reader", false, false⟩] compare
    inherentGrants := ExtTreeSet.ofList [⟨.role "app", .table, some "app", some "orders"⟩] compare }

/-- The same graph with a setting in another spelling and a schema whose owner may not create. -/
def respeltGraph : RoleGraph :=
  { inspectedGraph with
    roles := inspectedGraph.roles.insert "reader"
      { login := true, connectionLimit := 5,
        config := ExtTreeMap.ofList [("search_path", "app,public")] compare }
    schemas := inspectedGraph.schemas.insert "app" ⟨some "app", {.usage}⟩ }

theorem inspectedGraph_exportable : inspectedGraph.Exportable :=
  (expandManifest_exported (e := exportedExpansion inspectedGraph)).1 (by decide +kernel) |>.1

theorem respeltGraph_exportable : respeltGraph.Exportable :=
  (expandManifest_exported (e := exportedExpansion respeltGraph)).1 (by decide +kernel) |>.1

theorem inspectedGraph_spelled : inspectedGraph.Spelled where
  grants := by
    intro key hkey
    have hall : ∀ key ∈ inspectedGraph.grants.keys, Grantee.parse key.role.asStr = key.role := by
      decide +kernel
    exact hall key (ExtTreeMap.mem_keys.2 hkey)
  defaults := by
    intro key hkey
    have hall : ∀ key ∈ inspectedGraph.defaultPrivileges.keys,
        Grantee.parse key.grantee.asStr = key.grantee := by
      decide +kernel
    exact hall key (ExtTreeMap.mem_keys.2 hkey)

theorem respeltGraph_spelled : respeltGraph.Spelled :=
  ⟨inspectedGraph_spelled.grants, inspectedGraph_spelled.defaults⟩

/-- Its settings and owners are as they are read back. -/
theorem inspectedGraph_settled : Settled inspectedGraph where
  settings := by
    intro name state hstate
    have hall : ∀ e ∈ inspectedGraph.roles.toList, readConfig e.2.config = e.2.config := by
      decide +kernel
    exact hall (name, state) (mem_toList_iff.2 hstate)
  owners := by
    intro name state owner hstate howner
    have hall : ∀ e ∈ inspectedGraph.schemas.toList,
        e.2.owner = some owner → ({.create, .usage} : Finset Privilege) ⊆ e.2.ownerPrivileges := by
      intro e he howner
      have hchecked : ∀ e ∈ inspectedGraph.schemas.toList, e.2.owner.isSome = true →
          ({.create, .usage} : Finset Privilege) ⊆ e.2.ownerPrivileges := by
        decide +kernel
      exact hchecked e he (by rw [howner]; rfl)
    exact hall (name, state) (mem_toList_iff.2 hstate) howner

/-- Adopting the inspected graph changes nothing; with the other spelling and owner it respells the
setting and restores what the owner lacks. -/
theorem inspectedGraph_adopted :
    (∃ e d, expandManifest (roleGraphToManifest inspectedGraph) = .ok e ∧
      RoleGraph.fromExpanded e none = .ok d ∧ diff inspectedGraph d = []) ∧
    ∃ e d, expandManifest (roleGraphToManifest respeltGraph) = .ok e ∧
      RoleGraph.fromExpanded e none = .ok d ∧
      Change.alterRole "reader" [.setConfig "search_path" "app, public"] ∈ diff respeltGraph d ∧
      Change.ensureSchemaOwnerPrivileges "app" "app" {.create} ∈ diff respeltGraph d := by
  constructor
  · obtain ⟨-, e, d, he, hd, -, -, hplan⟩ := export_adopted inspectedGraph_exportable
      inspectedGraph_spelled fun k _ => resolveKey_of_isEmpty rfl k
    exact ⟨e, d, he, hd, hplan.2 inspectedGraph_settled⟩
  · obtain ⟨-, e, d, he, hd, hplan, -, -⟩ := export_adopted respeltGraph_exportable
      respeltGraph_spelled fun k _ => resolveKey_of_isEmpty rfl k
    have hreader : respeltGraph.roles["reader"]? = some
        { login := true, connectionLimit := 5,
          config := ExtTreeMap.ofList [("search_path", "app,public")] compare } := by
      decide +kernel
    have hschema : respeltGraph.schemas["app"]? = some ⟨some "app", {.usage}⟩ := by
      decide +kernel
    refine ⟨e, d, he, hd, (hplan _).2 ?_, (hplan _).2 ?_⟩
    · exact Adjusts.respells hreader (by decide +kernel)
    · exact Adjusts.restores hschema rfl (by decide +kernel)

end PgRoles.Semantics

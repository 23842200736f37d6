import PgRoles.Inspect.Coverage
import PgRoles.Inspect.Privileges

/-!
# Privileges of a wider read

The privilege queries filter rows, and a derivation filters them again: on the rows, objects and
PUBLIC entries of a narrow scope a read over a wide one agrees with a read over the narrow one, and
everything else is dropped (`derivePrivileges_read`). Grantability is read over the whole scope and
for every privilege; masked, it is what the narrow query would have returned.
-/

set_option autoImplicit false

namespace PgRoles.Inspect

open Std PgRoles.Lib PgRoles.Core

/-! ## Rows of managed roles -/

/-- Rows of the object are scoped by the schema that selects the object. -/
def AclObject.Scoped (o : AclObject) : Prop :=
  ∀ grantee item, (o.row grantee item).scopingSchema = some o.nspname

theorem scoped_of_schemaName {o : AclObject} (htype : o.objType ≠ "schema")
    (hschema : o.schemaName = some o.nspname) : o.Scoped := by
  intro grantee item
  exact (if_neg htype).trans hschema

theorem relkindLabel_ne_schema {kind : Char} {label : String} (h : relkindLabel kind = some label) :
    label ≠ "schema" := by
  unfold relkindLabel at h
  split at h
  all_goals first
    | (cases h; decide)
    | cases h

section Objects

variable {catalog : Catalog} {o : AclObject}

theorem relationObject_spec (h : o ∈ catalog.relationObjects) :
    o.schemaName = some o.nspname ∧ ∃ kind, relkindLabel kind = some o.objType := by
  obtain ⟨c, -, hc⟩ := List.mem_filterMap.1 h
  obtain ⟨label, hlabel, rfl⟩ := Option.map_eq_some_iff.1 hc
  exact ⟨rfl, c.relkind, hlabel⟩

theorem functionObject_spec (h : o ∈ catalog.functionObjects) :
    o.schemaName = some o.nspname ∧ o.objType = "function" := by
  obtain ⟨p, -, rfl⟩ := List.mem_map.1 h
  exact ⟨rfl, rfl⟩

theorem typeObject_spec (h : o ∈ catalog.typeObjects) :
    o.schemaName = some o.nspname ∧ o.objType = "type" := by
  obtain ⟨t, -, ht⟩ := List.mem_filterMap.1 h
  unfold PgType.object? at ht
  split at ht
  · cases ht
  · cases ht
    exact ⟨rfl, rfl⟩

theorem schemaObject_spec (h : o ∈ catalog.schemaObjects) :
    o.objectName = o.nspname ∧ o.objType = "schema" := by
  obtain ⟨n, -, rfl⟩ := List.mem_map.1 h
  exact ⟨rfl, rfl⟩

theorem scoped_relationObject (h : o ∈ catalog.relationObjects) : o.Scoped := by
  obtain ⟨hschema, kind, hkind⟩ := relationObject_spec h
  exact scoped_of_schemaName (relkindLabel_ne_schema hkind) hschema

theorem scoped_functionObject (h : o ∈ catalog.functionObjects) : o.Scoped := by
  obtain ⟨hschema, htype⟩ := functionObject_spec h
  exact scoped_of_schemaName (by rw [htype]; decide) hschema

theorem scoped_typeObject (h : o ∈ catalog.typeObjects) : o.Scoped := by
  obtain ⟨hschema, htype⟩ := typeObject_spec h
  exact scoped_of_schemaName (by rw [htype]; decide) hschema

theorem scoped_schemaObject (h : o ∈ catalog.schemaObjects) : o.Scoped := by
  obtain ⟨hname, htype⟩ := schemaObject_spec h
  intro grantee item
  exact (if_pos htype).trans (congrArg some hname)

end Objects

section Rows

variable {schemas roles schemas' roles' : List String}

/-- On one object of a narrow scope, the entries in that scope do not depend on the roles that were
asked for besides. -/
theorem filter_roleRows {o : AclObject} (hroles : roles' ⊆ roles) (items : List AclItem) :
    (items.filterMap (o.roleRow? roles)).filter (·.inScope schemas' roles') =
      (items.filterMap (o.roleRow? roles')).filter (·.inScope schemas' roles') := by
  rw [List.filter_filterMap, List.filter_filterMap]
  congr 1
  funext item
  unfold AclObject.roleRow?
  cases item.grantee with
  | publicRole => rfl
  | dangling => rfl
  | role name =>
      by_cases hnarrow : name ∈ roles'
      · simp [hnarrow, hroles hnarrow]
      · by_cases hwide : name ∈ roles
        · simp [hnarrow, hwide, AclRow.inScope, AclObject.row]
        · simp [hnarrow, hwide]

/-- Outside the narrow scope no row is kept. -/
theorem filter_roleRows_eq_nil {o : AclObject} (hscoped : o.Scoped) (h : o.nspname ∉ schemas')
    (items : List AclItem) :
    (items.filterMap (o.roleRow? roles)).filter (·.inScope schemas' roles') = [] := by
  rw [List.filter_eq_nil_iff]
  intro row hrow
  obtain ⟨item, -, hitem⟩ := List.mem_filterMap.1 hrow
  have hschema : row.scopingSchema = some o.nspname := by
    unfold AclObject.roleRow? at hitem
    split at hitem
    · split_ifs at hitem
      cases hitem
      exact hscoped _ _
    · cases hitem
  rw [AclRow.inScope, hschema]
  simp [h]

/-- The rows of a wide read, filtered to a narrow one, are those that it reads. -/
theorem filter_explicitRows {objects : List AclObject} (hscoped : ∀ o ∈ objects, o.Scoped)
    (hschemas : schemas' ⊆ schemas) (hroles : roles' ⊆ roles) :
    (explicitRows objects schemas roles).filter (·.inScope schemas' roles') =
      (explicitRows objects schemas' roles').filter (·.inScope schemas' roles') := by
  unfold explicitRows
  rw [List.filter_flatMap, List.filter_flatMap]
  refine List.flatMap_congr fun o ho => ?_
  by_cases hnarrow : o.nspname ∈ schemas'
  · rw [if_pos (by simpa using hschemas hnarrow), if_pos (by simpa using hnarrow)]
    exact filter_roleRows hroles _
  · rw [if_neg (c := schemas'.contains o.nspname = true) (by simpa using hnarrow)]
    split_ifs
    · exact filter_roleRows_eq_nil (hscoped o ho) hnarrow _
    · rfl

/-- So are all the rows of roles and objects. -/
theorem filter_aclRows {catalog : Catalog} {scopes scopes' : List WildcardScope}
    {publicScopes publicScopes' : List PublicObjectScope} (hschemas : schemas' ⊆ schemas)
    (hroles : roles' ⊆ roles) :
    (readRawPrivileges catalog schemas roles scopes publicScopes).aclRows.filter
        (·.inScope schemas' roles') =
      (readRawPrivileges catalog schemas' roles' scopes' publicScopes').aclRows.filter
        (·.inScope schemas' roles') := by
  simp only [readRawPrivileges, List.filter_append, fetchRelationPrivileges, fetchSchemaPrivileges,
    fetchFunctionPrivileges, fetchTypePrivileges]
  rw [filter_explicitRows (fun o ho => scoped_relationObject ho) hschemas hroles,
    filter_explicitRows (fun o ho => scoped_schemaObject ho) hschemas hroles,
    filter_explicitRows (fun o ho => scoped_functionObject ho) hschemas hroles,
    filter_explicitRows (fun o ho => scoped_typeObject ho) hschemas hroles]

end Rows

/-! ## Objects of wildcard scopes -/

section Scopes

variable {catalog : Catalog} {scopes scopes' : List WildcardScope}

theorem inScopes_of_scope? {o : AclObject} {scope : WildcardScope} (hscope : o.scope? = some scope)
    (h : scope ∈ scopes) : o.inScopes scopes = true := by
  obtain ⟨t, ht, rfl⟩ := Option.map_eq_some_iff.1 hscope
  refine List.any_eq_true.2 ⟨_, h, ?_⟩
  simp [objTypeStrToObjectType_eq_some_iff.1 ht]

/-- In a scope that was read the inventory is that of the catalog. -/
theorem getElem?_fetchInventory {scope : WildcardScope} (h : scope ∈ scopes) :
    (fetchObjectInventoryForWildcards catalog scopes)[scope]? =
      (collectRows AclObject.scope? addObjectName catalog.schemaScopedObjects)[scope]? :=
  getElem?_collectRows_filter fun _ ho => inScopes_of_scope? ho h

/-- The inventory of a wide read, filtered to the narrow scopes, is theirs. -/
theorem filter_fetchInventory (h : scopes' ⊆ scopes) :
    ((fetchObjectInventoryForWildcards catalog scopes).filter fun scope _ =>
        scopes'.contains scope) =
      (fetchObjectInventoryForWildcards catalog scopes').filter fun scope _ =>
        scopes'.contains scope := by
  refine ExtTreeMap.ext_getElem? fun scope => ?_
  rw [getElem?_filter_eq, getElem?_filter_eq]
  by_cases hscope : scope ∈ scopes'
  · rw [getElem?_fetchInventory (h hscope), getElem?_fetchInventory hscope]
  · simp [hscope]

/-- What may be granted on the objects of a scope that is read. -/
theorem getElem?_fetchGrantability {key : ObjectType × String × String}
    (h : (key.1, key.2.1) ∈ scopes) :
    (fetchWildcardGrantability catalog scopes)[key]? =
      (collectRows AclObject.grantabilityKey? (fun _ o => grantabilityRow catalog o)
        catalog.schemaScopedObjects)[key]? := by
  refine getElem?_collectRows_filter fun o ho => ?_
  obtain ⟨t, ht, rfl⟩ := Option.map_eq_some_iff.1 ho
  exact inScopes_of_scope? (by rw [AclObject.scope?, ht]; rfl) h

/-- A scope of which something is needed is that of a wildcard. -/
theorem mem_of_wildcardNeeds {wildcards : List WildcardGrantPattern} {scope : WildcardScope}
    {needs : Finset Privilege} (h : wildcardNeeds wildcards scope = some needs) :
    scope ∈ wildcardScopesOf wildcards := by
  have hsome := Option.isSome_of_eq_some h
  rw [wildcardNeeds, isSome_extendEntries] at hsome
  rcases hsome with hempty | ⟨privileges, hentry⟩
  · simp at hempty
  · obtain ⟨wildcard, hwildcard, heq⟩ := List.mem_map.1 hentry
    obtain ⟨hwildcard, htype⟩ := List.mem_filter.1 hwildcard
    exact mem_wildcardScopesOf.2 ⟨wildcard, hwildcard, htype, congrArg Prod.fst heq⟩

/-- Masked to the wildcards of a narrow scope, a wider read is the narrow one. -/
theorem scopedGrantability_eq {wildcards : List WildcardGrantPattern} (h : scopes' ⊆ scopes)
    (hwildcards : wildcardScopesOf wildcards ⊆ scopes') :
    scopedGrantability (fetchWildcardGrantability catalog scopes) wildcards =
      scopedGrantability (fetchWildcardGrantability catalog scopes') wildcards := by
  refine ExtTreeMap.ext_getElem? fun key => ?_
  simp only [scopedGrantability, ExtTreeMap.getElem?_filterMap']
  cases hneeds : wildcardNeeds wildcards (key.1, key.2.1) with
  | none => simp
  | some needs =>
      have hscope := hwildcards (mem_of_wildcardNeeds hneeds)
      rw [getElem?_fetchGrantability (h hscope), getElem?_fetchGrantability hscope]

/-- A wildcard that is not satisfied is a wildcard. -/
theorem unsatisfied_subset {grants : BTreeMap GrantKey (Finset Privilege)} {inventory : Inventory}
    {wildcards : List WildcardGrantPattern} :
    wildcardScopesOf (unsatisfiedWildcardGrants grants inventory wildcards) ⊆
      wildcardScopesOf wildcards := by
  intro scope hscope
  obtain ⟨missing, hmissing, htype, rfl⟩ := mem_wildcardScopesOf.1 hscope
  obtain ⟨wildcard, hwildcard, heq⟩ := List.mem_filterMap.1 hmissing
  obtain ⟨names, -, heq⟩ := Option.bind_eq_some_iff.1 heq
  dsimp only at heq
  split_ifs at heq
  cases heq
  exact mem_wildcardScopesOf.2 ⟨wildcard, hwildcard, htype, rfl⟩

end Scopes

/-! ## PUBLIC rows -/

section PublicRows

variable {catalog : Catalog} {o : AclObject} {scopes scopes' : List PublicObjectScope}

/-- Every target of the narrow scopes is a target of the wide ones. -/
def TargetsWithin (scopes' scopes : List PublicObjectScope) : Prop :=
  scopes'.map (·.target) ⊆ scopes.map (·.target)

theorem TargetsWithin.exists (h : TargetsWithin scopes' scopes) {p : PublicObjectScope}
    (hp : p ∈ scopes') : ∃ q ∈ scopes, q.target = p.target :=
  List.mem_map.1 (h (List.mem_map.2 ⟨p, hp, rfl⟩))

/-- Some scope covers an entry of the object. -/
def AclObject.CoveredBy (o : AclObject) (scopes : List PublicObjectScope) : Prop :=
  ∃ t privilege, objTypeStrToObjectType o.objType = some t ∧
    ∃ scope ∈ scopes, scope.covers t o.schemaName o.objectName privilege = true

/-- An object with a PUBLIC entry is covered by a declared scope. -/
theorem coveredBy_of_publicGrant? {item : AclItem} {row : AclRow} {entry : PublicEntry}
    (hrow : o.publicRow? item = some row) (h : publicGrant? scopes row = some entry) :
    o.CoveredBy scopes := by
  unfold AclObject.publicRow? at hrow
  split at hrow
  · cases hrow
    obtain ⟨privilege, -, h⟩ := Option.bind_eq_some_iff.1 h
    obtain ⟨t, ht, h⟩ := Option.bind_eq_some_iff.1 h
    split_ifs at h with hcover
    obtain ⟨scope, hscope, hcovers⟩ := List.any_eq_true.1 hcover
    exact ⟨t, privilege, ht, scope, hscope, hcovers⟩
  · cases hrow

/-- Entries of the narrow scopes are found when their objects' schemas are read. -/
theorem filterMap_publicRows {objects : List AclObject} {schemas schemas' : List String}
    (hschemas : schemas' ⊆ schemas)
    (hcovered : ∀ o ∈ objects, o.CoveredBy scopes' → o.nspname ∈ schemas') :
    (effectivePublicRows catalog objects schemas).filterMap (publicGrant? scopes') =
      (effectivePublicRows catalog objects schemas').filterMap (publicGrant? scopes') := by
  unfold effectivePublicRows
  rw [List.filterMap_flatMap, List.filterMap_flatMap]
  refine List.flatMap_congr fun o ho => ?_
  by_cases hnarrow : o.nspname ∈ schemas'
  · rw [if_pos (by simpa using hschemas hnarrow), if_pos (by simpa using hnarrow)]
  · rw [if_neg (c := schemas'.contains o.nspname = true) (by simpa using hnarrow)]
    split_ifs
    · rw [List.filterMap_nil, List.filterMap_eq_nil_iff]
      intro row hrow
      obtain ⟨item, -, hitem⟩ := List.mem_filterMap.1 hrow
      cases hentry : publicGrant? scopes' row with
      | none => rfl
      | some entry =>
          exact absurd (hcovered o ho (coveredBy_of_publicGrant? hitem hentry)) hnarrow
    · rfl

/-- What narrow scopes name by their targets, the wide ones name too. -/
theorem filterMap_target_subset (h : TargetsWithin scopes' scopes) (predicate : ObjectType → Bool)
    (part : ObjectType × Option String × Option String → Option String) :
    (scopes'.filter fun p => predicate p.objectType).filterMap (fun p => part p.target) ⊆
      (scopes.filter fun p => predicate p.objectType).filterMap fun p => part p.target := by
  intro name hname
  obtain ⟨p, hp, hpname⟩ := List.mem_filterMap.1 hname
  obtain ⟨hp, htype⟩ := List.mem_filter.1 hp
  obtain ⟨q, hq, htarget⟩ := h.exists hp
  have hobject : q.objectType = p.objectType := congrArg Prod.fst htarget
  exact List.mem_filterMap.2 ⟨q, List.mem_filter.2 ⟨hq, by rwa [hobject]⟩, by rwa [htarget]⟩

/-- Narrow scopes have no schemas of their own. -/
theorem scopeSchemas_subset (h : TargetsWithin scopes' scopes) (predicate : ObjectType → Bool) :
    scopeSchemas scopes' predicate ⊆ scopeSchemas scopes predicate :=
  filterMap_target_subset h predicate fun t => t.2.1

theorem scopeSchemaNames_subset (h : TargetsWithin scopes' scopes) :
    scopeSchemaNames scopes' ⊆ scopeSchemaNames scopes :=
  filterMap_target_subset h (· == .schema) fun t => t.2.2

theorem mem_scopeDatabases {name : String} :
    name ∈ scopeDatabases scopes ↔ name = "" ∧ ∃ p ∈ scopes, p.objectType = .database := by
  unfold scopeDatabases
  by_cases h : ∃ p ∈ scopes, p.objectType = .database
  · rw [if_pos (by simpa using h)]
    simp [h]
  · rw [if_neg (by simpa using h)]
    simp [h]

theorem scopeDatabases_subset (h : TargetsWithin scopes' scopes) :
    scopeDatabases scopes' ⊆ scopeDatabases scopes := by
  intro name hname
  obtain ⟨rfl, p, hp, htype⟩ := mem_scopeDatabases.1 hname
  obtain ⟨q, hq, htarget⟩ := h.exists hp
  exact mem_scopeDatabases.2 ⟨rfl, q, hq, (congrArg Prod.fst htarget).trans htype⟩

theorem covers_objectType {scope : PublicObjectScope} {t : ObjectType} {schema : Option String}
    {name : String} {privilege : Privilege} (h : scope.covers t schema name privilege = true) :
    scope.objectType = t := by
  unfold PublicObjectScope.covers at h
  simp only [Bool.and_eq_true, beq_iff_eq] at h
  exact h.1.1

/-- A covered object of a family that schemas contain lies in a schema of the family's scopes. -/
theorem covered_schema {family : ObjectType → Bool} (hschema : o.schemaName = some o.nspname)
    (hfamily : ∀ t, objTypeStrToObjectType o.objType = some t →
      family t = true ∧ isWildcardType t = true)
    (h : o.CoveredBy scopes) : o.nspname ∈ scopeSchemas scopes family := by
  obtain ⟨t, privilege, ht, scope, hscope, hcovers⟩ := h
  obtain ⟨hmember, hwildcard⟩ := hfamily t ht
  refine List.mem_filterMap.2 ⟨scope, List.mem_filter.2 ⟨hscope, ?_⟩, ?_⟩
  · rw [covers_objectType hcovers]
    exact hmember
  · rw [← hschema]
    unfold PublicObjectScope.covers at hcovers
    cases t
    all_goals first
      | (cases hwildcard; done)
      | (simp only [Bool.and_eq_true, beq_iff_eq] at hcovers; exact hcovers.2.1)

/-- The types with the label of a relation are those of relations. -/
theorem isRelationType_of_relkindLabel {kind : Char} {label : String} {t : ObjectType}
    (hlabel : relkindLabel kind = some label) (ht : label = objectTypeLabel t) :
    isRelationType t = true ∧ isWildcardType t = true := by
  subst ht
  unfold relkindLabel at hlabel
  split at hlabel
  all_goals
    cases t <;> first
      | exact ⟨rfl, rfl⟩
      | exact absurd hlabel (by decide)

/-- The schema of a covered relation is one that is read for relations. -/
theorem covered_relation (h : o ∈ catalog.relationObjects) (hcovered : o.CoveredBy scopes) :
    o.nspname ∈ scopeSchemas scopes isRelationType := by
  obtain ⟨hschema, kind, hkind⟩ := relationObject_spec h
  refine covered_schema hschema (fun t ht => isRelationType_of_relkindLabel hkind ?_) hcovered
  exact objTypeStrToObjectType_eq_some_iff.1 ht

theorem covered_function (h : o ∈ catalog.functionObjects) (hcovered : o.CoveredBy scopes) :
    o.nspname ∈ scopeSchemas scopes (· == .function) := by
  obtain ⟨hschema, htype⟩ := functionObject_spec h
  refine covered_schema hschema (fun t ht => ?_) hcovered
  rw [htype] at ht
  cases ht
  exact ⟨rfl, rfl⟩

theorem covered_type (h : o ∈ catalog.typeObjects) (hcovered : o.CoveredBy scopes) :
    o.nspname ∈ scopeSchemas scopes (· == .type) := by
  obtain ⟨hschema, htype⟩ := typeObject_spec h
  refine covered_schema hschema (fun t ht => ?_) hcovered
  rw [htype] at ht
  cases ht
  exact ⟨rfl, rfl⟩

/-- A covered schema is read by its name. -/
theorem covered_schemaObject (h : o ∈ catalog.schemaObjects) (hcovered : o.CoveredBy scopes) :
    o.nspname ∈ scopeSchemaNames scopes := by
  obtain ⟨hname, htype⟩ := schemaObject_spec h
  obtain ⟨t, privilege, ht, scope, hscope, hcovers⟩ := hcovered
  rw [htype] at ht
  cases ht
  refine List.mem_filterMap.2 ⟨scope, List.mem_filter.2 ⟨hscope, ?_⟩, ?_⟩
  · rw [covers_objectType hcovers]
    rfl
  · simp only [PublicObjectScope.covers, Bool.and_eq_true, beq_iff_eq] at hcovers
    rw [hcovers.2, hname]

theorem covered_database (hcovered : catalog.database.object.CoveredBy scopes) :
    catalog.database.object.nspname ∈ scopeDatabases scopes := by
  obtain ⟨t, privilege, ht, scope, hscope, hcovers⟩ := hcovered
  cases ht
  exact mem_scopeDatabases.2 ⟨rfl, scope, hscope, covers_objectType hcovers⟩

/-- The entries of the narrow scopes are the same in both reads. -/
theorem filterMap_readRawPublicPrivileges (h : TargetsWithin scopes' scopes) :
    (readRawPublicPrivileges catalog scopes).filterMap (publicGrant? scopes') =
      (readRawPublicPrivileges catalog scopes').filterMap (publicGrant? scopes') := by
  simp only [readRawPublicPrivileges, List.filterMap_append]
  rw [filterMap_publicRows (scopeSchemas_subset h isRelationType) fun o ho => covered_relation ho,
    filterMap_publicRows (scopeSchemas_subset h (· == .function)) fun o ho => covered_function ho,
    filterMap_publicRows (scopeSchemas_subset h (· == .type)) fun o ho => covered_type ho,
    filterMap_publicRows (scopeSchemaNames_subset h) fun o ho => covered_schemaObject ho,
    filterMap_publicRows (scopeDatabases_subset h) fun o ho => by
      rw [List.mem_singleton.1 ho]
      exact covered_database]

end PublicRows

/-! ## Derivations -/

section Derivations

variable {catalog : Catalog} {scope config : InspectConfig}

/-- A scope that covers one that reads privileges reads privileges. -/
theorem readsNoPrivileges_of_covers (h : Covers scope config)
    (hreads : config.readsNoPrivileges = false) : scope.readsNoPrivileges = false := by
  rw [InspectConfig.readsNoPrivileges, Bool.and_eq_false_iff] at hreads ⊢
  refine hreads.imp (fun hschemas => ?_) fun hpublic => ?_
  · rw [List.isEmpty_eq_false_iff_exists_mem] at hschemas ⊢
    obtain ⟨schema, hschema⟩ := hschemas
    exact ⟨schema, h.schemas hschema⟩
  · rw [List.isEmpty_eq_false_iff_exists_mem] at hpublic ⊢
    obtain ⟨p, hp⟩ := hpublic
    obtain ⟨q, hq, -⟩ := TargetsWithin.exists h.publicScopes hp
    exact ⟨q, hq⟩

/-- Narrowed to a scope it covers, a read gives what a read over that scope gives. -/
theorem derivePrivileges_read (h : Covers scope config)
    (hreads : config.readsNoPrivileges = false) :
    derivePrivileges (.read catalog scope) config.privilegeSchemas config.managedRoles
        config.wildcardGrants config.publicObjectScopes =
      derivePrivileges (.read catalog config) config.privilegeSchemas config.managedRoles
        config.wildcardGrants config.publicObjectScopes := by
  have hwide := readsNoPrivileges_of_covers h hreads
  simp only [RawPrivilegeState.read, hreads, hwide, Bool.false_eq_true, if_false]
  have hrows := @filter_aclRows scope.privilegeSchemas scope.managedRoles config.privilegeSchemas
    config.managedRoles catalog (wildcardScopesOf scope.wildcardGrants)
    (wildcardScopesOf config.wildcardGrants) scope.publicObjectScopes config.publicObjectScopes
    h.schemas h.roles
  have hinventory := @filter_fetchInventory catalog _ _ h.wildcards
  have hpublic := @filterMap_readRawPublicPrivileges catalog _ _ h.publicScopes
  simp only [derivePrivileges, derivePublicPrivileges, hrows]
  simp only [readRawPrivileges, hinventory, hpublic]

/-- Grantability of the whole scope diagnoses as that of the narrow one. -/
theorem finish_readGrantability (h : Covers scope config) {d : DerivedPrivileges}
    (hunsatisfied : wildcardScopesOf d.unsatisfied ⊆ wildcardScopesOf config.wildcardGrants) :
    d.finish (some (readRawGrantability catalog (wildcardScopesOf scope.wildcardGrants))) =
      d.finish (some (readRawGrantability catalog (wildcardScopesOf config.wildcardGrants))) := by
  have hscoped := @scopedGrantability_eq catalog _ _ d.unsatisfied h.wildcards hunsatisfied
  simp only [DerivedPrivileges.finish, readRawGrantability, hscoped]

end Derivations

end PgRoles.Inspect

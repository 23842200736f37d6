import PgRoles.Inspect.Coverage

/-!
# Default privileges of the catalog

Two layers of `pg_default_acl` are inspected: the rows of the schemas, and the global rows of the
declared pairs of owner and object type, where a built-in default stands in for a missing row. Roles
are kept when they are managed, PUBLIC only for the privileges that rules declare. Narrowed to a
config, a read over a wider scope gives the config's own defaults (`deriveDefaultPrivileges_fetch`).
-/

set_option autoImplicit false

namespace PgRoles.Inspect

open Std PgRoles.Lib PgRoles.Core

/-! ## Rows -/

/-- An entry of a default ACL; PUBLIC and dangling grantees have no name. -/
structure DefaultAclRow where
  ownerName : String
  /-- The schema; none for the global layer. -/
  schemaName : Option String
  grantee : Option String
  isPublic : Bool
  privilegeType : String
  objTypeChar : Char

/-- The type of objects that a letter of `pg_default_acl` stands for. -/
def defaclObjTypeToObjectType : Char → Option ObjectType
  | 'r' => some .table
  | 'S' => some .sequence
  | 'f' => some .function
  | 'T' => some .type
  | 'n' => some .schema
  | _ => none

/-- The letter of `pg_default_acl` for a type of objects. -/
def objectTypeToDefaclChar : ObjectType → Option Char
  | .table => some 'r'
  | .sequence => some 'S'
  | .function => some 'f'
  | .type => some 'T'
  | .schema => some 'n'
  | _ => none

/-- `acldefault` spells a sequence in its own way. -/
def objectTypeToAcldefaultChar : ObjectType → Option Char
  | .sequence => some 's'
  | other => objectTypeToDefaclChar other

theorem objectTypeToDefaclChar_eq_some_iff {t : ObjectType} {c : Char} :
    objectTypeToDefaclChar t = some c ↔ defaclObjTypeToObjectType c = some t := by
  constructor
  · intro h
    cases t <;> cases h <;> rfl
  · intro h
    unfold defaclObjTypeToObjectType at h
    split at h
    all_goals first
      | (cases h; rfl)
      | cases h

/-- The row of an ACL entry. -/
def defaultAclRow (owner : String) (schema : Option String) (objType : Char) (item : AclItem) :
    DefaultAclRow where
  ownerName := owner
  schemaName := schema
  grantee :=
    match item.grantee with
    | .role name => some name
    | _ => none
  isPublic := item.grantee == .publicRole
  privilegeType := item.privilegeType
  objTypeChar := objType

/-- Rows of the schemas. -/
def schemaDefaultRows (catalog : Catalog) (schemas : List String) : List DefaultAclRow :=
  catalog.defaultAcls.flatMap fun d =>
    if d.schema.any schemas.contains then d.acl.map (defaultAclRow d.owner d.schema d.objType)
    else []

/-- A declared owner and object type of the global layer, with the two spellings of the type. -/
abbrev GlobalPair : Type := String × Char × Char

/-- The pair of a pattern whose type has global defaults. -/
def globalPair? (pattern : DefaultPrivScopePattern) : Option GlobalPair := do
  let stored ← objectTypeToDefaclChar pattern.onType
  let builtin ← objectTypeToAcldefaultChar pattern.onType
  some (pattern.owner, stored, builtin)

/-- The pairs of the patterns of the global layer, each once. -/
def globalPairs (scopes : List DefaultPrivScopePattern) : List GlobalPair :=
  (ExtTreeSet.ofList ((scopes.filter fun pattern => pattern.schema.isNone).filterMap globalPair?)
    compare).toList

/-- The effective global defaults of a pair. The owner's entries for itself are left out. -/
def globalDefaultRows (catalog : Catalog) (pair : GlobalPair) : List DefaultAclRow :=
  if catalog.roles.any fun row => row.rolname == pair.1 then
    let stored := catalog.defaultAcls.find? fun d =>
      d.owner == pair.1 && d.schema.isNone && d.objType == pair.2.1
    let acl := (stored.map (·.acl)).getD (catalog.acldefault pair.2.2 pair.1)
    (acl.filter fun item => item.grantee != .role pair.1).map (defaultAclRow pair.1 none pair.2.1)
  else []

/-- The rows of both layers. -/
def defaultAclRows (catalog : Catalog) (schemas : List String)
    (scopes : List DefaultPrivScopePattern) : List DefaultAclRow :=
  schemaDefaultRows catalog schemas ++ (globalPairs scopes).flatMap (globalDefaultRows catalog)

/-! ## The read -/

/-- The rule's owner, layer and object type are the pattern's. -/
def DefaultPrivScopePattern.matchesKey (pattern : DefaultPrivScopePattern) (owner : String)
    (schema : Option String) (onType : ObjectType) : Bool :=
  pattern.owner == owner && pattern.schema == schema && pattern.onType == onType

/-- PUBLIC has the defaults that some pattern declares, roles those of managed ones. -/
def defaultGrantee? (managedRoles : List String) (scopes : List DefaultPrivScopePattern)
    (row : DefaultAclRow) (onType : ObjectType) (privilege : Privilege) : Option Grantee :=
  if row.isPublic then
    if scopes.any fun pattern => pattern.matchesKey row.ownerName row.schemaName onType &&
        decide (privilege ∈ pattern.publicPrivileges) then some .publicRole
    else none
  else
    row.grantee.bind fun name => if managedRoles.contains name then some (.role name) else none

/-- The layer of a row. -/
def layerOf : Option String → DefaultPrivilegeScope
  | some schema => .schema schema
  | none => .global

/-- The default privilege that a row shows. -/
def defaultEntry? (managedRoles : List String) (scopes : List DefaultPrivScopePattern)
    (row : DefaultAclRow) : Option (DefaultPrivKey × Privilege) := do
  let privilege ← aclCharToPrivilege row.privilegeType
  let onType ← defaclObjTypeToObjectType row.objTypeChar
  let grantee ← defaultGrantee? managedRoles scopes row onType privilege
  some (⟨row.ownerName, layerOf row.schemaName, onType, grantee⟩, privilege)

/-- The default privileges of the schemas, roles and declared layers. -/
def fetchDefaultPrivileges (catalog : Catalog) (schemas managedRoles : List String)
    (scopes : List DefaultPrivScopePattern) : BTreeMap DefaultPrivKey (Finset Privilege) :=
  extendEntries ∅ (((defaultAclRows catalog schemas scopes).filterMap
    fun row => defaultEntry? managedRoles scopes row).map fun e => (e.1, {e.2}))

/-! ## The derivation -/

/-- The rule is in a schema whose privileges the config reads, or is a declared global one. -/
def InspectConfig.inDefaultScope (config : InspectConfig) (key : DefaultPrivKey) : Bool :=
  match key.scope with
  | .schema schema => config.privilegeSchemas.contains schema
  | .global => config.defaultPrivScopes.any fun pattern =>
      pattern.schema.isNone && pattern.owner == key.owner && pattern.onType == key.onType

/-- The privileges that the config's PUBLIC rules mention for a rule. -/
def InspectConfig.declaredPublic (config : InspectConfig) (key : DefaultPrivKey) :
    Finset Privilege :=
  (config.defaultPrivScopes.filter fun pattern =>
    pattern.matchesKey key.owner key.scope.schema? key.onType).foldl
      (fun privileges pattern => privileges ∪ pattern.publicPrivileges) ∅

/-- What a config is shown of one rule. -/
def InspectConfig.defaultState? (config : InspectConfig) (key : DefaultPrivKey)
    (privileges : Finset Privilege) : Option (Finset Privilege) :=
  if config.inDefaultScope key then
    match key.grantee with
    | .role name => if config.managedRoles.contains name then some privileges else none
    | .publicRole =>
        if privileges ∩ config.declaredPublic key = ∅ then none
        else some (privileges ∩ config.declaredPublic key)
  else none

/-- Narrow a read of default privileges to one config. -/
def deriveDefaultPrivileges (defaults : BTreeMap DefaultPrivKey (Finset Privilege))
    (config : InspectConfig) : BTreeMap DefaultPrivKey (Finset Privilege) :=
  defaults.filterMap config.defaultState?

/-! ## Agreement -/

/-- The row shows the privilege of the rule to whoever asks for it. -/
structure DefaultAclRow.Shows (row : DefaultAclRow) (key : DefaultPrivKey) (privilege : Privilege) :
    Prop where
  privilege : aclCharToPrivilege row.privilegeType = some privilege
  onType : defaclObjTypeToObjectType row.objTypeChar = some key.onType
  owner : row.ownerName = key.owner
  layer : layerOf row.schemaName = key.scope
  grantee : (row.isPublic = true ∧ key.grantee = .publicRole) ∨
    (row.isPublic = false ∧ ∃ name, row.grantee = some name ∧ key.grantee = .role name)

/-- The roles and patterns ask for the privilege of the rule. -/
def AsksFor (managedRoles : List String) (scopes : List DefaultPrivScopePattern)
    (key : DefaultPrivKey) (privilege : Privilege) : Prop :=
  match key.grantee with
  | .role name => name ∈ managedRoles
  | .publicRole => ∃ pattern ∈ scopes,
      pattern.matchesKey key.owner key.scope.schema? key.onType = true ∧
        privilege ∈ pattern.publicPrivileges

theorem schema?_layerOf (schema : Option String) : (layerOf schema).schema? = schema := by
  cases schema <;> rfl

section Agreement

variable {catalog : Catalog} {schemas managedRoles : List String}
  {scopes : List DefaultPrivScopePattern} {row : DefaultAclRow} {key : DefaultPrivKey}
  {privilege : Privilege}

/-- A row becomes an entry when it shows the privilege and someone asks for it. -/
theorem defaultEntry?_eq_some_iff :
    defaultEntry? managedRoles scopes row = some (key, privilege) ↔
      row.Shows key privilege ∧ AsksFor managedRoles scopes key privilege := by
  obtain ⟨owner, scope, onType, grantee⟩ := key
  unfold defaultEntry? defaultGrantee?
  simp only [Option.bind_eq_bind, Option.bind_eq_some_iff, Option.some.injEq, Prod.mk.injEq,
    DefaultPrivKey.mk.injEq]
  constructor
  · rintro ⟨_, hprivilege, _, hchar, _, hgrantee, ⟨rfl, rfl, rfl, rfl⟩, rfl⟩
    split_ifs at hgrantee with hpublic hdeclared
    · obtain rfl := Option.some.inj hgrantee
      refine ⟨⟨hprivilege, hchar, rfl, rfl, Or.inl ⟨hpublic, rfl⟩⟩, ?_⟩
      simpa [AsksFor, schema?_layerOf] using hdeclared
    · obtain ⟨name, hname, hmanaged⟩ := Option.bind_eq_some_iff.1 hgrantee
      split_ifs at hmanaged with hrole
      obtain rfl := Option.some.inj hmanaged
      refine ⟨⟨hprivilege, hchar, rfl, rfl, Or.inr ⟨by simpa using hpublic, name, hname, rfl⟩⟩, ?_⟩
      simpa [AsksFor] using hrole
  · rintro ⟨⟨hprivilege, hchar, rfl, rfl, hgrantee⟩, hasks⟩
    refine ⟨privilege, hprivilege, onType, hchar, grantee, ?_, ⟨rfl, rfl, rfl, rfl⟩, rfl⟩
    rcases hgrantee with ⟨hpublic, heq⟩ | ⟨hpublic, name, hname, heq⟩
    · dsimp only at heq
      subst heq
      rw [if_pos hpublic, if_pos]
      simpa [AsksFor, schema?_layerOf] using hasks
    · dsimp only at heq
      subst heq
      rw [if_neg (by simp [hpublic]), hname, Option.bind_some, if_pos]
      simpa [AsksFor] using hasks

/-- What a read holds of a rule. -/
theorem mem_entryAt_fetchDefaultPrivileges :
    privilege ∈ entryAt (fetchDefaultPrivileges catalog schemas managedRoles scopes) key ↔
      (∃ row ∈ defaultAclRows catalog schemas scopes, row.Shows key privilege) ∧
        AsksFor managedRoles scopes key privilege := by
  rw [fetchDefaultPrivileges, mem_entryAt_extendEach, List.mem_filterMap]
  constructor
  · rintro ⟨row, hrow, hshown⟩
    obtain ⟨hshows, hasks⟩ := defaultEntry?_eq_some_iff.1 hshown
    exact ⟨⟨row, hrow, hshows⟩, hasks⟩
  · rintro ⟨⟨row, hrow, hshows⟩, hasks⟩
    exact ⟨row, hrow, defaultEntry?_eq_some_iff.2 ⟨hshows, hasks⟩⟩

/-! ## Narrowing -/

variable {scope config : InspectConfig}

theorem mem_globalPairs {pair : GlobalPair} :
    pair ∈ globalPairs scopes ↔
      ∃ pattern ∈ scopes, pattern.schema = none ∧ globalPair? pattern = some pair := by
  simp [globalPairs, and_assoc]

theorem globalPair?_eq_some_iff {pattern : DefaultPrivScopePattern} {pair : GlobalPair} :
    globalPair? pattern = some pair ↔
      pattern.owner = pair.1 ∧ objectTypeToDefaclChar pattern.onType = some pair.2.1 ∧
        objectTypeToAcldefaultChar pattern.onType = some pair.2.2 := by
  obtain ⟨owner, stored, builtin⟩ := pair
  simp only [globalPair?, Option.bind_eq_bind, Option.bind_eq_some_iff, Option.some.injEq,
    Prod.mk.injEq]
  constructor
  · rintro ⟨_, hstored, _, hbuiltin, rfl, rfl, rfl⟩
    exact ⟨rfl, hstored, hbuiltin⟩
  · rintro ⟨rfl, hstored, hbuiltin⟩
    exact ⟨stored, hstored, builtin, hbuiltin, rfl, rfl, rfl⟩

theorem mem_schemaDefaultRows :
    row ∈ schemaDefaultRows catalog schemas ↔
      ∃ d ∈ catalog.defaultAcls, ∃ schema ∈ schemas, d.schema = some schema ∧
        ∃ item ∈ d.acl, defaultAclRow d.owner d.schema d.objType item = row := by
  simp only [schemaDefaultRows, List.mem_flatMap]
  refine exists_congr fun d => and_congr_right fun _ => ?_
  cases d.schema with
  | none => simp
  | some schema =>
      by_cases hschema : schema ∈ schemas <;> simp [hschema]

/-- Rows of the global layer are rows of a pair. -/
theorem globalDefaultRows_spec {pair : GlobalPair} (h : row ∈ globalDefaultRows catalog pair) :
    row.ownerName = pair.1 ∧ row.schemaName = none ∧ row.objTypeChar = pair.2.1 := by
  unfold globalDefaultRows at h
  split_ifs at h
  · obtain ⟨item, -, rfl⟩ := List.mem_map.1 h
    exact ⟨rfl, rfl, rfl⟩
  · cases h

/-- A rule in a narrow scope is shown by the same rows in both reads. -/
theorem exists_shows_iff (h : Covers scope config) (hscope : config.inDefaultScope key = true) :
    (∃ row ∈ defaultAclRows catalog scope.privilegeSchemas scope.defaultPrivScopes,
        row.Shows key privilege) ↔
      ∃ row ∈ defaultAclRows catalog config.privilegeSchemas config.defaultPrivScopes,
        row.Shows key privilege := by
  constructor
  · rintro ⟨row, hrow, hshows⟩
    refine ⟨row, ?_, hshows⟩
    rcases List.mem_append.1 hrow with hrow | hrow
    · obtain ⟨d, hd, schema, -, hschema, item, hitem, rfl⟩ := mem_schemaDefaultRows.1 hrow
      have hlayer : key.scope = .schema schema := by
        rw [← hshows.layer, defaultAclRow, hschema]
        rfl
      rw [InspectConfig.inDefaultScope, hlayer] at hscope
      exact List.mem_append_left _ (mem_schemaDefaultRows.2
        ⟨d, hd, schema, by simpa using hscope, hschema, item, hitem, rfl⟩)
    · obtain ⟨pair, hpair, hrow⟩ := List.mem_flatMap.1 hrow
      obtain ⟨howner, hlayer, hchar⟩ := globalDefaultRows_spec hrow
      have hglobal : key.scope = .global := by
        rw [← hshows.layer, hlayer]
        rfl
      rw [InspectConfig.inDefaultScope, hglobal] at hscope
      obtain ⟨pattern, hpattern, hmatches⟩ := List.any_eq_true.1 hscope
      simp only [Bool.and_eq_true, beq_iff_eq, Option.isNone_iff_eq_none] at hmatches
      obtain ⟨⟨hschema, hkey⟩, hkeyType⟩ := hmatches
      obtain ⟨wide, -, -, hwide⟩ := mem_globalPairs.1 hpair
      obtain ⟨-, hstored, hbuiltin⟩ := globalPair?_eq_some_iff.1 hwide
      have hwideType : wide.onType = pattern.onType := by
        have htype := hshows.onType
        rw [hchar, objectTypeToDefaclChar_eq_some_iff.1 hstored] at htype
        rw [hkeyType]
        exact Option.some.inj htype
      refine List.mem_append_right _ (List.mem_flatMap.2 ⟨pair, mem_globalPairs.2
        ⟨pattern, hpattern, hschema, globalPair?_eq_some_iff.2 ⟨?_, ?_, ?_⟩⟩, hrow⟩)
      · rw [hkey, ← hshows.owner, howner]
      · rw [← hwideType, hstored]
      · rw [← hwideType, hbuiltin]
  · rintro ⟨row, hrow, hshows⟩
    refine ⟨row, ?_, hshows⟩
    rcases List.mem_append.1 hrow with hrow | hrow
    · obtain ⟨d, hd, schema, hschema, hrest⟩ := mem_schemaDefaultRows.1 hrow
      exact List.mem_append_left _
        (mem_schemaDefaultRows.2 ⟨d, hd, schema, h.schemas hschema, hrest⟩)
    · obtain ⟨pair, hpair, hrow⟩ := List.mem_flatMap.1 hrow
      obtain ⟨pattern, hpattern, hpair⟩ := mem_globalPairs.1 hpair
      exact List.mem_append_right _ (List.mem_flatMap.2
        ⟨pair, mem_globalPairs.2 ⟨pattern, h.defaultPrivileges hpattern, hpair⟩, hrow⟩)

theorem AsksFor.mono {managedRoles' : List String} {scopes' : List DefaultPrivScopePattern}
    (h : AsksFor managedRoles scopes key privilege) (hroles : managedRoles ⊆ managedRoles')
    (hscopes : scopes ⊆ scopes') : AsksFor managedRoles' scopes' key privilege := by
  unfold AsksFor at h ⊢
  cases hgrantee : key.grantee with
  | role name =>
      rw [hgrantee] at h
      exact hroles h
  | publicRole =>
      rw [hgrantee] at h
      obtain ⟨pattern, hpattern, hdeclared⟩ := h
      exact ⟨pattern, hscopes hpattern, hdeclared⟩

theorem mem_declaredPublic :
    privilege ∈ config.declaredPublic key ↔ ∃ pattern ∈ config.defaultPrivScopes,
      pattern.matchesKey key.owner key.scope.schema? key.onType = true ∧
        privilege ∈ pattern.publicPrivileges := by
  have hfold : ∀ (patterns : List DefaultPrivScopePattern) (held : Finset Privilege),
      privilege ∈ patterns.foldl (fun privileges pattern =>
          privileges ∪ pattern.publicPrivileges) held ↔
        privilege ∈ held ∨ ∃ pattern ∈ patterns, privilege ∈ pattern.publicPrivileges := by
    intro patterns
    induction patterns with
    | nil => simp
    | cons pattern patterns ih =>
        intro held
        rw [List.foldl_cons, ih, Finset.mem_union, List.exists_mem_cons_iff, or_assoc]
  rw [InspectConfig.declaredPublic, hfold]
  simp [and_assoc]

/-- What a config is shown of a read. -/
theorem mem_entryAt_deriveDefaultPrivileges {defaults : BTreeMap DefaultPrivKey (Finset Privilege)} :
    privilege ∈ entryAt (deriveDefaultPrivileges defaults config) key ↔
      config.inDefaultScope key = true ∧
        AsksFor config.managedRoles config.defaultPrivScopes key privilege ∧
          privilege ∈ entryAt defaults key := by
  rw [entryAt, deriveDefaultPrivileges, ExtTreeMap.getElem?_filterMap']
  cases hheld : defaults[key]? with
  | none => simp [entryAt_of_getElem?_none hheld]
  | some held =>
      rw [entryAt_of_getElem? hheld, Option.bind_some, InspectConfig.defaultState?]
      by_cases hscope : config.inDefaultScope key = true
      · rw [if_pos hscope]
        unfold AsksFor
        cases key.grantee with
        | role name =>
            by_cases hrole : name ∈ config.managedRoles <;> simp [hscope, hrole]
        | publicRole =>
            dsimp only
            rw [← mem_declaredPublic]
            split_ifs with hempty
            · have hnone := Finset.eq_empty_iff_forall_notMem.1 hempty privilege
              rw [Finset.mem_inter] at hnone
              simp only [Option.getD_none, Finset.notMem_empty, false_iff]
              exact fun hmem => hnone ⟨hmem.2.2, hmem.2.1⟩
            · simp [hscope, and_comm]
      · simp [hscope]

theorem noEmptyEntries_fetchDefaultPrivileges :
    NoEmptyEntries (fetchDefaultPrivileges catalog schemas managedRoles scopes) := by
  have hempty : NoEmptyEntries (∅ : BTreeMap DefaultPrivKey (Finset Privilege)) :=
    fun key => by simp
  refine hempty.extendEntries fun e he => ?_
  obtain ⟨shown, -, rfl⟩ := List.mem_map.1 he
  exact Finset.singleton_ne_empty _

theorem noEmptyEntries_deriveDefaultPrivileges
    {defaults : BTreeMap DefaultPrivKey (Finset Privilege)} (h : NoEmptyEntries defaults) :
    NoEmptyEntries (deriveDefaultPrivileges defaults config) := by
  intro key
  rw [deriveDefaultPrivileges, ExtTreeMap.getElem?_filterMap']
  cases hheld : defaults[key]? with
  | none => simp
  | some held =>
      rw [Option.bind_some, InspectConfig.defaultState?]
      by_cases hscope : config.inDefaultScope key = true
      · rw [if_pos hscope]
        cases key.grantee with
        | role name =>
            by_cases hrole : config.managedRoles.contains name = true
            · simp only [hrole, if_true]
              rw [← hheld]
              exact h key
            · simp only [hrole]
              simp
        | publicRole =>
            by_cases hempty : held ∩ config.declaredPublic key = ∅
            · simp [hempty]
            · simp [hempty]
      · simp [hscope]

/-- Narrowed to a config it covers, a read of default privileges gives the config's own. -/
theorem deriveDefaultPrivileges_fetch (h : Covers scope config) :
    deriveDefaultPrivileges (fetchDefaultPrivileges catalog scope.privilegeSchemas
        scope.managedRoles scope.defaultPrivScopes) config =
      deriveDefaultPrivileges (fetchDefaultPrivileges catalog config.privilegeSchemas
        config.managedRoles config.defaultPrivScopes) config := by
  refine NoEmptyEntries.ext (noEmptyEntries_deriveDefaultPrivileges
    noEmptyEntries_fetchDefaultPrivileges) (noEmptyEntries_deriveDefaultPrivileges
      noEmptyEntries_fetchDefaultPrivileges) fun key => Finset.ext fun privilege => ?_
  rw [mem_entryAt_deriveDefaultPrivileges, mem_entryAt_deriveDefaultPrivileges,
    mem_entryAt_fetchDefaultPrivileges, mem_entryAt_fetchDefaultPrivileges]
  refine and_congr_right fun hscope => and_congr_right fun hasks => ?_
  rw [exists_shows_iff h hscope]
  exact and_congr_right fun _ =>
    ⟨fun _ => hasks, fun _ => hasks.mono h.roles h.defaultPrivileges⟩

end Agreement

end PgRoles.Inspect

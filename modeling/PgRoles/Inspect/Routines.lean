import PgRoles.Sql.RoutineNames
import PgRoles.Inspect.Coverage

/-!
# Routines by catalog identity

A rule names a routine by a signature of its own: with argument names and modes, with other
spellings of the types, or by the bare name. Before a read the names are resolved: signatures that
the catalog writes itself are known from the rows of the schemas (`rowAliases`), the others are left
to the server. A rule whose routine is not found is refused, unless it asserts that a missing routine
has no privilege; so are rules that contradict each other once their names are resolved. What a read
resolves for a routine does not depend on what else it reads (`RoutineCatalog.read_of_subset`).
-/

set_option autoImplicit false

namespace PgRoles.Inspect

open Std PgRoles.Lib PgRoles.Core PgRoles.Sql

/-! ## Errors -/

/-- Why a routine was not resolved. -/
inductive RoutineResolutionFailure where
  | unparseable
  | ambiguous
  | missing
  deriving DecidableEq, Repr

/-- The ways an inspection fails. -/
inductive InspectError where
  | scopeNotCovered (axis : UncoveredAxis)
  | routineTarget (schema name : String) (source : DatabaseError)
  | conflictingRoutineRules (role schema name : String)
  | unresolvedRoutine (schema name : String) (failure : RoutineResolutionFailure)
      (candidates : List String)
  | databaseTargetMismatch (target connected : String)
  deriving DecidableEq, Repr

/-- The error of a signature that the server cannot parse. -/
def sqlstateSyntaxError : String := "42601"

/-- The server could not parse the signature. -/
def isSyntaxError (error : DatabaseError) : Bool := error.code == some sqlstateSyntaxError

/-! ## Aliases -/

/-- The signature with argument names and modes, which older generated policies contain. -/
def PgProc.legacySignature (p : PgProc) : String :=
  p.proname ++ "(" ++ p.identityArguments ++ ")"

/-- The spellings of a routine that are known from its row. -/
def PgProc.aliases (p : PgProc) : List ((String × String) × String) :=
  [((p.schema, p.legacySignature), p.signature), ((p.schema, p.signature), p.signature)]

/-- The canonical signatures by schema and spelling; a later row wins. -/
def rowAliases (rows : List PgProc) : BTreeMap (String × String) String :=
  collectRows (fun e : (String × String) × String => some e.1) (fun _ e => e.2)
    (rows.flatMap PgProc.aliases)

/-- One more signature of a name. -/
def addSignature (held : Option (BTreeSet String)) (p : PgProc) : BTreeSet String :=
  (held.getD ∅).insert p.signature

/-- The signatures by schema and name. -/
def rowSignatures (rows : List PgProc) : BTreeMap (String × String) (BTreeSet String) :=
  collectRows (fun p : PgProc => some (p.schema, p.proname)) addSignature rows

/-! ## Resolution -/

/-- A routine that rules name and the server does not find, with the signatures of its name. -/
structure UnresolvedRoutine where
  failure : RoutineResolutionFailure
  candidates : List String
  deriving DecidableEq, Repr

/-- The routines of one read: canonical signatures by schema and spelling, and what was not found. -/
structure RoutineCatalog where
  aliases : BTreeMap (String × String) String := ∅
  unresolved : BTreeMap (String × String) UnresolvedRoutine := ∅

/-- The name comes with an argument list. -/
def namesSignature (name : String) : Bool := name.toList.getLast? == some ')'

/-- The routine that the server finds under a name, by its canonical signature. -/
def resolveRoutine (catalog : Catalog) (schema name : String) :
    Except DatabaseError (Option String) :=
  (if namesSignature name then catalog.toRegprocedure (qualifiedFunctionName schema name)
    else catalog.toRegproc (qualifiedFunctionName schema name)).map fun oid =>
      oid.bind fun oid => (catalog.procs.find? fun p => p.oid == oid).map PgProc.signature

/-- The signatures of a name. -/
def candidatesOf (signatures : BTreeMap (String × String) (BTreeSet String))
    (schema name : String) : List String :=
  (signatures[(schema, routineBaseName name)]?.map (·.toList)).getD []

/-- What the server says of one target: its canonical signature, or why there is none. -/
def lookUpTarget (catalog : Catalog) (signatures : BTreeMap (String × String) (BTreeSet String))
    (target : String × String) : Except InspectError (Except UnresolvedRoutine String) :=
  let candidates := candidatesOf signatures target.1 target.2
  match resolveRoutine catalog target.1 target.2 with
  | .ok (some canonical) => .ok (.ok canonical)
  | .ok none =>
      if !namesSignature target.2 && !candidates.isEmpty then .ok (.error ⟨.ambiguous, candidates⟩)
      else .ok (.error ⟨.missing, candidates⟩)
  | .error error =>
      if isSyntaxError error then .ok (.error ⟨.unparseable, candidates⟩)
      else .error (.routineTarget target.1 target.2 error)

namespace RoutineCatalog

/-- Keep what was found out about a target. -/
def record (routines : RoutineCatalog) (target : String × String) :
    Except UnresolvedRoutine String → RoutineCatalog
  | .ok canonical => { routines with aliases := routines.aliases.insert target canonical }
  | .error unresolved =>
      { routines with unresolved := routines.unresolved.insert target unresolved }

/-- Resolve one target; a spelling that a row has needs no query. -/
def resolveTarget (catalog : Catalog) (signatures : BTreeMap (String × String) (BTreeSet String))
    (routines : RoutineCatalog) (target : String × String) : Except InspectError RoutineCatalog :=
  if routines.aliases.contains target then .ok routines
  else (lookUpTarget catalog signatures target).map (routines.record target)

/-- Resolve the routines of a scope. -/
def read (catalog : Catalog) (scope : InspectConfig) : Except InspectError RoutineCatalog :=
  let targets := routineTargets scope
  if targets.isEmpty then .ok {}
  else
    let schemas := targets.map (·.1)
    let rows := catalog.procs.filter fun p => schemas.contains p.schema
    targets.foldlM (resolveTarget catalog (rowSignatures rows)) { aliases := rowAliases rows }

/-- A routine by the spelling the server gives it; one that is no alias keeps its name. -/
def canonicalName (routines : RoutineCatalog) (schema name : String) : String :=
  routines.aliases[(schema, name)]?.getD name

/-- A PUBLIC scope with its routine named canonically. -/
def resolvePublicScope (routines : RoutineCatalog) (scope : PublicObjectScope) :
    PublicObjectScope :=
  match scope.objectType, scope.schema, scope.name with
  | .function, some schema, some name =>
      { scope with name := some (routines.canonicalName schema name) }
  | _, _, _ => scope

/-- The configuration with the routines of its PUBLIC scopes named canonically. -/
def resolvePublicScopes (routines : RoutineCatalog) (config : InspectConfig) : InspectConfig :=
  { config with publicObjectScopes := config.publicObjectScopes.map routines.resolvePublicScope }

/-! ## Validation -/

/-- What rules assert, by role, schema, canonical name and privilege. -/
abbrev Assertions : Type := BTreeMap (String × String × String × Privilege) Ensure

/-- Note what a rule asserts of one privilege; the opposite must not have been asserted. -/
def assertPrivilege (role schema name : String) (ensure : Ensure) (assertions : Assertions)
    (privilege : Privilege) : Except InspectError Assertions :=
  match assertions[(role, schema, name, privilege)]? with
  | some previous =>
      if previous = ensure then .ok (assertions.insert (role, schema, name, privilege) ensure)
      else .error (.conflictingRoutineRules role schema name)
  | none => .ok (assertions.insert (role, schema, name, privilege) ensure)

/-- The refusal of a rule whose routine was not found. An absence is fine for a missing one. -/
def unresolvedError? (routines : RoutineCatalog) (schema name : String) (ensure : Ensure) :
    Option InspectError :=
  routines.unresolved[(schema, name)]?.bind fun unresolved =>
    if unresolved.failure ≠ .missing ∨ ensure = .present then
      some (.unresolvedRoutine schema name unresolved.failure unresolved.candidates)
    else none

/-- Check one rule against those before it. -/
def validateGrant (routines : RoutineCatalog) (assertions : Assertions) (grant : Grant) :
    Except InspectError Assertions :=
  match grant.object.schema, grant.object.name with
  | some schema, some name =>
      match routines.unresolvedError? schema name grant.ensure with
      | some error => .error error
      | none =>
          grant.privileges.foldlM
            (assertPrivilege grant.role schema (routines.canonicalName schema name) grant.ensure)
            assertions
  | _, _ => .ok assertions

/-- Every rule's routine was found, and no two rules contradict each other. -/
def validate (routines : RoutineCatalog) (config : InspectConfig) : Except InspectError Unit :=
  (config.routineGrants.foldlM routines.validateGrant ∅).map fun _ => ()

end RoutineCatalog

/-! ## What a read resolves -/

section Resolution

variable {catalog : Catalog} {schemas : List String}

/-- Rows of the schemas have every alias in them. -/
theorem getElem?_rowAliases_filter {rows : List PgProc} {key : String × String}
    (h : key.1 ∈ schemas) :
    (rowAliases (rows.filter fun p => schemas.contains p.schema))[key]? = (rowAliases rows)[key]? := by
  have hselected : (rows.filter fun p => schemas.contains p.schema).flatMap PgProc.aliases =
      (rows.flatMap PgProc.aliases).filter fun e => schemas.contains e.1.1 := by
    induction rows with
    | nil => rfl
    | cons p rows ih =>
        rw [List.flatMap_cons, List.filter_append, ← ih]
        by_cases hp : p.schema ∈ schemas
        · rw [List.filter_cons_of_pos (by simpa using hp)]
          simp [PgProc.aliases, hp]
        · rw [List.filter_cons_of_neg (by simpa using hp)]
          simp [PgProc.aliases, hp]
  rw [rowAliases, hselected, rowAliases, getElem?_collectRows_filter]
  intro e he
  rw [← Option.some.inj he] at h
  simpa using h

theorem namesSignature_append (text : String) : namesSignature (text ++ ")") = true := by
  have hclose : (")" : String).toList = [')'] := rfl
  rw [namesSignature, String.toList_append, hclose, List.getLast?_concat]
  rfl

/-- The spellings that rows have end in an argument list. -/
theorem namesSignature_of_mem_aliases {p : PgProc} {e : (String × String) × String}
    (h : e ∈ p.aliases) : namesSignature e.1.2 = true := by
  simp only [PgProc.aliases, List.mem_cons, List.not_mem_nil, or_false] at h
  rcases h with rfl | rfl
  · exact namesSignature_append _
  · exact namesSignature_append _

/-- No row spells a wildcard. -/
theorem getElem?_rowAliases_wildcard (rows : List PgProc) (schema : String) :
    (rowAliases rows)[(schema, wildcardName)]? = none := by
  rw [rowAliases, getElem?_collectRows, List.filter_eq_nil_iff.2]
  · rfl
  · intro e he hkey
    obtain ⟨p, -, hp⟩ := List.mem_flatMap.1 he
    have hname : e.1.2 = wildcardName := congrArg Prod.snd (Option.some.inj (of_decide_eq_true hkey))
    have hsignature := namesSignature_of_mem_aliases hp
    rw [hname] at hsignature
    exact absurd hsignature (by decide)

/-- Rows of the schemas have every signature in them. -/
theorem candidatesOf_filter {rows : List PgProc} {schema name : String} (h : schema ∈ schemas) :
    candidatesOf (rowSignatures (rows.filter fun p => schemas.contains p.schema)) schema name =
      candidatesOf (rowSignatures rows) schema name := by
  rw [candidatesOf, rowSignatures, getElem?_collectRows_filter]
  · rfl
  · intro p hp
    have hschema : p.schema = schema := congrArg Prod.fst (Option.some.inj hp)
    simpa [hschema] using h

theorem lookUpTarget_filter {rows : List PgProc} {target : String × String}
    (h : target.1 ∈ schemas) :
    lookUpTarget catalog (rowSignatures (rows.filter fun p => schemas.contains p.schema)) target =
      lookUpTarget catalog (rowSignatures rows) target := by
  simp only [lookUpTarget, candidatesOf_filter h]

namespace RoutineCatalog

/-- What is known of one spelling: its canonical signature, or why it was not found. -/
def entry (routines : RoutineCatalog) (key : String × String) :
    Option String × Option UnresolvedRoutine :=
  (routines.aliases[key]?, routines.unresolved[key]?)

/-- What resolving a target finds out, given the spellings and signatures of the rows. -/
def outcome (catalog : Catalog) (signatures : BTreeMap (String × String) (BTreeSet String))
    (known : Option String) (target : String × String) :
    Except InspectError (Option String × Option UnresolvedRoutine) :=
  match known with
  | some canonical => .ok (some canonical, none)
  | none =>
      (lookUpTarget catalog signatures target).map fun
        | .ok canonical => (some canonical, none)
        | .error unresolved => (none, some unresolved)

variable {signatures : BTreeMap (String × String) (BTreeSet String)}
  {routines routines' : RoutineCatalog} {target key : String × String}

theorem entry_record_ne (answer : Except UnresolvedRoutine String) (hne : target ≠ key) :
    (routines.record target answer).entry key = routines.entry key := by
  cases answer with
  | ok canonical => simp [record, entry, getElem?_insert_eq, hne]
  | error unresolved => simp [record, entry, getElem?_insert_eq, hne]

/-- Resolving a target leaves the others as they are. -/
theorem entry_resolveTarget_ne
    (h : resolveTarget catalog signatures routines target = .ok routines') (hne : target ≠ key) :
    routines'.entry key = routines.entry key := by
  unfold resolveTarget at h
  split_ifs at h
  · cases h
    rfl
  · cases hanswer : lookUpTarget catalog signatures target with
    | error e => rw [hanswer] at h; cases h
    | ok answer =>
        rw [hanswer] at h
        cases h
        exact entry_record_ne answer hne

/-- Resolving a target that nothing is known of finds out its outcome. -/
theorem entry_resolveTarget
    (h : resolveTarget catalog signatures routines target = .ok routines')
    (hnew : routines.unresolved[target]? = none) :
    outcome catalog signatures routines.aliases[target]? target = .ok (routines'.entry target) := by
  unfold resolveTarget at h
  split_ifs at h with hknown
  · cases h
    obtain ⟨canonical, hcanonical⟩ := mem_iff_exists_getElem?.1 (ExtTreeMap.mem_iff_contains.2 hknown)
    simp [outcome, entry, hcanonical, hnew]
  · have hnone : routines.aliases[target]? = none :=
      not_mem_iff_getElem?.1 fun hmem => hknown (ExtTreeMap.mem_iff_contains.1 hmem)
    cases hanswer : lookUpTarget catalog signatures target with
    | error e => rw [hanswer] at h; cases h
    | ok answer =>
        rw [hanswer] at h
        cases h
        cases answer with
        | ok canonical =>
            simp [outcome, hnone, hanswer, Except.map, record, entry, hnew]
        | error unresolved =>
            simp [outcome, hnone, hanswer, Except.map, record, entry]

/-- A target whose outcome is known can be resolved. -/
theorem exists_resolveTarget
    (h : ∃ answer, outcome catalog signatures routines.aliases[target]? target = .ok answer) :
    ∃ routines', resolveTarget catalog signatures routines target = .ok routines' := by
  unfold resolveTarget
  split_ifs with hknown
  · exact ⟨routines, rfl⟩
  · have hnone : routines.aliases[target]? = none :=
      not_mem_iff_getElem?.1 fun hmem => hknown (ExtTreeMap.mem_iff_contains.1 hmem)
    obtain ⟨answer, hanswer⟩ := h
    rw [hnone] at hanswer
    cases hlook : lookUpTarget catalog signatures target with
    | error e => simp [outcome, hlook, Except.map] at hanswer
    | ok found => exact ⟨_, rfl⟩

/-- Resolving targets leaves what is known of other spellings as it is. -/
theorem entry_foldlM_of_notMem {targets : List (String × String)}
    (h : targets.foldlM (resolveTarget catalog signatures) routines = .ok routines')
    (hkey : key ∉ targets) : routines'.entry key = routines.entry key := by
  induction targets generalizing routines with
  | nil =>
      cases h
      rfl
  | cons target targets ih =>
      rw [List.foldlM_cons] at h
      obtain ⟨next, hnext, hrest⟩ := bind_eq_ok.1 h
      rw [ih hrest fun hmem => hkey (List.mem_cons_of_mem _ hmem)]
      exact entry_resolveTarget_ne hnext fun heq => hkey (heq ▸ List.mem_cons_self)

/-- Each of the targets gets its outcome, whatever else is resolved. -/
theorem entry_foldlM {targets : List (String × String)} (hnodup : targets.Nodup)
    (hnew : ∀ target ∈ targets, routines.unresolved[target]? = none)
    (h : targets.foldlM (resolveTarget catalog signatures) routines = .ok routines')
    (hkey : key ∈ targets) :
    outcome catalog signatures routines.aliases[key]? key = .ok (routines'.entry key) := by
  induction targets generalizing routines with
  | nil => cases hkey
  | cons target targets ih =>
      rw [List.foldlM_cons] at h
      obtain ⟨next, hnext, hrest⟩ := bind_eq_ok.1 h
      obtain ⟨hnotMem, hnodup⟩ := List.nodup_cons.1 hnodup
      have hkept : ∀ other ∈ targets, next.entry other = routines.entry other :=
        fun other hother =>
          entry_resolveTarget_ne hnext fun heq => hnotMem (heq ▸ hother)
      rcases List.mem_cons.1 hkey with rfl | hkey
      · rw [entry_foldlM_of_notMem hrest hnotMem]
        exact entry_resolveTarget hnext (hnew _ List.mem_cons_self)
      · have halias : next.aliases[key]? = routines.aliases[key]? :=
          congrArg Prod.fst (hkept key hkey)
        rw [← halias]
        refine ih hnodup (fun other hother => ?_) hrest hkey
        have hunresolved : next.unresolved[other]? = routines.unresolved[other]? :=
          congrArg Prod.snd (hkept other hother)
        rw [hunresolved]
        exact hnew other (List.mem_cons_of_mem _ hother)

theorem exists_foldlM {targets : List (String × String)} (hnodup : targets.Nodup)
    (h : ∀ target ∈ targets,
      ∃ answer, outcome catalog signatures routines.aliases[target]? target = .ok answer) :
    ∃ routines', targets.foldlM (resolveTarget catalog signatures) routines = .ok routines' := by
  induction targets generalizing routines with
  | nil => exact ⟨routines, rfl⟩
  | cons target targets ih =>
      obtain ⟨hnotMem, hnodup⟩ := List.nodup_cons.1 hnodup
      obtain ⟨next, hnext⟩ := exists_resolveTarget (h target List.mem_cons_self)
      have hanswers : ∀ other ∈ targets, ∃ answer,
          outcome catalog signatures next.aliases[other]? other = .ok answer := by
        intro other hother
        have hkept := entry_resolveTarget_ne hnext fun heq : target = other =>
          hnotMem (heq ▸ hother)
        have halias : next.aliases[other]? = routines.aliases[other]? := congrArg Prod.fst hkept
        rw [halias]
        exact h other (List.mem_cons_of_mem _ hother)
      obtain ⟨routines', hrest⟩ := ih hnodup hanswers
      exact ⟨routines', by rw [List.foldlM_cons, hnext]; exact hrest⟩

/-! ## Reads -/

/-- What the whole catalog says of a target. -/
def resolution (catalog : Catalog) (target : String × String) :
    Except InspectError (Option String × Option UnresolvedRoutine) :=
  outcome catalog (rowSignatures catalog.procs) (rowAliases catalog.procs)[target]? target

variable {scope config : InspectConfig}

theorem nodup_routineTargets (config : InspectConfig) : (routineTargets config).Nodup :=
  nodup_of_sorted ExtTreeSet.ordered_toList

/-- Among the rows of the targets' schemas a target has the outcome of the whole catalog. -/
theorem outcome_filter (h : target.1 ∈ schemas) :
    outcome catalog (rowSignatures (catalog.procs.filter fun p => schemas.contains p.schema))
        (rowAliases (catalog.procs.filter fun p => schemas.contains p.schema))[target]? target =
      resolution catalog target := by
  simp only [resolution, outcome, getElem?_rowAliases_filter h, lookUpTarget_filter h]

/-- A read knows of each of its targets what the whole catalog says of it. -/
theorem entry_read (h : read catalog scope = .ok routines) (hkey : key ∈ routineTargets scope) :
    resolution catalog key = .ok (routines.entry key) := by
  unfold read at h
  rw [if_neg fun hempty => by rw [List.isEmpty_iff.1 hempty] at hkey; cases hkey] at h
  have hentry := entry_foldlM (nodup_routineTargets scope) (fun _ _ => by simp) h hkey
  rw [← hentry]
  exact (outcome_filter (List.mem_map_of_mem hkey)).symm

/-- A read knows nothing of wildcards. -/
theorem entry_read_wildcard (h : read catalog scope = .ok routines) (schema : String) :
    routines.entry (schema, wildcardName) = (none, none) := by
  unfold read at h
  dsimp only at h
  split_ifs at h
  · cases h
    simp [entry]
  · rw [entry_foldlM_of_notMem h]
    · simp [entry, getElem?_rowAliases_wildcard]
    · intro hmem
      obtain ⟨grant, -, htarget⟩ := mem_routineTargets.1 hmem
      obtain ⟨_, -, htarget⟩ := Option.bind_eq_some_iff.1 htarget
      obtain ⟨name, -, htarget⟩ := Option.bind_eq_some_iff.1 htarget
      split_ifs at htarget with hname
      exact hname (congrArg Prod.snd (Option.some.inj htarget))

/-- A read succeeds when the server answers for each of its targets. -/
theorem exists_read (h : ∀ target ∈ routineTargets scope, ∃ answer, resolution catalog target =
    .ok answer) : ∃ routines, read catalog scope = .ok routines := by
  unfold read
  by_cases hempty : (routineTargets scope).isEmpty = true
  · exact ⟨{}, if_pos hempty⟩
  · rw [if_neg hempty]
    refine exists_foldlM (nodup_routineTargets scope) fun target htarget => ?_
    rw [outcome_filter (List.mem_map_of_mem htarget)]
    exact h target htarget

/-- Where one read knows its targets, so does a read of fewer of them, and it knows the same. -/
theorem read_of_subset (h : read catalog scope = .ok routines)
    (hsubset : routineTargets config ⊆ routineTargets scope) :
    ∃ routines', read catalog config = .ok routines' ∧
      ∀ key ∈ routineTargets config, routines'.entry key = routines.entry key := by
  obtain ⟨routines', hread⟩ := exists_read fun target htarget =>
    ⟨_, entry_read h (hsubset htarget)⟩
  refine ⟨routines', hread, fun key hkey => ?_⟩
  exact Except.ok.inj ((entry_read hread hkey).symm.trans (entry_read h (hsubset hkey)))

/-! ## Agreement -/

/-- The two know the same of every routine that a rule of the config names, wildcards included. -/
def AgreeOn (config : InspectConfig) (routines routines' : RoutineCatalog) : Prop :=
  ∀ grant ∈ config.routineGrants, ∀ schema name, grant.object.schema = some schema →
    grant.object.name = some name → routines'.entry (schema, name) = routines.entry (schema, name)

theorem agreeOn_of_read (h : read catalog scope = .ok routines)
    (hread : read catalog config = .ok routines')
    (hentry : ∀ key ∈ routineTargets config, routines'.entry key = routines.entry key) :
    AgreeOn config routines routines' := by
  intro grant hgrant schema name hschema hname
  by_cases hwildcard : name = wildcardName
  · subst hwildcard
    rw [entry_read_wildcard h, entry_read_wildcard hread]
  · refine hentry _ (mem_routineTargets.2 ⟨grant, hgrant, ?_⟩)
    simp [routineTarget?, hschema, hname, hwildcard]

theorem canonicalName_congr {schema name : String}
    (h : routines'.entry (schema, name) = routines.entry (schema, name)) :
    routines'.canonicalName schema name = routines.canonicalName schema name := by
  have halias : routines'.aliases[(schema, name)]? = routines.aliases[(schema, name)]? :=
    congrArg Prod.fst h
  rw [canonicalName, halias, canonicalName]

theorem unresolvedError?_congr {schema name : String} {ensure : Ensure}
    (h : routines'.entry (schema, name) = routines.entry (schema, name)) :
    routines'.unresolvedError? schema name ensure = routines.unresolvedError? schema name ensure := by
  have hunresolved : routines'.unresolved[(schema, name)]? = routines.unresolved[(schema, name)]? :=
    congrArg Prod.snd h
  rw [unresolvedError?, hunresolved, unresolvedError?]

/-- Rules are checked alike where the same is known of their routines. -/
theorem validate_congr (h : AgreeOn config routines routines') :
    routines'.validate config = routines.validate config := by
  have hfold : ∀ (grants : List Grant) (assertions : Assertions),
      (∀ grant ∈ grants, grant ∈ config.routineGrants) →
        grants.foldlM routines'.validateGrant assertions =
          grants.foldlM routines.validateGrant assertions := by
    intro grants
    induction grants with
    | nil => intro _ _; rfl
    | cons grant grants ih =>
        intro assertions hgrants
        have hgrant : routines'.validateGrant assertions grant =
            routines.validateGrant assertions grant := by
          unfold validateGrant
          cases hschema : grant.object.schema with
          | none => rfl
          | some schema =>
              cases hname : grant.object.name with
              | none => rfl
              | some name =>
                  have hentry := h grant (hgrants _ List.mem_cons_self) schema name hschema hname
                  simp only [unresolvedError?_congr hentry, canonicalName_congr hentry]
        rw [List.foldlM_cons, List.foldlM_cons, hgrant]
        congr 1
        funext next
        exact ih next fun other hother => hgrants other (List.mem_cons_of_mem _ hother)
  rw [validate, hfold config.routineGrants ∅ fun _ hgrant => hgrant, validate]

end RoutineCatalog

/-- Every PUBLIC scope that names a routine comes from one of the routine rules. -/
def InspectConfig.NamesPublicRoutines (config : InspectConfig) : Prop :=
  ∀ p ∈ config.publicObjectScopes, p.objectType = .function → ∀ schema name,
    p.schema = some schema → p.name = some name → ∃ grant ∈ config.routineGrants,
      grant.object.schema = some schema ∧ grant.object.name = some name

/-- PUBLIC scopes are named alike where the same is known of the routines of their rules. -/
theorem RoutineCatalog.resolvePublicScopes_congr {routines routines' : RoutineCatalog}
    {config : InspectConfig} (h : AgreeOn config routines routines')
    (hnamed : config.NamesPublicRoutines) :
    routines'.resolvePublicScopes config = routines.resolvePublicScopes config := by
  unfold resolvePublicScopes
  congr 1
  refine List.map_congr_left fun p hp => ?_
  unfold resolvePublicScope
  cases htype : p.objectType with
  | function =>
      cases hschema : p.schema with
      | none => rfl
      | some schema =>
          cases hname : p.name with
          | none => rfl
          | some name =>
              obtain ⟨grant, hgrant, hgschema, hgname⟩ :=
                hnamed p hp htype schema name hschema hname
              have hentry := h grant hgrant schema name hgschema hgname
              simp only [canonicalName_congr hentry]
  | _ => rfl

/-- Names that are resolved alike leave coverage of PUBLIC targets as it was. -/
theorem RoutineCatalog.target_resolvePublicScope_congr (routines : RoutineCatalog)
    {p q : PublicObjectScope} (h : p.target = q.target) :
    (routines.resolvePublicScope p).target = (routines.resolvePublicScope q).target := by
  obtain ⟨objectType, schema, name, privileges⟩ := p
  obtain ⟨objectType', schema', name', privileges'⟩ := q
  simp only [PublicObjectScope.target, Prod.mk.injEq] at h
  obtain ⟨rfl, rfl, rfl⟩ := h
  cases objectType <;> cases schema <;> cases name <;> rfl

end Resolution

end PgRoles.Inspect

import PgRoles.Core.PlanOrder
import PgRoles.Inspect.Normalize

/-!
# Convergence of wildcard rules

One (role, object type, schema) scope under a manifest's wildcard and named rules. Inspection reads
what the role holds on each object and compacts what all objects share of a wildcard rule; the plan
against the desired graph is executed on the objects. One run always reaches what the rules ask for
(`mem_execute_iff`). Whether the next run plans nothing is another matter: inspection takes the
wildcard's privileges away from the named entries, so a named rule that shares one is planned again
(`wildcard_converges_iff`).
-/

set_option autoImplicit false

namespace PgRoles.Semantics

open Std PgRoles.Lib PgRoles.Core PgRoles.Inspect

/-! ## One scope of the database -/

/-- What the role of a scope holds on each object. -/
abbrev ScopeState : Type := String → Finset Privilege

/-- The grants inspection reads of a scope. -/
def rawGrants (key : WildcardKey) (names : BTreeSet String) (db : ScopeState) :
    BTreeMap GrantKey (Finset Privilege) :=
  extendEntries ∅ ((names.toList.filter fun name => db name ≠ ∅).map fun name =>
    (wildcardTarget key name, db name))

/-- The recorded ACL entries of a scope, when its one grantor is recorded. -/
def rawEntries (key : WildcardKey) (names : BTreeSet String) (grantor : Option String)
    (db : ScopeState) : BTreeMap GrantKey (BTreeMap String (Finset Privilege)) :=
  ExtTreeMap.ofList (grantor.toList.flatMap fun g => names.toList.map fun name =>
    (wildcardTarget key name, ExtTreeMap.ofList [(g, db name)] compare)) compare

/-- The graph inspected from one scope. -/
def inspectedScope (key : WildcardKey) (names : BTreeSet String) (inventory : Inventory)
    (patterns : List WildcardGrantPattern) (grantor : Option String) (db : ScopeState) :
    RoleGraph :=
  { grants := normalizeWildcardGrants (rawGrants key names db) inventory patterns
    grantEntryGrantors := rawEntries key names grantor db }

/-- The change acts on the object: by name, or through the wildcard. -/
def actsOn (key : WildcardKey) (k : GrantKey) (name : String) : Prop :=
  k = wildcardTarget key name ∨ k = wildcardTarget key wildcardName

instance (key : WildcardKey) (k : GrantKey) (name : String) : Decidable (actsOn key k name) :=
  inferInstanceAs (Decidable (_ ∨ _))

/-- Execute one change on the objects of a scope. -/
def scopeStep (key : WildcardKey) (db : ScopeState) : Change → ScopeState
  | .grant k privileges => fun name => if actsOn key k name then db name ∪ privileges else db name
  | .revoke k privileges _ => fun name =>
      if actsOn key k name then db name \ privileges else db name
  | _ => db

/-- Execute a plan on the objects of a scope. -/
def executeScope (key : WildcardKey) (db : ScopeState) (changes : List Change) : ScopeState :=
  changes.foldl (scopeStep key) db

/-- The change grants or revokes something in the scope. -/
def TouchesScope (key : WildcardKey) : Change → Prop
  | .grant k _ | .revoke k _ _ => InWildcardScope key k
  | _ => False

/-! ## What inspection reads -/

section Inspection

variable {key : WildcardKey} {names : BTreeSet String} {db : ScopeState} {k : GrantKey}
  {p : Privilege}

theorem mem_entryAt_rawGrants :
    p ∈ entryAt (rawGrants key names db) k ↔
      ∃ name ∈ names, k = wildcardTarget key name ∧ p ∈ db name := by
  rw [rawGrants, mem_entryAt_extendEntries]
  constructor
  · rintro (h | ⟨s, hs, hp⟩)
    · simp [entryAt] at h
    · obtain ⟨name, hname, heq⟩ := List.mem_map.1 hs
      obtain ⟨rfl, rfl⟩ := Prod.mk.inj heq
      exact ⟨name, ExtTreeSet.mem_toList.1 (List.mem_filter.1 hname).1, rfl, hp⟩
  · rintro ⟨name, hname, rfl, hp⟩
    refine Or.inr ⟨db name, List.mem_map.2 ⟨name, List.mem_filter.2 ⟨?_, ?_⟩, rfl⟩, hp⟩
    · exact ExtTreeSet.mem_toList.2 hname
    · simpa using Finset.ne_empty_of_mem hp

theorem rawScope_rawGrants : RawScope key names (rawGrants key names db) where
  objects k p _ hp := by
    obtain ⟨name, hname, rfl, -⟩ := mem_entryAt_rawGrants.1 hp
    exact ⟨name, hname, rfl⟩
  no_empty k _ hempty := by
    have hsome : (rawGrants key names db)[k]?.isSome := by
      rw [hempty]
      rfl
    rw [rawGrants, isSome_extendEntries] at hsome
    rcases hsome with hsome | ⟨s, hs⟩
    · simp at hsome
    · obtain ⟨name, hname, heq⟩ := List.mem_map.1 hs
      obtain ⟨rfl, rfl⟩ := Prod.mk.inj heq
      obtain ⟨hmem, hne⟩ := List.mem_filter.1 hname
      obtain ⟨q, hq⟩ := Finset.nonempty_iff_ne_empty.2 (of_decide_eq_true hne)
      have hentry : q ∈ entryAt (rawGrants key names db) (wildcardTarget key name) :=
        mem_entryAt_rawGrants.2 ⟨name, ExtTreeSet.mem_toList.1 hmem, rfl, hq⟩
      rw [entryAt_of_getElem? hempty] at hentry
      exact Finset.notMem_empty q hentry

theorem holds_of_recordedEntries {inventory : Inventory} {patterns : List WildcardGrantPattern}
    {grantor : Option String}
    (h : recordedEntries (inspectedScope key names inventory patterns grantor db) k p ≠ []) :
    ∃ name ∈ names, k = wildcardTarget key name ∧ p ∈ db name := by
  unfold recordedEntries inspectedScope at h
  dsimp only at h
  cases hk : (rawEntries key names grantor db)[k]? with
  | none => simp [hk] at h
  | some perGrantor =>
      rw [hk] at h
      obtain ⟨g, -, hmem⟩ := List.mem_flatMap.1 (mem_of_getElem?_ofList hk)
      obtain ⟨name, hname, heq⟩ := List.mem_map.1 hmem
      obtain ⟨rfl, rfl⟩ := Prod.mk.inj heq
      obtain ⟨x, hx⟩ := List.exists_mem_of_ne_nil _ h
      obtain ⟨a, ha, hsome⟩ := List.mem_filterMap.1 hx
      have hentry := mem_of_getElem?_ofList (mem_toList_iff.1 ha)
      refine ⟨name, ExtTreeSet.mem_toList.1 hname, rfl, ?_⟩
      split_ifs at hsome with hp
      rwa [(Prod.mk.inj (List.mem_singleton.1 hentry)).2] at hp

end Inspection

/-! ## The patterns of a manifest -/

section Patterns

variable {e : ExpandedManifest} {defaultOwner : Option String} {desired : RoleGraph}
  {includeDatabase : Bool} {key : WildcardKey}

theorem mem_wildcardEntry {grant : Grant} {s : Finset Privilege} :
    (key, s) ∈ wildcardEntry grant ↔
      isWildcardType key.2.1 = true ∧ grant.ensure = .present ∧
        grantKeyFromManifest grant = wildcardTarget key wildcardName ∧
          s = grant.privileges.toFinset := by
  obtain ⟨role, objectType, schema⟩ := key
  obtain ⟨role', privileges, ⟨objectType', schema', name'⟩, ensure⟩ := grant
  cases schema' with
  | none => simp [wildcardEntry, grantKeyFromManifest, wildcardTarget]
  | some schema' =>
      simp only [wildcardEntry, grantKeyFromManifest, wildcardTarget, GrantKey.mk.injEq,
        Grantee.parse_injective.eq_iff, Option.some.injEq]
      split_ifs with h
      · simp only [Bool.and_eq_true, beq_iff_eq] at h
        obtain ⟨⟨rfl, rfl⟩, htype⟩ := h
        simp only [List.mem_singleton, Prod.mk.injEq]
        constructor
        · rintro ⟨⟨rfl, rfl, rfl⟩, rfl⟩
          exact ⟨htype, trivial, ⟨rfl, rfl, rfl, trivial⟩, rfl⟩
        · rintro ⟨-, -, ⟨rfl, rfl, rfl, -⟩, rfl⟩
          exact ⟨⟨rfl, rfl, rfl⟩, rfl⟩
      · simp only [List.not_mem_nil, false_iff]
        rintro ⟨htype, rfl, ⟨rfl, rfl, rfl, rfl⟩, -⟩
        exact h (by simp [htype])

variable (hgraph : RoleGraph.fromExpanded e defaultOwner = .ok desired)

include hgraph

/-- A wildcard rule has a pattern, unless its type has no wildcards. -/
theorem exists_pattern_iff :
    (∃ pattern ∈ (InspectConfig.fromExpanded e includeDatabase).wildcardGrants,
        pattern.key = key) ↔
      isWildcardType key.2.1 = true ∧
        desired.grants[wildcardTarget key wildcardName]?.isSome := by
  rw [isSome_grants hgraph]
  constructor
  · rintro ⟨pattern, hpattern, rfl⟩
    have hsome := congrArg Option.isSome (mem_wildcardPatterns.1 hpattern)
    rw [Option.isSome_some, isSome_extendEntries] at hsome
    rcases hsome with hsome | ⟨s, hs⟩
    · simp at hsome
    · obtain ⟨grant, hgrant, hentry⟩ := List.mem_flatMap.1 hs
      obtain ⟨htype, hensure, hkey, -⟩ := mem_wildcardEntry.1 hentry
      exact ⟨htype, grant, hgrant, hensure, hkey⟩
  · rintro ⟨htype, grant, hgrant, hensure, hkey⟩
    have hentry : (key, grant.privileges.toFinset) ∈ e.grants.flatMap wildcardEntry :=
      List.mem_flatMap.2 ⟨grant, hgrant, mem_wildcardEntry.2 ⟨htype, hensure, hkey, rfl⟩⟩
    obtain ⟨s, hs⟩ := Option.isSome_iff_exists.1 (isSome_extendEntries.2 (Or.inr ⟨_, hentry⟩) :
      (extendEntries (∅ : BTreeMap WildcardKey (Finset Privilege))
        (e.grants.flatMap wildcardEntry))[key]?.isSome)
    exact ⟨⟨key.1, key.2.1, key.2.2, s⟩, mem_wildcardPatterns.2 hs, rfl⟩

/-- A pattern has the privileges its wildcard rules declare. -/
theorem privileges_of_pattern {pattern : WildcardGrantPattern}
    (hpattern : pattern ∈ (InspectConfig.fromExpanded e includeDatabase).wildcardGrants) :
    pattern.privileges = entryAt desired.grants (wildcardTarget pattern.key wildcardName) := by
  have htype := ((exists_pattern_iff hgraph).1 ⟨pattern, hpattern, rfl⟩).1
  rw [← entryAt_of_getElem? (mem_wildcardPatterns.1 hpattern)]
  ext p
  rw [mem_entryAt_extendEntries, mem_entryAt_grants hgraph]
  constructor
  · rintro (h | ⟨s, hs, hp⟩)
    · simp [entryAt] at h
    · obtain ⟨grant, hgrant, hentry⟩ := List.mem_flatMap.1 hs
      obtain ⟨-, hensure, hkey, rfl⟩ := mem_wildcardEntry.1 hentry
      exact ⟨grant, hgrant, hensure, hkey, List.mem_toFinset.1 hp⟩
  · rintro ⟨grant, hgrant, hensure, hkey, hp⟩
    refine Or.inr ⟨_, List.mem_flatMap.2 ⟨grant, hgrant, ?_⟩, List.mem_toFinset.2 hp⟩
    exact mem_wildcardEntry.2 ⟨htype, hensure, hkey, rfl⟩

end Patterns

/-! ## The rules of a scope -/

/-- A non-empty scope of an ordinary role, under the rules of an accepted manifest. Its rules name
the wildcard or objects of the inventory; no object has the wildcard's name. -/
structure RuledScope (m : PolicyManifest) (e : ExpandedManifest) (desired : RoleGraph)
    (key : WildcardKey) (names : BTreeSet String) (inventory : Inventory) : Prop where
  accepted : expandManifest m = .ok e
  graph : RoleGraph.fromExpanded e m.defaultOwner = .ok desired
  ordinary : key.1 ≠ publicRoleName
  inventory : inventory[key.2]? = some names
  nonempty : names.isEmpty = false
  objects : wildcardName ∉ names
  named : ∀ k, InWildcardScope key k → desired.grants[k]?.isSome →
    ∃ name, (name = wildcardName ∨ name ∈ names) ∧ k = wildcardTarget key name

/-- The privileges that a named rule declares for an object. -/
def namedPresent (desired : RoleGraph) (key : WildcardKey) (name : String) : Finset Privilege :=
  entryAt desired.grants (wildcardTarget key name)

/-- The privileges that the wildcard rules declare. -/
def wildcardPresent (desired : RoleGraph) (key : WildcardKey) : Finset Privilege :=
  entryAt desired.grants (wildcardTarget key wildcardName)

/-- The privileges asserted absent for an object, by name or by wildcard. -/
def assertedAbsent (desired : RoleGraph) (key : WildcardKey) (name : String) : Finset Privilege :=
  entryAt desired.grantAbsences (wildcardTarget key name) ∪
    entryAt desired.grantAbsences (wildcardTarget key wildcardName)

theorem wildcard_wildcardTarget (key : WildcardKey) (name : String) :
    (wildcardTarget key name).wildcard = wildcardTarget key wildcardName := rfl

theorem isWildcard_wildcardTarget {key : WildcardKey} {name : String} :
    (wildcardTarget key name).isWildcard = true ↔ name = wildcardName := by
  simp [wildcardTarget, GrantKey.isWildcard]

section Scope

variable {m : PolicyManifest} {e : ExpandedManifest} {desired : RoleGraph} {key : WildcardKey}
  {names : BTreeSet String} {inventory : Inventory}
  (h : RuledScope m e desired key names inventory)

namespace RuledScope

include h

theorem ne_wildcardName {name : String} (hname : name ∈ names) : name ≠ wildcardName := by
  rintro rfl
  exact h.objects hname

theorem not_isWildcard {name : String} (hname : name ∈ names) :
    (wildcardTarget key name).isWildcard = false := by
  rw [← Bool.not_eq_true, isWildcard_wildcardTarget]
  exact h.ne_wildcardName hname

theorem isPublic_eq_false (name : String) : (wildcardTarget key name).role.isPublic = false := by
  simp [wildcardTarget, Grantee.parse, h.ordinary, Grantee.isPublic]

/-- Acceptance keeps what is asserted absent apart from what is declared present. -/
theorem present_of_absent {name : String} (hname : name ∈ names) {p : Privilege}
    (hp : p ∈ assertedAbsent desired key name) :
    p ∉ namedPresent desired key name ∧ p ∉ wildcardPresent desired key := by
  have hne := h.ne_wildcardName hname
  rcases Finset.mem_union.1 hp with hp | hp
  · refine ⟨fun hpresent => not_absent_of_present h.accepted h.graph hpresent hp,
      fun hpresent => ?_⟩
    exact not_named_absent_of_wildcard (k := wildcardTarget key name) h.accepted h.graph rfl rfl
      hne hpresent hp
  · refine ⟨fun hpresent => ?_,
      fun hpresent => not_absent_of_present h.accepted h.graph hpresent hp⟩
    exact not_wildcard_absent_of_named (k := wildcardTarget key name) h.accepted h.graph rfl rfl
      hne hpresent hp

end RuledScope

end Scope

/-! ## The inspected scope -/

/-- The graph is what inspection reads of a scope that holds `db`, with the shared privileges under
the wildcard. Beyond the scope it records nothing the plan for the scope depends on. -/
structure InspectedAs (current desired : RoleGraph) (key : WildcardKey) (names : BTreeSet String)
    (db : ScopeState) (shared : Finset Privilege) : Prop where
  shared_iff : ∀ p, p ∈ shared ↔ isWildcardType key.2.1 = true ∧
    p ∈ wildcardPresent desired key ∧ ∀ name ∈ names, p ∈ db name
  object : ∀ name ∈ names, ∀ p,
    p ∈ entryAt current.grants (wildcardTarget key name) ↔ p ∈ db name ∧ p ∉ shared
  wildcard : entryAt current.grants (wildcardTarget key wildcardName) = shared
  targets : ∀ k p, InWildcardScope key k → p ∈ entryAt current.grants k →
    ∃ name, (name = wildcardName ∨ name ∈ names) ∧ k = wildcardTarget key name
  no_empty : ∀ k, InWildcardScope key k → current.grants[k]? ≠ some ∅
  recorded : ∀ k p, recordedEntries current k p ≠ [] →
    ∃ name ∈ names, k = wildcardTarget key name ∧ p ∈ db name
  no_inherent : current.inherentGrants = ∅
  no_schemas : current.schemas = ∅
  no_aliases : current.routineAliases = ∅

section Scope

variable {m : PolicyManifest} {e : ExpandedManifest} {desired : RoleGraph} {key : WildcardKey}
  {names : BTreeSet String} {inventory : Inventory}

/-- The privileges inspection moves to the wildcard: those of a wildcard rule that every object
holds. -/
theorem RuledScope.exists_shared (h : RuledScope m e desired key names inventory)
    (includeDatabase : Bool) (db : ScopeState) :
    ∃ shared : Finset Privilege,
      (∀ p, p ∈ shared ↔ isWildcardType key.2.1 = true ∧ p ∈ wildcardPresent desired key ∧
        ∀ name ∈ names, p ∈ db name) ∧
      NormalizedScope key shared (rawGrants key names db)
        (normalizeWildcardGrants (rawGrants key names db) inventory
          (InspectConfig.fromExpanded e includeDatabase).wildcardGrants) := by
  by_cases hpattern : ∃ pattern ∈ (InspectConfig.fromExpanded e includeDatabase).wildcardGrants,
      pattern.key = key
  · have htype := ((exists_pattern_iff h.graph).1 hpattern).1
    obtain ⟨pattern, hmem, rfl⟩ := hpattern
    refine ⟨_, fun p => ?_, normalizedScope_of_pattern rawScope_rawGrants h.objects
      (nodup_key_wildcardPatterns _) hmem rfl h.inventory h.nonempty⟩
    rw [mem_sharedPrivileges, privileges_of_pattern h.graph hmem, and_iff_right htype]
    refine and_congr_right fun _ => forall_congr' fun name => ?_
    rw [ExtTreeSet.mem_toList]
    refine forall_congr' fun hname => ?_
    rw [mem_entryAt_rawGrants]
    constructor
    · rintro ⟨name', -, heq, hp⟩
      rwa [wildcardTarget_inj.1 heq]
    · intro hp
      exact ⟨name, hname, rfl, hp⟩
  · refine ⟨∅, fun p => ?_, normalizedScope_of_no_pattern rawScope_rawGrants h.objects
      fun pattern hmem hkey => hpattern ⟨pattern, hmem, hkey⟩⟩
    simp only [Finset.notMem_empty, false_iff]
    rintro ⟨htype, hpresent, -⟩
    refine hpattern ((exists_pattern_iff h.graph).2 ⟨htype, ?_⟩)
    rw [getElem?_of_mem_entryAt hpresent]
    rfl

theorem RuledScope.inspectedAs (h : RuledScope m e desired key names inventory)
    (includeDatabase : Bool) (grantor : Option String) (db : ScopeState) :
    ∃ shared, InspectedAs (inspectedScope key names inventory
      (InspectConfig.fromExpanded e includeDatabase).wildcardGrants grantor db) desired key names
      db shared := by
  obtain ⟨shared, hshared, hnormal⟩ := h.exists_shared includeDatabase db
  refine ⟨shared, ?_⟩
  constructor
  · exact hshared
  · intro name hname p
    have hne : wildcardTarget key name ≠ wildcardTarget key wildcardName := fun heq =>
      h.ne_wildcardName hname (wildcardTarget_inj.1 heq)
    have hentry := hnormal.entries _ p (inWildcardScope_target key name)
    rw [if_neg hne, mem_entryAt_rawGrants] at hentry
    refine hentry.trans (and_congr_left fun _ => ?_)
    constructor
    · rintro ⟨name', -, heq, hp⟩
      rwa [wildcardTarget_inj.1 heq]
    · intro hp
      exact ⟨name, hname, rfl, hp⟩
  · ext p
    have hentry := hnormal.entries _ p (inWildcardScope_target key wildcardName)
    rwa [if_pos rfl] at hentry
  · intro k p hk hp
    have hentry := (hnormal.entries k p hk).1 hp
    split at hentry
    · next heq => exact ⟨wildcardName, Or.inl rfl, heq⟩
    · obtain ⟨name, hname, heq, -⟩ := mem_entryAt_rawGrants.1 hentry.1
      exact ⟨name, Or.inr hname, heq⟩
  · exact hnormal.no_empty
  · intro k p hrecorded
    exact holds_of_recordedEntries hrecorded
  · rfl
  · rfl
  · rfl

end Scope

/-! ## The plan for a scope -/

section Plan

variable {m : PolicyManifest} {e : ExpandedManifest} {current desired : RoleGraph}
  {key : WildcardKey} {names : BTreeSet String} {inventory : Inventory} {db : ScopeState}
  {shared : Finset Privilege} {name : String} {p : Privilege}
  (h : RuledScope m e desired key names inventory)
  (hc : InspectedAs current desired key names db shared)

include h hc

omit h in
theorem InspectedAs.diff_eq : diff current desired = diffResolved current desired := by
  rw [diff, hc.no_aliases]
  rfl

omit h in
theorem InspectedAs.not_inherent (k : GrantKey) : k ∉ current.inherentGrants := by
  rw [hc.no_inherent]
  exact ExtTreeSet.not_mem_empty

omit h in
/-- A privilege held in the scope is held on an object, or shared under the wildcard. -/
theorem held_cases {k : GrantKey} (hk : InWildcardScope key k) (hp : p ∈ entryAt current.grants k) :
    (k = wildcardTarget key wildcardName ∧ p ∈ shared) ∨
      ∃ name ∈ names, k = wildcardTarget key name ∧ p ∈ db name := by
  obtain ⟨name, hname, rfl⟩ := hc.targets k p hk hp
  rcases hname with rfl | hname
  · rw [hc.wildcard] at hp
    exact Or.inl ⟨rfl, hp⟩
  · exact Or.inr ⟨name, hname, rfl, ((hc.object name hname p).1 hp).1⟩

/-- What is accumulated to revoke on an object is held there and not declared. -/
theorem of_accumulated_object (hname : name ∈ names)
    (hp : p ∈ entryAt (accumulatedRevokes current desired) (wildcardTarget key name)) :
    p ∈ db name ∧ p ∉ namedPresent desired key name ∧ p ∉ wildcardPresent desired key := by
  have hconcrete := h.not_isWildcard hname
  rcases mem_accumulatedRevokes.1 hp with ⟨-, -, hshadow⟩ | ⟨habsent, hheld⟩
  · obtain ⟨hexcess, hwild, -⟩ := (mem_shadowFilter hconcrete).1 hshadow
    obtain ⟨hheld, hnamed⟩ := Finset.mem_sdiff.1 hexcess
    exact ⟨((hc.object name hname p).1 hheld).1, hnamed, hwild⟩
  · have hheld := ((mem_heldForAbsence_of_concrete hconcrete).1 hheld).2
    exact ⟨((hc.object name hname p).1 hheld).1,
      h.present_of_absent hname (Finset.mem_union_left _ habsent)⟩

/-- What is accumulated to revoke on the wildcard is asserted absent there and held on an object. -/
theorem of_accumulated_wildcard
    (hp : p ∈ entryAt (accumulatedRevokes current desired) (wildcardTarget key wildcardName)) :
    p ∈ entryAt desired.grantAbsences (wildcardTarget key wildcardName) ∧
      ∃ name ∈ names, p ∈ db name ∧ p ∈ entryAt current.grants (wildcardTarget key name) := by
  have hwild : (wildcardTarget key wildcardName).isWildcard = true :=
    isWildcard_wildcardTarget.2 rfl
  have hpresent : ∀ q ∈ shared, q ∈ wildcardPresent desired key := fun q hq =>
    ((hc.shared_iff q).1 hq).2.1
  rcases mem_accumulatedRevokes.1 hp with ⟨-, -, hshadow⟩ | ⟨habsent, hheld⟩
  · -- A wildcard entry holds only what the wildcard rule declares.
    obtain ⟨hheld, hnot⟩ := Finset.mem_sdiff.1 (shadowFilter_subset hshadow)
    rw [hc.wildcard] at hheld
    exact absurd (hpresent p hheld) hnot
  · obtain ⟨a, hscope, -, hheld⟩ := (mem_heldForAbsence_of_wildcard hwild).1 hheld
    have ha : InWildcardScope key a := GrantKey.sameScope_iff.1 hscope
    refine ⟨habsent, ?_⟩
    rcases held_cases hc ha hheld with ⟨-, hshared⟩ | ⟨name, hname, rfl, hdb⟩
    · exact absurd habsent (not_absent_of_present h.accepted h.graph (hpresent p hshared))
    · exact ⟨name, hname, hdb, hheld⟩

/-- A plan revokes from an object exactly what is held there and not declared. -/
theorem revokes_object_iff (hname : name ∈ names) :
    Revokes (revokeChanges current desired) (wildcardTarget key name) p ↔
      p ∈ db name ∧ p ∉ namedPresent desired key name ∧ p ∉ wildcardPresent desired key := by
  have hconcrete := h.not_isWildcard hname
  constructor
  · intro hrevokes
    rcases (revokes_revokeChanges hconcrete).1 hrevokes with hacc | ⟨-, hacc, htarget⟩
    · exact of_accumulated_object h hc hname hacc
    · rw [wildcard_wildcardTarget] at hacc htarget
      have habsent := (of_accumulated_wildcard h hc hacc).1
      refine ⟨?_, h.present_of_absent hname (Finset.mem_union_right _ habsent)⟩
      rcases (mem_concreteTargets.1 htarget).2.2 with hrecorded | hheld
      · obtain ⟨name', -, heq, hp⟩ := hc.recorded _ p hrecorded
        rwa [wildcardTarget_inj.1 heq]
      · exact ((hc.object name hname p).1 hheld).1
  · rintro ⟨hdb, hnamed, hwild⟩
    have hheld : p ∈ entryAt current.grants (wildcardTarget key name) :=
      (hc.object name hname p).2 ⟨hdb, fun hshared => hwild ((hc.shared_iff p).1 hshared).2.1⟩
    have hundeclared : ¬ Declares desired (wildcardTarget key name) p := by
      rintro (hp | ⟨-, hp⟩)
      · exact hnamed hp
      · exact hwild hp
    have hcleared := privilegeCleared_plannedRevokes (h.isPublic_eq_false name)
      (hc.not_inherent _) hheld hundeclared
    rw [PrivilegeCleared, if_neg (by simp [expandsWildcard, hconcrete])] at hcleared
    rcases hcleared with ⟨-, _, -, htransfer⟩ | hsub
    · obtain ⟨_, _, -, ⟨-, heq⟩ | ⟨t, o, ht, -⟩⟩ := mem_schemaChanges.1 htransfer
      · cases heq
      · simp [hc.no_schemas] at ht
    · obtain ⟨g, hg⟩ := List.exists_mem_of_ne_nil _ targetGrantors_ne_nil
      obtain ⟨s, hs, hp⟩ := mem_revokeGrantors.1 (hsub hg)
      exact ⟨s, g, (List.mem_filter.1 hs).1, hp⟩

/-- Every revoke of a plan in the scope is of a privilege held somewhere and not declared there. -/
theorem exists_undeclared_of_revoke {k : GrantKey} {s : Finset Privilege} {g : Option String}
    (hk : InWildcardScope key k) (hrevoke : .revoke k s g ∈ revokeChanges current desired) :
    ∃ name ∈ names, ∃ p ∈ db name, p ∉ namedPresent desired key name ∧
      p ∉ wildcardPresent desired key := by
  obtain ⟨w, t, hw, hmem⟩ := mem_flatMap_toList.1 hrevoke
  have hscope : InWildcardScope key w := by
    obtain ⟨a, _, _, heq, -, ⟨-, rfl⟩ | ⟨-, hsame, -⟩⟩ := mem_pushRevokesSplitByGrantor hmem
    · cases heq
      exact hk
    · cases heq
      obtain ⟨hrole, htype, hschema⟩ := GrantKey.sameScope_iff.1 hsame
      exact ⟨hrole ▸ hk.1, htype ▸ hk.2.1, hschema ▸ hk.2.2⟩
  obtain ⟨p, hp⟩ := Finset.nonempty_iff_ne_empty.2 (accumulatedRevokes_nonempty hw)
  have hacc : p ∈ entryAt (accumulatedRevokes current desired) w := by
    rwa [entryAt_of_getElem? hw]
  by_cases hwild : w.isWildcard = true
  · have heq : w = wildcardTarget key wildcardName := by
      obtain ⟨hrole, htype, hschema⟩ := hscope
      rw [wildcardTarget, ← hrole, ← htype, ← hschema]
      have hn : w.name = some wildcardName := by simpa [GrantKey.isWildcard] using hwild
      cases w
      simp_all
    rw [heq] at hacc
    obtain ⟨habsent, name, hname, hdb, -⟩ := of_accumulated_wildcard h hc hacc
    exact ⟨name, hname, p, hdb, h.present_of_absent hname (Finset.mem_union_right _ habsent)⟩
  · have hheld : p ∈ entryAt current.grants w := by
      have hconcrete : w.isWildcard = false := by simpa using hwild
      rcases mem_accumulatedRevokes.1 hacc with ⟨-, -, hshadow⟩ | ⟨-, hheld⟩
      · exact (Finset.mem_sdiff.1 (shadowFilter_subset hshadow)).1
      · exact ((mem_heldForAbsence_of_concrete hconcrete).1 hheld).2
    rcases held_cases hc hscope hheld with ⟨rfl, -⟩ | ⟨name, hname, rfl, -⟩
    · exact absurd (isWildcard_wildcardTarget.2 rfl) hwild
    · exact ⟨name, hname, p, of_accumulated_object h hc hname hacc⟩

omit h in
/-- The plan grants an object what is declared for it and not recorded for it. -/
theorem grants_object_iff (hname : name ∈ names) :
    (∃ c ∈ grantChanges current desired, ∃ k s, c = .grant k s ∧ actsOn key k name ∧ p ∈ s) ↔
      (p ∈ namedPresent desired key name ∧ ¬ (p ∈ db name ∧ p ∉ shared)) ∨
        (p ∈ wildcardPresent desired key ∧ p ∉ shared) := by
  constructor
  · rintro ⟨c, hmem, k, s, rfl, hacts, hp⟩
    obtain ⟨k', s', hs', -, heq⟩ := mem_grantChanges.1 hmem
    cases heq
    obtain ⟨hdeclared, hmissing⟩ := Finset.mem_sdiff.1 hp
    rw [← entryAt_of_getElem? hs'] at hdeclared
    rcases hacts with rfl | rfl
    · rw [hc.object name hname] at hmissing
      exact Or.inl ⟨hdeclared, hmissing⟩
    · rw [hc.wildcard] at hmissing
      exact Or.inr ⟨hdeclared, hmissing⟩
  · have hgrant : ∀ k, actsOn key k name → p ∈ entryAt desired.grants k →
        p ∉ entryAt current.grants k →
        ∃ c ∈ grantChanges current desired, ∃ k s, c = .grant k s ∧ actsOn key k name ∧ p ∈ s := by
      intro k hacts hdeclared hmissing
      have hp := Finset.mem_sdiff.2 ⟨hdeclared, hmissing⟩
      refine ⟨_, mem_grantChanges.2 ⟨k, _, getElem?_of_mem_entryAt hdeclared, ?_, rfl⟩, k, _, rfl,
        hacts, hp⟩
      exact Or.inr (Finset.ne_empty_of_mem hp)
    rintro (⟨hdeclared, hmissing⟩ | ⟨hdeclared, hmissing⟩)
    · rw [← hc.object name hname] at hmissing
      exact hgrant _ (Or.inl rfl) hdeclared hmissing
    · rw [← hc.wildcard] at hmissing
      exact hgrant _ (Or.inr rfl) hdeclared hmissing

omit h in
/-- The scope's schema has no recorded owner, so no transfer absorbs a revoke. -/
theorem InspectedAs.plannedRevokes_eq :
    plannedRevokes current desired = revokeChanges current desired := by
  apply List.filter_eq_self.2
  intro c _
  cases c with
  | revoke k s g =>
      simp only [revokesIncomingOwner]
      split
      · next name _ _ =>
          rw [Bool.not_eq_true', ← Bool.not_eq_true, List.contains_iff_mem]
          intro htransfer
          obtain ⟨_, _, -, ⟨-, heq⟩ | ⟨t, o, ht, -⟩⟩ := mem_schemaChanges.1 htransfer
          · cases heq
          · simp [hc.no_schemas] at ht
      · rfl
  | _ => rfl

/-- A privilege to revoke is held on an object, so the wildcard is expanded and never revoked
itself. -/
theorem no_wildcard_revoke {s : Finset Privilege} {g : Option String} :
    .revoke (wildcardTarget key wildcardName) s g ∉ revokeChanges current desired := by
  intro hrevoke
  obtain ⟨w, t, hw, hmem⟩ := mem_flatMap_toList.1 hrevoke
  obtain ⟨a, _, _, heq, -, ⟨hexp, rfl⟩ | ⟨-, -, hconcrete, -⟩⟩ :=
    mem_pushRevokesSplitByGrantor hmem
  · cases heq
    obtain ⟨p, hp⟩ := Finset.nonempty_iff_ne_empty.2 (accumulatedRevokes_nonempty hw)
    rw [← entryAt_of_getElem? hw] at hp
    obtain ⟨-, name, hname, -, hheld⟩ := of_accumulated_wildcard h hc hp
    have htarget : p ∈ entryAt (concreteTargets current (wildcardTarget key name).wildcard)
        (wildcardTarget key name) :=
      mem_concreteTargets.2 ⟨GrantKey.sameScope_wildcard, h.not_isWildcard hname, Or.inr hheld⟩
    have hexpands := expandsWildcard_of_mem_concreteTargets htarget
    rw [wildcard_wildcardTarget, hexp] at hexpands
    cases hexpands
  · cases heq
    rw [isWildcard_wildcardTarget.2 rfl] at hconcrete
    cases hconcrete

omit h hc in
/-- Only the grant and the revoke phase of a plan act on a scope. -/
theorem executeScope_diffResolved :
    executeScope key db (diffResolved current desired) =
      (plannedRevokes current desired).foldl (scopeStep key)
        ((grantChanges current desired).foldl (scopeStep key) db) := by
  have hq : ∀ (db : ScopeState) (c : Change),
      (c.phase == .grant || c.phase == .revoke) = false → scopeStep key db c = db := by
    intro db c hphase
    cases c with
    | grant | revoke => cases hphase
    | _ => rfl
  rw [executeScope, foldl_eq_foldl_filter hq,
    filter_phase_diffResolved (fun phase => phase == .grant || phase == .revoke)]
  simp [List.foldl_append]

/-- One run leaves each object with exactly what the rules declare for it. -/
theorem mem_execute_iff (hname : name ∈ names) :
    p ∈ executeScope key db (diff current desired) name ↔
      p ∈ namedPresent desired key name ∨ p ∈ wildcardPresent desired key := by
  rw [hc.diff_eq, executeScope_diffResolved,
    holds_foldl_of_removes (fun db : ScopeState => p ∈ db name)
      (fun c => ∃ k s g, c = .revoke k s g ∧ actsOn key k name ∧ p ∈ s),
    holds_foldl_of_adds (fun db : ScopeState => p ∈ db name)
      (fun c => ∃ k s, c = .grant k s ∧ actsOn key k name ∧ p ∈ s), grants_object_iff hc hname]
  · have hrevoked : (∀ c ∈ plannedRevokes current desired,
        ¬ ∃ k s g, c = .revoke k s g ∧ actsOn key k name ∧ p ∈ s) ↔
        ¬ Revokes (revokeChanges current desired) (wildcardTarget key name) p := by
      rw [hc.plannedRevokes_eq]
      constructor
      · rintro hnone ⟨s, g, hmem, hp⟩
        exact hnone _ hmem ⟨_, s, g, rfl, Or.inl rfl, hp⟩
      · rintro hnot c hmem ⟨k, s, g, rfl, rfl | rfl, hp⟩
        · exact hnot ⟨s, g, hmem, hp⟩
        · exact no_wildcard_revoke h hc hmem
    rw [hrevoked, revokes_object_iff h hc hname]
    have hshared := hc.shared_iff p
    by_cases hs : p ∈ shared
    · have hdb := (hshared.1 hs).2.2 name hname
      have hwild := (hshared.1 hs).2.1
      simp [hs, hdb, hwild]
    · by_cases hdb : p ∈ db name
      · simp only [hs, hdb]
        tauto
      · simp only [hs, hdb]
        tauto
  · intro db c hmem
    obtain ⟨k, s, -, -, rfl⟩ := mem_grantChanges.1 hmem
    by_cases hacts : actsOn key k name <;> simp [scopeStep, hacts]
  · intro db c hmem
    have hphase := phase_of_mem_plannedRevokes hmem
    cases c with
    | revoke k s g => by_cases hacts : actsOn key k name <;> simp [scopeStep, hacts]
    | _ => cases hphase

end Plan

/-! ## The next plan -/

/-- The rules of a scope stand apart: none declares nothing, a wildcard is one inspection compacts,
and no named rule shares a privilege with it. -/
structure RulesApart (desired : RoleGraph) (key : WildcardKey) (names : BTreeSet String) :
    Prop where
  nonempty : ∀ k, InWildcardScope key k → desired.grants[k]? ≠ some ∅
  compacted : desired.grants[wildcardTarget key wildcardName]?.isSome →
    isWildcardType key.2.1 = true
  disjoint : ∀ name ∈ names,
    Disjoint (namedPresent desired key name) (wildcardPresent desired key)

/-- After a run each object holds what the rules declare for it and nothing else, and the next plan
leaves the scope alone. -/
structure ScopeConverged (desired : RoleGraph) (key : WildcardKey) (names : BTreeSet String)
    (after : ScopeState) (replan : List Change) : Prop where
  present : ∀ name ∈ names, ∀ p,
    p ∈ namedPresent desired key name ∨ p ∈ wildcardPresent desired key → p ∈ after name
  absent : ∀ name ∈ names, ∀ p ∈ assertedAbsent desired key name, p ∉ after name
  nothing_else : ∀ name ∈ names, ∀ p ∈ after name,
    p ∈ namedPresent desired key name ∨ p ∈ wildcardPresent desired key
  settled : ∀ c ∈ replan, ¬ TouchesScope key c

section Replan

variable {m : PolicyManifest} {e : ExpandedManifest} {current desired : RoleGraph}
  {key : WildcardKey} {names : BTreeSet String} {inventory : Inventory} {db : ScopeState}
  {shared : Finset Privilege}
  (h : RuledScope m e desired key names inventory)
  (hc : InspectedAs current desired key names db shared)
  (hdb : ∀ name ∈ names, ∀ p, p ∈ db name ↔
    p ∈ namedPresent desired key name ∨ p ∈ wildcardPresent desired key)

include hc hdb

/-- Once every object holds what is declared, inspection moves all of a wildcard rule. -/
theorem mem_shared_iff {p : Privilege} :
    p ∈ shared ↔ isWildcardType key.2.1 = true ∧ p ∈ wildcardPresent desired key := by
  rw [hc.shared_iff]
  constructor
  · rintro ⟨htype, hwild, -⟩
    exact ⟨htype, hwild⟩
  · rintro ⟨htype, hwild⟩
    exact ⟨htype, hwild, fun name hname => (hdb name hname p).2 (Or.inr hwild)⟩

omit hdb in
/-- A rule of a scope whose privileges the graph does not record is granted. -/
theorem grant_of_unrecorded {k : GrantKey} {s : Finset Privilege} (hk : InWildcardScope key k)
    (hs : desired.grants[k]? = some s)
    (hmissing : entryAt current.grants k = ∅ ∨ ¬ s ⊆ entryAt current.grants k) :
    ∃ c ∈ diff current desired, TouchesScope key c := by
  rw [hc.diff_eq]
  have hgrant : .grant k (s \ entryAt current.grants k) ∈ grantChanges current desired := by
    refine mem_grantChanges.2 ⟨k, s, hs, ?_, rfl⟩
    rcases hmissing with hempty | hnot
    · exact Or.inl (getElem?_eq_none_of_entryAt (hc.no_empty k hk) hempty)
    · exact Or.inr fun hsub => hnot (Finset.sdiff_eq_empty_iff_subset.1 hsub)
  refine ⟨.grant k (s \ entryAt current.grants k), ?_, hk⟩
  simp only [diffResolved, List.mem_append]
  tauto

include h

/-- Once every object holds what is declared, nothing is revoked. -/
theorem no_revoke {k : GrantKey} {s : Finset Privilege} {g : Option String}
    (hk : InWildcardScope key k) : .revoke k s g ∉ diff current desired := by
  rw [hc.diff_eq]
  intro hmem
  have hplanned := mem_plannedRevokes_of_revoke hmem
  rw [hc.plannedRevokes_eq] at hplanned
  obtain ⟨name, hname, p, hp, hnamed, hwild⟩ := exists_undeclared_of_revoke h hc hk hplanned
  rcases (hdb name hname p).1 hp with hp | hp
  · exact hnamed hp
  · exact hwild hp

/-- Rules that stand apart are recorded as they are declared, so nothing is granted again. -/
theorem no_grant (hapart : RulesApart desired key names) {k : GrantKey} {s : Finset Privilege}
    (hk : InWildcardScope key k) : .grant k s ∉ diff current desired := by
  rw [hc.diff_eq]
  intro hmem
  have hbucket := mem_bucket_of_mem_diffResolved hmem
  rw [filter_phase_diffResolved (· == _)] at hbucket
  have hgrant : .grant k s ∈ grantChanges current desired := by
    simpa [Change.phase] using hbucket
  obtain ⟨k', declared, hdeclared, hmissing, heq⟩ := mem_grantChanges.1 hgrant
  cases heq
  -- The declared privileges are recorded under the key that declares them.
  have hrecorded : declared ⊆ entryAt current.grants k := by
    obtain ⟨name, hname, rfl⟩ := h.named k hk (by rw [hdeclared]; rfl)
    intro p hp
    rw [← entryAt_of_getElem? hdeclared] at hp
    rcases hname with rfl | hname
    · rw [hc.wildcard, mem_shared_iff hc hdb]
      exact ⟨hapart.compacted (by rw [hdeclared]; rfl), hp⟩
    · refine (hc.object name hname p).2 ⟨(hdb name hname p).2 (Or.inl hp), fun hshared => ?_⟩
      have hwild := ((mem_shared_iff hc hdb).1 hshared).2
      exact Finset.disjoint_left.1 (hapart.disjoint name hname) hp hwild
  rcases hmissing with hnone | hne
  · have hempty := entryAt_of_getElem?_none hnone
    rw [hempty, Finset.subset_empty] at hrecorded
    rw [hrecorded] at hdeclared
    exact hapart.nonempty k hk hdeclared
  · exact hne (Finset.sdiff_eq_empty_iff_subset.2 hrecorded)

/-- Rules that do not stand apart are granted again. -/
theorem apart_of_no_grant (hnone : ∀ c ∈ diff current desired, ¬ TouchesScope key c) :
    RulesApart desired key names := by
  have hgrant : ∀ (k : GrantKey) (s : Finset Privilege), InWildcardScope key k →
      desired.grants[k]? = some s →
      ¬ (entryAt current.grants k = ∅ ∨ ¬ s ⊆ entryAt current.grants k) := by
    intro k s hk hs hmissing
    obtain ⟨c, hmem, htouches⟩ := grant_of_unrecorded hc hk hs hmissing
    exact hnone c hmem htouches
  have hcompacted : desired.grants[wildcardTarget key wildcardName]?.isSome →
      isWildcardType key.2.1 = true := by
    intro hsome
    obtain ⟨s, hs⟩ := Option.isSome_iff_exists.1 hsome
    have hrecorded := hgrant _ s (inWildcardScope_target key wildcardName) hs
    rw [hc.wildcard] at hrecorded
    obtain ⟨p, hp⟩ := Finset.nonempty_iff_ne_empty.2 fun hempty => hrecorded (Or.inl hempty)
    exact ((mem_shared_iff hc hdb).1 hp).1
  have hwildcard : ∀ p ∈ wildcardPresent desired key, p ∈ shared := by
    intro p hp
    refine (mem_shared_iff hc hdb).2 ⟨hcompacted ?_, hp⟩
    rw [getElem?_of_mem_entryAt hp]
    rfl
  constructor
  · intro k hk hempty
    obtain ⟨name, hname, rfl⟩ := h.named k hk (by rw [hempty]; rfl)
    refine hgrant _ ∅ hk hempty (Or.inl ?_)
    have hnone : entryAt desired.grants (wildcardTarget key name) = ∅ :=
      entryAt_of_getElem? hempty
    refine Finset.eq_empty_of_forall_notMem fun p hp => ?_
    rcases hname with rfl | hname
    · rw [hc.wildcard] at hp
      have hpresent := ((mem_shared_iff hc hdb).1 hp).2
      rw [wildcardPresent, hnone] at hpresent
      exact Finset.notMem_empty p hpresent
    · obtain ⟨hheld, hnot⟩ := (hc.object name hname p).1 hp
      rcases (hdb name hname p).1 hheld with hp | hp
      · rw [namedPresent, hnone] at hp
        exact Finset.notMem_empty p hp
      · exact hnot (hwildcard p hp)
  · exact hcompacted
  · intro name hname
    rw [Finset.disjoint_left]
    intro p hnamed hwild
    refine hgrant _ _ (inWildcardScope_target key name) (getElem?_of_mem_entryAt hnamed)
      (Or.inr fun hsub => ?_)
    exact ((hc.object name hname p).1 (hsub hnamed)).2 (hwildcard p hwild)

/-- The state after a run is converged exactly when the rules stand apart. -/
theorem scopeConverged_iff :
    ScopeConverged desired key names db (diff current desired) ↔ RulesApart desired key names := by
  constructor
  · intro hconverged
    exact apart_of_no_grant h hc hdb hconverged.settled
  · intro hapart
    constructor
    · intro name hname p hp
      exact (hdb name hname p).2 hp
    · intro name hname p habsent hp
      obtain ⟨hnamed, hwild⟩ := h.present_of_absent hname habsent
      rcases (hdb name hname p).1 hp with hp | hp
      · exact hnamed hp
      · exact hwild hp
    · intro name hname p hp
      exact (hdb name hname p).1 hp
    · intro c hmem htouches
      cases c with
      | grant k s => exact no_grant h hc hdb hapart htouches hmem
      | revoke k s g => exact no_revoke h hc hdb htouches hmem
      | _ => exact htouches

end Replan

/-- One run on any state of a scope converges exactly when the rules of the scope stand apart. -/
theorem wildcard_converges_iff {m : PolicyManifest} {e : ExpandedManifest} {desired : RoleGraph}
    {key : WildcardKey} {names : BTreeSet String} {inventory : Inventory}
    (h : RuledScope m e desired key names inventory) (includeDatabase : Bool)
    (grantor : Option String) (db : ScopeState) :
    ScopeConverged desired key names
        (executeScope key db (diff (inspectedScope key names inventory
          (InspectConfig.fromExpanded e includeDatabase).wildcardGrants grantor db) desired))
        (diff (inspectedScope key names inventory
          (InspectConfig.fromExpanded e includeDatabase).wildcardGrants grantor
            (executeScope key db (diff (inspectedScope key names inventory
              (InspectConfig.fromExpanded e includeDatabase).wildcardGrants grantor db)
              desired))) desired) ↔
      RulesApart desired key names := by
  obtain ⟨_, hbefore⟩ := h.inspectedAs includeDatabase grantor db
  obtain ⟨_, hafter⟩ := h.inspectedAs includeDatabase grantor
    (executeScope key db (diff (inspectedScope key names inventory
      (InspectConfig.fromExpanded e includeDatabase).wildcardGrants grantor db) desired))
  exact scopeConverged_iff h hafter fun _ hname _ => mem_execute_iff h hbefore hname

/-! ## A named rule beside a wildcard -/

/-- `reader` may read every table of `app`, and has a named rule on `orders`. -/
def readerManifest (named : List Privilege) : PolicyManifest :=
  { roles := [{ name := "reader" }]
    grants := [⟨"reader", [.select], ⟨.table, some "app", some "*"⟩, .present⟩,
      ⟨"reader", named, ⟨.table, some "app", some "orders"⟩, .present⟩] }

/-- What that manifest expands to. -/
def readerExpanded (named : List Privilege) : ExpandedManifest :=
  { roles := (readerManifest named).roles, grants := (readerManifest named).grants }

/-- The scope of the wildcard. -/
def readerScope : WildcardKey := ("reader", .table, "app")

/-- The graph of that manifest. -/
def readerDesired (named : List Privilege) : RoleGraph :=
  { roles := ExtTreeMap.ofList [("reader", {})] compare
    grants := extendEntries ∅ [(wildcardTarget readerScope "*", {.select}),
      (wildcardTarget readerScope "orders", named.toFinset)] }

/-- The tables of the schema. -/
def readerTables : BTreeSet String := ExtTreeSet.ofList ["orders"] compare

/-- The inventory of a schema with one table. -/
def readerInventory : Inventory := ExtTreeMap.ofList [((.table, "app"), readerTables)] compare

theorem readerScope_ruled {named : List Privilege}
    (haccepted : expandManifest (readerManifest named) = .ok (readerExpanded named)) :
    RuledScope (readerManifest named) (readerExpanded named) (readerDesired named) readerScope
      readerTables readerInventory where
  accepted := haccepted
  graph := rfl
  ordinary := by decide
  inventory := by decide +kernel
  nonempty := by decide +kernel
  objects := by decide +kernel
  named k _ hsome := by
    have hgraph : RoleGraph.fromExpanded (readerExpanded named) none =
      .ok (readerDesired named) := rfl
    obtain ⟨grant, hgrant, -, rfl⟩ := (isSome_grants hgraph).1 hsome
    simp only [readerExpanded, readerManifest, List.mem_cons, List.not_mem_nil, or_false] at hgrant
    rcases hgrant with rfl | rfl
    · exact ⟨"*", Or.inl rfl, rfl⟩
    · exact ⟨"orders", Or.inr (by decide +kernel), rfl⟩

theorem reader_rulesApart : RulesApart (readerDesired [.insert]) readerScope readerTables where
  nonempty k _ hempty := by
    have hmem := mem_toList_iff.2 hempty
    have hlist : (readerDesired [.insert]).grants.toList =
        [(wildcardTarget readerScope "*", {.select}),
          (wildcardTarget readerScope "orders", {.insert})] := by
      decide +kernel
    rw [hlist] at hmem
    simp at hmem
  compacted _ := rfl
  disjoint name hname := by
    have hmem := ExtTreeSet.mem_toList.2 hname
    have hlist : readerTables.toList = ["orders"] := by decide +kernel
    rw [hlist, List.mem_singleton] at hmem
    rw [hmem]
    decide +kernel

/-- A named rule for another privilege converges beside the wildcard. -/
theorem reader_converges :
    ScopeConverged (readerDesired [.insert]) readerScope readerTables
      (executeScope readerScope (fun _ => ∅) (diff (inspectedScope readerScope readerTables
        readerInventory (InspectConfig.fromExpanded (readerExpanded [.insert]) false).wildcardGrants
        none fun _ => ∅) (readerDesired [.insert])))
      (diff (inspectedScope readerScope readerTables readerInventory
        (InspectConfig.fromExpanded (readerExpanded [.insert]) false).wildcardGrants none
          (executeScope readerScope (fun _ => ∅) (diff (inspectedScope readerScope readerTables
            readerInventory
            (InspectConfig.fromExpanded (readerExpanded [.insert]) false).wildcardGrants
            none fun _ => ∅) (readerDesired [.insert])))) (readerDesired [.insert])) :=
  (wildcard_converges_iff (readerScope_ruled (by decide +kernel)) false none fun _ => ∅).2
    reader_rulesApart

/-- A named rule that shares the wildcard's privilege is granted again after every run. -/
theorem reader_regrants :
    RuledScope (readerManifest [.select]) (readerExpanded [.select]) (readerDesired [.select])
        readerScope readerTables readerInventory ∧
      ¬ ScopeConverged (readerDesired [.select]) readerScope readerTables
        (executeScope readerScope (fun _ => ∅) (diff (inspectedScope readerScope readerTables
          readerInventory
          (InspectConfig.fromExpanded (readerExpanded [.select]) false).wildcardGrants
          none fun _ => ∅) (readerDesired [.select])))
        (diff (inspectedScope readerScope readerTables readerInventory
          (InspectConfig.fromExpanded (readerExpanded [.select]) false).wildcardGrants none
            (executeScope readerScope (fun _ => ∅) (diff (inspectedScope readerScope readerTables
              readerInventory
              (InspectConfig.fromExpanded (readerExpanded [.select]) false).wildcardGrants
              none fun _ => ∅) (readerDesired [.select])))) (readerDesired [.select])) := by
  refine ⟨readerScope_ruled (by decide +kernel), fun hconverged => ?_⟩
  refine hconverged.settled (.grant (wildcardTarget readerScope "orders") {.select}) ?_
    (inWildcardScope_target _ _)
  decide +kernel

end PgRoles.Semantics

import PgRoles.Core.Expand

/-!
# What an accepted manifest expands to

The desired graph of an expanded manifest has an entry for each declaration and no other. The
declarations of an accepted manifest do not contradict each other: what a grant declares present, no
grant of the same target asserts absent, nor does a named grant contradict a wildcard.
-/

set_option autoImplicit false

namespace PgRoles.Core

open Std PgRoles.Lib

variable {e : ExpandedManifest} {defaultOwner : Option String} {g : RoleGraph}

/-- The default-privilege entries are the only part of a graph whose reading can fail. -/
theorem of_fromExpanded_eq_ok (h : RoleGraph.fromExpanded e defaultOwner = .ok g) :
    ∃ entries, e.defaultPrivileges.mapM (defaultPrivilegeEntries defaultOwner) = .ok entries ∧
      g = {
        roles := ExtTreeMap.ofList (e.roles.map fun d => (d.name, .fromDefinition d)) compare
        schemas := ExtTreeMap.ofList (e.schemas.map fun s =>
          (s.name, ⟨s.owner, s.owner.elim ∅ defaultSchemaOwnerPrivileges⟩)) compare
        grants := extendEntries ∅ (grantEntries .present e.grants)
        grantAbsences := extendEntries ∅ (grantEntries .absent e.grants)
        defaultPrivileges := extendEntries ∅ (entriesWith .present entries.flatten)
        defaultPrivilegeAbsences := extendEntries ∅ (entriesWith .absent entries.flatten)
        memberships := ExtTreeSet.ofList (membershipEdges e.memberships) compare
        exclusiveMembershipRoles :=
          ExtTreeSet.ofList ((e.memberships.filter (·.exclusive)).map (·.role)) compare } := by
  obtain ⟨entries, hentries, hg⟩ := bind_eq_ok.1 h
  exact ⟨entries, hentries, (Except.ok.inj hg).symm⟩

/-- Every declared role is a role of the graph. -/
theorem mem_roles_of_declared (h : RoleGraph.fromExpanded e defaultOwner = .ok g)
    {d : RoleDefinition} (hd : d ∈ e.roles) : d.name ∈ g.roles := by
  obtain ⟨entries, -, rfl⟩ := of_fromExpanded_eq_ok h
  obtain ⟨s, hs⟩ := exists_getElem?_ofList (List.mem_map.2 ⟨d, hd, rfl⟩ :
    (d.name, RoleState.fromDefinition d) ∈ e.roles.map fun d => (d.name, .fromDefinition d))
  exact mem_iff_exists_getElem?.2 ⟨s, hs⟩

/-! ## Declared grants -/

theorem mem_entryAt_grantEntries {ensure : Ensure} {grants : List Grant} {k : GrantKey}
    {p : Privilege} :
    p ∈ entryAt (extendEntries ∅ (grantEntries ensure grants)) k ↔
      ∃ grant ∈ grants, grant.ensure = ensure ∧ grantKeyFromManifest grant = k ∧
        p ∈ grant.privileges := by
  rw [mem_entryAt_extendEntries]
  constructor
  · rintro (h | ⟨s, hs, hp⟩)
    · simp [entryAt] at h
    · obtain ⟨grant, hgrant, heq⟩ := List.mem_map.1 hs
      obtain ⟨rfl, rfl⟩ := Prod.mk.inj heq
      obtain ⟨hmem, hensure⟩ := List.mem_filter.1 hgrant
      exact ⟨grant, hmem, by simpa using hensure, rfl, List.mem_toFinset.1 hp⟩
  · rintro ⟨grant, hmem, hensure, rfl, hp⟩
    refine Or.inr ⟨grant.privileges.toFinset, List.mem_map.2 ⟨grant, ?_, rfl⟩,
      List.mem_toFinset.2 hp⟩
    exact List.mem_filter.2 ⟨hmem, by simpa using hensure⟩

/-- The grants declared present under a key. -/
theorem mem_entryAt_grants (h : RoleGraph.fromExpanded e defaultOwner = .ok g) {k : GrantKey}
    {p : Privilege} :
    p ∈ entryAt g.grants k ↔
      ∃ grant ∈ e.grants, grant.ensure = .present ∧ grantKeyFromManifest grant = k ∧
        p ∈ grant.privileges := by
  obtain ⟨entries, -, rfl⟩ := of_fromExpanded_eq_ok h
  exact mem_entryAt_grantEntries

/-- The grants asserted absent under a key. -/
theorem mem_entryAt_grantAbsences (h : RoleGraph.fromExpanded e defaultOwner = .ok g)
    {k : GrantKey} {p : Privilege} :
    p ∈ entryAt g.grantAbsences k ↔
      ∃ grant ∈ e.grants, grant.ensure = .absent ∧ grantKeyFromManifest grant = k ∧
        p ∈ grant.privileges := by
  obtain ⟨entries, -, rfl⟩ := of_fromExpanded_eq_ok h
  exact mem_entryAt_grantEntries

/-- A key is declared when a present grant has it, even one of no privileges. -/
theorem isSome_grants (h : RoleGraph.fromExpanded e defaultOwner = .ok g) {k : GrantKey} :
    g.grants[k]?.isSome ↔
      ∃ grant ∈ e.grants, grant.ensure = .present ∧ grantKeyFromManifest grant = k := by
  obtain ⟨entries, -, rfl⟩ := of_fromExpanded_eq_ok h
  rw [isSome_extendEntries]
  constructor
  · rintro (h | ⟨s, hs⟩)
    · simp at h
    · obtain ⟨grant, hgrant, heq⟩ := List.mem_map.1 hs
      obtain ⟨hmem, hensure⟩ := List.mem_filter.1 hgrant
      exact ⟨grant, hmem, by simpa using hensure, (Prod.mk.inj heq).1⟩
  · rintro ⟨grant, hmem, hensure, rfl⟩
    refine Or.inr ⟨_, List.mem_map.2 ⟨grant, List.mem_filter.2 ⟨hmem, ?_⟩, rfl⟩⟩
    simpa using hensure

/-! ## Accepted manifests -/

/-- What acceptance of a manifest checks, in order. -/
theorem of_expandManifest_eq_ok {m : PolicyManifest} (h : expandManifest m = .ok e) :
    ∃ expansions, validateBounds m = .ok () ∧ m.roles.forM validatePredefined = .ok () ∧
      m.memberships.forM (validateExclusive m) = .ok () ∧
      rejectDuplicates .duplicateSchema [] (m.schemas.map (·.name)) = .ok () ∧
      expandBindings m = .ok expansions ∧
      m.defaultPrivileges.forM validateDefaultPrivilegeRoles = .ok () ∧
      validateExpanded m e = .ok () ∧ e = mergeExpansions m expansions := by
  obtain ⟨hbounds, h⟩ := check_bind_eq_ok.1 h
  obtain ⟨hpredefined, h⟩ := check_bind_eq_ok.1 h
  obtain ⟨hexclusive, h⟩ := check_bind_eq_ok.1 h
  obtain ⟨hschemas, h⟩ := check_bind_eq_ok.1 h
  obtain ⟨expansions, hexpansions, h⟩ := bind_eq_ok.1 h
  obtain ⟨hroles, h⟩ := check_bind_eq_ok.1 h
  obtain ⟨hvalid, h⟩ := check_bind_eq_ok.1 h
  have he : mergeExpansions m expansions = e := Except.ok.inj h
  rw [he] at hvalid
  exact ⟨expansions, hbounds, hpredefined, hexclusive, hschemas, hexpansions, hroles, hvalid,
    he.symm⟩

/-- What acceptance checks of an expanded manifest, without its retirements and passwords. -/
structure ExpandedChecks (m : PolicyManifest) (e : ExpandedManifest) : Prop where
  public_reservation : validatePublicReservation m e.roles e.schemas e.defaultPrivileges
    e.memberships = .ok ()
  database_targets : validateDatabaseGrantTargets e.grants = .ok ()
  default_scopes : e.defaultPrivileges.forM validateDefaultPrivilegeScope = .ok ()
  ensure_conflicts : validateEnsureConflicts m.defaultOwner e.grants e.defaultPrivileges = .ok ()
  duplicate_roles : rejectDuplicates .duplicateRole [] (e.roles.map (·.name)) = .ok ()
  config : (e.roles.forM fun role =>
    role.config.toList.forM (validateConfigEntry (e.roles.map (·.name)) e.memberships role)) =
      .ok ()

theorem expandedChecks_of_expandManifest {m : PolicyManifest} (h : expandManifest m = .ok e) :
    ExpandedChecks m e := by
  obtain ⟨-, -, -, -, -, -, -, hvalid, -⟩ := of_expandManifest_eq_ok h
  obtain ⟨hreserved, hvalid⟩ := check_bind_eq_ok.1 hvalid
  obtain ⟨htargets, hvalid⟩ := check_bind_eq_ok.1 hvalid
  obtain ⟨hscopes, hvalid⟩ := check_bind_eq_ok.1 hvalid
  obtain ⟨hconflicts, hvalid⟩ := check_bind_eq_ok.1 hvalid
  obtain ⟨hduplicates, hvalid⟩ := check_bind_eq_ok.1 hvalid
  obtain ⟨-, hvalid⟩ := check_bind_eq_ok.1 hvalid
  obtain ⟨-, hvalid⟩ := check_bind_eq_ok.1 hvalid
  obtain ⟨-, hconfig⟩ := check_bind_eq_ok.1 hvalid
  exact ⟨hreserved, htargets, hscopes, hconflicts, hduplicates, hconfig⟩

/-! ## Grants that do not contradict each other -/

/-- The flag of one kind of selector. -/
def SelectorFlags.marked (flags : SelectorFlags) (wild : Bool) (ensure : Ensure) : Bool :=
  match wild, ensure with
  | true, .present => flags.wildPresent
  | true, .absent => flags.wildAbsent
  | false, .present => flags.namedPresent
  | false, .absent => flags.namedAbsent

theorem SelectorFlags.marked_mark (flags : SelectorFlags) (wild wild' : Bool)
    (ensure ensure' : Ensure) :
    (flags.mark wild ensure).marked wild' ensure' =
      (flags.marked wild' ensure' || (wild == wild' && ensure == ensure')) := by
  cases wild <;> cases ensure <;> cases wild' <;> cases ensure' <;>
    simp [SelectorFlags.mark, SelectorFlags.marked]

/-- What the noted assertions have left behind: each its ensure, each selector its flag, and no
conflict. -/
structure AssertionsNoted (done : List (Grant × Privilege)) (state : AssertionState) : Prop where
  assertions : ∀ a ∈ done, state.assertions[assertionKey a.1 a.2]? = some a.1.ensure
  selectors : ∀ a ∈ done, ∀ schema name, a.1.object.schema = some schema →
    a.1.object.name = some name →
      ∃ flags, state.selectors[(a.1.role, a.1.object.objectType, schema, a.2)]? = some flags ∧
        flags.marked (name == wildcardName) a.1.ensure = true
  no_conflict : ∀ (key : String × ObjectType × String × Privilege) flags,
    state.selectors[key]? = some flags → flags.conflict = false

theorem AssertionsNoted.note {done : List (Grant × Privilege)} {state state' : AssertionState}
    {a : Grant × Privilege} (h : AssertionsNoted done state)
    (hstep : noteAssertion state a = .ok state') : AssertionsNoted (done ++ [a]) state' := by
  obtain ⟨hagree, hstep⟩ := check_bind_eq_ok.1 hstep
  rw [rejectIf_eq_ok] at hagree
  -- An earlier assertion of the same key has the same ensure, so overwriting loses nothing.
  have hassertions : ∀ b ∈ done ++ [a],
      (state.assertions.insert (assertionKey a.1 a.2) a.1.ensure)[assertionKey b.1 b.2]? =
        some b.1.ensure := by
    intro b hb
    rw [getElem?_insert_eq]
    rcases List.mem_append.1 hb with hb | hb
    · have hold := h.assertions b hb
      split
      · next heq =>
          rw [heq, hold] at hagree
          have hsame : b.1.ensure = a.1.ensure := by simpa using hagree
          rw [hsame]
      · exact hold
    · rw [List.mem_singleton.1 hb, if_pos rfl]
  revert hstep
  split
  · next schema name hschema hname =>
      intro hstep
      obtain ⟨hconflict, hstep⟩ := check_bind_eq_ok.1 hstep
      rw [rejectIf_eq_ok] at hconflict
      rw [← Except.ok.inj hstep]
      refine ⟨hassertions, ?_, ?_⟩
      · intro b hb schema' name' hschema' hname'
        rw [getElem?_insert_eq]
        rcases List.mem_append.1 hb with hb | hb
        · obtain ⟨flags, hflags, hmarked⟩ := h.selectors b hb schema' name' hschema' hname'
          split
          · next heq =>
              refine ⟨_, rfl, ?_⟩
              rw [heq, hflags, Option.getD_some, SelectorFlags.marked_mark, hmarked, Bool.true_or]
          · exact ⟨flags, hflags, hmarked⟩
        · rw [List.mem_singleton.1 hb] at hschema' hname' ⊢
          rw [hschema] at hschema'
          rw [hname] at hname'
          rw [← Option.some.inj hschema', ← Option.some.inj hname', if_pos rfl]
          refine ⟨_, rfl, ?_⟩
          rw [SelectorFlags.marked_mark]
          simp
      · intro key flags hflags
        rw [getElem?_insert_eq] at hflags
        split at hflags
        · rw [← Option.some.inj hflags]
          exact hconflict
        · exact h.no_conflict key flags hflags
  · next hnone =>
      intro hstep
      rw [← Except.ok.inj hstep]
      refine ⟨hassertions, ?_, h.no_conflict⟩
      intro b hb schema' name' hschema' hname'
      rcases List.mem_append.1 hb with hb | hb
      · exact h.selectors b hb schema' name' hschema' hname'
      · rw [List.mem_singleton.1 hb] at hschema' hname'
        exact absurd hname' (hnone schema' name' hschema')

section Conflicts

variable {m : PolicyManifest}

theorem exists_assertionsNoted (h : expandManifest m = .ok e) :
    ∃ state, AssertionsNoted (grantAssertions e.grants) state := by
  have hconflicts := (expandedChecks_of_expandManifest h).ensure_conflicts
  obtain ⟨state, hstate, -⟩ := bind_eq_ok.1 hconflicts
  have hstart : AssertionsNoted [] {} :=
    ⟨fun a ha => absurd ha List.not_mem_nil, fun a ha => absurd ha List.not_mem_nil,
      fun key flags hflags => by simp at hflags⟩
  exact ⟨state, foldlM_invariant AssertionsNoted
    (fun _ _ _ _ hnoted hstep => hnoted.note hstep) hstart hstate⟩

theorem mem_grantAssertions {grants : List Grant} {grant : Grant} {p : Privilege}
    (hgrant : grant ∈ grants) (hp : p ∈ grant.privileges) :
    (grant, p) ∈ grantAssertions grants :=
  List.mem_flatMap.2 ⟨grant, hgrant, List.mem_map.2 ⟨p, hp, rfl⟩⟩

/-- The fields of a manifest grant that its key keeps. -/
theorem grantKeyFromManifest_eq_iff {a b : Grant} :
    grantKeyFromManifest a = grantKeyFromManifest b ↔ a.role = b.role ∧ a.object = b.object := by
  obtain ⟨role, privileges, ⟨objectType, schema, name⟩, ensure⟩ := a
  obtain ⟨role', privileges', ⟨objectType', schema', name'⟩, ensure'⟩ := b
  simp only [grantKeyFromManifest, GrantKey.mk.injEq, ObjectTarget.mk.injEq,
    Grantee.parse_injective.eq_iff]

variable (h : expandManifest m = .ok e)
  (hgraph : RoleGraph.fromExpanded e defaultOwner = .ok g) {k : GrantKey} {p : Privilege}

include h hgraph

/-- What is declared present under a key is not asserted absent under it. -/
theorem not_absent_of_present (hp : p ∈ entryAt g.grants k) : p ∉ entryAt g.grantAbsences k := by
  intro habsent
  obtain ⟨state, hnoted⟩ := exists_assertionsNoted h
  obtain ⟨a, ha, hpresent, rfl, hpa⟩ := (mem_entryAt_grants hgraph).1 hp
  obtain ⟨b, hb, hensure, hkey, hpb⟩ := (mem_entryAt_grantAbsences hgraph).1 habsent
  obtain ⟨hrole, hobject⟩ := grantKeyFromManifest_eq_iff.1 hkey
  have hnoteda := hnoted.assertions _ (mem_grantAssertions ha hpa)
  have hnotedb := hnoted.assertions _ (mem_grantAssertions hb hpb)
  have hsame : assertionKey b p = assertionKey a p := by
    rw [assertionKey, assertionKey, hrole, hobject]
  rw [hsame, hnoteda, hpresent, hensure] at hnotedb
  cases hnotedb

omit hgraph in
/-- A wildcard and a named selector of one scope do not contradict each other. -/
theorem ensure_eq_of_scope {a b : Grant} (ha : a ∈ e.grants) (hb : b ∈ e.grants)
    (hpa : p ∈ a.privileges) (hpb : p ∈ b.privileges) (hrole : b.role = a.role)
    (htype : b.object.objectType = a.object.objectType) {schema name : String}
    (hschema : a.object.schema = some schema) (hschema' : b.object.schema = some schema)
    (hwild : a.object.name = some wildcardName) (hname : b.object.name = some name)
    (hne : name ≠ wildcardName) : a.ensure = b.ensure := by
  obtain ⟨state, hnoted⟩ := exists_assertionsNoted h
  obtain ⟨flags, hflags, hmarked⟩ :=
    hnoted.selectors _ (mem_grantAssertions ha hpa) schema _ hschema hwild
  obtain ⟨flags', hflags', hmarked'⟩ :=
    hnoted.selectors _ (mem_grantAssertions hb hpb) schema name hschema' hname
  rw [hrole, htype] at hflags'
  obtain rfl : flags = flags' := Option.some.inj (hflags.symm.trans hflags')
  have hconflict := hnoted.no_conflict _ flags hflags
  have hnamed : (name == wildcardName) = false := by simpa using hne
  rw [hnamed] at hmarked'
  simp only [beq_self_eq_true] at hmarked
  cases hea : a.ensure <;> cases heb : b.ensure <;>
    simp_all [SelectorFlags.conflict, SelectorFlags.marked]

omit hgraph in
/-- A wildcard grant and a named one of its scope with a privilege in common agree. -/
theorem ensure_eq_of_wildcard {a b : Grant} {name : String} (ha : a ∈ e.grants)
    (hb : b ∈ e.grants) (hpa : p ∈ a.privileges) (hpb : p ∈ b.privileges)
    (hkey : grantKeyFromManifest a = (grantKeyFromManifest b).wildcard)
    (hschema : (grantKeyFromManifest b).schema.isSome)
    (hname : (grantKeyFromManifest b).name = some name) (hne : name ≠ wildcardName) :
    a.ensure = b.ensure := by
  obtain ⟨schema, hschema⟩ := Option.isSome_iff_exists.1 hschema
  simp only [grantKeyFromManifest, GrantKey.wildcard, GrantKey.mk.injEq] at hkey hschema hname
  obtain ⟨hrole, htype, hscope, hwild⟩ := hkey
  exact ensure_eq_of_scope h ha hb hpa hpb (Grantee.parse_injective hrole).symm htype.symm
    (hscope.trans hschema) hschema hwild hname hne

/-- What a wildcard declares present, no named rule of its scope asserts absent. -/
theorem not_named_absent_of_wildcard {name : String} (hschema : k.schema.isSome)
    (hname : k.name = some name) (hne : name ≠ wildcardName)
    (hp : p ∈ entryAt g.grants k.wildcard) : p ∉ entryAt g.grantAbsences k := by
  intro habsent
  obtain ⟨a, ha, hpresent, hkey, hpa⟩ := (mem_entryAt_grants hgraph).1 hp
  obtain ⟨b, hb, hensure, rfl, hpb⟩ := (mem_entryAt_grantAbsences hgraph).1 habsent
  have heq := ensure_eq_of_wildcard h ha hb hpa hpb hkey hschema hname hne
  rw [hpresent, hensure] at heq
  cases heq

/-- What a named rule declares present, the wildcard of its scope does not assert absent. -/
theorem not_wildcard_absent_of_named {name : String} (hschema : k.schema.isSome)
    (hname : k.name = some name) (hne : name ≠ wildcardName) (hp : p ∈ entryAt g.grants k) :
    p ∉ entryAt g.grantAbsences k.wildcard := by
  intro habsent
  obtain ⟨b, hb, hpresent, rfl, hpb⟩ := (mem_entryAt_grants hgraph).1 hp
  obtain ⟨a, ha, hensure, hkey, hpa⟩ := (mem_entryAt_grantAbsences hgraph).1 habsent
  have heq := ensure_eq_of_wildcard h ha hb hpa hpb hkey hschema hname hne
  rw [hpresent, hensure] at heq
  cases heq

end Conflicts

end PgRoles.Core

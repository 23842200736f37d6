import PgRoles.Core.Suggest

/-!
# What the suggester claims

Facts about the parts of the suggester: a wildcard stands for each grant it replaced; an eligible role
holds present grants in its own schema alone; and every role that was taken into a profile matches
the pattern its schema is committed to and has the signature of the role the profile was built from
(`Claims`).
-/

set_option autoImplicit false

namespace PgRoles.Core.Suggest

open Std PgRoles.Lib

/-! ## Lists -/

theorem mem_sortBy {α : Type} {order : α → α → Ordering} {l : List α} {a : α} :
    a ∈ sortBy order l ↔ a ∈ l :=
  (List.perm_insertionSort _ l).mem_iff

theorem mem_dedupRuns {α : Type} [DecidableEq α] {l : List α} {a : α} :
    a ∈ dedupRuns l ↔ a ∈ l := by
  induction l with
  | nil => rfl
  | cons b l ih =>
      cases l with
      | nil => rfl
      | cons c l =>
          rw [dedupRuns]
          by_cases hbc : b = c
          · rw [if_pos hbc, ih, hbc]
            simp
          · rw [if_neg hbc, List.mem_cons, ih, ← List.mem_cons]

theorem mem_canonicalPrivs {privileges : List Privilege} {p : Privilege} :
    p ∈ canonicalPrivs privileges ↔ p ∈ privileges := by
  rw [canonicalPrivs, mem_dedupRuns]
  exact (List.perm_insertionSort _ privileges).mem_iff

/-- Every element of a list that maps has its image. -/
theorem exists_of_mem_of_mapM_some {α β : Type} {f : α → Option β} {l : List α} {r : List β} {a : α}
    (h : l.mapM f = some r) (ha : a ∈ l) : ∃ b ∈ r, f a = some b := by
  induction l generalizing r with
  | nil => exact absurd ha List.not_mem_nil
  | cons b l ih =>
      rw [List.mapM_cons] at h
      obtain ⟨c, hc, h⟩ := Option.bind_eq_some_iff.1 h
      obtain ⟨cs, hcs, h⟩ := Option.bind_eq_some_iff.1 h
      obtain rfl : c :: cs = r := Option.some.inj h
      rcases List.mem_cons.1 ha with rfl | ha
      · exact ⟨c, List.mem_cons_self, hc⟩
      · obtain ⟨d, hd, hfd⟩ := ih hcs ha
        exact ⟨d, List.mem_cons_of_mem _ hd, hfd⟩

/-! ## Scopes -/

/-- The type has objects that live in a schema. -/
def InSchema (objectType : ObjectType) : Prop := objectType ≠ .schema ∧ objectType ≠ .database

theorem namedObject?_eq_some {grant : Grant} {scope : String × ObjectType} {name : String} :
    namedObject? grant = some (scope, name) ↔
      InSchema grant.object.objectType ∧ grant.object.schema = some scope.1 ∧
        grant.object.objectType = scope.2 ∧ grant.object.name = some name ∧ name ≠ wildcardName := by
  obtain ⟨role, privileges, ⟨objectType, schema, object⟩, ensure⟩ := grant
  obtain ⟨s, t⟩ := scope
  unfold namedObject? InSchema
  cases objectType <;> cases schema <;> cases object <;> simp <;> grind

theorem wildcardScope?_eq_some {grant : Grant} {scope : String × ObjectType} :
    wildcardScope? grant = some scope ↔
      InSchema grant.object.objectType ∧ grant.object.schema = some scope.1 ∧
        grant.object.objectType = scope.2 ∧ grant.object.name = some wildcardName := by
  obtain ⟨role, privileges, ⟨objectType, schema, object⟩, ensure⟩ := grant
  obtain ⟨s, t⟩ := scope
  unfold wildcardScope? InSchema
  cases objectType <;> cases schema <;> cases object <;> simp <;> tauto

/-! ## Inventories -/

/-- The inventory that wildcards are expanded over. -/
def roundTripInventory (m : PolicyManifest) (opts : SuggestOptions) : Inventory :=
  (usedInventory m opts).1.getD (buildInventory m)

/-! ## Collapse -/

/-- The wildcard stands for the named grant: it has the grant's privileges, on its whole scope. -/
structure StandsFor (inventory : Inventory) (wildcard grant : Grant) (scope : String × ObjectType)
    (name : String) : Prop where
  named : namedObject? grant = some (scope, name)
  object : wildcard.object = ⟨scope.2, some scope.1, some wildcardName⟩
  privileges : wildcard.privileges = canonicalPrivs grant.privileges
  inventory : ∃ names, inventory[scope]? = some names ∧ name ∈ names

/-- Grants collapse when together they are on every object of the inventory. -/
theorem of_collapseBucket_eq_some {inventory : Inventory} {scope : String × ObjectType}
    {bucket : List (Grant × Nat)} {wildcard : Grant}
    (h : collapseBucket inventory scope bucket = some wildcard) {e : Grant × Nat} (he : e ∈ bucket)
    {name : String} (hnamed : namedObject? e.1 = some (scope, name)) :
    StandsFor inventory wildcard e.1 scope name := by
  cases bucket with
  | nil => exact absurd he List.not_mem_nil
  | cons first rest =>
      rw [collapseBucket] at h
      split at h
      · next hcollapse =>
          obtain rfl := Option.some.inj h
          rw [Bool.and_eq_true, List.all_eq_true] at hcollapse
          obtain ⟨hsame, hcovered⟩ := hcollapse
          have hname := (namedObject?_eq_some.1 hnamed).2.2.2.1
          refine ⟨hnamed, rfl, ?_, _, beq_iff_eq.1 hcovered, ?_⟩
          · rcases List.mem_cons.1 he with rfl | he
            · rfl
            · exact (beq_iff_eq.1 (hsame e he)).symm
          · rw [ExtTreeSet.mem_ofList, List.contains_iff_mem]
            exact List.mem_filterMap.2 ⟨e, he, hname⟩
      · cases h

theorem mem_grantBuckets {grants : List Grant} {scope : String × ObjectType}
    {bucket : List (Grant × Nat)} (h : (grantBuckets grants)[scope]? = some bucket)
    {e : Grant × Nat} (he : e ∈ bucket) :
    e ∈ grants.zipIdx ∧ ∃ name, namedObject? e.1 = some (scope, name) := by
  rw [grantBuckets, getElem?_filter_eq, Option.filter_eq_some_iff] at h
  have hmem := mem_groupInto.1 ⟨bucket, h.1, he⟩
  obtain ⟨source, hsource, hmap⟩ := List.mem_filterMap.1 hmem
  obtain ⟨⟨found, name⟩, hnamed, heq⟩ := Option.map_eq_some_iff.1 hmap
  obtain ⟨rfl, rfl⟩ := Prod.mk.inj heq
  exact ⟨hsource, name, hnamed⟩

/-- Every grant is still there, or a wildcard that stands for it is. -/
theorem collapse_cases {grants : List Grant} {inventory : Inventory} {grant : Grant}
    (h : grant ∈ grants) :
    grant ∈ collapseFullCoverageGrants grants inventory ∨
      ∃ wildcard ∈ collapseFullCoverageGrants grants inventory, ∃ scope name,
        StandsFor inventory wildcard grant scope name := by
  obtain ⟨i, hi⟩ := List.getElem?_of_mem h
  unfold collapseFullCoverageGrants
  simp only
  generalize hcollapsed : (grantBuckets grants).toList.filterMap (fun e =>
    (collapseBucket inventory e.1 e.2).map fun wildcard => (e.2.map (·.2), wildcard)) = collapsed
  by_cases hremoved : i ∈ collapsed.flatMap (·.1)
  · -- The position was removed with the bucket it is in.
    obtain ⟨⟨positions, wildcard⟩, hmem, hi'⟩ := List.mem_flatMap.1 hremoved
    rw [← hcollapsed] at hmem
    obtain ⟨⟨scope, bucket⟩, hbucket, hmap⟩ := List.mem_filterMap.1 hmem
    obtain ⟨found, hfound, heq⟩ := Option.map_eq_some_iff.1 hmap
    obtain ⟨rfl, rfl⟩ := Prod.mk.inj heq
    obtain ⟨⟨source, j⟩, he, rfl⟩ := List.mem_map.1 hi'
    obtain ⟨hzip, name, hnamed⟩ := mem_grantBuckets (mem_toList_iff.1 hbucket) he
    have hsource := List.mk_mem_zipIdx_iff_getElem?.1 hzip
    rw [hi] at hsource
    obtain rfl := Option.some.inj hsource
    refine Or.inr ⟨found, List.mem_append_right _ (List.mem_map.2
      ⟨(bucket.map (·.2), found), ?_, rfl⟩), scope, name, of_collapseBucket_eq_some hfound he hnamed⟩
    rw [← hcollapsed]
    exact hmem
  · refine Or.inl (List.mem_append_left _ (List.mem_map.2 ⟨(grant, i), ?_, rfl⟩))
    refine List.mem_filter.2 ⟨List.mk_mem_zipIdx_iff_getElem?.2 hi, ?_⟩
    simpa using hremoved

/-! ## Eligible roles -/

theorem grantSchema?_of_inSchema {grant : Grant} (h : InSchema grant.object.objectType) :
    grantSchema? grant = grant.object.schema := by
  obtain ⟨hschema, hdatabase⟩ := h
  unfold grantSchema?
  cases ht : grant.object.objectType with
  | schema => exact absurd ht hschema
  | database => exact absurd ht hdatabase
  | _ => rfl

/-- What makes a role eligible. -/
structure IsEligible (m : PolicyManifest) (grants : List Grant) (defaults : List RoleDefault)
    (d : RoleDefinition) (el : Eligible) : Prop where
  name : el.roleName = d.name
  plain : hasUniqueAttributes d = false
  held : ∀ grant ∈ grants, grant.ensure = .present ∧ grantSchema? grant = some el.schema
  no_absent_defaults : roleHasAbsentDefaultPrivilege m d.name = false
  declared : ∃ owner, (schemaOwners m)[el.schema]? = some owner
  signature : el.signature = computeSignature grants defaults el.schema

theorem mem_schemasSeen {grants : List Grant} {defaults : List RoleDefault} {grant : Grant}
    (h : grant ∈ grants) {schema : String} (hschema : grantSchema? grant = some schema) :
    schema ∈ (schemasSeen grants defaults).toList := by
  rw [schemasSeen, ExtTreeSet.mem_toList, ExtTreeSet.mem_ofList, List.contains_iff_mem]
  exact List.mem_append_left _ (List.mem_filterMap.2 ⟨grant, h, hschema⟩)

/-- A role is eligible with its grants and defaults, all in one schema. -/
theorem of_classify_eq_ok {m : PolicyManifest} {grants : List Grant} {defaults : List RoleDefault}
    {d : RoleDefinition} {el : Eligible} (h : classify m grants defaults d = .ok el) :
    IsEligible m grants defaults d el := by
  obtain ⟨hplain, h⟩ := check_bind_eq_ok.1 h
  obtain ⟨hrepresentable, h⟩ := check_bind_eq_ok.1 h
  obtain ⟨hdefaults, h⟩ := check_bind_eq_ok.1 h
  rw [rejectIf_eq_ok] at hplain hrepresentable hdefaults
  rw [Bool.or_eq_false_iff] at hdefaults
  have hgrants : ∀ grant ∈ grants, grant.ensure = .present ∧ ∃ s, grantSchema? grant = some s := by
    intro grant hgrant
    have hone := List.any_eq_false.1 hrepresentable grant hgrant
    rw [unrepresentable, Bool.or_eq_true, not_or] at hone
    obtain ⟨hensure, hschema⟩ := hone
    refine ⟨?_, Option.ne_none_iff_exists'.1 (by simpa using hschema)⟩
    cases he : grant.ensure with
    | present => rfl
    | absent => simp [he] at hensure
  cases hseen : (schemasSeen grants defaults).toList with
  | nil =>
      rw [hseen] at h
      cases h
  | cons schema schemas =>
      rw [hseen] at h
      cases schemas with
      | cons other schemas => cases h
      | nil =>
          cases howner : (schemaOwners m)[schema]? with
          | none =>
              simp only [howner] at h
              cases h
          | some owner =>
              simp only [howner] at h
              obtain ⟨-, h⟩ := check_bind_eq_ok.1 h
              obtain rfl := Except.ok.inj h
              refine ⟨rfl, hplain, fun grant hgrant => ?_, hdefaults.2, ⟨owner, howner⟩, rfl⟩
              obtain ⟨hensure, s, hs⟩ := hgrants grant hgrant
              have hin := @mem_schemasSeen grants defaults grant hgrant s hs
              rw [hseen] at hin
              rw [hs, List.mem_singleton.1 hin]
              exact ⟨hensure, rfl⟩

/-- The grants of a role as the suggester reads them. -/
def grantsOf (m : PolicyManifest) (inventory : Option Inventory) (role : String) : List Grant :=
  (roleGrants m inventory)[role]?.getD []

/-- The default privileges that a role is given. -/
def defaultsOf (m : PolicyManifest) (role : String) : List RoleDefault :=
  (roleDefaults m)[role]?.getD []

theorem of_mem_eligibleRoles {m : PolicyManifest} {inventory : Option Inventory} {el : Eligible}
    (h : el ∈ eligibleRoles m inventory) : ∃ d ∈ m.roles,
      IsEligible m (grantsOf m inventory d.name) (defaultsOf m d.name) d el := by
  obtain ⟨x, hx, hok⟩ := List.mem_filterMap.1 h
  obtain ⟨d, hd, rfl⟩ := List.mem_map.1 hx
  refine ⟨d, hd, of_classify_eq_ok ?_⟩
  cases hclass : classify m ((roleGrants m inventory)[d.name]?.getD [])
      ((roleDefaults m)[d.name]?.getD []) d with
  | error reason =>
      rw [hclass] at hok
      cases hok
  | ok found =>
      rw [hclass] at hok
      obtain rfl : found = el := Option.some.inj hok
      exact hclass

/-- A grant of the manifest is among its role's grants, or a wildcard that stands for it is. -/
theorem grantsOf_cases {m : PolicyManifest} {inventory : Option Inventory} {grant : Grant}
    (h : grant ∈ m.grants) :
    grant ∈ grantsOf m inventory grant.role ∨
      ∃ complete, inventory = some complete ∧
        ∃ wildcard ∈ grantsOf m inventory grant.role, ∃ scope name,
          StandsFor complete wildcard grant scope name := by
  obtain ⟨bucket, hbucket, hmem⟩ := mem_groupInto.2 (List.mem_map.2 ⟨grant, h, rfl⟩ :
    (grant.role, grant) ∈ m.grants.map fun grant => (grant.role, grant))
  cases inventory with
  | none =>
      refine Or.inl ?_
      show grant ∈ (groupInto (m.grants.map fun grant => (grant.role, grant)))[grant.role]?.getD []
      rw [hbucket]
      exact hmem
  | some complete =>
      have hgrants : grantsOf m (some complete) grant.role =
          collapseFullCoverageGrants bucket complete := by
        unfold grantsOf roleGrants
        simp only
        rw [ExtTreeMap.getElem?_map, hbucket]
        rfl
      rw [hgrants]
      exact (collapse_cases hmem).imp id fun hstands => ⟨complete, rfl, hstands⟩

/-- An eligible role holds grants in its schema alone; one that it does not hold present has been
collapsed. -/
theorem eligible_grants {m : PolicyManifest} {inventory : Option Inventory} {d : RoleDefinition}
    {el : Eligible}
    (hel : IsEligible m (grantsOf m inventory d.name) (defaultsOf m d.name) d el) {grant : Grant}
    (h : grant ∈ m.grants) (hrole : grant.role = d.name) :
    grantSchema? grant = some el.schema ∧
      (grant.ensure = .present ∨
        ∃ complete, inventory = some complete ∧
          ∃ wildcard ∈ grantsOf m inventory d.name, ∃ scope name,
            scope.1 = el.schema ∧ StandsFor complete wildcard grant scope name) := by
  rw [← hrole] at hel ⊢
  rcases @grantsOf_cases m inventory grant h with hmem | ⟨complete, hcomplete, wildcard,
    hwildcard, scope, name, hstands⟩
  · obtain ⟨hensure, hschema⟩ := hel.held grant hmem
    exact ⟨hschema, Or.inl hensure⟩
  · obtain ⟨hin, hschema, htype, -, -⟩ := namedObject?_eq_some.1 hstands.named
    have hwild := (hel.held wildcard hwildcard).2
    have hwildType : InSchema wildcard.object.objectType := by
      rw [hstands.object]
      show InSchema scope.2
      rw [← htype]
      exact hin
    rw [grantSchema?_of_inSchema hwildType, hstands.object] at hwild
    have hscope : scope.1 = el.schema := Option.some.inj hwild
    refine ⟨?_, Or.inr ⟨complete, hcomplete, wildcard, hwildcard, scope, name, hscope, hstands⟩⟩
    rw [grantSchema?_of_inSchema hin, hschema, hscope]

/-! ## Clusters -/

theorem uniqueBySchema_subset {seen : List String} {els : List Eligible} :
    uniqueBySchema seen els ⊆ els := by
  induction els generalizing seen with
  | nil => exact List.Subset.refl _
  | cons el els ih =>
      rw [uniqueBySchema]
      split
      · exact fun x hx => List.mem_cons_of_mem _ (ih hx)
      · exact List.cons_subset_cons _ ih

/-- The members of a cluster are eligible and have its signature. -/
theorem of_mem_clusterEntries {eligible : List Eligible} {entry : ClusterKey × List Eligible}
    (h : entry ∈ clusterEntries eligible) {el : Eligible} (hel : el ∈ entry.2) :
    el ∈ eligible ∧ el.signature = entry.1.1 := by
  have hgroup := mem_toList_iff.1 (mem_sortBy.1 h)
  obtain ⟨source, hsource, heq⟩ := List.mem_map.1 (mem_groupInto.1 ⟨entry.2, hgroup, hel⟩)
  obtain ⟨hkey, rfl⟩ := Prod.mk.inj heq
  refine ⟨hsource, ?_⟩
  rw [← hkey]

/-- A viable name is a free identifier that every member's role has under the pattern. -/
theorem viableName_eq_some {m : PolicyManifest} {state : ClusterState} {members : List Eligible}
    {pattern name : String} (h : viableName m state members pattern = some name) :
    isValidIdentifier name = true ∧ name ∉ state.taken ∧
      ∀ el ∈ members, matchPattern pattern el.roleName el.schema = some name := by
  unfold viableName at h
  cases hnames : members.mapM fun el => matchPattern pattern el.roleName el.schema with
  | none =>
      rw [hnames] at h
      cases h
  | some names =>
      simp only [hnames] at h
      cases hset : (ExtTreeSet.ofList names compare : BTreeSet String).toList with
      | nil =>
          rw [hset] at h
          cases h
      | cons found rest =>
          rw [hset] at h
          cases rest with
          | cons other rest => cases h
          | nil =>
              simp only at h
              split at h
              · cases h
              · next hfree =>
                  obtain rfl := Option.some.inj h
                  rw [Bool.or_eq_true, Bool.or_eq_true, not_or, not_or] at hfree
                  obtain ⟨⟨hvalid, htaken⟩, -⟩ := hfree
                  refine ⟨by simpa using hvalid, ?_, fun el hel => ?_⟩
                  · rwa [ExtTreeSet.contains_iff_mem] at htaken
                  · obtain ⟨name, hname, hmatch⟩ := exists_of_mem_of_mapM_some hnames hel
                    have hin : name ∈ (ExtTreeSet.ofList names compare : BTreeSet String).toList := by
                      rw [ExtTreeSet.mem_toList, ExtTreeSet.mem_ofList, List.contains_iff_mem]
                      exact hname
                    rw [hset] at hin
                    rw [hmatch, List.mem_singleton.1 hin]

/-- Members whose schemas are not blocked have no other pattern. -/
theorem blockedBySchema_eq_none {state : ClusterState} {members : List Eligible} {pattern : String}
    (h : blockedBySchema state members pattern = none) {el : Eligible} (hel : el ∈ members)
    {committed : String} (hcommitted : state.schemaPattern[el.schema]? = some committed) :
    committed = pattern := by
  have hel := List.findSome?_eq_none_iff.1 h el hel
  rw [Option.map_eq_none_iff, hcommitted, Option.filter_eq_none_iff] at hel
  by_contra hne
  exact hel committed rfl (decide_eq_true hne)

/-- A pattern that is chosen names every member, and fits the schemas. -/
theorem choosePattern_eq_some {m : PolicyManifest} {state : ClusterState}
    {members : List Eligible} {patterns : List String} {conflict conflict' : Option (String × String)}
    {pattern name : String}
    (h : choosePattern m state members patterns conflict = (some (pattern, name), conflict')) :
    pattern ∈ patterns ∧ viableName m state members pattern = some name ∧
      blockedBySchema state members pattern = none := by
  induction patterns generalizing conflict with
  | nil => cases h
  | cons first patterns ih =>
      rw [choosePattern] at h
      cases hviable : viableName m state members first with
      | none =>
          simp only [hviable] at h
          obtain ⟨hmem, hrest⟩ := ih h
          exact ⟨List.mem_cons_of_mem _ hmem, hrest⟩
      | some found =>
          cases hblocked : blockedBySchema state members first with
          | none =>
              simp only [hviable, hblocked] at h
              obtain ⟨hfound, -⟩ := Prod.mk.inj h
              obtain ⟨rfl, rfl⟩ := Prod.mk.inj (Option.some.inj hfound)
              exact ⟨List.mem_cons_self, hviable, hblocked⟩
          | some conflict =>
              simp only [hviable, hblocked] at h
              obtain ⟨hmem, hrest⟩ := ih h
              exact ⟨List.mem_cons_of_mem _ hmem, hrest⟩

/-! ## Commitments -/

section Commit

variable {pattern profileName : String} {members : List Eligible} {state : ClusterState}

/-- The patterns of schemas after a cluster is committed. -/
theorem schemaPattern_commit (schema : String) :
    (members.foldl (commitMember pattern profileName) state).schemaPattern[schema]? =
      if ∃ el ∈ members, el.schema = schema then some pattern else state.schemaPattern[schema]? := by
  induction members generalizing state with
  | nil => simp
  | cons el els ih =>
      rw [List.foldl_cons, ih]
      show (if _ then _ else (state.schemaPattern.insert el.schema pattern)[schema]?) = _
      rw [getElem?_insert_eq]
      by_cases hrest : ∃ x ∈ els, x.schema = schema
      · obtain ⟨x, hx, hschema⟩ := hrest
        rw [if_pos ⟨x, hx, hschema⟩, if_pos ⟨x, List.mem_cons_of_mem _ hx, hschema⟩]
      · rw [if_neg hrest]
        by_cases hel : el.schema = schema
        · rw [if_pos hel, if_pos ⟨el, List.mem_cons_self, hel⟩]
        · rw [if_neg hel, if_neg]
          intro h
          obtain ⟨x, hx, hschema⟩ := h
          rcases List.mem_cons.1 hx with rfl | hx
          · exact hel hschema
          · exact hrest ⟨x, hx, hschema⟩

/-- The profiles of schemas after a cluster is committed. -/
theorem mem_schemaProfiles_commit {schema name : String} :
    name ∈ (members.foldl (commitMember pattern profileName) state).schemaProfiles[schema]?.getD [] ↔
      name ∈ state.schemaProfiles[schema]?.getD [] ∨
        name = profileName ∧ ∃ el ∈ members, el.schema = schema := by
  induction members generalizing state with
  | nil => simp
  | cons el els ih =>
      rw [List.foldl_cons, ih]
      have hpush : (commitMember pattern profileName state el).schemaProfiles =
          pushGroup state.schemaProfiles el.schema profileName := rfl
      rw [hpush, pushGroup, getElem?_alter_eq]
      by_cases hel : el.schema = schema
      · rw [if_pos hel, Option.getD_some, List.mem_append, List.mem_singleton]
        constructor
        · intro h
          rcases h with (h | rfl) | ⟨rfl, x, hx, hschema⟩
          · exact Or.inl h
          · exact Or.inr ⟨rfl, el, List.mem_cons_self, hel⟩
          · exact Or.inr ⟨rfl, x, List.mem_cons_of_mem _ hx, hschema⟩
        · intro h
          rcases h with h | ⟨rfl, -⟩
          · exact Or.inl (Or.inl h)
          · exact Or.inl (Or.inr rfl)
      · rw [if_neg hel]
        refine or_congr_right (and_congr_right fun _ => ?_)
        constructor
        · intro h
          obtain ⟨x, hx, hschema⟩ := h
          exact ⟨x, List.mem_cons_of_mem _ hx, hschema⟩
        · intro h
          obtain ⟨x, hx, hschema⟩ := h
          rcases List.mem_cons.1 hx with rfl | hx
          · exact absurd hschema hel
          · exact ⟨x, hx, hschema⟩

/-- The roles in clusters after one is committed. -/
theorem mem_clustered_commit {role : String} :
    role ∈ (members.foldl (commitMember pattern profileName) state).clustered ↔
      role ∈ state.clustered ∨ ∃ el ∈ members, el.roleName = role := by
  induction members generalizing state with
  | nil => simp
  | cons el els ih =>
      rw [List.foldl_cons, ih]
      show role ∈ state.clustered.insert el.roleName ∨ _ ↔ _
      rw [mem_insert_iff]
      constructor
      · intro h
        rcases h with (hel | h) | ⟨x, hx, hrole⟩
        · exact Or.inr ⟨el, List.mem_cons_self, hel⟩
        · exact Or.inl h
        · exact Or.inr ⟨x, List.mem_cons_of_mem _ hx, hrole⟩
      · intro h
        rcases h with h | ⟨x, hx, hrole⟩
        · exact Or.inl (Or.inr h)
        · rcases List.mem_cons.1 hx with rfl | hx
          · exact Or.inl (Or.inl hrole)
          · exact Or.inr ⟨x, hx, hrole⟩

theorem commitMembers_profilesOut :
    (members.foldl (commitMember pattern profileName) state).profilesOut = state.profilesOut := by
  induction members generalizing state with
  | nil => rfl
  | cons el els ih => exact ih

theorem commitMembers_taken :
    (members.foldl (commitMember pattern profileName) state).taken = state.taken := by
  induction members generalizing state with
  | nil => rfl
  | cons el els ih => exact ih

end Commit

/-! ## Claims -/

/-- The role is bound, under its schema's pattern, to a profile built from a role of the same
signature. -/
structure ClaimOf (m : PolicyManifest) (inventory : Option Inventory) (state : ClusterState)
    (el : Eligible) (pattern profileName : String) (representative : Eligible) : Prop where
  eligible : el ∈ eligibleRoles m inventory
  built_from : representative ∈ eligibleRoles m inventory
  signature : representative.signature = el.signature
  pattern_mem : pattern ∈ patternPriority
  valid : isValidIdentifier profileName = true
  matched : matchPattern pattern el.roleName el.schema = some profileName
  committed : state.schemaPattern[el.schema]? = some pattern
  bound : profileName ∈ state.schemaProfiles[el.schema]?.getD []
  built : ∃ login inherit, state.profilesOut[profileName]? = some (buildProfile login inherit
    (grantsOf m inventory representative.roleName) (defaultsOf m representative.roleName))

/-- Every role that was taken into a profile is so bound. -/
structure Claims (m : PolicyManifest) (inventory : Option Inventory) (state : ClusterState) :
    Prop where
  claimed : ∀ role ∈ state.clustered, ∃ el pattern profileName representative,
    el.roleName = role ∧ ClaimOf m inventory state el pattern profileName representative
  names : ∀ name ∈ state.profilesOut, name ∈ state.taken

section Claims

variable {m : PolicyManifest} {inventory : Option Inventory} {state : ClusterState}

/-- Committing a cluster keeps what is known of the state. -/
theorem Claims.commitCluster (h : Claims m inventory state) {key : ClusterKey}
    {members : List Eligible} {pattern profileName : String}
    (hmembers : ∀ el ∈ members, el ∈ eligibleRoles m inventory ∧ el.signature = key.1)
    (hpattern : pattern ∈ patternPriority)
    (hviable : viableName m state members pattern = some profileName)
    (hblocked : blockedBySchema state members pattern = none) :
    Claims m inventory (commitCluster (roleGrants m inventory) (roleDefaults m) key members pattern
      profileName state) := by
  obtain ⟨hvalid, hfree, hmatched⟩ := viableName_eq_some hviable
  cases members with
  | nil => exact h
  | cons representative rest =>
      generalize hstate : Suggest.commitCluster (roleGrants m inventory) (roleDefaults m) key
        (representative :: rest) pattern profileName state = state'
      have hprofiles : state'.profilesOut = state.profilesOut.insert profileName
          (buildProfile key.2.1 key.2.2 (grantsOf m inventory representative.roleName)
            (defaultsOf m representative.roleName)) := by
        rw [← hstate]
        show (ClusterState.profilesOut (List.foldl _ _ _)).insert _ _ = _
        rw [commitMembers_profilesOut]
        rfl
      have htaken : state'.taken = state.taken.insert profileName := by
        rw [← hstate]
        show (ClusterState.taken (List.foldl _ _ _)).insert _ = _
        rw [commitMembers_taken]
      have hschemaPattern : ∀ schema : String, state'.schemaPattern[schema]? =
          if ∃ el ∈ representative :: rest, el.schema = schema then some pattern
          else state.schemaPattern[schema]? := by
        intro schema
        rw [← hstate]
        exact schemaPattern_commit schema
      have hschemaProfiles : ∀ schema name : String,
          name ∈ state'.schemaProfiles[schema]?.getD [] ↔
            name ∈ state.schemaProfiles[schema]?.getD [] ∨
              name = profileName ∧ ∃ el ∈ representative :: rest, el.schema = schema := by
        intro schema name
        rw [← hstate]
        exact mem_schemaProfiles_commit
      have hclustered : ∀ role, role ∈ state'.clustered ↔
          role ∈ state.clustered ∨ ∃ el ∈ representative :: rest, el.roleName = role := by
        intro role
        rw [← hstate]
        exact mem_clustered_commit
      refine ⟨fun role hrole => ?_, fun name hname => ?_⟩
      · rcases (hclustered role).1 hrole with hrole | ⟨el, hel, rfl⟩
        · -- An earlier claim: its schema keeps its pattern, and its profile is another one.
          obtain ⟨el, pattern', name', rep, rfl, hclaim⟩ := h.claimed role hrole
          obtain ⟨login, inherit, hbuilt⟩ := hclaim.built
          have hother : profileName ≠ name' := by
            rintro rfl
            exact hfree (h.names _ (mem_iff_exists_getElem?.2 ⟨_, hbuilt⟩))
          refine ⟨el, pattern', name', rep, rfl,
            { hclaim with
              committed := ?_
              bound := (hschemaProfiles _ _).2 (Or.inl hclaim.bound)
              built := ⟨login, inherit, ?_⟩ }⟩
          · rw [hschemaPattern]
            split
            · next hin =>
                obtain ⟨x, hx, hschema⟩ := hin
                have hcommitted := hclaim.committed
                rw [← hschema] at hcommitted
                rw [blockedBySchema_eq_none hblocked hx hcommitted]
            · exact hclaim.committed
          · rw [hprofiles, getElem?_insert_eq, if_neg hother]
            exact hbuilt
        · obtain ⟨heligible, hsignature⟩ := hmembers el hel
          obtain ⟨hrep, hrepSignature⟩ := hmembers representative List.mem_cons_self
          refine ⟨el, pattern, profileName, representative, rfl,
            { eligible := heligible
              built_from := hrep
              signature := hrepSignature.trans hsignature.symm
              pattern_mem := hpattern
              valid := hvalid
              matched := hmatched el hel
              committed := ?_
              bound := (hschemaProfiles _ _).2 (Or.inr ⟨rfl, el, hel, rfl⟩)
              built := ⟨key.2.1, key.2.2, ?_⟩ }⟩
          · rw [hschemaPattern, if_pos ⟨el, hel, rfl⟩]
          · rw [hprofiles, getElem?_insert_eq, if_pos rfl]
      · rw [htaken, mem_insert_iff]
        rw [hprofiles, ExtTreeMap.mem_insert, compare_eq_iff] at hname
        exact hname.imp id fun hname => h.names name hname

theorem Claims.skipCluster (h : Claims m inventory state) (reasons : List SkipReason) :
    Claims m inventory (skipCluster state reasons) :=
  ⟨fun role hrole => by
    obtain ⟨el, pattern, name, rep, hel, hclaim⟩ := h.claimed role hrole
    exact ⟨el, pattern, name, rep, hel, { hclaim with }⟩, h.names⟩

/-- Handling a cluster keeps the claims. -/
theorem Claims.processCluster (h : Claims m inventory state) (minSchemas : Nat)
    {entry : ClusterKey × List Eligible}
    (hentry : entry ∈ clusterEntries (eligibleRoles m inventory)) :
    Claims m inventory (processCluster m minSchemas (roleGrants m inventory) state entry) := by
  unfold Suggest.processCluster
  simp only
  split
  · exact h.skipCluster _
  · split
    · next pattern profileName conflict hchoose =>
        obtain ⟨hpattern, hviable, hblocked⟩ := choosePattern_eq_some hchoose
        refine h.commitCluster (fun el hel => ?_) hpattern hviable hblocked
        exact of_mem_clusterEntries hentry (uniqueBySchema_subset hel)
    · exact h.skipCluster _
    · exact h.skipCluster _

/-- The clusters all together keep them. -/
theorem claims_clusterRoles (m : PolicyManifest) (minSchemas : Nat) (inventory : Option Inventory)
    (skipped : List SkipReason) :
    Claims m inventory (clusterRoles m minSchemas inventory skipped) := by
  have hrun : ∀ (entries : List (ClusterKey × List Eligible)) (state : ClusterState),
      entries ⊆ clusterEntries (eligibleRoles m inventory) → Claims m inventory state →
        Claims m inventory
          (entries.foldl (Suggest.processCluster m minSchemas (roleGrants m inventory)) state) := by
    intro entries
    induction entries with
    | nil => exact fun state _ h => h
    | cons entry entries ih =>
        intro state hsub h
        obtain ⟨hentry, hrest⟩ := List.cons_subset.1 hsub
        exact ih _ hrest (h.processCluster minSchemas hentry)
  refine hrun _ _ (List.Subset.refl _) ⟨fun role hrole => ?_, fun name hname => ?_⟩
  · exact absurd hrole ExtTreeSet.not_mem_empty
  · exact absurd hname ExtTreeMap.not_mem_empty

end Claims

end PgRoles.Core.Suggest

import PgRoles.Core.Diff

/-!
# What each bucket of the diff contains

One membership lemma per bucket: a change is in the bucket exactly when the stated entries of the
two graphs call for it. Every result about a plan cites these lemmas and never unfolds a bucket.
-/

set_option autoImplicit false

namespace PgRoles.Core

open Std PgRoles.Lib

variable {current desired : RoleGraph} {c : Change}

/-! ## Roles -/

/-- Roles are created that are desired and not there. -/
theorem mem_roleCreates :
    c ∈ roleCreates current desired ↔
      ∃ n s, desired.roles[n]? = some s ∧ current.roles[n]? = none ∧ c = .createRole n s := by
  rw [roleCreates, mem_flatMap_toList]
  refine exists_congr fun n => exists_congr fun s => and_congr_right fun _ => ?_
  by_cases h : n ∈ current.roles <;> simp [h]

/-- The settings of a created role, as one alteration. -/
def createdConfig (s : RoleState) : List RoleAttribute :=
  s.config.toList.map fun e => .setConfig e.1 e.2

/-- Roles are altered by their settings when they are created, and by what differs when they are
there. -/
theorem mem_roleAlters :
    c ∈ roleAlters current desired ↔
      ∃ n s, desired.roles[n]? = some s ∧
        ((current.roles[n]? = none ∧ s.config.isEmpty = false ∧
            c = .alterRole n (createdConfig s)) ∨
          ∃ t, current.roles[n]? = some t ∧
            ((t.changedAttributes s ≠ [] ∧ c = .alterRole n (t.changedAttributes s)) ∨
              (t.comment ≠ s.comment ∧ c = .setComment n s.comment))) := by
  rw [roleAlters, mem_flatMap_toList]
  refine exists_congr fun n => exists_congr fun s => and_congr_right fun _ => ?_
  cases ht : current.roles[n]? with
  | none =>
      cases s.config.isEmpty with
      | true => simp
      | false => simp [createdConfig]
  | some t =>
      by_cases ha : t.changedAttributes s = [] <;> by_cases hc : t.comment = s.comment <;>
        simp [ha, hc]

/-- Roles are dropped that are there and not desired. -/
theorem mem_roleDrops :
    c ∈ roleDrops current desired ↔
      ∃ n s, current.roles[n]? = some s ∧ desired.roles[n]? = none ∧ c = .dropRole n := by
  rw [roleDrops, mem_flatMap_toList]
  refine exists_congr fun n => exists_congr fun s => and_congr_right fun _ => ?_
  by_cases h : n ∈ desired.roles <;> simp [h]

/-! ## Schemas -/

/-- Schemas are created where they are missing, and handed over where their owner differs. -/
theorem mem_schemaChanges :
    c ∈ schemaChanges current desired ↔
      ∃ n d, desired.schemas[n]? = some d ∧
        ((current.schemas[n]? = none ∧ c = .createSchema n d.owner) ∨
          ∃ t o, current.schemas[n]? = some t ∧ d.owner = some o ∧ t.owner ≠ some o ∧
            c = .alterSchemaOwner n o) := by
  rw [schemaChanges, mem_flatMap_toList]
  refine exists_congr fun n => exists_congr fun d => and_congr_right fun _ => ?_
  cases ht : current.schemas[n]? with
  | none => simp
  | some t =>
      cases ho : d.owner with
      | none => by_cases h : t.owner = none <;> simp [h]
      | some o => by_cases h : t.owner = some o <;> simp [h]

/-- The owner privileges an existing schema lacks, against its desired owner. -/
def missingOwnerPrivileges (t : SchemaState) (owner : String) : Finset Privilege :=
  defaultSchemaOwnerPrivileges owner \ (if t.owner = some owner then t.ownerPrivileges else ∅)

/-- The owner's ordinary privileges are restored where some are missing. -/
theorem mem_schemaGrants :
    c ∈ schemaGrants current desired ↔
      ∃ n d t o, desired.schemas[n]? = some d ∧ current.schemas[n]? = some t ∧
        d.owner = some o ∧ missingOwnerPrivileges t o ≠ ∅ ∧
          c = .ensureSchemaOwnerPrivileges n o (missingOwnerPrivileges t o) := by
  rw [schemaGrants, mem_flatMap_toList]
  refine exists_congr fun n => exists_congr fun d => ?_
  constructor
  · rintro ⟨hd, hc⟩
    cases ho : d.owner with
    | none => simp [ho] at hc
    | some o =>
        cases ht : current.schemas[n]? with
        | none => simp [ho, ht] at hc
        | some t =>
            simp only [ho, ht] at hc
            by_cases h : missingOwnerPrivileges t o = ∅
            · unfold missingOwnerPrivileges at h
              simp [h] at hc
            · refine ⟨t, o, hd, rfl, rfl, h, ?_⟩
              unfold missingOwnerPrivileges at h ⊢
              simpa [h] using hc
  · rintro ⟨t, o, hd, ht, ho, h, rfl⟩
    refine ⟨hd, ?_⟩
    unfold missingOwnerPrivileges at h ⊢
    simp [ho, ht, h]

/-! ## Additions of object and default privileges -/

/-- The privileges that are desired and not held are granted. -/
theorem mem_grantChanges :
    c ∈ grantChanges current desired ↔
      ∃ k s, desired.grants[k]? = some s ∧
        (current.grants[k]? = none ∨ s \ entryAt current.grants k ≠ ∅) ∧
          c = .grant k (s \ entryAt current.grants k) := by
  rw [grantChanges, mem_flatMap_toList]
  refine exists_congr fun k => exists_congr fun s => and_congr_right fun _ => ?_
  cases hk : current.grants[k]? with
  | none => simp [entryAt, hk]
  | some held =>
      have he : entryAt current.grants k = held := entryAt_of_getElem? hk
      by_cases h : s \ held = ∅ <;> simp [he, h]

/-- The default privileges that are desired and not there are set. -/
theorem mem_defaultSets :
    c ∈ defaultSets current desired ↔
      ∃ k s, desired.defaultPrivileges[k]? = some s ∧
        (current.defaultPrivileges[k]? = none ∨ s \ entryAt current.defaultPrivileges k ≠ ∅) ∧
          c = .setDefaultPrivilege k (s \ entryAt current.defaultPrivileges k) := by
  rw [defaultSets, mem_flatMap_toList]
  refine exists_congr fun k => exists_congr fun s => and_congr_right fun _ => ?_
  cases hk : current.defaultPrivileges[k]? with
  | none => simp [entryAt, hk]
  | some held =>
      have he : entryAt current.defaultPrivileges k = held := entryAt_of_getElem? hk
      by_cases h : s \ held = ∅ <;> simp [he, h]

/-! ## Memberships -/

/-- The map of a membership set holds its edges under their pairs. -/
theorem of_membershipMap_eq_some {edges : BTreeSet MembershipEdge} {pair : String × String}
    {e : MembershipEdge} (h : (membershipMap edges)[pair]? = some e) : e ∈ edges ∧ e.pair = pair := by
  obtain ⟨a, ha, heq⟩ := List.mem_map.1 (mem_of_getElem?_ofList h)
  obtain ⟨rfl, rfl⟩ := Prod.mk.inj heq
  exact ⟨ExtTreeSet.mem_toList.1 ha, rfl⟩

theorem exists_membershipMap_eq_some {edges : BTreeSet MembershipEdge} {e : MembershipEdge}
    (h : e ∈ edges) : ∃ a, (membershipMap edges)[e.pair]? = some a :=
  exists_getElem?_ofList (List.mem_map.2 ⟨e, ExtTreeSet.mem_toList.2 h, rfl⟩)

/-- At most one edge per (role, member). -/
def OneEdgePerPair (edges : BTreeSet MembershipEdge) : Prop :=
  ∀ a ∈ edges, ∀ b ∈ edges, a.pair = b.pair → a = b

theorem oneEdgePerPair_iff {edges : BTreeSet MembershipEdge} :
    OneEdgePerPair edges ↔ ∀ a ∈ edges.toList, ∀ b ∈ edges.toList, a.pair = b.pair → a = b := by
  simp only [OneEdgePerPair, ExtTreeSet.mem_toList]

/-- With one edge a pair, the map holds exactly the edges. -/
theorem OneEdgePerPair.membershipMap_eq_some_iff {edges : BTreeSet MembershipEdge}
    (h : OneEdgePerPair edges) {pair : String × String} {e : MembershipEdge} :
    (membershipMap edges)[pair]? = some e ↔ e ∈ edges ∧ e.pair = pair := by
  refine ⟨of_membershipMap_eq_some, ?_⟩
  rintro ⟨he, rfl⟩
  obtain ⟨a, ha⟩ := exists_membershipMap_eq_some he
  obtain ⟨hmem, hpair⟩ := of_membershipMap_eq_some ha
  rw [ha, h a hmem e he hpair]

/-- A pair is removed under each of its grantors, or at once where none is recorded. -/
theorem mem_removeAllEdges {pair : String × String} :
    c ∈ removeAllEdges current pair ↔
      (recordedGrantors current pair = none ∧ c = .removeMember pair.1 pair.2 none) ∨
        ∃ grantors g, recordedGrantors current pair = some grantors ∧ g ∈ grantors ∧
          executorAuthority current pair.1 pair.2 g = false ∧
            c = .removeMember pair.1 pair.2 (some g) := by
  unfold removeAllEdges
  cases hg : recordedGrantors current pair with
  | none => simp
  | some grantors =>
      simp only [List.mem_map, List.mem_filter, ExtTreeSet.mem_toList, Bool.not_eq_true',
        reduceCtorEq, false_and, false_or, Option.some.injEq]
      constructor
      · rintro ⟨g, ⟨hg, ha⟩, rfl⟩
        exact ⟨grantors, g, rfl, hg, ha, rfl⟩
      · rintro ⟨_, g, rfl, hg, ha, rfl⟩
        exact ⟨g, ⟨hg, ha⟩, rfl⟩

/-- Options are reduced under each grantor that supplies what is not desired. -/
theorem mem_optionReductions {pair : String × String} {grantors : BTreeSet String}
    {currentEdge desiredEdge : MembershipEdge} :
    c ∈ optionReductions current pair grantors currentEdge desiredEdge ↔
      ∃ g ∈ grantors,
        ((inheritReduction current pair currentEdge desiredEdge g).isSome ∨
          (adminReduction current pair currentEdge desiredEdge g).isSome) ∧
        c = .updateMemberOptions pair.1 pair.2 g
          (inheritReduction current pair currentEdge desiredEdge g)
          (adminReduction current pair currentEdge desiredEdge g) none := by
  rw [optionReductions, List.mem_flatMap]
  refine exists_congr fun g => ?_
  rw [ExtTreeSet.mem_toList]
  refine and_congr_right fun _ => ?_
  cases inheritReduction current pair currentEdge desiredEdge g <;>
    cases adminReduction current pair currentEdge desiredEdge g <;> simp

/-- Options are increased by one change that names no grantor yet. -/
theorem mem_optionIncreases {pair : String × String} {grantors : BTreeSet String}
    {currentEdge desiredEdge : MembershipEdge} :
    c ∈ optionIncreases pair grantors currentEdge desiredEdge ↔
      ((optionIncrease currentEdge.inherit desiredEdge.inherit).isSome ∨
        (optionIncrease currentEdge.admin desiredEdge.admin).isSome) ∧
      c = .updateMemberOptions pair.1 pair.2 (grantors.toList.headD "")
        (optionIncrease currentEdge.inherit desiredEdge.inherit)
        (optionIncrease currentEdge.admin desiredEdge.admin) none := by
  unfold optionIncreases
  cases optionIncrease currentEdge.inherit desiredEdge.inherit <;>
    cases optionIncrease currentEdge.admin desiredEdge.admin <;> simp

/-- What a pair contributes to the additions. -/
theorem mem_pairAdds {pair : String × String} {desiredEdge : MembershipEdge} :
    c ∈ pairAdds current pair desiredEdge ↔
      ((membershipMap current.memberships)[pair]? = none ∧ c = addMemberOf desiredEdge) ∨
      ∃ currentEdge, (membershipMap current.memberships)[pair]? = some currentEdge ∧
        sameOptions currentEdge desiredEdge = false ∧
          ((recordedGrantors current pair = none ∧ c = addMemberOf desiredEdge) ∨
            ∃ grantors, recordedGrantors current pair = some grantors ∧
              c ∈ optionIncreases pair grantors currentEdge desiredEdge) := by
  unfold pairAdds
  cases (membershipMap current.memberships)[pair]? with
  | none => simp
  | some currentEdge =>
      cases hsame : sameOptions currentEdge desiredEdge with
      | true => simp [hsame]
      | false => cases recordedGrantors current pair <;> simp [hsame]

/-- What a pair contributes to the removals. -/
theorem mem_pairRemoves {pair : String × String} {desiredEdge : MembershipEdge} :
    c ∈ pairRemoves current pair desiredEdge ↔
      ∃ currentEdge, (membershipMap current.memberships)[pair]? = some currentEdge ∧
        sameOptions currentEdge desiredEdge = false ∧
          ((recordedGrantors current pair = none ∧ c = .removeMember pair.1 pair.2 none) ∨
            ∃ grantors, recordedGrantors current pair = some grantors ∧
              c ∈ optionReductions current pair grantors currentEdge desiredEdge) := by
  unfold pairRemoves
  cases (membershipMap current.memberships)[pair]? with
  | none => simp
  | some currentEdge =>
      cases hsame : sameOptions currentEdge desiredEdge with
      | true => simp [hsame]
      | false =>
          cases hg : recordedGrantors current pair with
          | none => simp [hsame, removeAllEdges, hg]
          | some grantors => simp [hsame]

theorem mem_memberAdds :
    c ∈ memberAdds current desired ↔
      ∃ pair e, (membershipMap desired.memberships)[pair]? = some e ∧
        c ∈ pairAdds current pair e := by
  rw [memberAdds, mem_flatMap_toList]

/-- Members are removed by the pairs that are desired, and by those that are not. -/
theorem mem_memberRemoves :
    c ∈ memberRemoves current desired ↔
      (∃ pair e, (membershipMap desired.memberships)[pair]? = some e ∧
        c ∈ pairRemoves current pair e) ∨
      ∃ pair e, (membershipMap current.memberships)[pair]? = some e ∧
        (membershipMap desired.memberships)[pair]? = none ∧ c ∈ removeAllEdges current pair := by
  rw [memberRemoves, List.mem_append, mem_flatMap_toList, mem_flatMap_toList]
  refine or_congr Iff.rfl (exists_congr fun pair => exists_congr fun e => and_congr_right fun _ => ?_)
  by_cases h : pair ∈ membershipMap desired.memberships
  · have hsome := mem_iff_exists_getElem?.1 h
    simp [h]
  · simp [h]

/-- Default privileges are revoked as they were accumulated by key. -/
theorem mem_defaultRevokes :
    c ∈ defaultRevokes current desired ↔
      ∃ k s, (accumulatedDefaultRevokes current desired)[k]? = some s ∧
        c = .revokeDefaultPrivilege k s := by
  rw [defaultRevokes, mem_flatMap_toList]
  simp only [List.mem_singleton]

/-! ## The phase of each bucket -/

theorem phase_of_mem_roleCreates (h : c ∈ roleCreates current desired) :
    c.phase = .createRole := by
  obtain ⟨n, s, -, -, rfl⟩ := mem_roleCreates.1 h
  rfl

theorem phase_of_mem_roleAlters (h : c ∈ roleAlters current desired) : c.phase = .alterRole := by
  obtain ⟨n, s, -, ⟨-, -, rfl⟩ | ⟨t, -, ⟨-, rfl⟩ | ⟨-, rfl⟩⟩⟩ := mem_roleAlters.1 h <;> rfl

theorem phase_of_mem_roleDrops (h : c ∈ roleDrops current desired) : c.phase = .dropRole := by
  obtain ⟨n, s, -, -, rfl⟩ := mem_roleDrops.1 h
  rfl

theorem phase_of_mem_schemaChanges (h : c ∈ schemaChanges current desired) :
    c.phase = .schema := by
  obtain ⟨n, d, -, ⟨-, rfl⟩ | ⟨t, o, -, -, -, rfl⟩⟩ := mem_schemaChanges.1 h <;> rfl

theorem phase_of_mem_schemaGrants (h : c ∈ schemaGrants current desired) :
    c.phase = .ownerPrivileges := by
  obtain ⟨n, d, t, o, -, -, -, -, rfl⟩ := mem_schemaGrants.1 h
  rfl

theorem phase_of_mem_grantChanges (h : c ∈ grantChanges current desired) : c.phase = .grant := by
  obtain ⟨k, s, -, -, rfl⟩ := mem_grantChanges.1 h
  rfl

theorem phase_of_mem_defaultSets (h : c ∈ defaultSets current desired) :
    c.phase = .setDefault := by
  obtain ⟨k, s, -, -, rfl⟩ := mem_defaultSets.1 h
  rfl

theorem phase_of_mem_defaultRevokes (h : c ∈ defaultRevokes current desired) :
    c.phase = .revokeDefault := by
  obtain ⟨k, s, -, rfl⟩ := mem_defaultRevokes.1 h
  rfl

theorem phase_of_mem_removeAllEdges {pair : String × String}
    (h : c ∈ removeAllEdges current pair) : c.phase = .membership := by
  rcases mem_removeAllEdges.1 h with ⟨-, rfl⟩ | ⟨_, _, -, -, -, rfl⟩ <;> rfl

theorem phase_of_mem_memberAdds (h : c ∈ memberAdds current desired) :
    c.phase = .membership := by
  obtain ⟨pair, e, -, hc⟩ := mem_memberAdds.1 h
  rcases mem_pairAdds.1 hc with ⟨-, rfl⟩ | ⟨_, -, -, ⟨-, rfl⟩ | ⟨grantors, -, hc⟩⟩
  · rfl
  · rfl
  · obtain ⟨-, rfl⟩ := mem_optionIncreases.1 hc
    rfl

theorem phase_of_mem_memberRemoves (h : c ∈ memberRemoves current desired) :
    c.phase = .membership := by
  rcases mem_memberRemoves.1 h with ⟨pair, e, -, hc⟩ | ⟨pair, e, -, -, hc⟩
  · rcases mem_pairRemoves.1 hc with ⟨_, -, -, ⟨-, rfl⟩ | ⟨grantors, -, hc⟩⟩
    · rfl
    · obtain ⟨g, -, -, rfl⟩ := mem_optionReductions.1 hc
      rfl
  · exact phase_of_mem_removeAllEdges hc

theorem phase_of_mem_pushRevokesOnTarget {k : GrantKey} {s : Finset Privilege}
    (h : c ∈ pushRevokesOnTarget current desired k s) : c.phase = .revoke := by
  unfold pushRevokesOnTarget at h
  split at h
  · rw [List.mem_singleton.1 h]
    rfl
  · split at h
    · rw [List.mem_singleton.1 h]
      rfl
    · rcases List.mem_append.1 h with h | h
      · obtain ⟨g, t, -, hc⟩ := mem_flatMap_toList.1 h
        split_ifs at hc
        · simp at hc
        · rw [List.mem_singleton.1 hc]
          rfl
      · split_ifs at h
        · simp at h
        · rw [List.mem_singleton.1 h]
          rfl

theorem phase_of_mem_plannedRevokes (h : c ∈ plannedRevokes current desired) :
    c.phase = .revoke := by
  obtain ⟨k, s, -, hc⟩ := mem_flatMap_toList.1 (List.mem_of_mem_filter h)
  unfold pushRevokesSplitByGrantor at hc
  split at hc
  · obtain ⟨a, held, -, hc⟩ := mem_flatMap_toList.1 hc
    simp only at hc
    split_ifs at hc
    · simp at hc
    · simp at hc
    · exact phase_of_mem_pushRevokesOnTarget hc
  · exact phase_of_mem_pushRevokesOnTarget hc

/-! ## Phases of a plan -/

/-- Changes of one phase are all kept or all left out by a test on phases. -/
theorem filter_phase {l : List Change} {phase : Phase} (h : ∀ c ∈ l, c.phase = phase)
    (q : Phase → Bool) : l.filter (fun c => q c.phase) = if q phase then l else [] := by
  cases hq : q phase with
  | true => exact List.filter_eq_self.2 fun c hc => by rw [h c hc, hq]
  | false =>
      refine List.filter_eq_nil_iff.2 fun c hc => ?_
      rw [h c hc, hq]
      exact Bool.false_ne_true

/-- The changes of some phases, in plan order. -/
theorem filter_phase_diffResolved (q : Phase → Bool) :
    (diffResolved current desired).filter (fun c => q c.phase) =
      (if q .createRole then roleCreates current desired else []) ++
      (if q .alterRole then roleAlters current desired else []) ++
      (if q .schema then schemaChanges current desired else []) ++
      (if q .ownerPrivileges then schemaGrants current desired else []) ++
      (if q .grant then grantChanges current desired else []) ++
      (if q .setDefault then defaultSets current desired else []) ++
      (if q .revoke then plannedRevokes current desired else []) ++
      (if q .membership then memberRemoves current desired else []) ++
      (if q .membership then memberAdds current desired else []) ++
      (if q .revokeDefault then defaultRevokes current desired else []) ++
      (if q .dropRole then roleDrops current desired else []) := by
  simp only [diffResolved, List.filter_append,
    filter_phase (fun _ => phase_of_mem_roleCreates) q,
    filter_phase (fun _ => phase_of_mem_roleAlters) q,
    filter_phase (fun _ => phase_of_mem_schemaChanges) q,
    filter_phase (fun _ => phase_of_mem_schemaGrants) q,
    filter_phase (fun _ => phase_of_mem_grantChanges) q,
    filter_phase (fun _ => phase_of_mem_defaultSets) q,
    filter_phase (fun _ => phase_of_mem_plannedRevokes) q,
    filter_phase (fun _ => phase_of_mem_memberRemoves) q,
    filter_phase (fun _ => phase_of_mem_memberAdds) q,
    filter_phase (fun _ => phase_of_mem_defaultRevokes) q,
    filter_phase (fun _ => phase_of_mem_roleDrops) q]

/-- The changes of a plan's revoke phase. -/
theorem filter_revokes_diffResolved :
    (diffResolved current desired).filter (fun c => c.phase == .revoke) =
      plannedRevokes current desired := by
  rw [filter_phase_diffResolved (· == .revoke)]
  simp

/-- A change of the plan is in the bucket of its phase. -/
theorem mem_bucket_of_mem_diffResolved (h : c ∈ diffResolved current desired) :
    c ∈ (diffResolved current desired).filter fun c' => c'.phase == c.phase :=
  List.mem_filter.2 ⟨h, by simp⟩

/-- A revoke of the plan comes from the planned revokes. -/
theorem mem_plannedRevokes_of_revoke {k : GrantKey} {s : Finset Privilege} {g : Option String}
    (h : .revoke k s g ∈ diffResolved current desired) :
    .revoke k s g ∈ plannedRevokes current desired := by
  have hbucket := mem_bucket_of_mem_diffResolved h
  rw [filter_phase_diffResolved (· == _)] at hbucket
  simpa [Change.phase] using hbucket

theorem mem_roleCreates_of_create {n : String} {s : RoleState}
    (h : .createRole n s ∈ diffResolved current desired) :
    .createRole n s ∈ roleCreates current desired := by
  have hbucket := mem_bucket_of_mem_diffResolved h
  rw [filter_phase_diffResolved (· == _)] at hbucket
  simpa [Change.phase] using hbucket

theorem mem_schemaChanges_of_create {n : String} {o : Option String}
    (h : .createSchema n o ∈ diffResolved current desired) :
    .createSchema n o ∈ schemaChanges current desired := by
  have hbucket := mem_bucket_of_mem_diffResolved h
  rw [filter_phase_diffResolved (· == _)] at hbucket
  simpa [Change.phase] using hbucket

/-- The owner transfers of a plan are those of its schema phase. -/
theorem mem_schemaChanges_of_transfer {n o : String}
    (h : .alterSchemaOwner n o ∈ diffResolved current desired) :
    .alterSchemaOwner n o ∈ schemaChanges current desired := by
  have hbucket := mem_bucket_of_mem_diffResolved h
  rw [filter_phase_diffResolved (· == _)] at hbucket
  simpa [Change.phase] using hbucket

end PgRoles.Core

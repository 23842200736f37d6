import PgRoles.Core.RevokeSpec

/-!
# Exactness of object revokes

For a current graph of concrete keys and unchanged schema owners, the diff revokes a held privilege
on a concrete target exactly when the desired graph asks for it, and names, for each such privilege,
every ACL entry that records it. A privilege whose absence is asserted both for the target and for
the wildcard of its scope is revoked twice: the two assertions accumulate under two keys
(`exactRevokes_iff`).
-/

set_option autoImplicit false

namespace PgRoles.Core

open Std PgRoles.Lib

variable {current desired : RoleGraph} {k : GrantKey} {p : Privilege}

/-! ## Revokes of a whole plan -/

theorem revokeGrantors_diffResolved :
    revokeGrantors k p (diffResolved current desired) =
      revokeGrantors k p (plannedRevokes current desired) := by
  rw [← filter_revokes_diffResolved, revokeGrantors, revokeGrantors, List.filterMap_filter]
  refine List.filterMap_congr fun c _ => ?_
  cases c <;> rfl

/-! ## The domain -/

/-- The current graph has concrete keys only, its ACL entries account for its grants, and no schema
changes owner. -/
structure ConcreteRecords (current desired : RoleGraph) : Prop where
  grants_concrete : ∀ (k : GrantKey) s, current.grants[k]? = some s → k.isWildcard = false
  entries_concrete : ∀ (k : GrantKey) m, current.grantEntryGrantors[k]? = some m → k.isWildcard = false
  inherent_concrete : ∀ k ∈ current.inherentGrants, k.isWildcard = false
  entries_complete : ∀ k m, current.grantEntryGrantors[k]? = some m →
    ∀ p, (∃ (g : String) (s : Finset Privilege), m[g]? = some s ∧ p ∈ s) ↔ p ∈ entryAt current.grants k
  same_owners : ∀ (n : String) (c d : SchemaState), current.schemas[n]? = some c →
    desired.schemas[n]? = some d → d.owner = c.owner

theorem mem_accumulatedRevokes_of_concrete (hk : k.isWildcard = false) :
    p ∈ entryAt (accumulatedRevokes current desired) k ↔
      k ∉ current.inherentGrants ∧ p ∈ entryAt current.grants k ∧
        (p ∈ entryAt desired.grantAbsences k ∨
          (k.role.isPublic = false ∧ p ∉ entryAt desired.grants k ∧
            p ∉ desiredWildcard desired k ∧ p ∉ absenceWildcard desired k)) := by
  rw [mem_accumulatedRevokes, mem_shadowFilter hk, mem_heldForAbsence_of_concrete hk,
    Finset.mem_sdiff]
  tauto

namespace ConcreteRecords

variable (h : ConcreteRecords current desired)

include h

theorem schemaOwnerTransfers_eq_false : schemaOwnerTransfers current desired k = false := by
  unfold schemaOwnerTransfers
  split
  · split
    · next c d hc hd => simp [h.same_owners _ c d hc hd]
    · rfl
  · rfl

theorem plannedRevokes_eq : plannedRevokes current desired = revokeChanges current desired := by
  refine List.filter_eq_self.2 fun c _ => ?_
  have hno : ∀ n o, Change.alterSchemaOwner n o ∉ schemaChanges current desired := by
    intro n o hmem
    obtain ⟨m, d, hd, ⟨-, heq⟩ | ⟨t, o', ht, ho, hne, -⟩⟩ := mem_schemaChanges.1 hmem
    · cases heq
    · exact hne (ho ▸ (h.same_owners m t d ht hd).symm)
  unfold revokesIncomingOwner
  split
  · split
    · simp [hno]
    · rfl
  · rfl

theorem held_of_recordedEntries (hp : recordedEntries current k p ≠ []) :
    p ∈ entryAt current.grants k := by
  unfold recordedEntries at hp
  cases hm : current.grantEntryGrantors[k]? with
  | none => simp [hm] at hp
  | some m =>
      rw [hm, Option.elim_some, ne_eq, List.filterMap_eq_nil_iff] at hp
      simp only [ite_eq_right_iff, reduceCtorEq, imp_false, not_forall, not_not] at hp
      obtain ⟨⟨g, s⟩, hmem, hps⟩ := hp
      exact (h.entries_complete k m hm p).1 ⟨g, s, mem_toList_iff.1 hmem, hps⟩

theorem entryAt_wildcard_eq_empty : entryAt current.grants k.wildcard = ∅ := by
  by_contra hne
  obtain ⟨q, hq⟩ := Finset.nonempty_iff_ne_empty.2 hne
  have hconcrete := h.grants_concrete _ _ (getElem?_of_mem_entryAt hq)
  rw [GrantKey.isWildcard_wildcard] at hconcrete
  cases hconcrete

/-- A wildcard reaches a held privilege exactly through an absence asserted for the wildcard. -/
theorem reachedByWildcard_iff (hk : k.isWildcard = false) :
    ReachedByWildcard current desired k p ↔
      k ∉ current.inherentGrants ∧ p ∈ entryAt current.grants k ∧
        p ∈ entryAt desired.grantAbsences k.wildcard := by
  unfold ReachedByWildcard
  rw [mem_accumulatedRevokes, mem_concreteTargets,
    mem_heldForAbsence_of_wildcard GrantKey.isWildcard_wildcard, h.entryAt_wildcard_eq_empty]
  constructor
  · rintro ⟨hinh, (⟨-, -, hp⟩ | ⟨hp, -⟩), -, -, hheld⟩
    · have hempty := Finset.mem_sdiff.1 (shadowFilter_subset hp)
      simp at hempty
    · exact ⟨hinh, hheld.elim h.held_of_recordedEntries id, hp⟩
  · rintro ⟨hinh, hheld, hp⟩
    exact ⟨hinh, Or.inr ⟨hp, k, GrantKey.sameScope_wildcard, hinh, hheld⟩,
      GrantKey.sameScope_wildcard, hk, Or.inr hheld⟩

/-- No revoke names a wildcard: whatever an absence wildcard finds held is a recorded object. -/
theorem isWildcard_eq_false_of_revoke {s : Finset Privilege} {g : Option String}
    (hmem : .revoke k s g ∈ revokeChanges current desired) : k.isWildcard = false := by
  obtain ⟨w, t, hw, hc⟩ := mem_flatMap_toList.1 hmem
  obtain ⟨a, u, g', heq, -, ⟨hexp, rfl⟩ | ⟨-, -, hconcrete, -⟩⟩ := mem_pushRevokesSplitByGrantor hc
  · obtain ⟨rfl, -, -⟩ := Change.revoke.inj heq
    rw [← Bool.not_eq_true]
    intro hwild
    have hself : k.wildcard = k := (GrantKey.eq_wildcard_of_sameScope hwild
      (GrantKey.sameScope_iff.2 ⟨rfl, rfl, rfl⟩)).symm
    obtain ⟨q, hq⟩ := Finset.nonempty_iff_ne_empty.2 (accumulatedRevokes_nonempty hw)
    rw [← entryAt_of_getElem? hw, ← hself, mem_accumulatedRevokes,
      h.entryAt_wildcard_eq_empty] at hq
    rcases hq with ⟨-, -, hq⟩ | ⟨-, hq⟩
    · have hempty := Finset.mem_sdiff.1 (shadowFilter_subset hq)
      simp at hempty
    · obtain ⟨b, hscope, -, hb⟩ :=
        (mem_heldForAbsence_of_wildcard GrantKey.isWildcard_wildcard).1 hq
      have hbconcrete := h.grants_concrete b _ (getElem?_of_mem_entryAt hb)
      have hbw : k.wildcard = b.wildcard :=
        GrantKey.eq_wildcard_of_sameScope GrantKey.isWildcard_wildcard hscope
      have htarget : q ∈ entryAt (concreteTargets current b.wildcard) b :=
        mem_concreteTargets.2 ⟨GrantKey.sameScope_wildcard, hbconcrete, Or.inr hb⟩
      rw [← hself, hbw, expandsWildcard_of_mem_concreteTargets htarget] at hexp
      cases hexp
  · obtain ⟨rfl, -, -⟩ := Change.revoke.inj heq
    exact hconcrete

end ConcreteRecords

/-! ## Exactness -/

/-- The desired graph asks that `p` not be held on `k`, and the entry is revocable. -/
def Revocable (current desired : RoleGraph) (k : GrantKey) (p : Privilege) : Prop :=
  k ∉ current.inherentGrants ∧
    (p ∈ entryAt desired.grantAbsences k ∨ p ∈ entryAt desired.grantAbsences k.wildcard ∨
      (k.role.isPublic = false ∧ p ∉ entryAt desired.grants k ∧ p ∉ desiredWildcard desired k))

/-- The plan revokes exactly the revocable privileges, each once per ACL entry that records it and
on no other entry, and never by a wildcard. -/
structure ExactRevokes (current desired : RoleGraph) (plan : List Change) : Prop where
  revokes_iff : ∀ k p, p ∈ entryAt current.grants k →
    (Revokes plan k p ↔ Revocable current desired k p)
  once_per_entry : ∀ k p, p ∈ entryAt current.grants k → Revocable current desired k p →
    (revokeGrantors k p plan).Perm (entryGrantors current k p)
  only_holders : ∀ k s g, .revoke k s g ∈ plan → ∀ p ∈ s,
    p ∈ entryAt current.grants k ∧ ∀ name, g = some name → name ∈ recordedEntries current k p
  no_wildcard : ∀ k s g, .revoke k s g ∈ plan → k.isWildcard = false

/-- A wildcard absence and a second ground of its own both revoke `p` on `k`: an absence asserted
for `k` itself or, where `k` has no schema, its missing declaration. -/
def DoublyRevoked (desired : RoleGraph) (k : GrantKey) (p : Privilege) : Prop :=
  p ∈ entryAt desired.grantAbsences k.wildcard ∧
    (p ∈ entryAt desired.grantAbsences k ∨
      (k.schema = none ∧ k.role.isPublic = false ∧ p ∉ entryAt desired.grants k))

section Exactness

variable (h : ConcreteRecords current desired)

include h

/-- The grantors of a privilege's revokes, those of named targets and those of wildcards. -/
theorem revokeGrantors_diffResolved_perm (hk : k.isWildcard = false) :
    (revokeGrantors k p (diffResolved current desired)).Perm
      ((if p ∈ entryAt (accumulatedRevokes current desired) k then
          entryGrantors current k p else []) ++
        if ReachedByWildcard current desired k p then entryGrantors current k p else []) := by
  have htarget : targetGrantors current desired k p = entryGrantors current k p := by
    rw [targetGrantors, h.schemaOwnerTransfers_eq_false]
    rfl
  rw [revokeGrantors_diffResolved, h.plannedRevokes_eq, ← htarget]
  exact revokeGrantors_revokeChanges hk

/-- A privilege that is held is revoked when it is revocable. -/
theorem revocable_iff (hheld : p ∈ entryAt current.grants k) :
    (p ∈ entryAt (accumulatedRevokes current desired) k ∨ ReachedByWildcard current desired k p) ↔
      Revocable current desired k p := by
  have hk := h.grants_concrete k _ (getElem?_of_mem_entryAt hheld)
  rw [mem_accumulatedRevokes_of_concrete hk, h.reachedByWildcard_iff hk, Revocable]
  have habs : p ∈ absenceWildcard desired k → p ∈ entryAt desired.grantAbsences k.wildcard := by
    unfold absenceWildcard
    split
    · exact id
    · simp
  tauto

/-- When both a named target and a wildcard revoke it. -/
theorem doublyRevoked_iff (hheld : p ∈ entryAt current.grants k) :
    (p ∈ entryAt (accumulatedRevokes current desired) k ∧ ReachedByWildcard current desired k p) ↔
      k ∉ current.inherentGrants ∧ DoublyRevoked desired k p := by
  have hk := h.grants_concrete k _ (getElem?_of_mem_entryAt hheld)
  rw [mem_accumulatedRevokes_of_concrete hk, h.reachedByWildcard_iff hk, DoublyRevoked,
    absenceWildcard, desiredWildcard]
  cases hs : k.schema with
  | none => simp [hheld]; tauto
  | some schema => simp [hheld]; tauto

/-- Each of the two grounds alone gives the exact list; both together give it twice. -/
theorem revokeGrantors_perm_iff (hheld : p ∈ entryAt current.grants k)
    (hrev : Revocable current desired k p) :
    (revokeGrantors k p (diffResolved current desired)).Perm (entryGrantors current k p) ↔
      ¬ (k ∉ current.inherentGrants ∧ DoublyRevoked desired k p) := by
  have hk := h.grants_concrete k _ (getElem?_of_mem_entryAt hheld)
  have hlist := revokeGrantors_diffResolved_perm h hk (p := p)
  have hsome := (revocable_iff h hheld).2 hrev
  rw [← doublyRevoked_iff h hheld]
  by_cases hown : p ∈ entryAt (accumulatedRevokes current desired) k
  · by_cases hwild : ReachedByWildcard current desired k p
    · rw [if_pos hown, if_pos hwild] at hlist
      refine iff_of_false (fun hperm => ?_) (not_not.2 ⟨hown, hwild⟩)
      have hlen := (hperm.symm.trans hlist).length_eq
      have hpos : 0 < (entryGrantors current k p).length :=
        List.length_pos_iff.2 entryGrantors_ne_nil
      rw [List.length_append] at hlen
      omega
    · rw [if_pos hown, if_neg hwild, List.append_nil] at hlist
      exact iff_of_true hlist fun hboth => hwild hboth.2
  · have hwild := hsome.resolve_left hown
    rw [if_neg hown, if_pos hwild, List.nil_append] at hlist
    exact iff_of_true hlist fun hboth => hown hboth.1

theorem revokes_diffResolved_iff (hheld : p ∈ entryAt current.grants k) :
    Revokes (diffResolved current desired) k p ↔ Revocable current desired k p := by
  have hk := h.grants_concrete k _ (getElem?_of_mem_entryAt hheld)
  rw [revokes_iff, revokeGrantors_diffResolved, h.plannedRevokes_eq, ← revokes_iff,
    revokes_revokeChanges hk]
  exact revocable_iff h hheld

/-- A revoke names held privileges only, and a grantor whose entry carries them. -/
theorem only_holders_of_revoke {s : Finset Privilege} {g : Option String}
    (hmem : .revoke k s g ∈ diffResolved current desired) (hp : p ∈ s) :
    p ∈ entryAt current.grants k ∧ ∀ name, g = some name → name ∈ recordedEntries current k p := by
  have hchange := mem_plannedRevokes_of_revoke hmem
  rw [h.plannedRevokes_eq] at hchange
  have hk := h.isWildcard_eq_false_of_revoke hchange
  have hg : g ∈ revokeGrantors k p (diffResolved current desired) :=
    mem_revokeGrantors.2 ⟨s, hmem, hp⟩
  rw [(revokeGrantors_diffResolved_perm h hk).mem_iff, List.mem_append] at hg
  have hentry : g ∈ entryGrantors current k p ∧ p ∈ entryAt current.grants k := by
    rcases hg with hg | hg
    · split_ifs at hg with hown
      · exact ⟨hg, ((mem_accumulatedRevokes_of_concrete hk).1 hown).2.1⟩
      · simp at hg
    · split_ifs at hg with hwild
      · exact ⟨hg, ((h.reachedByWildcard_iff hk).1 hwild).2.1⟩
      · simp at hg
  refine ⟨hentry.2, ?_⟩
  rintro name rfl
  have hname := hentry.1
  unfold entryGrantors at hname
  split_ifs at hname
  · simp at hname
  · simpa using hname

end Exactness

theorem ConcreteRecords.resolved (h : ConcreteRecords current desired) :
    ConcreteRecords current (desired.resolveRoutineAliases current.routineAliases) where
  grants_concrete := h.grants_concrete
  entries_concrete := h.entries_concrete
  inherent_concrete := h.inherent_concrete
  entries_complete := h.entries_complete
  same_owners := by
    rw [resolveRoutineAliases_schemas]
    exact h.same_owners

/-- The object revokes of a plan are exact if and only if no held revocable privilege has two
grounds for its revocation. -/
theorem exactRevokes_iff (h : ConcreteRecords current desired) :
    ExactRevokes current (desired.resolveRoutineAliases current.routineAliases)
        (diff current desired) ↔
      ∀ k p, p ∈ entryAt current.grants k → k ∉ current.inherentGrants →
        ¬ DoublyRevoked (desired.resolveRoutineAliases current.routineAliases) k p := by
  have hr := h.resolved
  unfold diff
  constructor
  · intro hexact k p hheld hinh hdouble
    have hrev : Revocable current (desired.resolveRoutineAliases current.routineAliases) k p :=
      ⟨hinh, Or.inr (Or.inl hdouble.1)⟩
    exact (revokeGrantors_perm_iff hr hheld hrev).1 (hexact.once_per_entry k p hheld hrev)
      ⟨hinh, hdouble⟩
  · intro hcond
    refine ⟨fun k p => revokes_diffResolved_iff hr, fun k p hheld hrev => ?_, fun k s g hmem p hp =>
      only_holders_of_revoke hr hmem hp, fun k s g hmem => ?_⟩
    · refine (revokeGrantors_perm_iff hr hheld hrev).2 ?_
      rintro ⟨hinh, hdouble⟩
      exact hcond k p hheld hinh hdouble
    · have hchange := mem_plannedRevokes_of_revoke hmem
      rw [hr.plannedRevokes_eq] at hchange
      exact hr.isWildcard_eq_false_of_revoke hchange

/-! ## A target absent twice -/

/-- `SELECT` on one table, held by one role. -/
def heldTable : GrantKey := ⟨.role "reader", .table, some "app", some "orders"⟩

/-- A graph in which the privilege is held. -/
def heldTableGraph : RoleGraph := { grants := extendEntry ∅ heldTable {.select} }

/-- The absence of `SELECT`, asserted for the table and for every table of the schema. -/
def absentTwiceGraph : RoleGraph :=
  { grantAbsences := extendEntry (extendEntry ∅ heldTable {.select}) heldTable.wildcard {.select} }

/-- The graph has concrete records. -/
theorem heldTableGraph_concreteRecords (desired : RoleGraph) :
    ConcreteRecords heldTableGraph desired where
  grants_concrete := by
    intro k s hk
    rw [heldTableGraph, getElem?_extendEntry] at hk
    split_ifs at hk with heq
    · rw [← heq]
      rfl
    · simp at hk
  entries_concrete := by
    intro k m hm
    simp [heldTableGraph] at hm
  inherent_concrete := by
    intro k hk
    exact absurd hk ExtTreeSet.not_mem_empty
  entries_complete := by
    intro k m hm
    simp [heldTableGraph] at hm
  same_owners := by
    intro n c d hc
    simp [heldTableGraph] at hc

/-- The absence of `SELECT`, asserted for the table alone. -/
def absentOnceGraph : RoleGraph := { grantAbsences := extendEntry ∅ heldTable {.select} }

/-- With the one assertion the revokes are exact. -/
theorem absentOnce_exactRevokes :
    ConcreteRecords heldTableGraph absentOnceGraph ∧
      ExactRevokes heldTableGraph
        (absentOnceGraph.resolveRoutineAliases heldTableGraph.routineAliases)
        (diff heldTableGraph absentOnceGraph) := by
  refine ⟨heldTableGraph_concreteRecords _,
    (exactRevokes_iff (heldTableGraph_concreteRecords _)).2 ?_⟩
  rintro k p - - ⟨hwild, -⟩
  have hentry : p ∈ entryAt (extendEntry ∅ heldTable {.select}) k.wildcard := hwild
  rw [mem_entryAt_extendEntry] at hentry
  rcases hentry with hentry | ⟨heq, -⟩
  · simp [entryAt] at hentry
  · have hname := congrArg GrantKey.isWildcard heq
    rw [GrantKey.isWildcard_wildcard] at hname
    exact absurd hname (by decide)

/-- The plan revokes `SELECT` on the table twice. -/
theorem absentTwice_not_exactRevokes :
    ConcreteRecords heldTableGraph absentTwiceGraph ∧
      revokeGrantors heldTable .select (diff heldTableGraph absentTwiceGraph) = [none, none] ∧
      ¬ ExactRevokes heldTableGraph
        (absentTwiceGraph.resolveRoutineAliases heldTableGraph.routineAliases)
        (diff heldTableGraph absentTwiceGraph) := by
  have htwice :
      revokeGrantors heldTable .select (diff heldTableGraph absentTwiceGraph) = [none, none] := by
    decide
  refine ⟨heldTableGraph_concreteRecords _, htwice, fun hexact => ?_⟩
  have hperm := hexact.once_per_entry heldTable .select (by decide)
    ⟨ExtTreeSet.not_mem_empty, Or.inl (by decide)⟩
  rw [htwice] at hperm
  have hlen := hperm.length_eq
  revert hlen
  decide

end PgRoles.Core

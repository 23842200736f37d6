import PgRoles.Core.RevokeSpec
import PgRoles.Core.GraphEntries

/-!
# What a plan of comments says

Two graphs whose plan changes nothing but comments have the same roles up to comments, the second
one's grants and default privileges are among the first one's, and the first one's excess is only
what no revoke can be planned for: privileges that a wildcard of the second graph shadows, and
wildcards whose scope has recorded objects.
-/

set_option autoImplicit false

namespace PgRoles.Core

open Std PgRoles.Lib

/-- The change sets a comment. -/
def Change.IsComment : Change → Prop
  | .setComment _ _ => True
  | _ => False

/-- A role state without its comment. -/
def RoleState.withoutComment (s : RoleState) : RoleState := { s with comment := none }

theorem configChanges_eq_nil {old new : BTreeMap String String}
    (hchanged : changedConfig old new = []) (hremoved : removedConfig old new = []) :
    old = new := by
  refine ExtTreeMap.ext_getElem? fun k => ?_
  cases hn : new[k]? with
  | some v =>
      have hk := List.flatMap_eq_nil_iff.1 hchanged (k, v) (mem_toList_iff.2 hn)
      by_contra hne
      rw [if_neg hne] at hk
      cases hk
  | none =>
      cases ho : old[k]? with
      | none => rfl
      | some v =>
          have hk := List.flatMap_eq_nil_iff.1 hremoved (k, v) (mem_toList_iff.2 ho)
          rw [if_neg (not_mem_iff_getElem?.2 hn)] at hk
          cases hk

theorem changedAttribute_eq_nil {α : Type} [DecidableEq α] {kind : α → RoleAttribute} {old new : α}
    (h : changedAttribute kind old new = []) : old = new := by
  by_contra hne
  rw [changedAttribute, if_neg hne] at h
  cases h

/-- States without an attribute to change differ in their comments alone. -/
theorem withoutComment_eq_of_changedAttributes {s t : RoleState}
    (h : s.changedAttributes t = []) : s.withoutComment = t.withoutComment := by
  unfold RoleState.changedAttributes at h
  simp only [List.flatten_eq_nil_iff, List.forall_mem_cons] at h
  obtain ⟨h₁, h₂, h₃, h₄, h₅, h₆, h₇, h₈, h₉, h₁₀, h₁₁, -⟩ := h
  obtain ⟨_, _, _, _, _, _, _, _, _, _, _⟩ := s
  obtain ⟨_, _, _, _, _, _, _, _, _, _, _⟩ := t
  simp only [RoleState.withoutComment, RoleState.mk.injEq]
  exact ⟨changedAttribute_eq_nil h₁, changedAttribute_eq_nil h₂, changedAttribute_eq_nil h₃,
    changedAttribute_eq_nil h₄, changedAttribute_eq_nil h₅, changedAttribute_eq_nil h₆,
    changedAttribute_eq_nil h₇, changedAttribute_eq_nil h₈, trivial, changedAttribute_eq_nil h₉,
    configChanges_eq_nil h₁₀ h₁₁⟩

section Silent

variable {current desired : RoleGraph} (h : ∀ c ∈ diffResolved current desired, c.IsComment)

include h

theorem silent_nil {l : List Change} (hsub : l ⊆ diffResolved current desired)
    (hno : ∀ c ∈ l, ¬ c.IsComment) : l = [] :=
  List.eq_nil_iff_forall_not_mem.2 fun c hc => hno c hc (h c (hsub hc))

theorem silent_roleCreates : roleCreates current desired = [] := by
  refine silent_nil h (fun c hc => ?_) fun c hc hcomment => ?_
  · simp only [diffResolved, List.mem_append]
    tauto
  · obtain ⟨n, s, -, -, rfl⟩ := mem_roleCreates.1 hc
    exact hcomment

theorem silent_roleDrops : roleDrops current desired = [] := by
  refine silent_nil h (fun c hc => ?_) fun c hc hcomment => ?_
  · simp only [diffResolved, List.mem_append]
    tauto
  · obtain ⟨n, s, -, -, rfl⟩ := mem_roleDrops.1 hc
    exact hcomment

theorem silent_schemaChanges : schemaChanges current desired = [] := by
  refine silent_nil h (fun c hc => ?_) fun c hc hcomment => ?_
  · simp only [diffResolved, List.mem_append]
    tauto
  · obtain ⟨n, d, -, ⟨-, rfl⟩ | ⟨t, o, -, -, -, rfl⟩⟩ := mem_schemaChanges.1 hc
    · exact hcomment
    · exact hcomment

theorem silent_grantChanges : grantChanges current desired = [] := by
  refine silent_nil h (fun c hc => ?_) fun c hc hcomment => ?_
  · simp only [diffResolved, List.mem_append]
    tauto
  · obtain ⟨k, s, -, -, rfl⟩ := mem_grantChanges.1 hc
    exact hcomment

theorem silent_defaultSets : defaultSets current desired = [] := by
  refine silent_nil h (fun c hc => ?_) fun c hc hcomment => ?_
  · simp only [diffResolved, List.mem_append]
    tauto
  · obtain ⟨k, s, -, -, rfl⟩ := mem_defaultSets.1 hc
    exact hcomment

theorem silent_defaultRevokes : defaultRevokes current desired = [] := by
  refine silent_nil h (fun c hc => ?_) fun c hc hcomment => ?_
  · simp only [diffResolved, List.mem_append]
    tauto
  · obtain ⟨k, s, -, rfl⟩ := mem_defaultRevokes.1 hc
    exact hcomment

/-- Without transfers every planned revoke is kept. -/
theorem silent_revokeChanges : revokeChanges current desired = [] := by
  have hplanned : plannedRevokes current desired = revokeChanges current desired := by
    refine List.filter_eq_self.2 fun c _ => ?_
    rw [silent_schemaChanges h]
    unfold revokesIncomingOwner
    split
    · split
      · rfl
      · rfl
    · rfl
  rw [← hplanned]
  refine silent_nil h (fun c hc => ?_) fun c hc hcomment => ?_
  · simp only [diffResolved, List.mem_append]
    tauto
  · obtain ⟨k, s, -, hc⟩ := mem_flatMap_toList.1 (List.mem_of_mem_filter hc)
    obtain ⟨a, t, grantor, rfl, -⟩ := mem_pushRevokesSplitByGrantor hc
    exact hcomment

/-! ## Roles and grants -/

/-- The roles are the same up to comments. -/
theorem silent_roles (name : String) :
    current.roles[name]?.map (·.withoutComment) = desired.roles[name]?.map (·.withoutComment) := by
  cases hd : desired.roles[name]? with
  | none =>
      cases hc : current.roles[name]? with
      | none => rfl
      | some s =>
          have hmem := mem_roleDrops.2 ⟨name, s, hc, hd, rfl⟩
          rw [silent_roleDrops h] at hmem
          exact absurd hmem List.not_mem_nil
  | some s =>
      cases hc : current.roles[name]? with
      | none =>
          have hmem := mem_roleCreates.2 ⟨name, s, hd, hc, rfl⟩
          rw [silent_roleCreates h] at hmem
          exact absurd hmem List.not_mem_nil
      | some t =>
          have hattributes : t.changedAttributes s = [] := by
            by_contra hne
            have hmem : Change.alterRole name (t.changedAttributes s) ∈
                roleAlters current desired :=
              mem_roleAlters.2 ⟨name, s, hd, Or.inr ⟨t, hc, Or.inl ⟨hne, rfl⟩⟩⟩
            have hplan : Change.alterRole name (t.changedAttributes s) ∈
                diffResolved current desired := by
              simp only [diffResolved, List.mem_append]
              tauto
            exact h _ hplan
          exact congrArg some (withoutComment_eq_of_changedAttributes hattributes)

/-- The desired grants are held. -/
theorem silent_grants_subset (k : GrantKey) :
    entryAt desired.grants k ⊆ entryAt current.grants k := by
  intro p hp
  by_contra hno
  have hmem := mem_grantChanges.2 ⟨k, _, getElem?_of_mem_entryAt hp,
    Or.inr (Finset.ne_empty_of_mem (Finset.mem_sdiff.2 ⟨hp, hno⟩)), rfl⟩
  rw [silent_grantChanges h] at hmem
  exact List.not_mem_nil hmem

omit h in
/-- Without recorded grantors a wildcard's targets are the recorded objects of its scope. -/
theorem of_mem_concreteTargets (hgrantors : current.grantEntryGrantors = ∅) {k a : GrantKey}
    {s : Finset Privilege} (ha : (concreteTargets current k)[a]? = some s) :
    k.sameScope a = true ∧ a.isWildcard = false ∧ current.grants[a]?.isSome := by
  have hsome : (concreteTargets current k)[a]?.isSome := by
    rw [ha]
    rfl
  rw [concreteTargets, isSome_extendEntries] at hsome
  rcases hsome with hnone | ⟨t, ht⟩
  · simp at hnone
  · rcases List.mem_append.1 ht with ht | ht
    · obtain ⟨⟨b, entries⟩, hb, -⟩ := List.mem_map.1 ht
      obtain ⟨hb, -⟩ := List.mem_filter.1 hb
      rw [mem_scanScope, hgrantors, ExtTreeMap.getElem?_empty] at hb
      cases hb.1
    · obtain ⟨ht, hconcrete⟩ := List.mem_filter.1 ht
      obtain ⟨hheld, hscope⟩ := mem_scanScope.1 ht
      refine ⟨hscope, by simpa using hconcrete, ?_⟩
      rw [hheld]
      rfl

/-- A privilege to be revoked that no planned revoke reaches is on a wildcard whose scope has recorded
objects. -/
theorem silent_accumulated (hgrantors : current.grantEntryGrantors = ∅)
    (hinherent : current.inherentGrants = ∅) {k : GrantKey} {p : Privilege}
    (hp : p ∈ entryAt (accumulatedRevokes current desired) k) :
    k.isWildcard = true ∧ ∃ a, k.sameScope a = true ∧ a.isWildcard = false ∧
      current.grants[a]?.isSome := by
  have hsplit : pushRevokesSplitByGrantor current desired k
      (entryAt (accumulatedRevokes current desired) k) = [] := by
    have hnil := List.flatMap_eq_nil_iff.1 (silent_revokeChanges h)
    exact hnil (k, _) (mem_toList_iff.2 (getElem?_of_mem_entryAt hp))
  have htarget : ∀ (a : GrantKey) s, pushRevokesOnTarget current desired a s ≠ [] := by
    intro a s
    unfold pushRevokesOnTarget
    rw [hgrantors, ExtTreeMap.getElem?_empty]
    split
    · exact List.cons_ne_nil _ _
    · exact List.cons_ne_nil _ _
  unfold pushRevokesSplitByGrantor at hsplit
  split at hsplit
  · next hexpands =>
      rw [expandsWildcard, Bool.and_eq_true, Bool.or_eq_true] at hexpands
      obtain ⟨hwild, htargets | hown⟩ := hexpands
      · refine ⟨hwild, ?_⟩
        by_contra hno
        rw [Bool.not_eq_true', ← Bool.not_eq_true, ExtTreeMap.isEmpty_iff] at htargets
        refine htargets (ExtTreeMap.ext_getElem? fun a => ?_)
        rw [ExtTreeMap.getElem?_empty]
        cases ha : (concreteTargets current k)[a]? with
        | none => rfl
        | some s => exact absurd ⟨a, of_mem_concreteTargets hgrantors ha⟩ hno
      · rw [hasInherent, hinherent] at hown
        exact absurd hown Bool.false_ne_true
  · exact absurd hsplit (htarget _ _)

/-! ## Default privileges -/

/-- The desired default privileges are held. -/
theorem silent_defaults_subset (k : DefaultPrivKey) :
    entryAt desired.defaultPrivileges k ⊆ entryAt current.defaultPrivileges k := by
  intro p hp
  by_contra hno
  have hmem := mem_defaultSets.2 ⟨k, _, getElem?_of_mem_entryAt hp,
    Or.inr (Finset.ne_empty_of_mem (Finset.mem_sdiff.2 ⟨hp, hno⟩)), rfl⟩
  rw [silent_defaultSets h] at hmem
  exact List.not_mem_nil hmem

/-- The default privileges of ordinary grantees are desired. -/
theorem silent_defaults_superset {k : DefaultPrivKey} (hk : k.grantee.isPublic = false) :
    entryAt current.defaultPrivileges k ⊆ entryAt desired.defaultPrivileges k := by
  intro p hp
  by_contra hno
  have hacc := (@mem_accumulatedDefaultRevokes current desired p k).2 (Or.inl ⟨hk, hp, hno⟩)
  have hmem := mem_defaultRevokes.2 ⟨k, _, getElem?_of_mem_entryAt hacc, rfl⟩
  rw [silent_defaultRevokes h] at hmem
  exact List.not_mem_nil hmem

end Silent

end PgRoles.Core

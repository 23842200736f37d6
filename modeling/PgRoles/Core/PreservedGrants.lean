import PgRoles.Core.PlanStatements

/-!
# Preserved grants

A role that preserves its undeclared grants loses exactly what an absence assertion asks for. Access
is compared object by object: a revoke of the wildcard takes the privilege from every object of its
scope, a revoke of a name from that object, and both encodings may come out of either. The last
pass of a plan thus cuts every revoke of such a role down to the asserted part without widening it
(`revokesAccess_enforcedRevokes`), and leaves every other change where it is.
-/

set_option autoImplicit false

namespace PgRoles.Core

open Std PgRoles.Lib

/-! ## Access taken by revokes -/

/-- A revoke of `key` takes effect on the target `k`: it names it, or it is the wildcard of the
object's scope. -/
def GrantKey.Reaches (key k : GrantKey) : Prop :=
  key = k ∨ (key.isWildcard = true ∧ key.sameScope k = true ∧ k.name.isSome = true)

/-- The change takes the privilege on `k` that `grantor` gave. -/
def Change.RevokesAccess (k : GrantKey) (p : Privilege) (grantor : Option String) : Change → Prop
  | .revoke key privileges g => g = grantor ∧ key.Reaches k ∧ p ∈ privileges
  | _ => False

/-- Some change of the list takes the access. -/
def RevokesAccess (changes : List Change) (k : GrantKey) (p : Privilege)
    (grantor : Option String) : Prop :=
  ∃ c ∈ changes, c.RevokesAccess k p grantor

/-- The graph asserts the privilege absent for the object, or for the wildcard of its scope. -/
def AssertsAbsent (desired : RoleGraph) (k : GrantKey) (p : Privilege) : Prop :=
  p ∈ entryAt desired.grantAbsences k ∨ p ∈ entryAt desired.grantAbsences k.wildcard

variable {desired : RoleGraph} {key k : GrantKey} {s : Finset Privilege} {p : Privilege}
  {g grantor : Option String} {roles : List RoleDefinition}

theorem GrantKey.Reaches.role_eq (h : key.Reaches k) : k.role = key.role := by
  rcases h with rfl | ⟨-, hscope, -⟩
  · rfl
  · exact (GrantKey.sameScope_iff.1 hscope).1

/-- A named key reaches itself alone. -/
theorem GrantKey.reaches_iff_of_named (hkey : key.isWildcard = false) : key.Reaches k ↔ key = k := by
  simp [GrantKey.Reaches, hkey]

/-- A wildcard that reaches an object is the wildcard of the object's scope. -/
theorem GrantKey.Reaches.eq_wildcard (h : key.Reaches k) (hkey : key.isWildcard = true)
    (hk : k.isWildcard = false) : key = k.wildcard ∧ k.name.isSome = true := by
  rcases h with rfl | ⟨-, hscope, hname⟩
  · rw [hk] at hkey
    cases hkey
  · exact ⟨GrantKey.eq_wildcard_of_sameScope hkey hscope, hname⟩

/-! ## The asserted part of one revoke -/

theorem revokesAccess_append {l l' : List Change} :
    RevokesAccess (l ++ l') k p grantor ↔
      RevokesAccess l k p grantor ∨ RevokesAccess l' k p grantor := by
  simp [RevokesAccess, or_and_right, exists_or]

theorem revokesAccess_singleton {c : Change} :
    RevokesAccess [c] k p grantor ↔ c.RevokesAccess k p grantor := by
  simp [RevokesAccess]

theorem revokesAccess_flatMap {l : List Change} {f : Change → List Change} :
    RevokesAccess (l.flatMap f) k p grantor ↔ ∃ c ∈ l, RevokesAccess (f c) k p grantor := by
  constructor
  · intro h
    obtain ⟨c', hmem, hc'⟩ := h
    obtain ⟨c, hc, hmem⟩ := List.mem_flatMap.1 hmem
    exact ⟨c, hc, c', hmem, hc'⟩
  · intro h
    obtain ⟨c, hc, c', hmem, hc'⟩ := h
    exact ⟨c', List.mem_flatMap.2 ⟨c, hc, hmem⟩, hc'⟩

theorem revokesAccess_revokeUnlessEmpty :
    RevokesAccess (revokeUnlessEmpty key s g) k p grantor ↔
      g = grantor ∧ key.Reaches k ∧ p ∈ s := by
  unfold revokeUnlessEmpty
  split_ifs with hempty
  · simp [RevokesAccess, hempty]
  · exact revokesAccess_singleton

/-- The exact revokes that a wildcard revoke is split into: one for each asserted name of its
scope. -/
theorem revokesAccess_exact {enforced : Finset Privilege} (hkey : key.isWildcard = true)
    (hk : k.isWildcard = false) :
    RevokesAccess (desired.grantAbsences.toList.flatMap fun e =>
        if key.sameScope e.1 && e.1.name.any (· != wildcardName) then
          revokeUnlessEmpty { key with name := e.1.name } ((s ∩ e.2) \ enforced) g
        else []) k p grantor ↔
      g = grantor ∧ key.Reaches k ∧ p ∈ s ∧ p ∈ entryAt desired.grantAbsences k ∧
        p ∉ enforced := by
  constructor
  · intro h
    obtain ⟨c, hmem, hc⟩ := h
    obtain ⟨a, absent, ha, hmem⟩ := mem_flatMap_toList.1 hmem
    split_ifs at hmem with hnamed
    · obtain ⟨hscope, hname⟩ := Bool.and_eq_true_iff.1 hnamed
      have haccess := revokesAccess_revokeUnlessEmpty.1 ⟨c, hmem, hc⟩
      obtain ⟨hg, hreaches, hp⟩ := haccess
      -- The split revoke is of the asserted key itself, which is a name and so reaches itself.
      have hexact : ({ key with name := a.name } : GrantKey) = a := by
        obtain ⟨hrole, htype, hschema⟩ := GrantKey.sameScope_iff.1 hscope
        rw [← hrole, ← htype, ← hschema]
      rw [hexact] at hreaches
      obtain ⟨name, hsome, hne⟩ : ∃ name, a.name = some name ∧ (name != wildcardName) = true := by
        exact (Option.any_eq_true _ _).1 hname
      have hanamed : a.isWildcard = false := by
        rw [GrantKey.isWildcard, hsome]
        simpa using hne
      obtain rfl := (GrantKey.reaches_iff_of_named hanamed).1 hreaches
      obtain ⟨hp, hnot⟩ := Finset.mem_sdiff.1 hp
      obtain ⟨hps, hpa⟩ := Finset.mem_inter.1 hp
      exact ⟨hg, Or.inr ⟨hkey, hscope, by rw [hsome]; rfl⟩, hps,
        by rwa [entryAt_of_getElem? ha], hnot⟩
    · exact absurd hmem List.not_mem_nil
  · intro h
    obtain ⟨hg, hreaches, hps, hpa, hnot⟩ := h
    obtain ⟨rfl, hname⟩ := hreaches.eq_wildcard hkey hk
    obtain ⟨name, hsome⟩ := Option.isSome_iff_exists.1 hname
    have hne : (name != wildcardName) = true := by
      rw [GrantKey.isWildcard, hsome] at hk
      simpa using hk
    have hself : ({ k.wildcard with name := k.name } : GrantKey) = k := rfl
    obtain ⟨c, hc, haccess⟩ := revokesAccess_revokeUnlessEmpty.2
      (⟨hg, Or.inl rfl, Finset.mem_sdiff.2 ⟨Finset.mem_inter.2 ⟨hps, hpa⟩, hnot⟩⟩ :
        g = grantor ∧ k.Reaches k ∧ p ∈ (s ∩ entryAt desired.grantAbsences k) \ enforced)
    refine ⟨c, mem_flatMap_toList.2 ⟨k, _, getElem?_of_mem_entryAt hpa, ?_⟩, haccess⟩
    have hnamed : (k.wildcard.sameScope k && k.name.any (· != wildcardName)) = true := by
      rw [GrantKey.sameScope_wildcard, hsome]
      simpa using hne
    rw [if_pos hnamed]
    exact hc

/-- The asserted part of a revoke takes from an object what the revoke took and an assertion for
the object or its wildcard names. -/
theorem revokesAccess_enforcedRevokes (hk : k.isWildcard = false) :
    RevokesAccess (enforcedRevokes desired key s g) k p grantor ↔
      (g = grantor ∧ key.Reaches k ∧ p ∈ s) ∧ AssertsAbsent desired k p := by
  unfold enforcedRevokes AssertsAbsent
  cases hkey : key.isWildcard with
  | true =>
      simp only [if_true]
      rw [revokesAccess_append, revokesAccess_revokeUnlessEmpty, revokesAccess_exact hkey hk,
        Finset.mem_inter]
      constructor
      · intro h
        rcases h with ⟨hg, hreaches, hps, hpw⟩ | ⟨hg, hreaches, hps, hpa, -⟩
        · obtain ⟨rfl, -⟩ := hreaches.eq_wildcard hkey hk
          exact ⟨⟨hg, hreaches, hps⟩, Or.inr hpw⟩
        · exact ⟨⟨hg, hreaches, hps⟩, Or.inl hpa⟩
      · intro h
        obtain ⟨⟨hg, hreaches, hps⟩, habsent⟩ := h
        have hwild : key.wildcard = k.wildcard := by
          obtain ⟨rfl, -⟩ := hreaches.eq_wildcard hkey hk
          rfl
        -- What the wildcard assertion names stays in the wildcard revoke, the rest is split.
        by_cases hpw : p ∈ entryAt desired.grantAbsences key.wildcard
        · exact Or.inl ⟨hg, hreaches, hps, hpw⟩
        · have hpa : p ∈ entryAt desired.grantAbsences k :=
            habsent.resolve_right fun hp => hpw (by rwa [hwild])
          exact Or.inr ⟨hg, hreaches, hps, hpa, fun hp => hpw hp.2⟩
  | false =>
      simp only [Bool.false_eq_true, if_false]
      rw [revokesAccess_revokeUnlessEmpty, GrantKey.reaches_iff_of_named hkey, Finset.mem_union,
        Finset.mem_inter, Finset.mem_inter]
      constructor
      · intro h
        obtain ⟨hg, rfl, hp⟩ := h
        rcases hp with ⟨hps, hpw⟩ | ⟨hps, hpa⟩
        · exact ⟨⟨hg, rfl, hps⟩, Or.inr hpw⟩
        · exact ⟨⟨hg, rfl, hps⟩, Or.inl hpa⟩
      · intro h
        obtain ⟨⟨hg, rfl, hps⟩, habsent⟩ := h
        rcases habsent with hpa | hpw
        · exact ⟨hg, rfl, Or.inr ⟨hps, hpa⟩⟩
        · exact ⟨hg, rfl, Or.inl ⟨hps, hpw⟩⟩

/-! ## The pass -/

/-- The change is a revoke of a role that keeps its undeclared grants. -/
def isPreservedRevoke (roles : List RoleDefinition) : Change → Bool
  | .revoke key _ _ => preservesGrants roles key.role.asStr
  | _ => false

theorem preserveGrants_of_not_preserved {c : Change} (h : isPreservedRevoke roles c = false) :
    preserveGrants roles desired c = [c] := by
  cases c with
  | revoke key privileges g =>
      change preservesGrants roles key.role.asStr = false at h
      rw [preserveGrants, h]
      rfl
  | _ => rfl

/-- A preserved revoke becomes revokes of the same role. -/
theorem isPreservedRevoke_of_mem {c c' : Change} (h : isPreservedRevoke roles c = true)
    (hmem : c' ∈ preserveGrants roles desired c) : isPreservedRevoke roles c' = true := by
  cases c with
  | revoke key privileges g =>
      change preservesGrants roles key.role.asStr = true at h
      rw [preserveGrants, if_pos h, enforcedRevokes] at hmem
      have hunless : ∀ (a : GrantKey) (t : Finset Privilege), a.role = key.role →
          c' ∈ revokeUnlessEmpty a t g → isPreservedRevoke roles c' = true := by
        intro a t hrole hmem
        unfold revokeUnlessEmpty at hmem
        split_ifs at hmem
        · exact absurd hmem List.not_mem_nil
        · rw [List.mem_singleton.1 hmem, isPreservedRevoke, hrole]
          exact h
      split at hmem
      · rcases List.mem_append.1 hmem with hmem | hmem
        · exact hunless _ _ rfl hmem
        · obtain ⟨a, absent, -, hmem⟩ := mem_flatMap_toList.1 hmem
          split_ifs at hmem
          · exact hunless { key with name := a.name } _ rfl hmem
          · exact absurd hmem List.not_mem_nil
      · exact hunless _ _ rfl hmem
  | _ => cases h

/-- The pass rewrites the revokes of preserving roles and leaves the other changes in place. -/
theorem filter_not_preserved (l : List Change) :
    (filterPreservedGrantRevokes l roles desired).filter (fun c => !isPreservedRevoke roles c) =
      l.filter fun c => !isPreservedRevoke roles c := by
  apply filter_flatMap_eq
  intro c
  cases hc : isPreservedRevoke roles c with
  | false =>
      rw [preserveGrants_of_not_preserved hc]
      simp [hc]
  | true =>
      apply List.filter_eq_nil_iff.2
      intro c' hmem
      simp [isPreservedRevoke_of_mem hc hmem]

/-- What the pass leaves of the access that a list of changes takes from a preserving role. -/
theorem revokesAccess_filterPreserved {l : List Change} (hk : k.isWildcard = false)
    (hrole : preservesGrants roles k.role.asStr = true) :
    RevokesAccess (filterPreservedGrantRevokes l roles desired) k p grantor ↔
      RevokesAccess l k p grantor ∧ AssertsAbsent desired k p := by
  have hone : ∀ c, RevokesAccess (preserveGrants roles desired c) k p grantor ↔
      c.RevokesAccess k p grantor ∧ AssertsAbsent desired k p := by
    intro c
    cases c with
    | revoke key privileges g =>
        rw [preserveGrants]
        split_ifs with hkey
        · exact revokesAccess_enforcedRevokes hk
        · rw [revokesAccess_singleton]
          -- A revoke of another role does not reach the object.
          have hnot : ¬ (Change.revoke key privileges g).RevokesAccess k p grantor := by
            intro haccess
            rw [haccess.2.1.role_eq] at hrole
            exact hkey hrole
          exact ⟨fun h => absurd h hnot, fun h => absurd h.1 hnot⟩
    | _ =>
        rw [preserveGrants, revokesAccess_singleton]
        · exact ⟨False.elim, fun h => h.1⟩
        · simp
  rw [filterPreservedGrantRevokes, revokesAccess_flatMap]
  constructor
  · intro h
    obtain ⟨c, hc, haccess⟩ := h
    obtain ⟨haccess, habsent⟩ := (hone c).1 haccess
    exact ⟨⟨c, hc, haccess⟩, habsent⟩
  · intro h
    obtain ⟨⟨c, hc, haccess⟩, habsent⟩ := h
    exact ⟨c, hc, (hone c).2 ⟨haccess, habsent⟩⟩

theorem filterPreserved_nonempty {l : List Change}
    (hl : ∀ a t b, Change.revoke a t b ∈ l → t ≠ ∅)
    (h : .revoke key s g ∈ filterPreservedGrantRevokes l roles desired) : s ≠ ∅ := by
  obtain ⟨c, hc, hmem⟩ := List.mem_flatMap.1 h
  have hvacuous : ∀ c : Change, c.phase = .revoke → c ∈ l → c.NonVacuous := by
    intro c hphase hc
    cases c with
    | revoke a t b => exact hl a t b hc
    | _ => cases hphase
  rcases preserveGrants_cases roles desired c with heq | ⟨hphase, -⟩
  · rw [heq] at hmem
    obtain rfl := List.mem_singleton.1 hmem
    exact hl key s g hc
  · exact nonVacuous_of_mem_preserveGrants (hvacuous c hphase hc) hmem

/-- Preservation keeps exactly the asserted revokes of a diff: the other changes stay in order, a
preserving role loses on each object what the diff took and an assertion names, grantor by grantor,
and no revoke is of nothing. -/
theorem preservedRevokes_exact (current desired : RoleGraph) (roles : List RoleDefinition) :
    (filterPreservedGrantRevokes (diff current desired) roles desired).filter
        (fun c => !isPreservedRevoke roles c) =
      (diff current desired).filter (fun c => !isPreservedRevoke roles c) ∧
    (∀ k p grantor, k.isWildcard = false → preservesGrants roles k.role.asStr = true →
      (RevokesAccess (filterPreservedGrantRevokes (diff current desired) roles desired) k p
          grantor ↔
        RevokesAccess (diff current desired) k p grantor ∧ AssertsAbsent desired k p)) ∧
    ∀ key s grantor,
      .revoke key s grantor ∈
        filterPreservedGrantRevokes (diff current desired) roles desired → s ≠ ∅ := by
  refine ⟨filter_not_preserved _, fun k p grantor hk hrole => ?_, fun key s grantor hmem => ?_⟩
  · exact revokesAccess_filterPreserved hk hrole
  · apply filterPreserved_nonempty _ hmem
    intro a t b hrevoke
    exact nonVacuous_of_mem_plannedRevokes (mem_plannedRevokes_of_revoke hrevoke)

end PgRoles.Core

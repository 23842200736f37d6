import PgRoles.Core.Types

/-!
# Operations on the role graph

Attribute comparison of two role states, the per-grantor options of a membership, and the
resolution of routine spellings before grants are compared.
-/

set_option autoImplicit false

namespace PgRoles.Core

open Std PgRoles.Lib

/-- The change of one attribute, when it differs. -/
def changedAttribute {α : Type} [DecidableEq α] (kind : α → RoleAttribute) (old new : α) :
    List RoleAttribute :=
  if old = new then [] else [kind new]

/-- Settings to write: those of `new` that `old` lacks or holds with another value. -/
def changedConfig (old new : BTreeMap String String) : List RoleAttribute :=
  new.toList.flatMap fun e => if old[e.1]? = some e.2 then [] else [RoleAttribute.setConfig e.1 e.2]

/-- Settings to remove: those of `old` that `new` lacks. -/
def removedConfig (old new : BTreeMap String String) : List RoleAttribute :=
  old.toList.flatMap fun e => if e.1 ∈ new then [] else [RoleAttribute.resetConfig e.1]

/-- The attribute changes that turn one role state into another. The comment is not among them. -/
def RoleState.changedAttributes (self other : RoleState) : List RoleAttribute :=
  [changedAttribute .login self.login other.login,
    changedAttribute .superuser self.superuser other.superuser,
    changedAttribute .createdb self.createdb other.createdb,
    changedAttribute .createrole self.createrole other.createrole,
    changedAttribute .inherit self.inherit other.inherit,
    changedAttribute .replication self.replication other.replication,
    changedAttribute .bypassrls self.bypassrls other.bypassrls,
    changedAttribute .connectionLimit self.connectionLimit other.connectionLimit,
    changedAttribute .validUntil self.passwordValidUntil other.passwordValidUntil,
    changedConfig self.config other.config,
    removedConfig self.config other.config].flatten

/-- Per-grantor options of one membership, when they cover exactly the recorded grantors. -/
def RoleGraph.completeMembershipOptions (g : RoleGraph) (role member : String) :
    Option (BTreeMap String MembershipOptions) := do
  let grantors ← g.membershipEdgeGrantors[(role, member)]?
  let options ← g.membershipEdgeOptions[(role, member)]?
  if !grantors.isEmpty && grantors.toList == options.keys then some options else none

/-- The key under the catalog's spelling of a routine; every other key is itself. -/
def resolveKey (aliases : BTreeMap (String × String) String) (key : GrantKey) : GrantKey :=
  match key.objectType, key.schema, key.name with
  | .function, some schema, some name =>
      match aliases[(schema, name)]? with
      | some canonical => { key with name := some canonical }
      | none => key
  | _, _, _ => key

/-- Resolve catalog-proven equivalent routine targets; entries that meet are united. -/
def RoleGraph.resolveRoutineAliases (g : RoleGraph)
    (aliases : BTreeMap (String × String) String) : RoleGraph :=
  if aliases.isEmpty then g
  else if (g.grants.keys ++ g.grantAbsences.keys).all fun key => resolveKey aliases key == key then
    g
  else
    { g with
      grants := extendEntries ∅ (g.grants.toList.map fun e => (resolveKey aliases e.1, e.2))
      grantAbsences :=
        extendEntries ∅ (g.grantAbsences.toList.map fun e => (resolveKey aliases e.1, e.2)) }

/-! ## Resolved graphs -/

section Resolution

variable (g : RoleGraph) (aliases : BTreeMap (String × String) String)

/-- Resolution touches the grants and the grant absences alone. -/
theorem resolveRoutineAliases_eq :
    g.resolveRoutineAliases aliases =
      { g with
        grants := (g.resolveRoutineAliases aliases).grants
        grantAbsences := (g.resolveRoutineAliases aliases).grantAbsences } := by
  unfold RoleGraph.resolveRoutineAliases
  split_ifs <;> rfl

theorem resolveRoutineAliases_roles : (g.resolveRoutineAliases aliases).roles = g.roles := by
  rw [resolveRoutineAliases_eq]

theorem resolveRoutineAliases_schemas : (g.resolveRoutineAliases aliases).schemas = g.schemas := by
  rw [resolveRoutineAliases_eq]

theorem resolveRoutineAliases_defaultPrivileges :
    (g.resolveRoutineAliases aliases).defaultPrivileges = g.defaultPrivileges := by
  rw [resolveRoutineAliases_eq]

theorem resolveRoutineAliases_defaultPrivilegeAbsences :
    (g.resolveRoutineAliases aliases).defaultPrivilegeAbsences = g.defaultPrivilegeAbsences := by
  rw [resolveRoutineAliases_eq]

theorem resolveRoutineAliases_memberships :
    (g.resolveRoutineAliases aliases).memberships = g.memberships := by
  rw [resolveRoutineAliases_eq]

variable {g aliases}

/-- Without aliases keys stay as they are. -/
theorem resolveKey_of_isEmpty (h : aliases.isEmpty = true) (k : GrantKey) :
    resolveKey aliases k = k := by
  rw [ExtTreeMap.isEmpty_iff] at h
  subst h
  unfold resolveKey
  split
  · simp
  · rfl

theorem resolveRoutineAliases_of_isEmpty (h : aliases.isEmpty = true) :
    g.resolveRoutineAliases aliases = g :=
  if_pos h

/-- The entries a map of resolved keys has: those of the keys that resolve there. -/
theorem mem_entryAt_resolved {m : BTreeMap GrantKey (Finset Privilege)} {k : GrantKey}
    {p : Privilege} :
    p ∈ entryAt (extendEntries ∅ (m.toList.map fun e => (resolveKey aliases e.1, e.2))) k ↔
      ∃ a, resolveKey aliases a = k ∧ p ∈ entryAt m a := by
  rw [mem_entryAt_extendEntries]
  constructor
  · rintro (h | ⟨s, hs, hp⟩)
    · simp [entryAt] at h
    · obtain ⟨⟨a, t⟩, ha, heq⟩ := List.mem_map.1 hs
      obtain ⟨rfl, rfl⟩ := Prod.mk.inj heq
      refine ⟨a, rfl, ?_⟩
      rwa [entryAt_of_getElem? (mem_toList_iff.1 ha)]
  · rintro ⟨a, rfl, hp⟩
    refine Or.inr ⟨_, List.mem_map.2 ⟨(a, entryAt m a), ?_, rfl⟩, hp⟩
    exact mem_toList_iff.2 (getElem?_of_mem_entryAt hp)

/-- A key has an entry after resolution when a key that resolves to it had one. -/
theorem isSome_resolved {m : BTreeMap GrantKey (Finset Privilege)} {k : GrantKey} :
    (extendEntries ∅ (m.toList.map fun e => (resolveKey aliases e.1, e.2)))[k]?.isSome ↔
      ∃ a, resolveKey aliases a = k ∧ m[a]?.isSome := by
  rw [isSome_extendEntries]
  constructor
  · rintro (h | ⟨s, hs⟩)
    · simp at h
    · obtain ⟨⟨a, t⟩, ha, heq⟩ := List.mem_map.1 hs
      obtain ⟨rfl, rfl⟩ := Prod.mk.inj heq
      exact ⟨a, rfl, by rw [mem_toList_iff.1 ha]; rfl⟩
  · rintro ⟨a, rfl, ha⟩
    obtain ⟨s, hs⟩ := Option.isSome_iff_exists.1 ha
    exact Or.inr ⟨s, List.mem_map.2 ⟨(a, s), mem_toList_iff.2 hs, rfl⟩⟩

/-- Where every key of a map resolves to itself, resolution leaves the map's entries. -/
theorem exists_resolveKey_iff {m : BTreeMap GrantKey (Finset Privilege)} {k : GrantKey}
    {P : GrantKey → Prop} (hP : ∀ a, P a → a ∈ m)
    (hid : ∀ a ∈ m, resolveKey aliases a = a) : P k ↔ ∃ a, resolveKey aliases a = k ∧ P a := by
  constructor
  · intro hk
    exact ⟨k, hid k (hP k hk), hk⟩
  · rintro ⟨a, rfl, ha⟩
    rwa [hid a (hP a ha)]

/-- A key with a privilege is there. -/
theorem mem_of_mem_entryAt {m : BTreeMap GrantKey (Finset Privilege)} {k : GrantKey} {p : Privilege}
    (h : p ∈ entryAt m k) : k ∈ m :=
  mem_iff_exists_getElem?.2 ⟨_, getElem?_of_mem_entryAt h⟩

/-- The resolved grants hold, under a key, what the keys that resolve to it held. -/
theorem mem_entryAt_resolvedGrants {k : GrantKey} {p : Privilege} :
    p ∈ entryAt (g.resolveRoutineAliases aliases).grants k ↔
      ∃ a, resolveKey aliases a = k ∧ p ∈ entryAt g.grants a := by
  unfold RoleGraph.resolveRoutineAliases
  split_ifs with hempty hsame
  · exact exists_resolveKey_iff (fun _ => mem_of_mem_entryAt)
      fun a _ => resolveKey_of_isEmpty hempty a
  · refine exists_resolveKey_iff (fun _ => mem_of_mem_entryAt) fun a ha => ?_
    rw [List.all_eq_true] at hsame
    simpa using hsame a (List.mem_append_left _ (ExtTreeMap.mem_keys.2 ha))
  · exact mem_entryAt_resolved

/-- A target has grants after resolution when one that resolves to it had some. -/
theorem isSome_resolvedGrants {k : GrantKey} :
    (g.resolveRoutineAliases aliases).grants[k]?.isSome ↔
      ∃ a, resolveKey aliases a = k ∧ g.grants[a]?.isSome := by
  unfold RoleGraph.resolveRoutineAliases
  split_ifs with hempty hsame
  · exact exists_resolveKey_iff (fun _ h => ExtTreeMap.mem_iff_isSome_getElem?.2 h)
      fun a _ => resolveKey_of_isEmpty hempty a
  · refine exists_resolveKey_iff (fun _ h => ExtTreeMap.mem_iff_isSome_getElem?.2 h) fun a ha => ?_
    rw [List.all_eq_true] at hsame
    simpa using hsame a (List.mem_append_left _ (ExtTreeMap.mem_keys.2 ha))
  · exact isSome_resolved

theorem isSome_resolvedAbsences {k : GrantKey} :
    (g.resolveRoutineAliases aliases).grantAbsences[k]?.isSome ↔
      ∃ a, resolveKey aliases a = k ∧ g.grantAbsences[a]?.isSome := by
  unfold RoleGraph.resolveRoutineAliases
  split_ifs with hempty hsame
  · exact exists_resolveKey_iff (fun _ h => ExtTreeMap.mem_iff_isSome_getElem?.2 h)
      fun a _ => resolveKey_of_isEmpty hempty a
  · refine exists_resolveKey_iff (fun _ h => ExtTreeMap.mem_iff_isSome_getElem?.2 h) fun a ha => ?_
    rw [List.all_eq_true] at hsame
    simpa using hsame a (List.mem_append_right _ (ExtTreeMap.mem_keys.2 ha))
  · exact isSome_resolved

/-- Resolution to catalog spellings other than the wildcard keeps concrete keys concrete. -/
theorem resolveKey_concrete
    (haliases : ∀ (a : String × String) (name : String), aliases[a]? = some name →
      name ≠ wildcardName)
    {k : GrantKey} (hk : k.isWildcard = false) : (resolveKey aliases k).isWildcard = false := by
  unfold resolveKey
  split
  · split
    · next canonical hc => simpa [GrantKey.isWildcard] using haliases _ canonical hc
    · exact hk
  · exact hk

end Resolution

end PgRoles.Core

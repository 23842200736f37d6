import PgRoles.Lib.Run
import PgRoles.Core.DiffSpec

/-!
# The meaning of a change

A pure interpreter of changes on role graphs: what executing one change does to the graph that
inspection would report. A change that targets an absent role or schema fails, and so do the
variants the diff engine never emits for a graph without grantor records.

A change acts on the five maps of the graph separately (`applyChange_eq`), so a successful run is,
on each map, the fold of that map's own steps (`applyChanges_eq`).
-/

set_option autoImplicit false

namespace PgRoles.Semantics

open Std PgRoles.Lib PgRoles.Core

/-! ## The interpreter -/

/-- A role's state with one attribute set. -/
def applyAttribute (state : RoleState) : RoleAttribute → RoleState
  | .login v => { state with login := v }
  | .superuser v => { state with superuser := v }
  | .createdb v => { state with createdb := v }
  | .createrole v => { state with createrole := v }
  | .inherit v => { state with inherit := v }
  | .replication v => { state with replication := v }
  | .bypassrls v => { state with bypassrls := v }
  | .connectionLimit v => { state with connectionLimit := v }
  | .validUntil v => { state with passwordValidUntil := v }
  | .setConfig parameter value => { state with config := state.config.insert parameter value }
  | .resetConfig parameter => { state with config := state.config.erase parameter }

/-- A role's state with its attributes set in order. -/
def applyAttributes (state : RoleState) (attributes : List RoleAttribute) : RoleState :=
  attributes.foldl applyAttribute state

/-- The keys a revoke reaches: every key of the scope for a wildcard, else its own. -/
def affectedKeys (grants : BTreeMap GrantKey (Finset Privilege)) (key : GrantKey) :
    List GrantKey :=
  if key.isWildcard then grants.keys.filter key.sameScope else [key]

/-- The edges of other (role, member) pairs. -/
def retainOthers (edges : BTreeSet MembershipEdge) (role member : String) :
    BTreeSet MembershipEdge :=
  edges.filter fun e => !(e.role == role && e.member == member)

/-- The explicit schema entry an incoming owner's own privileges absorb. -/
def ownerEntry (name owner : String) : GrantKey := ⟨.role owner, .schema, none, some name⟩

/-- Execute one change. -/
def applyChange (g : RoleGraph) : Change → Option RoleGraph
  | .createRole name state => some { g with roles := g.roles.insert name state }
  | .alterRole name attributes =>
      g.roles[name]?.map fun state =>
        { g with roles := g.roles.insert name (applyAttributes state attributes) }
  | .setComment name comment =>
      g.roles[name]?.map fun state =>
        { g with roles := g.roles.insert name { state with comment := comment } }
  | .dropRole name => some { g with roles := g.roles.erase name }
  | .createSchema name owner =>
      some { g with
        schemas := g.schemas.insert name ⟨owner, owner.elim ∅ defaultSchemaOwnerPrivileges⟩ }
  | .alterSchemaOwner name owner =>
      g.schemas[name]?.map fun _ =>
        { g with
          schemas := g.schemas.insert name ⟨some owner, {.create, .usage}⟩
          grants := g.grants.erase (ownerEntry name owner) }
  | .ensureSchemaOwnerPrivileges name _ privileges =>
      g.schemas[name]?.map fun state =>
        { g with
          schemas := g.schemas.insert name
            { state with ownerPrivileges := state.ownerPrivileges ∪ privileges } }
  | .grant key privileges => some { g with grants := extendEntry g.grants key privileges }
  | .revoke key privileges _ =>
      some { g with
        grants := (affectedKeys g.grants key).foldl
          (fun grants k => shrinkEntry grants k privileges) g.grants }
  | .setDefaultPrivilege key privileges =>
      some { g with defaultPrivileges := extendEntry g.defaultPrivileges key privileges }
  | .revokeDefaultPrivilege key privileges =>
      some { g with defaultPrivileges := shrinkEntry g.defaultPrivileges key privileges }
  | .addMember role member inherit admin =>
      some { g with
        memberships :=
          (retainOthers g.memberships role member).insert ⟨role, member, inherit, admin⟩ }
  | .removeMember role member _ =>
      some { g with memberships := retainOthers g.memberships role member }
  | .updateMemberOptions .. | .setPassword .. | .reassignOwned .. | .dropOwned ..
  | .terminateSessions .. => none

/-- Execute a plan, change by change; one failing change fails the run. -/
def applyChanges (g : RoleGraph) (changes : List Change) : Option RoleGraph :=
  changes.foldlM applyChange g

/-! ## The steps on each map -/

/-- The roles after one change. -/
def rolesStep (roles : BTreeMap String RoleState) : Change → BTreeMap String RoleState
  | .createRole name state => roles.insert name state
  | .alterRole name attributes => roles.alter name (·.map (applyAttributes · attributes))
  | .setComment name comment => roles.alter name (·.map fun s => { s with comment := comment })
  | .dropRole name => roles.erase name
  | _ => roles

/-- The schemas after one change. A new owner holds the ordinary privileges. -/
def schemasStep (schemas : BTreeMap String SchemaState) : Change → BTreeMap String SchemaState
  | .createSchema name owner =>
      schemas.insert name ⟨owner, owner.elim ∅ defaultSchemaOwnerPrivileges⟩
  | .alterSchemaOwner name owner => schemas.insert name ⟨some owner, {.create, .usage}⟩
  | .ensureSchemaOwnerPrivileges name _ privileges =>
      schemas.alter name
        (·.map fun s => { s with ownerPrivileges := s.ownerPrivileges ∪ privileges })
  | _ => schemas

/-- The grants after one change. -/
def grantsStep (grants : BTreeMap GrantKey (Finset Privilege)) :
    Change → BTreeMap GrantKey (Finset Privilege)
  | .alterSchemaOwner name owner => grants.erase (ownerEntry name owner)
  | .grant key privileges => extendEntry grants key privileges
  | .revoke key privileges _ =>
      (affectedKeys grants key).foldl (fun grants k => shrinkEntry grants k privileges) grants
  | _ => grants

/-- The default privileges after one change. -/
def defaultsStep (defaults : BTreeMap DefaultPrivKey (Finset Privilege)) :
    Change → BTreeMap DefaultPrivKey (Finset Privilege)
  | .setDefaultPrivilege key privileges => extendEntry defaults key privileges
  | .revokeDefaultPrivilege key privileges => shrinkEntry defaults key privileges
  | _ => defaults

/-- The memberships after one change. -/
def membershipsStep (edges : BTreeSet MembershipEdge) : Change → BTreeSet MembershipEdge
  | .addMember role member inherit admin =>
      (retainOthers edges role member).insert ⟨role, member, inherit, admin⟩
  | .removeMember role member _ => retainOthers edges role member
  | _ => edges

theorem alter_eq_insert {V : Type} {m : BTreeMap String V} {k : String} {v : V} {f : V → V}
    (h : m[k]? = some v) : m.insert k (f v) = m.alter k (·.map f) := by
  refine ExtTreeMap.ext_getElem? fun a => ?_
  rw [getElem?_insert_eq, getElem?_alter_eq]
  split
  · next heq => rw [← heq, h, Option.map_some]
  · rfl

/-- A change acts on each map by that map's own step. -/
theorem applyChange_eq {g g' : RoleGraph} {c : Change} (h : applyChange g c = some g') :
    g' = { g with
      roles := rolesStep g.roles c
      schemas := schemasStep g.schemas c
      grants := grantsStep g.grants c
      defaultPrivileges := defaultsStep g.defaultPrivileges c
      memberships := membershipsStep g.memberships c } := by
  cases c with
  | alterRole name attributes =>
      obtain ⟨s, hs, rfl⟩ := Option.map_eq_some_iff.1 h
      simp only [rolesStep, schemasStep, grantsStep, defaultsStep, membershipsStep]
      rw [alter_eq_insert (f := (applyAttributes · attributes)) hs]
  | setComment name comment =>
      obtain ⟨s, hs, rfl⟩ := Option.map_eq_some_iff.1 h
      simp only [rolesStep, schemasStep, grantsStep, defaultsStep, membershipsStep]
      rw [alter_eq_insert (f := fun s => { s with comment := comment }) hs]
  | alterSchemaOwner name owner =>
      obtain ⟨s, hs, rfl⟩ := Option.map_eq_some_iff.1 h
      rfl
  | ensureSchemaOwnerPrivileges name owner privileges =>
      obtain ⟨s, hs, rfl⟩ := Option.map_eq_some_iff.1 h
      simp only [rolesStep, schemasStep, grantsStep, defaultsStep, membershipsStep]
      rw [alter_eq_insert
        (f := fun s => { s with ownerPrivileges := s.ownerPrivileges ∪ privileges }) hs]
  | updateMemberOptions _ _ _ _ _ _ => cases h
  | setPassword _ _ => cases h
  | reassignOwned _ _ => cases h
  | dropOwned _ => cases h
  | terminateSessions _ => cases h
  | _ => exact (Option.some.inj h).symm

/-- A successful run acts on each map by the fold of that map's own steps. -/
theorem applyChanges_eq {g g' : RoleGraph} {l : List Change} (h : applyChanges g l = some g') :
    g' = { g with
      roles := l.foldl rolesStep g.roles
      schemas := l.foldl schemasStep g.schemas
      grants := l.foldl grantsStep g.grants
      defaultPrivileges := l.foldl defaultsStep g.defaultPrivileges
      memberships := l.foldl membershipsStep g.memberships } := by
  induction l generalizing g with
  | nil => exact (Option.some.inj h).symm
  | cons c l ih =>
      rw [applyChanges, List.foldlM_cons] at h
      obtain ⟨g₁, h₁, h⟩ := Option.bind_eq_some_iff.1 h
      have hrest := ih h
      rw [applyChange_eq h₁] at hrest
      exact hrest

section RunResults

variable {g g' : RoleGraph} {l : List Change} (h : applyChanges g l = some g')

include h

theorem applyChanges_roles : g'.roles = l.foldl rolesStep g.roles := by
  rw [applyChanges_eq h]

theorem applyChanges_schemas : g'.schemas = l.foldl schemasStep g.schemas := by
  rw [applyChanges_eq h]

theorem applyChanges_grants : g'.grants = l.foldl grantsStep g.grants := by
  rw [applyChanges_eq h]

theorem applyChanges_defaultPrivileges :
    g'.defaultPrivileges = l.foldl defaultsStep g.defaultPrivileges := by
  rw [applyChanges_eq h]

theorem applyChanges_memberships : g'.memberships = l.foldl membershipsStep g.memberships := by
  rw [applyChanges_eq h]

/-- A run leaves the inspection-only facts alone. -/
theorem applyChanges_facts :
    g'.routineAliases = g.routineAliases ∧ g'.inherentGrants = g.inherentGrants ∧
      g'.membershipEdgeGrantors = g.membershipEdgeGrantors ∧
        g'.grantEntryGrantors = g.grantEntryGrantors := by
  rw [applyChanges_eq h]
  exact ⟨rfl, rfl, rfl, rfl⟩

end RunResults

/-! ## Applicable changes -/

/-- The change meets no absent role or schema and is one the interpreter knows. -/
def Applicable (g : RoleGraph) : Change → Prop
  | .alterRole name _ | .setComment name _ => name ∈ g.roles
  | .alterSchemaOwner name _ | .ensureSchemaOwnerPrivileges name _ _ => name ∈ g.schemas
  | .updateMemberOptions .. | .setPassword .. | .reassignOwned .. | .dropOwned ..
  | .terminateSessions .. => False
  | _ => True

/-- The graph after an applicable change. -/
def nextGraph (g : RoleGraph) (c : Change) : RoleGraph :=
  { g with
    roles := rolesStep g.roles c
    schemas := schemasStep g.schemas c
    grants := grantsStep g.grants c
    defaultPrivileges := defaultsStep g.defaultPrivileges c
    memberships := membershipsStep g.memberships c }

theorem applyChange_of_applicable {g : RoleGraph} {c : Change} (h : Applicable g c) :
    applyChange g c = some (nextGraph g c) := by
  have hsome : ∃ g', applyChange g c = some g' := by
    cases c with
    | alterRole name attributes =>
        obtain ⟨s, hs⟩ := mem_iff_exists_getElem?.1 h
        exact ⟨_, by rw [applyChange, hs, Option.map_some]⟩
    | setComment name comment =>
        obtain ⟨s, hs⟩ := mem_iff_exists_getElem?.1 h
        exact ⟨_, by rw [applyChange, hs, Option.map_some]⟩
    | alterSchemaOwner name owner =>
        obtain ⟨s, hs⟩ := mem_iff_exists_getElem?.1 h
        exact ⟨_, by rw [applyChange, hs, Option.map_some]⟩
    | ensureSchemaOwnerPrivileges name owner privileges =>
        obtain ⟨s, hs⟩ := mem_iff_exists_getElem?.1 h
        exact ⟨_, by rw [applyChange, hs, Option.map_some]⟩
    | updateMemberOptions _ _ _ _ _ _ => exact h.elim
    | setPassword _ _ => exact h.elim
    | reassignOwned _ _ => exact h.elim
    | dropOwned _ => exact h.elim
    | terminateSessions _ => exact h.elim
    | _ => exact ⟨_, rfl⟩
  obtain ⟨g', hg'⟩ := hsome
  rw [hg', applyChange_eq hg']
  rfl

/-- A schema stays, whatever the change. -/
theorem mem_schemasStep {schemas : BTreeMap String SchemaState} {n : String} (c : Change)
    (h : n ∈ schemas) : n ∈ schemasStep schemas c := by
  cases c with
  | createSchema m owner => exact ExtTreeMap.mem_insert.2 (Or.inr h)
  | alterSchemaOwner m owner => exact ExtTreeMap.mem_insert.2 (Or.inr h)
  | ensureSchemaOwnerPrivileges m owner privileges =>
      obtain ⟨s, hs⟩ := mem_iff_exists_getElem?.1 h
      rw [schemasStep, mem_iff_exists_getElem?, getElem?_alter_eq, hs]
      split <;> exact ⟨_, rfl⟩
  | _ => exact h

/-- A role stays unless the change drops it. -/
theorem mem_rolesStep {roles : BTreeMap String RoleState} {n : String} {c : Change}
    (hc : c ≠ .dropRole n) (h : n ∈ roles) : n ∈ rolesStep roles c := by
  obtain ⟨s, hs⟩ := mem_iff_exists_getElem?.1 h
  cases c with
  | createRole m state => exact ExtTreeMap.mem_insert.2 (Or.inr h)
  | alterRole m attributes =>
      rw [rolesStep, mem_iff_exists_getElem?, getElem?_alter_eq, hs]
      split <;> exact ⟨_, rfl⟩
  | setComment m comment =>
      rw [rolesStep, mem_iff_exists_getElem?, getElem?_alter_eq, hs]
      split <;> exact ⟨_, rfl⟩
  | dropRole m =>
      have hne : m ≠ n := by
        rintro rfl
        exact hc rfl
      rw [rolesStep, mem_iff_exists_getElem?, getElem?_erase_eq, if_neg hne]
      exact ⟨s, hs⟩
  | _ => exact h

end PgRoles.Semantics

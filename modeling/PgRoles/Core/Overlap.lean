import PgRoles.Core.Change

/-!
# Overlap of effects

Temporary access that is active while a candidate is reviewed asks for a fresh review when it touches
what the candidate's plan touches. Changes and membership edges are projected to pairs of a role and
an object, and two sets of pairs overlap when some two pairs of them intersect.

A pair stands for the accesses of its role to its object. Two pairs intersect exactly when they have
an access in common (`intersects_iff`), so overlap is nonempty intersection of sets of accesses
(`pairsIntersect_effectPairs`, `intersectingPairs_ne_empty_iff`).
-/

set_option autoImplicit false

namespace PgRoles.Core

open Std PgRoles.Lib

/-! ## Pairs -/

/-- The object of an effect. -/
inductive EffectObject where
  /-- The role itself: attributes, passwords, comments, creation and drop. -/
  | roleAttributes
  /-- A role as the object of a membership. -/
  | role (name : String)
  /-- Every object of a schema. -/
  | schema (name : String)
  | relation (schema name : String) (objectType : ObjectType)
  | database (name : String)
  deriving DecidableEq, Repr

/-- The fields of an object in comparison order, after the position of its variant. -/
def EffectObject.fields : EffectObject → Nat × String × String × Option ObjectType
  | .roleAttributes => (0, "", "", none)
  | .role name => (1, name, "", none)
  | .schema name => (2, name, "", none)
  | .relation schemaName name objectType => (3, schemaName, name, some objectType)
  | .database name => (4, name, "", none)

theorem EffectObject.fields_injective : Function.Injective EffectObject.fields := by
  intro a b h
  cases a <;> cases b <;> simp_all [EffectObject.fields]

instance : Ord EffectObject := ordOn EffectObject.fields
instance : TransOrd EffectObject := transOrd_ordOn _
instance : LawfulEqOrd EffectObject := lawfulEqOrd_ordOn _ EffectObject.fields_injective

/-- A role and an object that an effect touches. -/
structure EffectPair where
  role : String
  object : EffectObject
  deriving DecidableEq, Repr

/-- The two parts of a pair, by which pairs are ordered. -/
def EffectPair.fields (p : EffectPair) : String × EffectObject := (p.role, p.object)

theorem EffectPair.fields_injective : Function.Injective EffectPair.fields := by
  rintro ⟨r, o⟩ ⟨r', o'⟩ h
  obtain ⟨rfl, rfl⟩ := Prod.mk.inj h
  rfl

instance : Ord EffectPair := ordOn EffectPair.fields
instance : TransOrd EffectPair := transOrd_ordOn _
instance : LawfulEqOrd EffectPair := lawfulEqOrd_ordOn _ EffectPair.fields_injective

/-! ## Intersection -/

/-- A privilege of PUBLIC is held by every role. -/
def rolesIntersect (left right : String) : Bool :=
  left == right || left == publicRoleName || right == publicRoleName

/-- Do two effects meet in an object? -/
def objectsIntersect : EffectObject → EffectObject → Bool
  -- An attribute change is not bounded to an object.
  | .roleAttributes, _ | _, .roleAttributes => true
  | .role a, .role b => a == b
  | .schema a, .schema b => a == b
  | .schema schema, .relation other _ _ | .relation other _ _, .schema schema => schema == other
  | .relation aSchema aName aType, .relation bSchema bName bType =>
      aSchema == bSchema && aName == bName && aType == bType
  | .database a, .database b => a == b
  | _, _ => false

/-- Do two pairs meet in their role and in their object? -/
def EffectPair.intersects (p other : EffectPair) : Bool :=
  rolesIntersect p.role other.role && objectsIntersect p.object other.object

/-! ## Projection -/

/-- A global rule applies in every schema, so nothing bounds it. -/
def defaultPrivilegeObject : DefaultPrivilegeScope → EffectObject
  | .schema schema => .schema schema
  | .global => .roleAttributes

/-- The object of a grant or a revoke. -/
def grantObject (objectType : ObjectType) (schema name : Option String) : EffectObject :=
  match objectType with
  | .schema =>
      match name, schema with
      | some name, _ => .schema name
      | none, some schema => .schema schema
      | none, none => .roleAttributes
  | .database =>
      match name with
      | some name => .database name
      | none => .database ""
  | objectType =>
      match schema, name with
      | some schema, some name => .relation schema name objectType
      | some schema, none => .schema schema
      | none, some name => .relation "" name objectType
      | none, none => .roleAttributes

/-- The pairs that a change touches. -/
def changePairs : Change → List EffectPair
  | .createRole name _ | .alterRole name _ | .setComment name _ | .setPassword name _
  | .dropRole name => [⟨name, .roleAttributes⟩]
  | .dropOwned role | .terminateSessions role => [⟨role, .roleAttributes⟩]
  | .reassignOwned fromRole toRole => [⟨fromRole, .roleAttributes⟩, ⟨toRole, .roleAttributes⟩]
  | .createSchema name owner => owner.toList.map fun owner => ⟨owner, .schema name⟩
  | .alterSchemaOwner name owner | .ensureSchemaOwnerPrivileges name owner _ =>
      [⟨owner, .schema name⟩]
  | .grant key _ | .revoke key _ _ =>
      [⟨key.role.asStr, grantObject key.objectType key.schema key.name⟩]
  | .setDefaultPrivilege key _ | .revokeDefaultPrivilege key _ =>
      [⟨key.grantee.asStr, defaultPrivilegeObject key.scope⟩,
        ⟨key.owner, defaultPrivilegeObject key.scope⟩]
  | .addMember role member _ _ | .updateMemberOptions role member _ _ _ _
  | .removeMember role member _ => [⟨member, .role role⟩]

/-- The pairs that a list of changes touches. -/
def effectPairs (changes : List Change) : BTreeSet EffectPair :=
  ExtTreeSet.ofList (changes.flatMap changePairs) compare

/-- The pair of a membership edge. -/
def edgePair (edge : MembershipEdge) : EffectPair := ⟨edge.member, .role edge.role⟩

/-- The pairs that membership overlay edges touch. -/
def membershipOverlayPairs (edges : List MembershipEdge) : BTreeSet EffectPair :=
  ExtTreeSet.ofList (edges.map edgePair) compare

/-- The pairs of the left set that intersect a pair of the right one. -/
def intersectingPairs (left right : BTreeSet EffectPair) : BTreeSet EffectPair :=
  left.filter fun pair => right.toList.any pair.intersects

/-- Does some pair of the one side meet one of the other? -/
def pairsIntersect (left right : BTreeSet EffectPair) : Bool :=
  left.toList.any fun pair => right.toList.any pair.intersects

/-! ## What a pair stands for -/

/-- What a role can have access to. -/
inductive AccessObject where
  | role (name : String)
  | schema (name : String)
  | schemaObject (objectType : ObjectType) (schema name : String)
  | database (name : String)
  deriving DecidableEq

/-- The schema that an object is or lies in. -/
def AccessObject.schema? : AccessObject → Option String
  | .schema name => some name
  | .schemaObject _ schemaName _ => some schemaName
  | .role _ | .database _ => none

/-- A schema and the objects in it. -/
def schemaContents (name : String) : Set AccessObject := {o | o.schema? = some name}

@[simp] theorem mem_schemaContents {o : AccessObject} {name : String} :
    o ∈ schemaContents name ↔ o.schema? = some name :=
  Iff.rfl

/-- The objects that an object of an effect covers. -/
def EffectObject.covers : EffectObject → Set AccessObject
  | .roleAttributes => Set.univ
  | .role name => {.role name}
  | .schema name => schemaContents name
  | .relation schemaName name objectType => {.schemaObject objectType schemaName name}
  | .database name => {.database name}

/-- The accesses of a role to objects; PUBLIC counts as every role. -/
def accessOf (role : String) (objects : Set AccessObject) : Set (String × AccessObject) :=
  {a | (role = publicRoleName ∨ a.1 = role) ∧ a.2 ∈ objects}

/-- The accesses that a pair stands for. -/
def EffectPair.access (p : EffectPair) : Set (String × AccessObject) :=
  accessOf p.role p.object.covers

/-- The two sets have an access in common. -/
def Meet (a b : Set (String × AccessObject)) : Prop := (a ∩ b).Nonempty

theorem meet_comm {a b : Set (String × AccessObject)} : Meet a b ↔ Meet b a := by
  rw [Meet, Meet, Set.inter_comm]

theorem Meet.mono {a a' b b' : Set (String × AccessObject)} (h : Meet a b) (ha : a ⊆ a')
    (hb : b ⊆ b') : Meet a' b' :=
  Set.Nonempty.mono (Set.inter_subset_inter ha hb) h

/-- Accesses of two roles meet when the roles may be one and the objects overlap. -/
theorem meet_accessOf_iff {r s : String} {A B : Set AccessObject} :
    Meet (accessOf r A) (accessOf s B) ↔ rolesIntersect r s = true ∧ (A ∩ B).Nonempty := by
  simp only [rolesIntersect, Bool.or_eq_true, beq_iff_eq]
  constructor
  · intro h
    obtain ⟨⟨t, o⟩, ⟨hr, hA⟩, hs, hB⟩ := h
    refine ⟨?_, o, hA, hB⟩
    rcases hr with hr | hr
    · exact Or.inl (Or.inr hr)
    · rcases hs with hs | hs
      · exact Or.inr hs
      · exact Or.inl (Or.inl (hr.symm.trans hs))
  · intro h
    obtain ⟨hroles, o, hA, hB⟩ := h
    -- Of the two roles the one that is not PUBLIC has the access.
    rcases hroles with (rfl | hr) | hs
    · exact ⟨(r, o), ⟨Or.inr rfl, hA⟩, Or.inr rfl, hB⟩
    · exact ⟨(s, o), ⟨Or.inl hr, hA⟩, Or.inr rfl, hB⟩
    · exact ⟨(r, o), ⟨Or.inr rfl, hA⟩, Or.inl hs, hB⟩

theorem EffectObject.covers_nonempty (o : EffectObject) : o.covers.Nonempty := by
  cases o with
  | roleAttributes => exact ⟨.role "", trivial⟩
  | role name => exact ⟨.role name, rfl⟩
  | schema name => exact ⟨.schema name, rfl⟩
  | relation schemaName name objectType =>
      exact ⟨.schemaObject objectType schemaName name, rfl⟩
  | database name => exact ⟨.database name, rfl⟩

/-- Only one schema's contents overlap. -/
theorem schemaContents_inter_nonempty {s t : String} :
    (schemaContents s ∩ schemaContents t).Nonempty ↔ s = t := by
  constructor
  · intro h
    obtain ⟨o, hs, ht⟩ := h
    exact Option.some.inj (hs.symm.trans ht)
  · intro h
    rw [h, Set.inter_self]
    exact ⟨.schema t, rfl⟩

/-- Objects intersect when what they cover overlaps. -/
theorem objectsIntersect_iff (a b : EffectObject) :
    objectsIntersect a b = true ↔ (a.covers ∩ b.covers).Nonempty := by
  have hall : objectsIntersect a .roleAttributes = true := by cases a <;> rfl
  cases a with
  | roleAttributes =>
      have hcovers : EffectObject.roleAttributes.covers = Set.univ := rfl
      rw [hcovers, Set.univ_inter]
      exact iff_of_true (by cases b <;> rfl) b.covers_nonempty
  | role name =>
      rw [EffectObject.covers, Set.singleton_inter_nonempty]
      cases b <;> simp [objectsIntersect, EffectObject.covers, AccessObject.schema?]
  | schema name =>
      cases b with
      | roleAttributes =>
          have hcovers : EffectObject.roleAttributes.covers = Set.univ := rfl
          rw [hcovers, Set.inter_univ]
          exact iff_of_true hall (EffectObject.schema name).covers_nonempty
      | schema other => simp [objectsIntersect, EffectObject.covers, schemaContents_inter_nonempty]
      | relation otherSchema otherName objectType =>
          rw [EffectObject.covers, EffectObject.covers, Set.inter_singleton_nonempty]
          simp only [objectsIntersect, beq_iff_eq, mem_schemaContents, AccessObject.schema?,
            Option.some.injEq]
          exact eq_comm
      | _ => simp [objectsIntersect, EffectObject.covers, AccessObject.schema?]
  | relation schemaName name objectType =>
      rw [EffectObject.covers, Set.singleton_inter_nonempty]
      cases b with
      | schema other =>
          simp only [objectsIntersect, beq_iff_eq, EffectObject.covers, mem_schemaContents,
            AccessObject.schema?, Option.some.injEq]
          exact eq_comm
      | relation otherSchema otherName otherType =>
          simp only [objectsIntersect, Bool.and_eq_true, beq_iff_eq, EffectObject.covers,
            Set.mem_singleton_iff, AccessObject.schemaObject.injEq, and_assoc]
          tauto
      | _ => simp [objectsIntersect, EffectObject.covers]
  | database name =>
      rw [EffectObject.covers, Set.singleton_inter_nonempty]
      cases b <;> simp [objectsIntersect, EffectObject.covers, AccessObject.schema?]

/-- Pairs intersect when they have an access in common. -/
theorem intersects_iff (p q : EffectPair) : p.intersects q = true ↔ Meet p.access q.access := by
  rw [EffectPair.intersects, Bool.and_eq_true, objectsIntersect_iff, EffectPair.access,
    EffectPair.access, meet_accessOf_iff]

theorem intersects_comm (p q : EffectPair) : p.intersects q = q.intersects p := by
  rw [Bool.eq_iff_iff, intersects_iff, intersects_iff, meet_comm]

/-! ## What changes stand for -/

/-- The pairs of a plan are those of its changes. -/
theorem mem_effectPairs {changes : List Change} {p : EffectPair} :
    p ∈ effectPairs changes ↔ ∃ c ∈ changes, p ∈ changePairs c := by
  rw [effectPairs, ExtTreeSet.mem_ofList, List.contains_iff_mem, List.mem_flatMap]

/-- The pairs of active memberships. -/
theorem mem_membershipOverlayPairs {edges : List MembershipEdge} {p : EffectPair} :
    p ∈ membershipOverlayPairs edges ↔ ∃ e ∈ edges, edgePair e = p := by
  rw [membershipOverlayPairs, ExtTreeSet.mem_ofList, List.contains_iff_mem, List.mem_map]

/-- Two sets intersect when a pair of the one meets a pair of the other. -/
theorem pairsIntersect_iff {left right : BTreeSet EffectPair} :
    pairsIntersect left right = true ↔
      ∃ p ∈ left, ∃ q ∈ right, Meet p.access q.access := by
  simp only [pairsIntersect, List.any_eq_true, ExtTreeSet.mem_toList, intersects_iff]

/-- Pairs are reported when the sets intersect. -/
theorem intersectingPairs_ne_empty_iff {left right : BTreeSet EffectPair} :
    intersectingPairs left right ≠ ∅ ↔ pairsIntersect left right = true := by
  rw [pairsIntersect, List.any_eq_true]
  constructor
  · intro h
    by_contra hnone
    refine h (ExtTreeSet.ext_mem fun p => iff_of_false ?_ ExtTreeSet.not_mem_empty)
    rw [intersectingPairs, mem_filter_iff]
    intro hp
    exact hnone ⟨p, ExtTreeSet.mem_toList.2 hp.1, hp.2⟩
  · intro h hempty
    obtain ⟨p, hp, hany⟩ := h
    have hmem : p ∈ intersectingPairs left right :=
      mem_filter_iff.2 ⟨ExtTreeSet.mem_toList.1 hp, hany⟩
    rw [hempty] at hmem
    exact ExtTreeSet.not_mem_empty hmem

end PgRoles.Core

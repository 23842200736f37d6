import PgRoles.Core.ExpandKeys
import PgRoles.Core.ExpandOrder
import PgRoles.Core.DiffSpec

/-!
# Rules that speak for themselves

What an accepted manifest guarantees about its own rules. A membership may be declared by several
stanzas, and the graph then has one edge for each choice of options. A privilege may be asserted
both present and absent on one rendered target, where the target's schema is left out: the check of
conflicts compares schemas as they are written, and compares a wildcard with a named object only
where a schema is written.
-/

set_option autoImplicit false

namespace PgRoles.Core

open Std PgRoles.Lib

variable {m : PolicyManifest} {e : ExpandedManifest} {g : RoleGraph}

/-! ## Declared memberships -/

/-- The edge one member of one stanza declares. -/
def Membership.edgeOf (membership : Membership) (member : MemberSpec) : MembershipEdge :=
  ⟨membership.role, member.name, member.inheritOption, member.adminOption⟩

theorem mem_membershipEdges {memberships : List Membership} {edge : MembershipEdge} :
    edge ∈ membershipEdges memberships ↔
      ∃ membership ∈ memberships, ∃ member ∈ membership.members,
        membership.edgeOf member = edge := by
  simp only [membershipEdges, List.mem_flatMap, List.mem_map, Membership.edgeOf]

/-- Stanzas that name one member of one role ask for the same options, spelled out or left to the
defaults. -/
def StanzasAgree (memberships : List Membership) : Prop :=
  ∀ a ∈ memberships, ∀ x ∈ a.members, ∀ b ∈ memberships, ∀ y ∈ b.members,
    a.role = b.role → x.name = y.name →
      x.inheritOption = y.inheritOption ∧ x.adminOption = y.adminOption

/-- The diff's map of desired edges has every declared choice. -/
def KeepsDeclaredOptions (memberships : List Membership) (g : RoleGraph) : Prop :=
  ∀ membership ∈ memberships, ∀ member ∈ membership.members,
    (membershipMap g.memberships)[(membership.role, member.name)]? = some (membership.edgeOf member)

/-- The graph has one edge for each declared pair, and the diff reads every declared choice off it,
exactly when the stanzas agree. -/
theorem declaredPairs_kept_iff {defaultOwner : Option String} (h : expandManifest m = .ok e)
    (hgraph : RoleGraph.fromExpanded e defaultOwner = .ok g) :
    OneEdgePerPair g.memberships ∧ KeepsDeclaredOptions m.memberships g ↔
      StanzasAgree m.memberships := by
  have hmem : ∀ edge, edge ∈ g.memberships ↔ ∃ membership ∈ m.memberships,
      ∃ member ∈ membership.members, membership.edgeOf member = edge := by
    intro edge
    rw [mem_memberships_iff hgraph, memberships_of_expandManifest h, mem_membershipEdges]
  constructor
  · intro hkept a ha x hx b hb y hy hrole hname
    obtain ⟨-, hkept⟩ := hkept
    have hax := hkept a ha x hx
    have hby := hkept b hb y hy
    rw [hrole, hname, hby] at hax
    obtain ⟨-, -, hinherit, hadmin⟩ := MembershipEdge.mk.inj (Option.some.inj hax)
    exact ⟨hinherit.symm, hadmin.symm⟩
  · intro hagree
    have hone : OneEdgePerPair g.memberships := by
      intro c hc d hd hpair
      obtain ⟨a, ha, x, hx, rfl⟩ := (hmem c).1 hc
      obtain ⟨b, hb, y, hy, rfl⟩ := (hmem d).1 hd
      obtain ⟨hrole, hname⟩ := Prod.mk.inj hpair
      obtain ⟨hinherit, hadmin⟩ := hagree a ha x hx b hb y hy hrole hname
      rw [Membership.edgeOf, Membership.edgeOf, hinherit, hadmin]
      exact congrArg₂ (fun role member => MembershipEdge.mk role member _ _) hrole hname
    refine ⟨hone, fun a ha x hx => ?_⟩
    exact hone.membershipMap_eq_some_iff.2 ⟨(hmem _).2 ⟨a, ha, x, hx, rfl⟩, rfl⟩

/-- Two stanzas that disagree on whether `alice` inherits from `app`. -/
def twiceDeclared : PolicyManifest :=
  { memberships :=
      [{ role := "app", members := [{ name := "alice", inherit := some false }] },
        { role := "app", members := [{ name := "alice" }] }] }

/-- A membership declared once, with its options left to the defaults. -/
def onceDeclared : PolicyManifest :=
  { memberships := [{ role := "app", members := [{ name := "alice" }] }] }

/-- The expansion and the graph of a manifest without rules that can fail. -/
def expandedMemberships (m : PolicyManifest) : ExpandedManifest := { memberships := m.memberships }

/-- The memberships of a manifest as a graph. -/
def membershipGraph (m : PolicyManifest) : RoleGraph :=
  { memberships := ExtTreeSet.ofList (membershipEdges m.memberships) compare }

theorem onceDeclared_kept :
    OneEdgePerPair (membershipGraph onceDeclared).memberships ∧
      KeepsDeclaredOptions onceDeclared.memberships (membershipGraph onceDeclared) := by
  have hexpanded : expandManifest onceDeclared = .ok (expandedMemberships onceDeclared) := by
    decide +kernel
  have hgraph : RoleGraph.fromExpanded (expandedMemberships onceDeclared) none =
      .ok (membershipGraph onceDeclared) := rfl
  apply (declaredPairs_kept_iff hexpanded hgraph).2
  intro a ha x hx b hb y hy _ _
  rw [List.mem_singleton.1 ha] at hx
  rw [List.mem_singleton.1 hb] at hy
  rw [List.mem_singleton.1 hx, List.mem_singleton.1 hy]
  exact ⟨rfl, rfl⟩

/-- Both choices are accepted and become edges of one pair; the diff keeps the later one in edge
order, which asks for inheritance. -/
theorem twiceDeclared_not_kept :
    expandManifest twiceDeclared = .ok (expandedMemberships twiceDeclared) ∧
      RoleGraph.fromExpanded (expandedMemberships twiceDeclared) none =
          .ok (membershipGraph twiceDeclared) ∧
        ¬ OneEdgePerPair (membershipGraph twiceDeclared).memberships ∧
          (membershipMap (membershipGraph twiceDeclared).memberships)[("app", "alice")]? =
            some ⟨"app", "alice", true, false⟩ := by
  refine ⟨by decide +kernel, rfl, fun hone => ?_, by decide +kernel⟩
  have hsame := hone ⟨"app", "alice", false, false⟩ (by decide +kernel)
    ⟨"app", "alice", true, false⟩ (by decide +kernel) rfl
  cases hsame

/-! ## Present and absent on one target -/

/-- The schema a target is rendered in: one left out is `public`, but schemas and databases have
none. -/
def renderedSchema (objectType : ObjectType) (schema : Option String) : Option String :=
  match objectType with
  | .schema | .database => schema
  | _ => some (schema.getD "public")

/-- The target's name is the object's or the wildcard. -/
def NamesObject (name : Option String) (object : String) : Prop :=
  name = some object ∨ name = some wildcardName

/-- A map of rules has the privilege for the object or for the wildcard of its scope. -/
def AssertedFor (rules : BTreeMap GrantKey (Finset Privilege)) (role : Grantee)
    (objectType : ObjectType) (schema : Option String) (object : String) (p : Privilege) : Prop :=
  ∃ k : GrantKey, k.role = role ∧ k.objectType = objectType ∧
    renderedSchema k.objectType k.schema = schema ∧ NamesObject k.name object ∧ p ∈ entryAt rules k

/-- No privilege is asserted both present and absent on one rendered target, nor in one
default-privilege rule. -/
structure NoContradiction (g : RoleGraph) : Prop where
  grants : ∀ role objectType schema object p,
    AssertedFor g.grants role objectType schema object p →
      ¬ AssertedFor g.grantAbsences role objectType schema object p
  defaults : ∀ d, Disjoint (entryAt g.defaultPrivileges d) (entryAt g.defaultPrivilegeAbsences d)

/-- Two rules of one grantee and type whose common target the check of conflicts does not see: one
leaves the schema out and the other writes `public`, or both leave it out and one is a wildcard. -/
structure UncheckedOverlap (a b : Grant) : Prop where
  role : a.role = b.role
  objectType : a.object.objectType = b.object.objectType
  schemas : (a.object.schema = none ∧ b.object.schema = none ∧ a.object.name ≠ b.object.name) ∨
    (a.object.objectType ≠ .schema ∧ a.object.objectType ≠ .database ∧
      ((a.object.schema = none ∧ b.object.schema = some "public") ∨
        (a.object.schema = some "public" ∧ b.object.schema = none)))
  names : ∃ object, NamesObject a.object.name object ∧ NamesObject b.object.name object

/-- Some privilege is present and absent under rules that overlap unchecked. -/
def HasUncheckedOverlap (grants : List Grant) : Prop :=
  ∃ a ∈ grants, ∃ b ∈ grants, a.ensure = .present ∧ b.ensure = .absent ∧ UncheckedOverlap a b ∧
    ∃ p ∈ a.privileges, p ∈ b.privileges

/-- Every privilege of an entry is one assertion of its declaration. -/
theorem exists_defaultAssertion {defaultOwner : Option String} {d : DefaultPrivilege}
    {entries : List DefaultPrivilegeEntry} {assertions : List DefaultAssertion}
    (hentries : defaultPrivilegeEntries defaultOwner d = .ok entries)
    (hassertions : defaultAssertions defaultOwner d = .ok assertions)
    {entry : DefaultPrivilegeEntry} (hentry : entry ∈ entries) {p : Privilege}
    (hp : p ∈ entry.privileges) :
    ∃ a ∈ assertions, ∃ role, entry.key.grantee = .parse role ∧ a.ensure = entry.ensure ∧
      a.key = (entry.key.owner, entry.key.scope, role, entry.key.onType, p) := by
  obtain ⟨scope, hscope, hentries⟩ := bind_eq_ok.1 hentries
  obtain ⟨scope', hscope', hassertions⟩ := bind_eq_ok.1 hassertions
  obtain rfl : scope = scope' := Except.ok.inj (hscope.symm.trans hscope')
  obtain ⟨grant, hgrant, hok⟩ := exists_of_mem_mapM hentries hentry
  cases hrole : grant.role with
  | none =>
      simp only [hrole] at hok
      cases hok
  | some role =>
      simp only [hrole] at hok
      rw [← Except.ok.inj hok] at hp ⊢
      refine ⟨⟨(defaultPrivilegeOwner defaultOwner d, scope, role, grant.onType, p), grant.ensure⟩,
        ?_, role, rfl, rfl, rfl⟩
      rw [← Except.ok.inj hassertions]
      apply List.mem_flatMap.2
      refine ⟨grant, hgrant, ?_⟩
      simp only [hrole]
      exact List.mem_map.2 ⟨p, List.mem_toFinset.1 hp, rfl⟩

/-- An accepted manifest asserts no default privilege both ways. -/
theorem not_default_absent_of_present (h : expandManifest m = .ok e)
    (hgraph : RoleGraph.fromExpanded e m.defaultOwner = .ok g) {d : DefaultPrivKey} {p : Privilege}
    (hp : p ∈ entryAt g.defaultPrivileges d) : p ∉ entryAt g.defaultPrivilegeAbsences d := by
  have hconflicts := (expandedChecks_of_expandManifest h).ensure_conflicts
  obtain ⟨-, -, hconflicts⟩ := bind_eq_ok.1 hconflicts
  obtain ⟨noted, hnoted, -⟩ := bind_eq_ok.1 hconflicts
  obtain ⟨assertions, hmap, hfold⟩ := noteDefaultPrivileges_eq_ok.1 hnoted
  obtain ⟨hpairs, -⟩ := noteDefaultAssertions_isOk_iff.1 ⟨noted, hfold⟩
  obtain ⟨entries, hentries, rfl⟩ := of_fromExpanded_eq_ok hgraph
  -- A privilege in either map is an assertion of some declaration, under the map's ensure.
  have hasserted : ∀ ensure, p ∈ entryAt (extendEntries ∅ (entriesWith ensure entries.flatten)) d →
      ∃ a ∈ assertions.flatten, ∃ role, d.grantee = .parse role ∧ a.ensure = ensure ∧
        a.key = (d.owner, d.scope, role, d.onType, p) := by
    intro ensure hmem
    rw [mem_entryAt_extendEntries] at hmem
    rcases hmem with hmem | ⟨s, hs, hps⟩
    · simp [entryAt] at hmem
    · obtain ⟨entry, hentry, heq⟩ := List.mem_map.1 hs
      obtain ⟨hentry, hensure⟩ := List.mem_filter.1 hentry
      obtain ⟨rfl, rfl⟩ := Prod.mk.inj heq
      obtain ⟨l, hl, hentry⟩ := List.mem_flatten.1 hentry
      obtain ⟨decl, hdecl, hok⟩ := exists_of_mem_mapM hentries hl
      obtain ⟨as, has, hok'⟩ := exists_of_mem_of_mapM hmap hdecl
      obtain ⟨a, ha, role, hgrantee, haensure, hkey⟩ := exists_defaultAssertion hok hok' hentry hps
      exact ⟨a, List.mem_flatten.2 ⟨as, has, ha⟩, role, hgrantee,
        haensure.trans (by simpa using hensure), hkey⟩
  intro habsent
  obtain ⟨a, ha, role, hgrantee, haensure, hkey⟩ := hasserted .present hp
  obtain ⟨b, hb, role', hgrantee', hbensure, hkey'⟩ := hasserted .absent habsent
  obtain rfl : role = role' := Grantee.parse_injective (hgrantee.symm.trans hgrantee')
  have hensures := hpairs a ha b hb (hkey.trans hkey'.symm)
  rw [haensure, hbensure] at hensures
  cases hensures

/-- What a map of rules asserts for an object is declared by a grant that names it. -/
theorem assertedFor_iff {rules : BTreeMap GrantKey (Finset Privilege)} {ensure : Ensure}
    {grants : List Grant}
    (hrules : ∀ {k : GrantKey} {p : Privilege}, p ∈ entryAt rules k ↔
      ∃ grant ∈ grants, grant.ensure = ensure ∧ grantKeyFromManifest grant = k ∧
        p ∈ grant.privileges)
    {role : Grantee} {objectType : ObjectType} {schema : Option String} {object : String}
    {p : Privilege} :
    AssertedFor rules role objectType schema object p ↔
      ∃ a ∈ grants, a.ensure = ensure ∧ p ∈ a.privileges ∧ .parse a.role = role ∧
        a.object.objectType = objectType ∧
          renderedSchema a.object.objectType a.object.schema = schema ∧
            NamesObject a.object.name object := by
  constructor
  · intro h
    obtain ⟨k, hrole, htype, hschema, hname, hp⟩ := h
    obtain ⟨a, ha, hensure, rfl, hpa⟩ := hrules.1 hp
    exact ⟨a, ha, hensure, hpa, hrole, htype, hschema, hname⟩
  · intro h
    obtain ⟨a, ha, hensure, hpa, hrole, htype, hschema, hname⟩ := h
    exact ⟨grantKeyFromManifest a, hrole, htype, hschema, hname,
      hrules.2 ⟨a, ha, hensure, rfl, hpa⟩⟩

/-- Two schemas are rendered alike when they are written alike, or one is left out for `public`. -/
theorem renderedSchema_eq_iff {objectType : ObjectType} {s s' : Option String} :
    renderedSchema objectType s = renderedSchema objectType s' ↔
      s = s' ∨ (objectType ≠ .schema ∧ objectType ≠ .database ∧
        ((s = none ∧ s' = some "public") ∨ (s = some "public" ∧ s' = none))) := by
  have hplain : objectType ≠ .schema → objectType ≠ .database → ∀ s : Option String,
      renderedSchema objectType s = some (s.getD "public") := by
    intro hs hd s
    cases objectType <;> first | rfl | exact absurd rfl hs | exact absurd rfl hd
  by_cases hs : objectType = .schema
  · simp [renderedSchema, hs]
  · by_cases hd : objectType = .database
    · simp [renderedSchema, hd]
    · rw [hplain hs hd, hplain hs hd]
      cases s <;> cases s' <;> simp [hs, hd, eq_comm]

/-- Names with a common object are equal, or one of them is the wildcard and the other is not. -/
theorem eq_or_wildcard_of_names {name name' : Option String} {object : String}
    (h : NamesObject name object) (h' : NamesObject name' object) :
    name = name' ∨ (name = some wildcardName ∧ ∃ n, name' = some n ∧ n ≠ wildcardName) ∨
      (name' = some wildcardName ∧ ∃ n, name = some n ∧ n ≠ wildcardName) := by
  by_cases hw : object = wildcardName
  · left
    rw [NamesObject, hw, or_self] at h h'
    rw [h, h']
  · rcases h with rfl | rfl <;> rcases h' with rfl | rfl
    · exact Or.inl rfl
    · exact Or.inr (Or.inr ⟨rfl, object, rfl, hw⟩)
    · exact Or.inr (Or.inl ⟨rfl, object, rfl, hw⟩)
    · exact Or.inl rfl

section Contradictions

variable (h : expandManifest m = .ok e)
  (hgraph : RoleGraph.fromExpanded e m.defaultOwner = .ok g) {a b : Grant} {p : Privilege}

include h hgraph

/-- Rules of one key are not opposite. -/
theorem not_opposite_of_object_eq (ha : a ∈ e.grants) (hb : b ∈ e.grants)
    (hpresent : a.ensure = .present) (habsent : b.ensure = .absent) (hpa : p ∈ a.privileges)
    (hpb : p ∈ b.privileges) (hrole : a.role = b.role) : a.object ≠ b.object := by
  intro hobject
  have hkey : grantKeyFromManifest b = grantKeyFromManifest a :=
    grantKeyFromManifest_eq_iff.2 ⟨hrole.symm, hobject.symm⟩
  exact not_absent_of_present h hgraph ((mem_entryAt_grants hgraph).2 ⟨a, ha, hpresent, rfl, hpa⟩)
    ((mem_entryAt_grantAbsences hgraph).2 ⟨b, hb, habsent, hkey, hpb⟩)

/-- Opposite rules with a common object overlap unchecked: the check rejects the others. -/
theorem uncheckedOverlap_of_opposite (ha : a ∈ e.grants) (hb : b ∈ e.grants)
    (hpresent : a.ensure = .present) (habsent : b.ensure = .absent) (hpa : p ∈ a.privileges)
    (hpb : p ∈ b.privileges) (hrole : a.role = b.role)
    (htype : a.object.objectType = b.object.objectType)
    (hschema : renderedSchema a.object.objectType a.object.schema =
      renderedSchema a.object.objectType b.object.schema)
    {object : String} (hname : NamesObject a.object.name object)
    (hname' : NamesObject b.object.name object) : UncheckedOverlap a b := by
  have hdiffer := not_opposite_of_object_eq h hgraph ha hb hpresent habsent hpa hpb hrole
  refine ⟨hrole, htype, ?_, object, hname, hname'⟩
  rcases renderedSchema_eq_iff.1 hschema with hsame | hspelled
  · left
    have hnames : a.object.name ≠ b.object.name := by
      intro heq
      apply hdiffer
      rw [ObjectTarget.mk.injEq]
      exact ⟨htype, hsame, heq⟩
    -- With a schema written, the selectors of the scope would disagree.
    cases hs : a.object.schema with
    | none => exact ⟨rfl, by rw [← hsame, hs], hnames⟩
    | some schema =>
        have hs' : b.object.schema = some schema := by rw [← hsame, hs]
        have hensures : a.ensure = b.ensure := by
          rcases eq_or_wildcard_of_names hname hname' with heq | ⟨hw, n, hn, hne⟩ | ⟨hw, n, hn, hne⟩
          · exact absurd heq hnames
          · exact ensure_eq_of_scope h ha hb hpa hpb hrole.symm htype.symm hs hs' hw hn hne
          · exact (ensure_eq_of_scope h hb ha hpb hpa hrole htype hs' hs hw hn hne).symm
        rw [hpresent, habsent] at hensures
        cases hensures
  · exact Or.inr hspelled

/-- The rules of an accepted manifest do not contradict each other, unless some overlap is hidden
from the check by a schema left out. -/
theorem noContradiction_iff : NoContradiction g ↔ ¬ HasUncheckedOverlap e.grants := by
  constructor
  · intro hno hoverlap
    obtain ⟨a, ha, b, hb, hpresent, habsent, hunchecked, p, hpa, hpb⟩ := hoverlap
    obtain ⟨object, hname, hname'⟩ := hunchecked.names
    have hschema : renderedSchema a.object.objectType a.object.schema =
        renderedSchema a.object.objectType b.object.schema := by
      apply renderedSchema_eq_iff.2
      rcases hunchecked.schemas with ⟨hs, hs', -⟩ | hspelled
      · exact Or.inl (hs.trans hs'.symm)
      · exact Or.inr hspelled
    refine hno.grants (.parse a.role) a.object.objectType
      (renderedSchema a.object.objectType a.object.schema) object p ?_ ?_
    · exact (assertedFor_iff (mem_entryAt_grants hgraph)).2
        ⟨a, ha, hpresent, hpa, rfl, rfl, rfl, hname⟩
    · apply (assertedFor_iff (mem_entryAt_grantAbsences hgraph)).2
      refine ⟨b, hb, habsent, hpb, by rw [hunchecked.role], hunchecked.objectType.symm, ?_, hname'⟩
      rw [← hunchecked.objectType, hschema]
  · intro hno
    refine ⟨fun role objectType schema object p hpresent habsent => ?_, fun d => ?_⟩
    · obtain ⟨a, ha, hensure, hpa, hrole, htype, hschema, hname⟩ :=
        (assertedFor_iff (mem_entryAt_grants hgraph)).1 hpresent
      obtain ⟨b, hb, hensure', hpb, hrole', htype', hschema', hname'⟩ :=
        (assertedFor_iff (mem_entryAt_grantAbsences hgraph)).1 habsent
      have htypes : a.object.objectType = b.object.objectType := htype.trans htype'.symm
      apply hno
      refine ⟨a, ha, b, hb, hensure, hensure', ?_, p, hpa, hpb⟩
      refine uncheckedOverlap_of_opposite h hgraph ha hb hensure hensure' hpa hpb
        (Grantee.parse_injective (hrole.trans hrole'.symm)) htypes ?_ hname hname'
      rw [hschema, ← hschema', htypes]
    · apply Finset.disjoint_left.2
      intro p hp
      exact not_default_absent_of_present h hgraph hp

end Contradictions

/-! ### A contradiction that is accepted -/

/-- SELECT on `orders` for `app`: present without a schema, absent in `public`. -/
def ordersBothWays : PolicyManifest :=
  { grants :=
      [{ role := "app", privileges := [.select], object := ⟨.table, none, some "orders"⟩ },
        { role := "app", privileges := [.select], object := ⟨.table, some "public", some "orders"⟩
          ensure := .absent }] }

/-- SELECT on `orders` present and INSERT absent, both in `public`. -/
def ordersReadOnly : PolicyManifest :=
  { grants :=
      [{ role := "app", privileges := [.select], object := ⟨.table, some "public", some "orders"⟩ },
        { role := "app", privileges := [.insert], object := ⟨.table, some "public", some "orders"⟩
          ensure := .absent }] }

/-- The expansion and the graph of a manifest that has grants alone. -/
def expandedGrants (m : PolicyManifest) : ExpandedManifest := { grants := m.grants }

/-- The grants of a manifest as a graph: the present ones, and the absent ones apart. -/
def grantsGraph (m : PolicyManifest) : RoleGraph :=
  { grants := extendEntries ∅ (grantEntries .present m.grants)
    grantAbsences := extendEntries ∅ (grantEntries .absent m.grants) }

theorem ordersReadOnly_noContradiction : NoContradiction (grantsGraph ordersReadOnly) := by
  have hexpanded : expandManifest ordersReadOnly = .ok (expandedGrants ordersReadOnly) := by
    decide +kernel
  apply (noContradiction_iff hexpanded rfl).2
  intro hoverlap
  obtain ⟨a, ha, b, hb, hpresent, habsent, -, p, hpa, hpb⟩ := hoverlap
  simp only [expandedGrants, ordersReadOnly, List.mem_cons, List.not_mem_nil, or_false] at ha hb
  rcases ha with rfl | rfl
  · rcases hb with rfl | rfl
    · cases habsent
    · rw [List.mem_singleton.1 hpa] at hpb
      simp at hpb
  · cases hpresent

/-- The manifest is accepted, and its graph asserts SELECT on `public.orders` both ways. -/
theorem ordersBothWays_contradicts :
    expandManifest ordersBothWays = .ok (expandedGrants ordersBothWays) ∧
      RoleGraph.fromExpanded (expandedGrants ordersBothWays) none =
          .ok (grantsGraph ordersBothWays) ∧
        AssertedFor (grantsGraph ordersBothWays).grants (.role "app") .table (some "public")
            "orders" .select ∧
          AssertedFor (grantsGraph ordersBothWays).grantAbsences (.role "app") .table
            (some "public") "orders" .select :=
  ⟨by decide +kernel, rfl,
    ⟨⟨.role "app", .table, none, some "orders"⟩, rfl, rfl, rfl, Or.inl rfl, by decide +kernel⟩,
    ⟨⟨.role "app", .table, some "public", some "orders"⟩, rfl, rfl, rfl, Or.inl rfl,
      by decide +kernel⟩⟩

end PgRoles.Core

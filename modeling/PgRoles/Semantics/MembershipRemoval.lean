import PgRoles.Inspect.Preflight
import PgRoles.Semantics.MembershipConvergence

/-!
# Membership removals and dependent grants

A member with ADMIN on a role can grant the role onward, and PostgreSQL refuses to take the member's
last ADMIN while one of its grants is left. A plan removes edges in the order of role, member and
grantor, whatever depends on them. This module says exactly when the removals and reductions of a
checked plan are executed without a refusal (`removals_neverRefused_iff`).

Reductions come first and take ADMIN only; removals follow in the order of their rows. For both the
rows at any point of the run are those of the catalog less what the statements before it took.
-/

set_option autoImplicit false

namespace PgRoles.Semantics

open Std PgRoles.Lib PgRoles.Core PgRoles.Sql PgRoles.Inspect

/-! ## Refusals -/

/-- Some row gives the member ADMIN on the role. -/
def holdsAdmin (catalog : MembershipCatalog) (role member : String) : Bool :=
  catalog.toList.any fun e => e.1.1 == role && e.1.2.1 == member && e.2.admin

/-- Some row of the role was granted by the member. -/
def grantsOnward (catalog : MembershipCatalog) (role member : String) : Bool :=
  catalog.toList.any fun e => e.1.1 == role && e.1.2.2 == member

/-- Every grantor but the bootstrap superuser holds ADMIN on the role it granted. -/
def wellFounded (bootstrap : String) (catalog : MembershipCatalog) : Bool :=
  catalog.toList.all fun e => e.1.2.2 == bootstrap || holdsAdmin catalog e.1.1 e.1.2.2

/-- The statement takes the member's last ADMIN on the role while an edge of that role granted by
the member remains. -/
def refused (defaults : ServerDefaults) (catalog : MembershipCatalog) (s : MembershipStatement) :
    Bool :=
  let row := statementRow defaults s
  let after := execStatement defaults catalog s
  holdsAdmin catalog row.1 row.2.1 && !holdsAdmin after row.1 row.2.1 &&
    grantsOnward after row.1 row.2.1

/-- No statement of the list is refused when its turn comes. -/
def neverRefused (defaults : ServerDefaults) :
    MembershipCatalog → List MembershipStatement → Bool
  | _, [] => true
  | catalog, s :: rest =>
      !refused defaults catalog s && neverRefused defaults (execStatement defaults catalog s) rest

/-- A removal or a reduction. -/
def isRemoval : Change → Bool
  | .removeMember .. => true
  | .updateMemberOptions _ _ _ inherit admin _ => inherit == some false || admin == some false
  | _ => false

/-- The statements of the removals and reductions of a plan, in plan order. -/
def removalStatements (v : Nat) (plan : List Change) : List MembershipStatement :=
  (plan.filter isRemoval).flatMap (renderMembership v)

section Refusals

variable {defaults : ServerDefaults} {catalog : MembershipCatalog} {role member g : String}

/-- The row gives ADMIN. -/
def AdminRow (catalog : MembershipCatalog) (role member g : String) : Prop :=
  ∃ o : MembershipOptions, catalog[(role, member, g)]? = some o ∧ o.admin = true

theorem AdminRow.mem (h : AdminRow catalog role member g) : (role, member, g) ∈ catalog := by
  obtain ⟨o, ho, -⟩ := h
  exact mem_iff_exists_getElem?.2 ⟨o, ho⟩

theorem holdsAdmin_iff :
    holdsAdmin catalog role member = true ↔ ∃ g, AdminRow catalog role member g := by
  rw [holdsAdmin, List.any_eq_true]
  constructor
  · intro h
    obtain ⟨⟨⟨r, m, g⟩, o⟩, hmem, hrow⟩ := h
    simp only [Bool.and_eq_true, beq_iff_eq] at hrow
    obtain ⟨⟨rfl, rfl⟩, hadmin⟩ := hrow
    exact ⟨g, o, mem_toList_iff.1 hmem, hadmin⟩
  · intro h
    obtain ⟨g, o, ho, hadmin⟩ := h
    exact ⟨((role, member, g), o), mem_toList_iff.2 ho, by simp [hadmin]⟩

theorem grantsOnward_iff :
    grantsOnward catalog role member = true ↔ ∃ x, (role, x, member) ∈ catalog := by
  rw [grantsOnward, List.any_eq_true]
  constructor
  · intro h
    obtain ⟨⟨⟨r, x, m⟩, o⟩, hmem, hrow⟩ := h
    simp only [Bool.and_eq_true, beq_iff_eq] at hrow
    obtain ⟨rfl, rfl⟩ := hrow
    exact ⟨x, mem_iff_exists_getElem?.2 ⟨o, mem_toList_iff.1 hmem⟩⟩
  · intro h
    obtain ⟨x, hx⟩ := h
    obtain ⟨o, ho⟩ := mem_iff_exists_getElem?.1 hx
    exact ⟨((role, x, member), o), mem_toList_iff.2 ho, by simp⟩

theorem neverRefused_append {S T : List MembershipStatement} :
    neverRefused defaults catalog (S ++ T) =
      (neverRefused defaults catalog S &&
        neverRefused defaults (S.foldl (execStatement defaults) catalog) T) := by
  induction S generalizing catalog with
  | nil => simp [neverRefused]
  | cons s S ih => simp [neverRefused, ih, Bool.and_assoc]

/-- A run is refused nowhere when every statement passes after the statements before it. -/
theorem neverRefused_iff {S : List MembershipStatement} :
    neverRefused defaults catalog S = true ↔
      ∀ S₁ s S₂, S = S₁ ++ s :: S₂ →
        refused defaults (S₁.foldl (execStatement defaults) catalog) s = false := by
  induction S generalizing catalog with
  | nil => simp [neverRefused]
  | cons t S ih =>
    rw [neverRefused, Bool.and_eq_true, ih, Bool.not_eq_true']
    constructor
    · rintro ⟨hhead, htail⟩ S₁ s S₂ hsplit
      cases S₁ with
      | nil =>
        obtain ⟨rfl, -⟩ := List.cons.inj hsplit
        exact hhead
      | cons t' S₁ =>
        obtain ⟨rfl, hrest⟩ := List.cons.inj hsplit
        exact htail S₁ s S₂ hrest
    · intro h
      exact ⟨h [] t S rfl, fun S₁ s S₂ hsplit => h (t :: S₁) s S₂ (by rw [hsplit]; rfl)⟩

end Refusals

/-! ## Runs of reductions -/

/-- A statement that takes one option from a row. -/
def takesOption : MembershipStatement → Bool
  | .revokeInheritOption .. | .revokeAdminOption .. => true
  | .grantRole .. | .revokeRole .. => false

section Reductions

variable {defaults : ServerDefaults} {catalog : MembershipCatalog} {role member g : String}

theorem mem_execStatement_takesOption {s : MembershipStatement} (hs : takesOption s = true)
    (key : String × String × String) :
    key ∈ execStatement defaults catalog s ↔ key ∈ catalog := by
  rw [mem_iff_exists_getElem?, mem_iff_exists_getElem?, getElem?_execStatement, rowStep]
  split_ifs
  · cases s with
    | revokeInheritOption r m a => cases catalog[key]? <;> simp [rowEffect]
    | revokeAdminOption r m a => cases catalog[key]? <;> simp [rowEffect]
    | _ => cases hs
  · rfl

/-- Taking an option away leaves the ADMIN rows, but for one whose ADMIN it takes. -/
theorem adminRow_execStatement_takesOption {s : MembershipStatement} (hs : takesOption s = true) :
    AdminRow (execStatement defaults catalog s) role member g ↔
      AdminRow catalog role member g ∧ s ≠ .revokeAdminOption role member g := by
  unfold AdminRow
  rw [getElem?_execStatement, rowStep]
  cases s with
  | revokeInheritOption r m a =>
    split_ifs
    · cases catalog[(role, member, g)]? <;> simp [rowEffect]
    · simp
  | revokeAdminOption r m a =>
    split_ifs with hkey
    · simp only [statementRow, Prod.mk.injEq] at hkey
      obtain ⟨rfl, rfl, rfl⟩ := hkey
      cases catalog[(r, m, a)]? <;> simp [rowEffect]
    · have hne : ¬ (r = role ∧ m = member ∧ a = g) := by simpa [statementRow] using hkey
      simpa using fun _ _ _ hr hm => fun ha => hne ⟨hr, hm, ha⟩
  | _ => cases hs

theorem mem_foldl_takesOption {S : List MembershipStatement} (hS : ∀ s ∈ S, takesOption s = true)
    (key : String × String × String) :
    key ∈ S.foldl (execStatement defaults) catalog ↔ key ∈ catalog := by
  induction S generalizing catalog with
  | nil => rfl
  | cons s S ih =>
    rw [List.forall_mem_cons] at hS
    rw [List.foldl_cons, ih hS.2, mem_execStatement_takesOption hS.1]

theorem adminRow_foldl_takesOption {S : List MembershipStatement}
    (hS : ∀ s ∈ S, takesOption s = true) :
    AdminRow (S.foldl (execStatement defaults) catalog) role member g ↔
      AdminRow catalog role member g ∧ .revokeAdminOption role member g ∉ S := by
  induction S generalizing catalog with
  | nil => simp
  | cons s S ih =>
    rw [List.forall_mem_cons] at hS
    rw [List.foldl_cons, ih hS.2, adminRow_execStatement_takesOption hS.1, List.mem_cons, not_or,
      and_assoc]
    simp only [ne_comm, ne_eq]

/-- A statement that takes an option is refused only where it takes the last ADMIN row of a member
who granted onward. -/
theorem refused_takesOption_eq_false {s : MembershipStatement} (hs : takesOption s = true) :
    refused defaults catalog s = false ↔
      ((∃ g, AdminRow catalog (statementRow defaults s).1 (statementRow defaults s).2.1 g) →
        (∃ x, ((statementRow defaults s).1, x, (statementRow defaults s).2.1) ∈ catalog) →
          ∃ g, AdminRow catalog (statementRow defaults s).1 (statementRow defaults s).2.1 g ∧
            s ≠ .revokeAdminOption (statementRow defaults s).1 (statementRow defaults s).2.1 g) :=
  by
  rw [← Bool.not_eq_true, refused, Bool.and_eq_true, Bool.and_eq_true, Bool.not_eq_true',
    ← Bool.not_eq_true, holdsAdmin_iff, holdsAdmin_iff, grantsOnward_iff]
  simp only [mem_execStatement_takesOption hs, adminRow_execStatement_takesOption hs]
  constructor
  · intro h hadmin hgranted
    by_contra hkept
    exact h ⟨⟨hadmin, hkept⟩, hgranted⟩
  · rintro h ⟨⟨hadmin, hkept⟩, hgranted⟩
    exact hkept (h hadmin hgranted)

/-- Reductions are refused nowhere when every member that has granted a role keeps ADMIN on it. -/
theorem neverRefused_takesOption {S : List MembershipStatement}
    (hS : ∀ s ∈ S, takesOption s = true) :
    neverRefused defaults catalog S = true ↔
      ∀ role member, (∃ x, (role, x, member) ∈ catalog) →
        (∃ g, AdminRow catalog role member g) →
          ∃ g, AdminRow catalog role member g ∧ .revokeAdminOption role member g ∉ S := by
  induction S generalizing catalog with
  | nil => simp [neverRefused]
  | cons s S ih =>
    rw [List.forall_mem_cons] at hS
    rw [neverRefused, Bool.and_eq_true, Bool.not_eq_true', ih hS.2]
    simp only [mem_execStatement_takesOption hS.1, adminRow_execStatement_takesOption hS.1,
      List.mem_cons, not_or]
    constructor
    · rintro ⟨hhead, htail⟩ role member hgranted ⟨g, hadmin⟩
      by_cases hkept : ∃ g, AdminRow catalog role member g ∧
          s ≠ .revokeAdminOption role member g
      · obtain ⟨a, ⟨ha, hne⟩, hnot⟩ := htail role member hgranted hkept
        exact ⟨a, ha, Ne.symm hne, hnot⟩
      · -- Then the statement takes the only ADMIN row, and is refused.
        push Not at hkept
        have hs := hkept g hadmin
        rw [refused_takesOption_eq_false hS.1] at hhead
        subst hs
        obtain ⟨a, ha, hne⟩ := hhead ⟨g, hadmin⟩ hgranted
        exact absurd (hkept a ha) hne
    · intro h
      refine ⟨(refused_takesOption_eq_false hS.1).2 fun hadmin hgranted => ?_, ?_⟩
      · obtain ⟨a, ha, hne, -⟩ := h _ _ hgranted hadmin
        exact ⟨a, ha, Ne.symm hne⟩
      · rintro role member hgranted ⟨g, hadmin, -⟩
        obtain ⟨a, ha, hne, hnot⟩ := h role member hgranted ⟨g, hadmin⟩
        exact ⟨a, ⟨ha, Ne.symm hne⟩, hnot⟩

end Reductions

/-! ## Runs of removals -/

/-- The removal of a row. -/
def removeRow (key : String × String × String) : MembershipStatement :=
  .revokeRole key.1 key.2.1 (some key.2.2)

section Removals

variable {defaults : ServerDefaults} {catalog : MembershipCatalog} {role member g : String}

theorem getElem?_removeRows {L : List (String × String × String)} (key : String × String × String) :
    ((L.map removeRow).foldl (execStatement defaults) catalog)[key]? =
      if key ∈ L then none else catalog[key]? := by
  induction L generalizing catalog with
  | nil => simp
  | cons k L ih =>
    have hrow : statementRow defaults (removeRow k) = k := rfl
    rw [List.map_cons, List.foldl_cons, ih, getElem?_execStatement, rowStep, hrow]
    by_cases hkey : k = key
    · simp [hkey, removeRow, rowEffect]
    · simp [hkey, Ne.symm hkey]

theorem mem_removeRows {L : List (String × String × String)} {key : String × String × String} :
    key ∈ (L.map removeRow).foldl (execStatement defaults) catalog ↔ key ∈ catalog ∧ key ∉ L := by
  rw [mem_iff_exists_getElem?, getElem?_removeRows, mem_iff_exists_getElem?]
  by_cases hkey : key ∈ L <;> simp [hkey]

theorem adminRow_removeRows {L : List (String × String × String)} :
    AdminRow ((L.map removeRow).foldl (execStatement defaults) catalog) role member g ↔
      AdminRow catalog role member g ∧ (role, member, g) ∉ L := by
  unfold AdminRow
  rw [getElem?_removeRows]
  by_cases hkey : (role, member, g) ∈ L <;> simp [hkey]

/-- The row is its member's last ADMIN on the role, in the order of grantors. -/
structure LastAdmin (catalog : MembershipCatalog) (role member g : String) : Prop where
  admin : AdminRow catalog role member g
  last : ∀ a, AdminRow catalog role member a →
    (compare (role, member, a) (role, member, g)).isLE

/-- Of a sorted list, what stands before an element and the element itself. -/
theorem mem_of_split_sorted {L L₁ L₂ : List (String × String × String)}
    {key : String × String × String} (hsorted : L.Pairwise fun a b => compare a b = .lt)
    (hsplit : L = L₁ ++ key :: L₂) (k : String × String × String) :
    k ∈ L₁ ++ [key] ↔ k ∈ L ∧ (compare k key).isLE := by
  rw [hsplit, List.pairwise_append, List.pairwise_cons] at hsorted
  obtain ⟨-, ⟨hafter, -⟩, hbefore⟩ := hsorted
  rw [hsplit]
  constructor
  · intro hk
    rcases List.mem_append.1 hk with hk | hk
    · have hlt := hbefore k hk key List.mem_cons_self
      exact ⟨List.mem_append_left _ hk, by rw [hlt]; rfl⟩
    · rw [List.mem_singleton.1 hk]
      exact ⟨List.mem_append_right _ List.mem_cons_self, by rw [compare_eq_iff.2 rfl]; rfl⟩
  · rintro ⟨hk, hle⟩
    rcases List.mem_append.1 hk with hk | hk
    · exact List.mem_append_left _ hk
    · rcases List.mem_cons.1 hk with rfl | hk
      · exact List.mem_append_right _ (List.mem_singleton.2 rfl)
      · have hgt := OrientedCmp.gt_of_lt (hafter k hk)
        rw [hgt] at hle
        cases hle

/-- A removal after earlier removals is refused when it takes the last ADMIN of its member, all
other ADMIN rows being gone, and a grant of the member is left. -/
theorem refused_removeRow {L₁ : List (String × String × String)}
    {key : String × String × String} :
    refused defaults ((L₁.map removeRow).foldl (execStatement defaults) catalog)
        (removeRow key) = true ↔
      (∃ g, AdminRow catalog key.1 key.2.1 g ∧ (key.1, key.2.1, g) ∉ L₁) ∧
        (∀ g, AdminRow catalog key.1 key.2.1 g → (key.1, key.2.1, g) ∈ L₁ ++ [key]) ∧
          ∃ x, (key.1, x, key.2.1) ∈ catalog ∧ (key.1, x, key.2.1) ∉ L₁ ++ [key] := by
  have hafter : execStatement defaults ((L₁.map removeRow).foldl (execStatement defaults) catalog)
      (removeRow key) = ((L₁ ++ [key]).map removeRow).foldl (execStatement defaults) catalog := by
    rw [List.map_append, List.foldl_append]
    rfl
  have hrow : statementRow defaults (removeRow key) = key := rfl
  rw [refused, hafter, hrow, Bool.and_eq_true, Bool.and_eq_true, Bool.not_eq_true',
    ← Bool.not_eq_true, holdsAdmin_iff, holdsAdmin_iff, grantsOnward_iff, and_assoc]
  simp only [adminRow_removeRows, mem_removeRows, not_exists, not_and, not_not]

/-- Removals in the order of their rows, with every ADMIN row of a pair or none, are refused nowhere
when each grant of a member is removed no later than the member's last ADMIN. -/
theorem neverRefused_removeRows {L : List (String × String × String)}
    (hsorted : L.Pairwise fun a b => compare a b = .lt)
    (hclosed : ∀ role member g a, (role, member, g) ∈ L → AdminRow catalog role member g →
      AdminRow catalog role member a → (role, member, a) ∈ L) :
    neverRefused defaults catalog (L.map removeRow) = true ↔
      ∀ role member g, (role, member, g) ∈ L → LastAdmin catalog role member g →
        ∀ x, (role, x, member) ∈ catalog →
          (role, x, member) ∈ L ∧ (compare (role, x, member) (role, member, g)).isLE := by
  rw [neverRefused_iff]
  constructor
  · intro h role member g hkey hlast x hx
    obtain ⟨L₁, L₂, hsplit⟩ := List.append_of_mem hkey
    have hpasses := h (L₁.map removeRow) (removeRow (role, member, g)) (L₂.map removeRow) (by
      rw [hsplit, List.map_append, List.map_cons])
    rw [← Bool.not_eq_true, refused_removeRow] at hpasses
    have hbefore := mem_of_split_sorted hsorted hsplit
    by_contra hleft
    refine hpasses ⟨⟨g, hlast.admin, ?_⟩, ?_, x, hx, ?_⟩
    · -- A row stands once in a sorted list.
      intro hmem
      have hnodup := nodup_of_sorted hsorted
      rw [hsplit, List.nodup_append] at hnodup
      exact hnodup.2.2 _ hmem _ List.mem_cons_self rfl
    · intro a ha
      exact (hbefore _).2 ⟨hclosed role member g a hkey hlast.admin ha, hlast.last a ha⟩
    · intro hmem
      exact hleft ((hbefore _).1 hmem)
  · intro h S₁ s S₂ hsplit
    obtain ⟨L₁, L', rfl, rfl, hL'⟩ := List.map_eq_append_iff.1 hsplit
    obtain ⟨key, L₂, rfl, rfl, rfl⟩ := List.map_eq_cons_iff.1 hL'
    have hbefore := mem_of_split_sorted hsorted rfl
    rw [← Bool.not_eq_true, refused_removeRow]
    rintro ⟨⟨g, hadmin, hnot⟩, hall, x, hx, hleft⟩
    -- The ADMIN row that is not gone yet is the row being removed.
    obtain ⟨role, member, a⟩ := key
    have hg : (role, member, g) = (role, member, a) := by
      rcases List.mem_append.1 (hall g hadmin) with hmem | hmem
      · exact absurd hmem hnot
      · exact List.mem_singleton.1 hmem
    cases hg
    have hlast : LastAdmin catalog role member g :=
      ⟨hadmin, fun b hb => ((hbefore _).1 (hall b hb)).2⟩
    have hkey : (role, member, g) ∈ L₁ ++ (role, member, g) :: L₂ :=
      List.mem_append_right _ List.mem_cons_self
    exact hleft ((hbefore _).2 (h role member g hkey hlast x hx))

end Removals

/-! ## The rows that a plan removes -/

/-- The row gives the executor its own ADMIN on the role. -/
def executorAuthorityRow (server : Server) (key : String × String × String) : Bool :=
  key.2.1 == server.executor && !server.executorIsSuperuser &&
    server.catalog[key]?.any (·.admin)

/-- The inspection of the memberships in the roles of a scope. -/
def inspectMemberships (server : Server) (scope : String → Bool) (graph : RoleGraph) : RoleGraph :=
  recordMemberships graph
    (catalogRows (server.catalog.filter fun key _ => scope key.1) (executorAuthorityRow server))

/-- The plan removes the row: its role is inspected, its pair is not declared, and it is not the
executor's own authority. -/
def removesRow (server : Server) (scope : String → Bool) (desired : RoleGraph)
    (key : String × String × String) : Bool :=
  scope key.1 && !(membershipMap desired.memberships).contains (key.1, key.2.1) &&
    !executorAuthorityRow server key

/-- The removed rows, in order. -/
def removedRows (server : Server) (scope : String → Bool) (desired : RoleGraph) :
    List (String × String × String) :=
  (server.catalog.filter fun key _ => removesRow server scope desired key).keys

section Plan

variable {server : Server} {scope : String → Bool} {graph desired : RoleGraph}
  {role member g : String}

theorem mem_removedRows {key : String × String × String} :
    key ∈ removedRows server scope desired ↔
      key ∈ server.catalog ∧ removesRow server scope desired key = true := by
  rw [removedRows, ExtTreeMap.mem_keys, mem_iff_exists_getElem?, mem_iff_exists_getElem?]
  simp only [getElem?_filter_eq]
  cases server.catalog[key]? <;> simp

theorem sorted_removedRows :
    (removedRows server scope desired).Pairwise fun a b => compare a b = .lt :=
  ExtTreeMap.ordered_keys

theorem recordsCatalog_inspectMemberships :
    RecordsCatalog (inspectMemberships server scope graph)
      (server.catalog.filter fun key _ => scope key.1) :=
  recordsCatalog_recordMemberships graph

/-- The recorded authority is that of the row. -/
theorem executorAuthority_inspectMemberships (hrow : (role, member, g) ∈ server.catalog)
    (hscope : scope role = true) :
    executorAuthority (inspectMemberships server scope graph) role member g =
      executorAuthorityRow server (role, member, g) := by
  rw [Bool.eq_iff_iff, executorAuthority, ExtTreeSet.contains_iff_mem, inspectMemberships,
    mem_executorAuthorityEdges]
  constructor
  · rintro ⟨row, hmem, hgrantor, hauthority, hpair⟩
    obtain ⟨⟨⟨r, m, a⟩, o⟩, -, rfl⟩ := List.mem_map.1 hmem
    cases hgrantor
    cases hpair
    exact hauthority
  · intro hauthority
    obtain ⟨o, ho⟩ := mem_iff_exists_getElem?.1 hrow
    refine ⟨_, List.mem_map.2 ⟨((role, member, g), o), mem_toList_iff.2 ?_, rfl⟩, rfl, hauthority,
      rfl⟩
    simp [ho, hscope]

theorem compare_triple (a a' b b' c c' : String) :
    compare (a, b, c) (a', b', c') = (compare (a, b) (a', b')).then (compare c c') := by
  show (compare a a').then ((compare b b').then (compare c c')) =
    ((compare a a').then (compare b b')).then (compare c c')
  rw [Ordering.then_assoc]

theorem mem_scoped {key : String × String × String} :
    key ∈ server.catalog.filter (fun key _ => scope key.1) ↔
      key ∈ server.catalog ∧ scope key.1 = true := by
  rw [mem_iff_exists_getElem?, mem_iff_exists_getElem?, getElem?_filter_eq]
  cases server.catalog[key]? <;> simp

/-- The grantors of a pair whose rows the plan removes. -/
def removedGrantorsOf (current : RoleGraph) (pair : String × String) : List String :=
  ((recordedGrantors current pair).getD ∅).toList.filter fun g =>
    !executorAuthority current pair.1 pair.2 g

/-- The undeclared pairs are removed row by row, in the order of rows. -/
theorem undeclaredRemoves_eq :
    ((membershipMap (inspectMemberships server scope graph).memberships).toList.flatMap fun e =>
        if e.1 ∈ membershipMap desired.memberships then []
        else removeAllEdges (inspectMemberships server scope graph) e.1) =
      (removedRows server scope desired).map fun key =>
        Change.removeMember key.1 key.2.1 (some key.2.2) := by
  generalize hcurrent : inspectMemberships server scope graph = current
  have hrecords : RecordsCatalog current (server.catalog.filter fun key _ => scope key.1) := by
    rw [← hcurrent]
    exact recordsCatalog_inspectMemberships
  -- Every inspected pair has its grantors on record.
  have hedges : ∀ e ∈ (membershipMap current.memberships).toList,
      ∃ gs, recordedGrantors current e.1 = some gs ∧
        ∀ a, a ∈ gs ↔ (e.1.1, e.1.2, a) ∈ server.catalog.filter fun key _ => scope key.1 := by
    intro e he
    obtain ⟨hmem, hpair⟩ := of_membershipMap_eq_some (mem_toList_iff.1 he)
    obtain ⟨⟨a, ha⟩, -, -⟩ := (hrecords.memberships e.2).1 hmem
    rw [← hpair]
    exact hrecords.recordedGrantors_of_row ha
  have hrows : ((membershipMap current.memberships).toList.flatMap fun e =>
        if e.1 ∈ membershipMap desired.memberships then [] else removeAllEdges current e.1) =
      ((membershipMap current.memberships).toList.flatMap fun e =>
        if e.1 ∈ membershipMap desired.memberships then []
        else (removedGrantorsOf current e.1).map (e.1.1, e.1.2, ·)).map fun key =>
          Change.removeMember key.1 key.2.1 (some key.2.2) := by
    rw [List.map_flatMap]
    refine List.flatMap_congr fun e he => ?_
    obtain ⟨gs, hgs, -⟩ := hedges e he
    split_ifs
    · rfl
    · rw [removeAllEdges, removedGrantorsOf, hgs, List.map_map]
      rfl
  rw [hrows]
  congr 1
  refine eq_of_sorted_of_mem_iff ?_ sorted_removedRows ?_
  · rw [List.pairwise_flatMap]
    constructor
    · intro e he
      split_ifs
      · exact .nil
      · refine List.pairwise_map.2 (ExtTreeSet.ordered_toList.filter _ |>.imp fun hlt => ?_)
        rw [compare_triple, compare_eq_iff.2 rfl]
        exact hlt
    · refine ExtTreeMap.ordered_keys_toList.imp fun {a b} hlt x hx y hy => ?_
      split_ifs at hx hy with ha hb
      · cases hx
      · cases hx
      · cases hy
      · obtain ⟨g, -, rfl⟩ := List.mem_map.1 hx
        obtain ⟨g', -, rfl⟩ := List.mem_map.1 hy
        rw [compare_triple, hlt]
        rfl
  · rintro ⟨role, member, g⟩
    rw [mem_removedRows, List.mem_flatMap]
    constructor
    · rintro ⟨e, he, hkey⟩
      split_ifs at hkey with hdeclared
      · cases hkey
      · obtain ⟨a, ha, hkey⟩ := List.mem_map.1 hkey
        cases hkey
        obtain ⟨gs, hgs, hmem⟩ := hedges e he
        rw [removedGrantorsOf, hgs, List.mem_filter, Option.getD_some, ExtTreeSet.mem_toList,
          hmem, mem_scoped, ← hcurrent, Bool.not_eq_true'] at ha
        obtain ⟨⟨hrow, hscope⟩, hauthority⟩ := ha
        rw [executorAuthority_inspectMemberships hrow hscope] at hauthority
        refine ⟨hrow, ?_⟩
        rw [← ExtTreeMap.contains_iff_mem, Bool.not_eq_true] at hdeclared
        simp [removesRow, hscope, hdeclared, hauthority]
    · rintro ⟨hrow, hremoves⟩
      simp only [removesRow, Bool.and_eq_true, Bool.not_eq_true'] at hremoves
      obtain ⟨⟨hscope, hdeclared⟩, hauthority⟩ := hremoves
      have hscoped := mem_scoped.2 ⟨hrow, hscope⟩
      obtain ⟨c, hc, -⟩ := hrecords.memberships.exists_currentEdge hscoped
      obtain ⟨gs, hgs, hmem⟩ := hrecords.recordedGrantors_of_row hscoped
      refine ⟨((role, member), c), mem_toList_iff.2 hc, ?_⟩
      have hundeclared : (role, member) ∉ membershipMap desired.memberships := by
        rw [← ExtTreeMap.contains_iff_mem, hdeclared]
        exact Bool.false_ne_true
      rw [if_neg hundeclared]
      refine List.mem_map.2 ⟨g, ?_, rfl⟩
      rw [removedGrantorsOf, hgs, List.mem_filter, Option.getD_some, ExtTreeSet.mem_toList,
        hmem, ← hcurrent, executorAuthority_inspectMemberships hrow hscope, hauthority]
      exact ⟨hscoped, rfl⟩

/-- Reductions of the declared pairs. -/
def reductionChanges (current desired : RoleGraph) : List Change :=
  (membershipMap desired.memberships).toList.flatMap fun e => pairRemoves current e.1 e.2

/-- The plan takes the row's ADMIN: its pair is declared without, and it is not the executor's own
authority. -/
structure ReducesAdmin (server : Server) (scope : String → Bool) (desired : RoleGraph)
    (role member g : String) : Prop where
  declared : ∃ d, (membershipMap desired.memberships)[(role, member)]? = some d ∧ d.admin = false
  inScope : scope role = true
  admin : AdminRow server.catalog role member g
  notAuthority : executorAuthorityRow server (role, member, g) = false

/-- Every reduction is of the options that one row has. -/
theorem exists_of_mem_reductionChanges {current : RoleGraph} {catalog : MembershipCatalog}
    (hrecords : RecordsCatalog current catalog) {c : Change}
    (hc : c ∈ reductionChanges current desired) :
    ∃ role member g currentEdge d, (membershipMap desired.memberships)[(role, member)]? = some d ∧
      (membershipMap current.memberships)[(role, member)]? = some currentEdge ∧
      (role, member, g) ∈ catalog ∧
      c = .updateMemberOptions role member g
        (inheritReduction current (role, member) currentEdge d g)
        (adminReduction current (role, member) currentEdge d g) none := by
  obtain ⟨⟨role, member⟩, d, hd, hc⟩ := mem_flatMap_toList.1 hc
  obtain ⟨currentEdge, hcur, -, ⟨hnone, -⟩ | ⟨gs, hgs, hc⟩⟩ := mem_pairRemoves.1 hc
  · obtain ⟨hmem, hpair⟩ := of_membershipMap_eq_some hcur
    obtain ⟨⟨a, ha⟩, -, -⟩ := (hrecords.memberships currentEdge).1 hmem
    obtain ⟨gs, hgs, -⟩ := hrecords.recordedGrantors_of_row ha
    rw [show (currentEdge.role, currentEdge.member) = (role, member) from hpair, hnone] at hgs
    cases hgs
  · obtain ⟨g, hg, -, rfl⟩ := mem_optionReductions.1 hc
    exact ⟨role, member, g, currentEdge, d, hd, hcur, hrecords.mem_catalog_of_recorded hgs hg, rfl⟩

/-- What a reduction renders to once it is resolved. -/
theorem render_reduction {current : RoleGraph} {catalog : MembershipCatalog}
    (hrecords : RecordsCatalog current catalog) (authority : MembershipAuthority) {v : Nat}
    (hrow : (role, member, g) ∈ catalog) {currentEdge d : MembershipEdge} :
    renderMembership v (resolvedChange current authority (.updateMemberOptions role member g
        (inheritReduction current (role, member) currentEdge d g)
        (adminReduction current (role, member) currentEdge d g) none)) =
      (if inheritReduction current (role, member) currentEdge d g = some false then
        [.revokeInheritOption role member g] else []) ++
      (if adminReduction current (role, member) currentEdge d g = some false then
        [.revokeAdminOption role member g] else []) := by
  have hi := @inheritReduction_ne_true current (role, member) currentEdge d g
  have ha := @adminReduction_ne_true current (role, member) currentEdge d g
  obtain ⟨os, hok⟩ := hrecords.resolve_reduction authority hrow hi ha
  rw [(resolves_of_ok hok).2, boundOptionChange, renderMembership, renderUpdateMemberOptions,
    if_neg (not_or.2 ⟨hi, ha⟩), List.append_nil]

/-- The statements of a reduction take options. -/
theorem takesOption_of_reduction {current : RoleGraph} {catalog : MembershipCatalog}
    (hrecords : RecordsCatalog current catalog) (authority : MembershipAuthority) {v : Nat} :
    ∀ s ∈ ((reductionChanges current desired).map (resolvedChange current authority)).flatMap
      (renderMembership v), takesOption s = true := by
  intro s hs
  obtain ⟨c', hc', hs⟩ := List.mem_flatMap.1 hs
  obtain ⟨c, hc, rfl⟩ := List.mem_map.1 hc'
  obtain ⟨role, member, g, currentEdge, d, -, -, hrow, rfl⟩ :=
    exists_of_mem_reductionChanges hrecords hc
  rw [render_reduction hrecords authority hrow, List.mem_append] at hs
  rcases hs with hs | hs
  · split_ifs at hs
    · rw [List.mem_singleton.1 hs]
      rfl
    · cases hs
  · split_ifs at hs
    · rw [List.mem_singleton.1 hs]
      rfl
    · cases hs

/-- The statements of the reductions, as the plan of an inspected graph has them. -/
def reductionStatements (server : Server) (scope : String → Bool) (graph desired : RoleGraph)
    (authority : MembershipAuthority) (v : Nat) : List MembershipStatement :=
  ((reductionChanges (inspectMemberships server scope graph) desired).map
    (resolvedChange (inspectMemberships server scope graph) authority)).flatMap
      (renderMembership v)

/-- When ADMIN is taken from a row. -/
theorem adminReduction_eq_false_iff {currentEdge d : MembershipEdge} {o : MembershipOptions}
    (hcur : (membershipMap (inspectMemberships server scope graph).memberships)[(role, member)]? =
      some currentEdge)
    (hrow : server.catalog[(role, member, g)]? = some o) (hscope : scope role = true) :
    adminReduction (inspectMemberships server scope graph) (role, member) currentEdge d g =
        some false ↔
      d.admin = false ∧ o.admin = true ∧ executorAuthorityRow server (role, member, g) = false := by
  have hrecords : RecordsCatalog (inspectMemberships server scope graph) _ :=
    recordsCatalog_inspectMemberships
  have hmem : (role, member, g) ∈ server.catalog := mem_iff_exists_getElem?.2 ⟨o, hrow⟩
  have hlive : liveOptions (inspectMemberships server scope graph) (role, member) g = some o := by
    rw [hrecords.options, getElem?_filter_eq, hrow]
    simp [hscope]
  have hsome : adminReduction (inspectMemberships server scope graph) (role, member) currentEdge d
      g = some false ↔ (adminReduction (inspectMemberships server scope graph) (role, member)
        currentEdge d g).isSome = true := by
    have hne := @adminReduction_ne_true (inspectMemberships server scope graph) (role, member)
      currentEdge d g
    cases hred : adminReduction (inspectMemberships server scope graph) (role, member) currentEdge
        d g with
    | none => simp
    | some b =>
      cases b with
      | true => exact absurd hred hne
      | false => simp
  rw [hsome, isSome_adminReduction hlive, executorAuthority_inspectMemberships hmem hscope]
  simp only [Bool.and_eq_true, Bool.not_eq_true']
  constructor
  · rintro ⟨⟨⟨-, hd⟩, hauthority⟩, ho⟩
    exact ⟨hd, ho, hauthority⟩
  · rintro ⟨hd, ho, hauthority⟩
    refine ⟨⟨⟨?_, hd⟩, hauthority⟩, ho⟩
    -- The effective edge has what any of its rows has.
    obtain ⟨hedge, hpair⟩ := of_membershipMap_eq_some hcur
    obtain ⟨-, -, hadmin⟩ := (hrecords.memberships currentEdge).1 hedge
    obtain ⟨hr, hm⟩ := Prod.mk.inj hpair
    refine hadmin.2 ⟨g, o, ?_, ho⟩
    rw [hr, hm, getElem?_filter_eq, hrow]
    simp [hscope]

/-- The plan takes ADMIN from the rows whose reductions it makes. -/
theorem mem_reductionStatements (authority : MembershipAuthority) {v : Nat} :
    .revokeAdminOption role member g ∈
        reductionStatements server scope graph desired authority v ↔
      ReducesAdmin server scope desired role member g := by
  have hrecords : RecordsCatalog (inspectMemberships server scope graph) _ :=
    recordsCatalog_inspectMemberships
  constructor
  · intro hs
    obtain ⟨c', hc', hs⟩ := List.mem_flatMap.1 hs
    obtain ⟨c, hc, rfl⟩ := List.mem_map.1 hc'
    obtain ⟨r, m, a, currentEdge, d, hd, hcur, hrow, rfl⟩ :=
      exists_of_mem_reductionChanges hrecords hc
    rw [render_reduction hrecords authority hrow, List.mem_append] at hs
    rcases hs with hs | hs
    · split_ifs at hs
      · cases List.mem_singleton.1 hs
      · cases hs
    · split_ifs at hs with hred
      · cases List.mem_singleton.1 hs
        obtain ⟨hmem, hscope⟩ := mem_scoped.1 hrow
        obtain ⟨o, ho⟩ := mem_iff_exists_getElem?.1 hmem
        obtain ⟨hda, hoa, hauthority⟩ := (adminReduction_eq_false_iff hcur ho hscope).1 hred
        exact ⟨⟨d, hd, hda⟩, hscope, ⟨o, ho, hoa⟩, hauthority⟩
      · cases hs
  · rintro ⟨⟨d, hd, hda⟩, hscope, ⟨o, ho, hoa⟩, hauthority⟩
    have hrow := mem_scoped.2 ⟨mem_iff_exists_getElem?.2 ⟨o, ho⟩, hscope⟩
    obtain ⟨currentEdge, hcur, -⟩ := hrecords.memberships.exists_currentEdge hrow
    obtain ⟨gs, hgs, hmem⟩ := hrecords.recordedGrantors_of_row hrow
    have hred := (adminReduction_eq_false_iff (g := g) hcur ho hscope).2 ⟨hda, hoa, hauthority⟩
    have hdiffer : sameOptions currentEdge d = false := by
      obtain ⟨hedge, hpair⟩ := of_membershipMap_eq_some hcur
      obtain ⟨-, -, hadmin⟩ := (hrecords.memberships currentEdge).1 hedge
      obtain ⟨hr, hm⟩ := Prod.mk.inj hpair
      have hcadmin : currentEdge.admin = true := by
        refine hadmin.2 ⟨g, o, ?_, hoa⟩
        rw [hr, hm, getElem?_filter_eq, ho]
        simp [hscope]
      simp [sameOptions, hcadmin, hda]
    have hchange := mem_optionReductions.2 ⟨g, (hmem g).2 hrow, Or.inr (by rw [hred]; rfl), rfl⟩
    refine List.mem_flatMap.2 ⟨_, List.mem_map.2 ⟨_, mem_flatMap_toList.2 ⟨(role, member), d, hd,
      mem_pairRemoves.2 ⟨currentEdge, hcur, hdiffer, Or.inr ⟨gs, hgs, hchange⟩⟩⟩, rfl⟩, ?_⟩
    rw [render_reduction hrecords authority hrow, hred, List.mem_append]
    exact Or.inr (List.mem_singleton.2 rfl)

/-! ## The statements of a plan -/

theorem isRemoval_resolvedChange (current : RoleGraph) (authority : MembershipAuthority)
    (c : Change) : isRemoval (resolvedChange current authority c) = isRemoval c := by
  cases c with
  | updateMemberOptions role member grantor inherit admin binding =>
    unfold resolvedChange resolveMembershipOption
    simp only
    cases provenOptions current role member with
    | none => rfl
    | some options =>
      simp only
      split_ifs <;> rfl
  | _ => rfl

/-- The removals of a plan are removals. -/
theorem isRemoval_of_mem_memberRemoves {current : RoleGraph} {c : Change}
    (hc : c ∈ memberRemoves current desired) : isRemoval c = true := by
  rcases mem_memberRemoves.1 hc with ⟨pair, d, -, hc⟩ | ⟨pair, e, -, -, hc⟩
  · obtain ⟨currentEdge, -, -, ⟨-, rfl⟩ | ⟨gs, -, hc⟩⟩ := mem_pairRemoves.1 hc
    · rfl
    · obtain ⟨g, -, hsome, rfl⟩ := mem_optionReductions.1 hc
      have hi := @inheritReduction_ne_true current pair currentEdge d g
      have ha := @adminReduction_ne_true current pair currentEdge d g
      rcases hsome with hsome | hsome
      · obtain ⟨b, hb⟩ := Option.isSome_iff_exists.1 hsome
        cases b with
        | true => exact absurd hb hi
        | false => simp [isRemoval, hb]
      · obtain ⟨b, hb⟩ := Option.isSome_iff_exists.1 hsome
        cases b with
        | true => exact absurd hb ha
        | false => simp [isRemoval, hb]
  · rcases mem_removeAllEdges.1 hc with ⟨-, rfl⟩ | ⟨_, _, -, -, -, rfl⟩
    · rfl
    · rfl

theorem isRemoval_of_mem_memberAdds {current : RoleGraph} {c : Change}
    (hc : c ∈ memberAdds current desired) : isRemoval c = false := by
  obtain ⟨pair, d, -, hc⟩ := mem_memberAdds.1 hc
  rcases mem_pairAdds.1 hc with ⟨-, rfl⟩ | ⟨currentEdge, -, -, ⟨-, rfl⟩ | ⟨gs, -, hc⟩⟩
  · rfl
  · rfl
  · obtain ⟨-, rfl⟩ := mem_optionIncreases.1 hc
    simp [isRemoval, optionIncrease_ne_false]

theorem phase_of_isRemoval {c : Change} (hc : isRemoval c = true) : c.phase = .membership := by
  cases c with
  | removeMember role member grantor => rfl
  | updateMemberOptions role member grantor inherit admin binding => rfl
  | _ => cases hc

/-- The removals of a plan are its reductions, then its removals of memberships. -/
theorem filter_isRemoval_diff (current desired : RoleGraph) :
    (diff current desired).filter isRemoval = memberRemoves current desired := by
  have hphase : (diff current desired).filter isRemoval =
      ((diff current desired).filter fun c => c.phase == .membership).filter isRemoval := by
    rw [List.filter_filter]
    refine List.filter_congr fun c _ => ?_
    cases hc : isRemoval c with
    | false => rfl
    | true => rw [phase_of_isRemoval hc]; rfl
  rw [hphase, filter_membership_diff, membershipChanges, List.filter_append,
    List.filter_eq_self.2 fun c hc => isRemoval_of_mem_memberRemoves hc,
    List.filter_eq_nil_iff.2 fun c hc => by simp [isRemoval_of_mem_memberAdds hc],
    List.append_nil]

/-- The removal statements of the plan for an inspected graph. -/
theorem removalStatements_eq {authority : MembershipAuthority} {v : Nat} (hv : 16 ≤ v)
    {plan : List Change}
    (hplan : resolveMembershipOptions (diff (inspectMemberships server scope graph) desired)
      (inspectMemberships server scope graph) authority = .ok plan) :
    removalStatements v plan = reductionStatements server scope graph desired authority v ++
      (removedRows server scope desired).map removeRow := by
  have hrecords : RecordsCatalog (inspectMemberships server scope graph) _ :=
    recordsCatalog_inspectMemberships
  rw [resolveMembershipOptions_eq_map (hrecords.resolves_diff authority)] at hplan
  rw [← Except.ok.inj hplan, removalStatements, List.filter_map]
  have hfilter : (diff (inspectMemberships server scope graph) desired).filter
      (isRemoval ∘ resolvedChange (inspectMemberships server scope graph) authority) =
        memberRemoves (inspectMemberships server scope graph) desired := by
    rw [← filter_isRemoval_diff]
    exact List.filter_congr fun c _ => isRemoval_resolvedChange _ _ c
  rw [hfilter, memberRemoves, undeclaredRemoves_eq, List.map_append, List.flatMap_append]
  congr 1
  rw [List.map_map, List.flatMap_map, List.map_eq_flatMap]
  refine List.flatMap_congr fun key _ => ?_
  have hversion : supportsGrantWithOptions v = true := decide_eq_true hv
  simp [resolvedChange, resolveMembershipOption, renderMembership, renderRemoveMember, hversion,
    removeRow]

end Plan

/-! ## Plans that pass the checks -/

section Checked

variable {server : Server} {scope : String → Bool} {graph desired : RoleGraph}
  {role member g : String} {plan : List Change}

/-- The last element with a property. -/
theorem exists_last_split {α : Type} {l : List α} {q : α → Prop} (h : ∃ a ∈ l, q a) :
    ∃ l₁ a l₂, l = l₁ ++ a :: l₂ ∧ q a ∧ ∀ b ∈ l₂, ¬ q b := by
  induction l with
  | nil =>
    obtain ⟨a, ha, -⟩ := h
    cases ha
  | cons b l ih =>
    by_cases hl : ∃ a ∈ l, q a
    · obtain ⟨l₁, a, l₂, rfl, ha, hnone⟩ := ih hl
      exact ⟨b :: l₁, a, l₂, rfl, ha, hnone⟩
    · obtain ⟨a, ha, hq⟩ := h
      rcases List.mem_cons.1 ha with rfl | ha
      · exact ⟨[], a, l, rfl, hq, fun c hc hqc => hl ⟨c, hc, hqc⟩⟩
      · exact absurd ⟨a, ha, hq⟩ hl

theorem optionIssues_eq_nil {changes before rest : List Change}
    (h : optionIssuesFrom server changes before rest = []) :
    ∀ a c b, rest = a ++ c :: b → optionIssues server changes (before ++ a) c = [] := by
  induction rest generalizing before with
  | nil =>
    intro a c b hsplit
    cases a <;> cases hsplit
  | cons c rest ih =>
    rw [optionIssuesFrom, List.append_eq_nil_iff] at h
    intro a d b hsplit
    cases a with
    | nil =>
      obtain ⟨rfl, -⟩ := List.cons.inj hsplit
      rw [List.append_nil]
      exact h.1
    | cons c' a =>
      obtain ⟨rfl, hrest⟩ := List.cons.inj hsplit
      have htail := ih h.2 a d b hrest
      rwa [List.append_assoc] at htail

/-- A statement that takes ADMIN comes from an option change of the plan. -/
theorem exists_change_of_revokeAdmin {v : Nat}
    (hs : .revokeAdminOption role member g ∈ removalStatements v plan) :
    ∃ inherit binding, .updateMemberOptions role member g inherit (some false) binding ∈ plan := by
  obtain ⟨c, hc, hs⟩ := List.mem_flatMap.1 hs
  have hmem := (List.mem_filter.1 hc).1
  cases c with
  | updateMemberOptions r m a inherit admin binding =>
    simp only [renderMembership, renderUpdateMemberOptions, List.mem_append] at hs
    rcases hs with (hs | hs) | hs
    · split_ifs at hs
      · cases List.mem_singleton.1 hs
      · cases hs
    · split_ifs at hs with hadmin
      · cases List.mem_singleton.1 hs
        rw [hadmin] at hmem
        exact ⟨inherit, binding, hmem⟩
      · cases hs
    · by_cases hgrant : inherit = some true ∨ admin = some true
      · rw [if_pos hgrant] at hs
        cases List.mem_singleton.1 hs
      · rw [if_neg hgrant] at hs
        cases hs
  | addMember r m inherit admin => cases List.mem_singleton.1 hs
  | removeMember r m grantor => cases List.mem_singleton.1 hs
  | _ => cases hs

theorem mem_removedGrantors {changes : List Change} {inherit : Option Bool}
    {binding : Option MembershipOptionBinding}
    (h : .updateMemberOptions role member g inherit (some false) binding ∈ changes) :
    g ∈ removedGrantors changes role member :=
  List.mem_filterMap.2 ⟨_, h, if_pos ⟨rfl, rfl⟩⟩

/-- A checked plan leaves ADMIN to every member that has granted the role, the bootstrap superuser
aside. -/
theorem kept_admin_of_checked {v : Nat} (hissues : membershipAuthorityIssues server plan = [])
    (hmember : member ≠ server.bootstrap) (hgranted : ∃ x, (role, x, member) ∈ server.catalog)
    (hadmin : AdminRow server.catalog role member g) :
    ∃ a, AdminRow server.catalog role member a ∧
      .revokeAdminOption role member a ∉ removalStatements v plan := by
  by_cases hreduced : ∃ c ∈ plan, ∃ a inherit binding,
      c = .updateMemberOptions role member a inherit (some false) binding
  · -- The check at the last reduction of the pair has seen all of them.
    obtain ⟨before, c, after, hsplit, ⟨a, inherit, binding, rfl⟩, hlast⟩ :=
      exists_last_split hreduced
    rw [membershipAuthorityIssues, List.append_eq_nil_iff, List.append_eq_nil_iff] at hissues
    have hnone := optionIssues_eq_nil hissues.1.2 before _ after hsplit
    rw [List.nil_append, optionIssues, List.append_eq_nil_iff] at hnone
    have hdependents : hasDependentGrants server role member = true := by
      obtain ⟨x, hx⟩ := hgranted
      obtain ⟨o, ho⟩ := mem_iff_exists_getElem?.1 hx
      exact List.any_eq_true.2 ⟨((role, x, member), o), mem_toList_iff.2 ho, by simp [hmember]⟩
    have hsurvives := hnone.2
    simp only [beq_self_eq_true, hdependents, Bool.true_and, ite_eq_right_iff, List.cons_ne_nil,
      imp_false, Bool.not_eq_true', Bool.not_eq_false] at hsurvives
    obtain ⟨⟨⟨r, m, b⟩, o⟩, hmem, hrow⟩ := List.any_eq_true.1 hsurvives
    simp only [Bool.and_eq_true, beq_iff_eq, Bool.not_eq_true', List.contains_eq_mem,
      decide_eq_false_iff_not] at hrow
    obtain ⟨⟨⟨⟨rfl, rfl⟩, hb⟩, hnot⟩, -⟩ := hrow
    refine ⟨b, ⟨o, mem_toList_iff.1 hmem, hb⟩, fun hs => ?_⟩
    obtain ⟨inherit', binding', hchange⟩ := exists_change_of_revokeAdmin hs
    rw [hsplit, List.append_cons] at hchange
    rcases List.mem_append.1 hchange with hchange | hchange
    · exact hnot (mem_removedGrantors hchange)
    · exact hlast _ hchange ⟨b, inherit', binding', rfl⟩
  · refine ⟨g, hadmin, fun hs => hreduced ?_⟩
    obtain ⟨inherit, binding, hchange⟩ := exists_change_of_revokeAdmin hs
    exact ⟨_, hchange, g, inherit, binding, rfl⟩

/-- Every grant of a member whose ADMIN is removed goes no later than the last ADMIN row, and what
the bootstrap superuser is declared to hold without ADMIN it has not granted. -/
structure RemovesInOrder (server : Server) (scope : String → Bool) (desired : RoleGraph) :
    Prop where
  removals : ∀ role member g, removesRow server scope desired (role, member, g) = true →
    LastAdmin server.catalog role member g → ∀ x, (role, x, member) ∈ server.catalog →
      removesRow server scope desired (role, x, member) = true ∧
        (compare (role, x, member) (role, member, g)).isLE
  bootstrap : ∀ role g, ReducesAdmin server scope desired role server.bootstrap g →
    ∀ x, (role, x, server.bootstrap) ∉ server.catalog

theorem executorAuthorityRow_eq {a : String} (hg : AdminRow server.catalog role member g)
    (ha : AdminRow server.catalog role member a) :
    executorAuthorityRow server (role, member, a) =
      executorAuthorityRow server (role, member, g) := by
  obtain ⟨o, ho, hoa⟩ := hg
  obtain ⟨o', ho', hoa'⟩ := ha
  simp [executorAuthorityRow, ho, ho', hoa, hoa']

/-- The ADMIN rows of a pair are reduced together. -/
theorem ReducesAdmin.of_adminRow {a : String}
    (h : ReducesAdmin server scope desired role member g)
    (ha : AdminRow server.catalog role member a) :
    ReducesAdmin server scope desired role member a :=
  ⟨h.declared, h.inScope, ha, by rw [executorAuthorityRow_eq h.admin ha, h.notAuthority]⟩

theorem not_reducesAdmin_of_removesRow
    (h : removesRow server scope desired (role, member, g) = true) (a : String) :
    ¬ ReducesAdmin server scope desired role member a := by
  rintro ⟨⟨d, hd, -⟩, -, -, -⟩
  simp only [removesRow, Bool.and_eq_true, Bool.not_eq_true'] at h
  have hdeclared := ExtTreeMap.contains_iff_mem.2 (mem_iff_exists_getElem?.2 ⟨d, hd⟩)
  rw [h.1.2] at hdeclared
  cases hdeclared

section Run

variable (defaults : ServerDefaults) (authority : MembershipAuthority) (v : Nat)

theorem takesOption_reductionStatements :
    ∀ s ∈ reductionStatements server scope graph desired authority v, takesOption s = true :=
  takesOption_of_reduction recordsCatalog_inspectMemberships authority

/-- The reductions of a checked plan are refused only where the bootstrap superuser has granted. -/
theorem reductions_neverRefused_iff (hv : 16 ≤ v)
    (hplan : resolveMembershipOptions (diff (inspectMemberships server scope graph) desired)
      (inspectMemberships server scope graph) authority = .ok plan)
    (hissues : membershipAuthorityIssues server plan = []) :
    neverRefused defaults server.catalog
        (reductionStatements server scope graph desired authority v) = true ↔
      ∀ role g, ReducesAdmin server scope desired role server.bootstrap g →
        ∀ x, (role, x, server.bootstrap) ∉ server.catalog := by
  rw [neverRefused_takesOption (takesOption_reductionStatements authority v)]
  simp only [mem_reductionStatements]
  constructor
  · intro h role g hreduces x hx
    obtain ⟨a, ha, hnot⟩ := h role server.bootstrap ⟨x, hx⟩ ⟨g, hreduces.admin⟩
    exact hnot (hreduces.of_adminRow ha)
  · intro h role member hgranted hadmin
    obtain ⟨g, hg⟩ := hadmin
    by_cases hmember : member = server.bootstrap
    · subst hmember
      obtain ⟨x, hx⟩ := hgranted
      exact ⟨g, hg, fun hreduces => h role g hreduces x hx⟩
    · obtain ⟨a, ha, hnot⟩ := @kept_admin_of_checked _ _ _ _ _ v hissues hmember hgranted hg
      refine ⟨a, ha, fun hreduces => hnot ?_⟩
      rw [removalStatements_eq hv hplan]
      exact List.mem_append_left _ ((mem_reductionStatements authority).2 hreduces)

/-- The removals of a plan, after its reductions, are refused exactly when a grant outlives the
last ADMIN of its grantor. -/
theorem removals_neverRefused_after_reductions :
    neverRefused defaults
        ((reductionStatements server scope graph desired authority v).foldl
          (execStatement defaults) server.catalog)
        ((removedRows server scope desired).map removeRow) = true ↔
      ∀ role member g, removesRow server scope desired (role, member, g) = true →
        LastAdmin server.catalog role member g → ∀ x, (role, x, member) ∈ server.catalog →
          removesRow server scope desired (role, x, member) = true ∧
            (compare (role, x, member) (role, member, g)).isLE := by
  have htakes := @takesOption_reductionStatements server scope graph desired authority v
  generalize hreduced : (reductionStatements server scope graph desired authority v).foldl
    (execStatement defaults) server.catalog = reducedCatalog
  have hmem : ∀ key, key ∈ reducedCatalog ↔ key ∈ server.catalog := by
    intro key
    rw [← hreduced]
    exact mem_foldl_takesOption htakes key
  -- Reductions do not touch the ADMIN rows of undeclared pairs.
  have hadmin : ∀ role member g, removesRow server scope desired (role, member, g) = true →
      ∀ a, AdminRow reducedCatalog role member a ↔ AdminRow server.catalog role member a := by
    intro role member g hremoves a
    rw [← hreduced, adminRow_foldl_takesOption htakes, mem_reductionStatements]
    exact and_iff_left (not_reducesAdmin_of_removesRow hremoves a)
  have hremovesAll : ∀ role member g a, removesRow server scope desired (role, member, g) = true →
      AdminRow server.catalog role member g → AdminRow server.catalog role member a →
        removesRow server scope desired (role, member, a) = true := by
    intro role member g a hremoves hg ha
    simp only [removesRow] at hremoves ⊢
    rw [executorAuthorityRow_eq hg ha]
    exact hremoves
  rw [neverRefused_removeRows sorted_removedRows]
  · simp only [mem_removedRows, hmem]
    constructor
    · intro h role member g hremoves hlast x hx
      have hlast' : LastAdmin reducedCatalog role member g :=
        ⟨(hadmin role member g hremoves g).2 hlast.admin,
          fun a ha => hlast.last a ((hadmin role member g hremoves a).1 ha)⟩
      obtain ⟨⟨-, hgone⟩, hle⟩ := h role member g ⟨hlast.admin.mem, hremoves⟩ hlast' x hx
      exact ⟨hgone, hle⟩
    · rintro h role member g ⟨-, hremoves⟩ hlast x hx
      have hlast' : LastAdmin server.catalog role member g :=
        ⟨(hadmin role member g hremoves g).1 hlast.admin,
          fun a ha => hlast.last a ((hadmin role member g hremoves a).2 ha)⟩
      obtain ⟨hgone, hle⟩ := h role member g hremoves hlast' x hx
      exact ⟨⟨hx, hgone⟩, hle⟩
  · intro role member g a hkey hg ha
    obtain ⟨-, hremoves⟩ := mem_removedRows.1 hkey
    rw [hadmin role member g hremoves] at hg ha
    exact mem_removedRows.2 ⟨ha.mem, hremovesAll role member g a hremoves hg ha⟩

/-- For every catalog, scope, desired graph and executor: the removals and reductions of a plan
that passes the checks are executed without a refusal exactly when the rows are removed in an order
that leaves no grant behind. -/
theorem removals_neverRefused_iff (hv : 16 ≤ v)
    (hplan : resolveMembershipOptions (diff (inspectMemberships server scope graph) desired)
      (inspectMemberships server scope graph) authority = .ok plan)
    (hissues : membershipAuthorityIssues server plan = []) :
    neverRefused defaults server.catalog (removalStatements v plan) = true ↔
      RemovesInOrder server scope desired := by
  rw [removalStatements_eq hv hplan, neverRefused_append, Bool.and_eq_true,
    reductions_neverRefused_iff defaults authority v hv hplan hissues,
    removals_neverRefused_after_reductions]
  constructor
  · rintro ⟨hbootstrap, hremovals⟩
    exact ⟨hremovals, hbootstrap⟩
  · rintro ⟨hremovals, hbootstrap⟩
    exact ⟨hbootstrap, hremovals⟩

end Run

end Checked

/-! ### Two members, one of them delegated to -/

/-- A server on which the superuser executes the plan. -/
def superuserServer (rows : List ((String × String × String) × MembershipOptions)) : Server where
  catalog := ExtTreeMap.ofList rows compare
  roles := ExtTreeSet.ofList ["alice", "app", "bob", "postgres"] compare
  superusers := ExtTreeSet.ofList ["postgres"] compare
  bootstrap := "postgres"
  executor := "postgres"
  executorCreateRole := true
  selfGrantInherits := false

/-- The first member holds ADMIN and has granted the role to the second. -/
def delegated (first second : String) : Server :=
  superuserServer
    [(("app", first, "postgres"), ⟨true, true, true⟩),
      (("app", second, first), ⟨true, false, true⟩)]

/-- The database as inspected; every edge is in scope. -/
def inspected (server : Server) : RoleGraph := inspectMemberships server (fun _ => true) {}

/-- The executor is `postgres`, a superuser. -/
def superuserAuthority : MembershipAuthority := ⟨"postgres", ∅⟩

/-- The plan that removes both members, in name order. -/
def removeBoth (aliceGrantor bobGrantor : String) : List Change :=
  [.removeMember "app" "alice" (some aliceGrantor), .removeMember "app" "bob" (some bobGrantor)]

/-- The delegated membership comes first in name order, and nothing is refused. -/
theorem delegatedToAlice_neverRefused :
    neverRefused sharedServer (delegated "bob" "alice").catalog
        (removalStatements 16 (removeBoth "bob" "postgres")) = true ∧
      RemovesInOrder (delegated "bob" "alice") (fun _ => true) {} := by
  have hrun : neverRefused sharedServer (delegated "bob" "alice").catalog
      (removalStatements 16 (removeBoth "bob" "postgres")) = true := by decide +kernel
  have hplan : resolveMembershipOptions (diff (inspected (delegated "bob" "alice")) {})
      (inspected (delegated "bob" "alice")) superuserAuthority =
        .ok (removeBoth "bob" "postgres") := by decide +kernel
  exact ⟨hrun, (removals_neverRefused_iff sharedServer superuserAuthority 16 (Nat.le_refl 16) hplan
    (by decide +kernel)).1 hrun⟩

/-- The delegating membership comes first in name order: the checked plan is refused. -/
theorem delegatedToBob_refused :
    wellFounded "postgres" (delegated "alice" "bob").catalog = true ∧
      resolveMembershipOptions (diff (inspected (delegated "alice" "bob")) {})
        (inspected (delegated "alice" "bob")) superuserAuthority =
          .ok (removeBoth "postgres" "alice") ∧
      membershipAuthorityIssues (delegated "alice" "bob") (removeBoth "postgres" "alice") = [] ∧
      neverRefused sharedServer (delegated "alice" "bob").catalog
        (removalStatements 16 (removeBoth "postgres" "alice")) = false :=
  ⟨by decide +kernel, by decide +kernel, by decide +kernel, by decide +kernel⟩

end PgRoles.Semantics

import PgRoles.Lib.Run
import PgRoles.Core.Types

/-!
# Inspected memberships

Since PostgreSQL 16 one (role, member) pair can have several catalog rows with distinct grantors.
Inspection joins them into one effective edge per pair, which has an option when any row has it, and
records every row's grantor and options so that removals can name each one.
-/

set_option autoImplicit false

namespace PgRoles.Inspect

open Std PgRoles.Lib PgRoles.Core

/-- A row of the membership query. The grantor is absent before PostgreSQL 16. -/
structure MembershipRow where
  roleName : String
  memberName : String
  adminOption : Bool
  inheritOption : Bool
  setOption : Bool
  grantor : Option String
  /-- The row gives the connected executor ADMIN on the granted role. -/
  executorAuthority : Bool
  deriving DecidableEq

/-- The granted role and the member. -/
def MembershipRow.pair (row : MembershipRow) : String × String := (row.roleName, row.memberName)

/-- The row as an edge of the graph. -/
def MembershipRow.toMembershipEdge (row : MembershipRow) : MembershipEdge :=
  ⟨row.roleName, row.memberName, row.inheritOption, row.adminOption⟩

/-- The options of the row. -/
def MembershipRow.options (row : MembershipRow) : MembershipOptions :=
  ⟨row.inheritOption, row.adminOption, row.setOption⟩

/-- Join a row into the effective edge of its pair. -/
def absorbRow (effective : BTreeMap (String × String) MembershipEdge) (row : MembershipRow) :
    BTreeMap (String × String) MembershipEdge :=
  effective.alter row.pair fun edge =>
    let edge := edge.getD row.toMembershipEdge
    some { edge with
      inherit := edge.inherit || row.inheritOption
      admin := edge.admin || row.adminOption }

/-- One edge a pair, with the options of all its rows together. -/
def effectiveEdges (rows : List MembershipRow) : BTreeMap (String × String) MembershipEdge :=
  rows.foldl absorbRow ∅

/-- One more grantor of a pair. -/
def recordGrantor (grantors : BTreeMap (String × String) (BTreeSet String))
    (row : MembershipRow) : BTreeMap (String × String) (BTreeSet String) :=
  match row.grantor with
  | none => grantors
  | some g => grantors.alter row.pair fun held => some ((held.getD ∅).insert g)

/-- The options that a grantor supplies to a pair. -/
def recordOptions (options : BTreeMap (String × String) (BTreeMap String MembershipOptions))
    (row : MembershipRow) : BTreeMap (String × String) (BTreeMap String MembershipOptions) :=
  match row.grantor with
  | none => options
  | some g => options.alter row.pair fun held => some ((held.getD ∅).insert g row.options)

/-- One more edge that the executor has authority over. -/
def recordAuthority (edges : BTreeSet (String × String × String)) (row : MembershipRow) :
    BTreeSet (String × String × String) :=
  match row.grantor with
  | none => edges
  | some g =>
      if row.executorAuthority then edges.insert (row.roleName, row.memberName, g) else edges

/-- The membership facts of a graph, from the rows of its scope. -/
def recordMemberships (g : RoleGraph) (rows : List MembershipRow) : RoleGraph :=
  { g with
    memberships := ExtTreeSet.ofList ((effectiveEdges rows).toList.map (·.2)) compare
    membershipEdgeGrantors := rows.foldl recordGrantor ∅
    membershipEdgeOptions := rows.foldl recordOptions ∅
    executorAuthorityEdges := rows.foldl recordAuthority ∅ }

/-! ## What the records hold -/

section Records

variable {rows : List MembershipRow} {pair : String × String} {g : String}

/-- Some row of the pair has the option. -/
def anyRow (rows : List MembershipRow) (pair : String × String)
    (option : MembershipRow → Bool) : Bool :=
  rows.any fun row => decide (row.pair = pair) && option row

theorem anyRow_iff {option : MembershipRow → Bool} :
    anyRow rows pair option = true ↔ ∃ row ∈ rows, row.pair = pair ∧ option row = true := by
  simp [anyRow, List.any_eq_true]

theorem anyRow_append_singleton {row : MembershipRow} {option : MembershipRow → Bool} :
    anyRow (rows ++ [row]) pair option =
      (anyRow rows pair option || (decide (row.pair = pair) && option row)) := by
  simp [anyRow]

theorem anyRow_eq_false_of_none {option : MembershipRow → Bool}
    (hnone : anyRow rows pair (fun _ => true) = false) : anyRow rows pair option = false := by
  rw [← Bool.not_eq_true, anyRow_iff] at hnone ⊢
  intro hex
  obtain ⟨row, hrow, hpair, -⟩ := hex
  exact hnone ⟨row, hrow, hpair, rfl⟩

/-- The edge of a pair, with the options of all its rows together. -/
theorem getElem?_effectiveEdges :
    (effectiveEdges rows)[pair]? =
      if anyRow rows pair fun _ => true then
        some ⟨pair.1, pair.2, anyRow rows pair (·.inheritOption), anyRow rows pair (·.adminOption)⟩
      else none := by
  -- Rows are joined in order, so the last row is peeled off.
  induction rows using List.reverseRecOn with
  | nil => rfl
  | append_singleton rows row ih =>
      have hstep : effectiveEdges (rows ++ [row]) = absorbRow (effectiveEdges rows) row := by
        rw [effectiveEdges, List.foldl_append]
        rfl
      rw [hstep, absorbRow, getElem?_alter_eq, ih]
      simp only [anyRow_append_singleton]
      by_cases hpair : row.pair = pair
      · subst hpair
        cases hany : anyRow rows row.pair fun _ => true with
        | true => simp
        | false =>
            have hinherit : anyRow rows row.pair (·.inheritOption) = false :=
              anyRow_eq_false_of_none hany
            have hadmin : anyRow rows row.pair (·.adminOption) = false :=
              anyRow_eq_false_of_none hany
            simp only [hinherit, hadmin]
            simp [MembershipRow.toMembershipEdge, MembershipRow.pair]
      · simp [hpair]

/-- A pair has its edge when it has rows. -/
theorem effectiveEdges_eq_some_iff {e : MembershipEdge} :
    (effectiveEdges rows)[pair]? = some e ↔
      e.pair = pair ∧ (∃ row ∈ rows, row.pair = pair) ∧
        (e.inherit = true ↔ ∃ row ∈ rows, row.pair = pair ∧ row.inheritOption = true) ∧
          (e.admin = true ↔ ∃ row ∈ rows, row.pair = pair ∧ row.adminOption = true) := by
  have hany : anyRow rows pair (fun _ => true) = true ↔ ∃ row ∈ rows, row.pair = pair := by
    simp [anyRow_iff]
  rw [getElem?_effectiveEdges, ← hany, ← anyRow_iff, ← anyRow_iff]
  obtain ⟨role, member, inherit, admin⟩ := e
  obtain ⟨r, m⟩ := pair
  cases anyRow rows (r, m) fun _ => true with
  | false => simp
  | true =>
      simp only [if_true, Option.some.injEq, MembershipEdge.mk.injEq, MembershipEdge.pair,
        Prod.mk.injEq, true_and, ← Bool.eq_iff_iff, and_assoc]
      simp only [eq_comm]

/-- The effective memberships have one edge per pair of the rows, with the options any row has. -/
theorem mem_memberships_recordMemberships {graph : RoleGraph} {e : MembershipEdge} :
    e ∈ (recordMemberships graph rows).memberships ↔
      (∃ row ∈ rows, row.pair = e.pair) ∧
        (e.inherit = true ↔ ∃ row ∈ rows, row.pair = e.pair ∧ row.inheritOption = true) ∧
          (e.admin = true ↔ ∃ row ∈ rows, row.pair = e.pair ∧ row.adminOption = true) := by
  have hmem : e ∈ (recordMemberships graph rows).memberships ↔
      (effectiveEdges rows)[e.pair]? = some e := by
    simp only [recordMemberships, ExtTreeSet.mem_ofList, List.contains_iff_mem, List.mem_map]
    constructor
    · intro hex
      obtain ⟨⟨pair, e'⟩, hentry, rfl⟩ := hex
      rw [mem_toList_iff] at hentry
      obtain ⟨hpair, -⟩ := effectiveEdges_eq_some_iff.1 hentry
      rw [hpair]
      exact hentry
    · intro he
      exact ⟨(e.pair, e), mem_toList_iff.2 he, rfl⟩
  rw [hmem, effectiveEdges_eq_some_iff]
  simp

/-- The recorded grantors are those of the rows. -/
theorem mem_membershipEdgeGrantors {graph : RoleGraph} :
    (∃ gs, (recordMemberships graph rows).membershipEdgeGrantors[pair]? = some gs ∧ g ∈ gs) ↔
      ∃ row ∈ rows, row.pair = pair ∧ row.grantor = some g := by
  refine (holds_foldl_of_adds
    (fun m : BTreeMap (String × String) (BTreeSet String) => ∃ gs, m[pair]? = some gs ∧ g ∈ gs)
    (fun row => row.pair = pair ∧ row.grantor = some g) ?_ ∅).trans ?_
  · intro m row _
    unfold recordGrantor
    cases row.grantor with
    | none => simp
    | some a =>
        by_cases hpair : row.pair = pair
        · subst hpair
          rw [getElem?_alter_eq, if_pos rfl]
          simp only [Option.some.injEq, exists_eq_left', mem_insert_iff, true_and]
          cases m[row.pair]? <;> simp [or_comm]
        · simp [getElem?_alter_eq, hpair]
  · simp

theorem membershipEdgeGrantors_nonempty {graph : RoleGraph} {gs : BTreeSet String}
    (hgs : (recordMemberships graph rows).membershipEdgeGrantors[pair]? = some gs) :
    ∃ g, g ∈ gs := by
  refine foldl_invariant
    (fun m : BTreeMap (String × String) (BTreeSet String) =>
      ∀ gs, m[pair]? = some gs → ∃ g, g ∈ gs) ?_ ?_ gs hgs
  · intro m hinv row _ gs hgs
    unfold recordGrantor at hgs
    cases hg : row.grantor with
    | none =>
        rw [hg] at hgs
        exact hinv gs hgs
    | some a =>
        simp only [hg, getElem?_alter_eq] at hgs
        split_ifs at hgs
        · rw [← Option.some.inj hgs]
          exact ⟨a, mem_insert_iff.2 (Or.inl rfl)⟩
        · exact hinv gs hgs
  · intro gs hgs
    simp at hgs

/-- The recorded authority is that of the rows. -/
theorem mem_executorAuthorityEdges {graph : RoleGraph} {key : String × String × String} :
    key ∈ (recordMemberships graph rows).executorAuthorityEdges ↔
      ∃ row ∈ rows, row.grantor = some key.2.2 ∧ row.executorAuthority = true ∧
        (row.roleName, row.memberName) = (key.1, key.2.1) := by
  refine (holds_foldl_of_adds
    (fun edges : BTreeSet (String × String × String) => key ∈ edges)
    (fun row => row.grantor = some key.2.2 ∧ row.executorAuthority = true ∧
      (row.roleName, row.memberName) = (key.1, key.2.1)) ?_ ∅).trans ?_
  · intro edges row _
    obtain ⟨r, m, g⟩ := key
    unfold recordAuthority
    cases row.grantor with
    | none => simp
    | some a =>
        cases row.executorAuthority with
        | false => simp
        | true =>
            simp only [if_true, mem_insert_iff, Prod.mk.injEq, Option.some.injEq, true_and]
            tauto
  · simp

/-- The options recorded for one grantor of a pair. -/
def optionsAt (m : BTreeMap (String × String) (BTreeMap String MembershipOptions))
    (pair : String × String) (g : String) : Option MembershipOptions :=
  m[pair]?.bind fun edges => edges[g]?

theorem optionsAt_recordOptions
    (m : BTreeMap (String × String) (BTreeMap String MembershipOptions)) (row : MembershipRow) :
    optionsAt (recordOptions m row) pair g =
      if row.pair = pair ∧ row.grantor = some g then some row.options else optionsAt m pair g := by
  unfold recordOptions optionsAt
  cases row.grantor with
  | none => simp
  | some a =>
      by_cases hpair : row.pair = pair
      · by_cases ha : a = g
        · simp [hpair, ha]
        · simp only [getElem?_alter_eq, hpair, if_true, Option.bind_some, getElem?_insert_eq,
            Option.some.injEq, ha, and_false, if_false]
          cases m[pair]? <;> simp
      · simp [getElem?_alter_eq, hpair]

/-- The recorded options of a grantor are those of its row, where the rows have one per grantor. -/
theorem membershipEdgeOptions_eq_some_iff {graph : RoleGraph} {o : MembershipOptions}
    (hunique : ∀ row ∈ rows, ∀ row' ∈ rows, row.pair = row'.pair → row.grantor = row'.grantor →
      row.options = row'.options) :
    optionsAt (recordMemberships graph rows).membershipEdgeOptions pair g = some o ↔
      ∃ row ∈ rows, row.pair = pair ∧ row.grantor = some g ∧ row.options = o := by
  show optionsAt (rows.foldl recordOptions ∅) pair g = some o ↔ _
  induction rows using List.reverseRecOn with
  | nil => simp [optionsAt]
  | append_singleton rows row ih =>
      rw [List.foldl_append, List.foldl_cons, List.foldl_nil, optionsAt_recordOptions]
      have hrest := ih fun a ha b hb =>
        hunique a (List.mem_append_left _ ha) b (List.mem_append_left _ hb)
      split_ifs with hrow
      · constructor
        · intro ho
          exact ⟨row, by simp, hrow.1, hrow.2, Option.some.inj ho⟩
        · intro hex
          -- The last row overwrites an earlier one of its grantor, which has the same options.
          obtain ⟨a, ha, hpair, hg, rfl⟩ := hex
          rw [hunique row (by simp) a ha (hrow.1.trans hpair.symm) (hrow.2.trans hg.symm)]
      · rw [hrest]
        constructor
        · intro hex
          obtain ⟨a, ha, hmatch⟩ := hex
          exact ⟨a, List.mem_append_left _ ha, hmatch⟩
        · intro hex
          obtain ⟨a, ha, hpair, hg, ho⟩ := hex
          rcases List.mem_append.1 ha with ha | ha
          · exact ⟨a, ha, hpair, hg, ho⟩
          · rw [List.mem_singleton.1 ha] at hpair hg
            exact absurd ⟨hpair, hg⟩ hrow

end Records

end PgRoles.Inspect

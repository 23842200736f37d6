import PgRoles.Core.DiffSpec
import PgRoles.Core.MembershipOptions
import PgRoles.Inspect.Memberships
import PgRoles.Sql.Membership

/-!
# Membership convergence with several grantors

Since PostgreSQL 16 one (role, member) pair can have several catalog rows with distinct grantors. A
graph records the catalog when it holds every row's grantor and options and one effective edge per
pair, the disjunction over the rows. Executing the resolved membership changes of a plan then brings
every declared pair to its desired effective options and empties every undeclared pair, sparing the
rows that hold the executor's own ADMIN authority (`membership_convergence`).

The proof computes each row after the plan from the row before it (`row_of_declared`,
`row_of_undeclared`); the effective options are read off the rows.
-/

set_option autoImplicit false

namespace PgRoles.Semantics

open Std PgRoles.Lib PgRoles.Core PgRoles.Sql PgRoles.Inspect

/-! ## Graphs that record a catalog -/

/-- Some row of the pair supplies the option. -/
def Supplied (catalog : MembershipCatalog) (role member : String)
    (option : MembershipOptions → Bool) : Prop :=
  ∃ (g : String) (o : MembershipOptions), catalog[(role, member, g)]? = some o ∧ option o = true

/-- The graph has one effective edge per pair with rows. -/
def ReportsEffective (current : RoleGraph) (catalog : MembershipCatalog) : Prop :=
  ∀ e : MembershipEdge, e ∈ current.memberships ↔
    (∃ g, (e.role, e.member, g) ∈ catalog) ∧
      (e.inherit = true ↔ Supplied catalog e.role e.member (·.inherit)) ∧
        (e.admin = true ↔ Supplied catalog e.role e.member (·.admin))

/-- The graph holds complete per-grantor facts of the catalog and its effective edges. -/
structure RecordsCatalog (current : RoleGraph) (catalog : MembershipCatalog) : Prop where
  grantors : ∀ role member g,
    (∃ gs, current.membershipEdgeGrantors[(role, member)]? = some gs ∧ g ∈ gs) ↔
      (role, member, g) ∈ catalog
  grantors_nonempty : ∀ (pair : String × String) (gs : BTreeSet String),
    current.membershipEdgeGrantors[pair]? = some gs → ∃ g, g ∈ gs
  options : ∀ role member g, liveOptions current (role, member) g = catalog[(role, member, g)]?
  memberships : ReportsEffective current catalog

namespace ReportsEffective

variable {current : RoleGraph} {catalog : MembershipCatalog}
  (h : ReportsEffective current catalog) {role member g : String}

include h

theorem oneEdgePerPair : OneEdgePerPair current.memberships := by
  intro a ha b hb hpair
  obtain ⟨-, hai, haa⟩ := (h a).1 ha
  obtain ⟨-, hbi, hba⟩ := (h b).1 hb
  obtain ⟨r, m, i, d⟩ := a
  obtain ⟨r', m', i', d'⟩ := b
  obtain ⟨hr, hm⟩ := Prod.mk.inj hpair
  simp only at hr hm hai haa hbi hba
  subst hr hm
  have hi : i = i' := Bool.eq_iff_iff.2 (hai.trans hbi.symm)
  have hd : d = d' := Bool.eq_iff_iff.2 (haa.trans hba.symm)
  rw [hi, hd]

/-- The effective edge of a pair that has rows. -/
theorem exists_edge (hrow : (role, member, g) ∈ catalog) :
    ∃ e ∈ current.memberships, e.role = role ∧ e.member = member := by
  classical
  refine ⟨⟨role, member, decide (Supplied catalog role member (·.inherit)),
    decide (Supplied catalog role member (·.admin))⟩, ?_, rfl, rfl⟩
  apply (h _).2
  exact ⟨⟨g, hrow⟩, decide_eq_true_iff, decide_eq_true_iff⟩

/-- The current edge of a pair with rows holds the effective options. -/
theorem exists_currentEdge (hrow : (role, member, g) ∈ catalog) :
    ∃ c, (membershipMap current.memberships)[(role, member)]? = some c ∧
      (c.inherit = true ↔ Supplied catalog role member (·.inherit)) ∧
        (c.admin = true ↔ Supplied catalog role member (·.admin)) := by
  obtain ⟨e, he, rfl, rfl⟩ := h.exists_edge hrow
  obtain ⟨-, hi, ha⟩ := (h e).1 he
  exact ⟨e, h.oneEdgePerPair.membershipMap_eq_some_iff.2 ⟨he, rfl⟩, hi, ha⟩

theorem currentEdge_eq_none (hnone : ∀ g, (role, member, g) ∉ catalog) :
    (membershipMap current.memberships)[(role, member)]? = none := by
  cases hc : (membershipMap current.memberships)[(role, member)]? with
  | none => rfl
  | some c =>
      obtain ⟨he, hpair⟩ := of_membershipMap_eq_some hc
      obtain ⟨⟨g, hrow⟩, -, -⟩ := (h c).1 he
      obtain ⟨hr, hm⟩ := Prod.mk.inj hpair
      rw [hr, hm] at hrow
      exact absurd hrow (hnone g)

end ReportsEffective

namespace RecordsCatalog

variable {current : RoleGraph} {catalog : MembershipCatalog} (h : RecordsCatalog current catalog)
  {role member g : String}

include h

/-- The grantors recorded for a pair with rows are the rows' grantors. -/
theorem grantors_of_row (hrow : (role, member, g) ∈ catalog) :
    ∃ gs, current.membershipEdgeGrantors[(role, member)]? = some gs ∧ gs ≠ ∅ ∧
      ∀ a, a ∈ gs ↔ (role, member, a) ∈ catalog := by
  obtain ⟨gs, hgs, hg⟩ := (h.grantors role member g).2 hrow
  refine ⟨gs, hgs, ?_, fun a => ?_⟩
  · intro hempty
    rw [hempty] at hg
    exact ExtTreeSet.not_mem_empty hg
  · rw [← h.grantors]
    constructor
    · intro ha
      exact ⟨gs, hgs, ha⟩
    · intro hex
      obtain ⟨gs', hgs', ha⟩ := hex
      rw [hgs] at hgs'
      rwa [Option.some.inj hgs']

theorem recordedGrantors_of_row (hrow : (role, member, g) ∈ catalog) :
    ∃ gs, recordedGrantors current (role, member) = some gs ∧
      ∀ a, a ∈ gs ↔ (role, member, a) ∈ catalog := by
  obtain ⟨gs, hgs, hne, hmem⟩ := h.grantors_of_row hrow
  exact ⟨gs, by simp [recordedGrantors, hgs, hne], hmem⟩

theorem mem_catalog_of_recorded {pair : String × String} {gs : BTreeSet String}
    (hgs : recordedGrantors current pair = some gs) (hg : g ∈ gs) :
    (pair.1, pair.2, g) ∈ catalog := by
  rw [← h.grantors]
  unfold recordedGrantors at hgs
  split at hgs
  · next grantors heq =>
      split_ifs at hgs
      exact ⟨gs, by rw [heq, Option.some.inj hgs], hg⟩
  · cases hgs

/-- A pair with rows has proven options, and they are the rows. -/
theorem provenOptions_of_row (hrow : (role, member, g) ∈ catalog) :
    ∃ os, provenOptions current role member = some os ∧
      ∀ a : String, os[a]? = catalog[(role, member, a)]? := by
  obtain ⟨gs, hgs, hne, hmem⟩ := h.grantors_of_row hrow
  obtain ⟨o, ho⟩ := mem_iff_exists_getElem?.1 hrow
  -- The inspected options exist, since the row does.
  have hlive : liveOptions current (role, member) g = some o := by rw [h.options, ho]
  obtain ⟨os, hos, -⟩ := Option.bind_eq_some_iff.1 hlive
  have hrows : ∀ a : String, os[a]? = catalog[(role, member, a)]? := by
    intro a
    rw [← h.options, liveOptions, hos]
    rfl
  have hkeys : gs.toList = os.keys := by
    apply eq_of_sorted_of_mem_iff ExtTreeSet.ordered_toList ExtTreeMap.ordered_keys
    intro a
    rw [ExtTreeSet.mem_toList, ExtTreeMap.mem_keys, mem_iff_exists_getElem?, hrows,
      ← mem_iff_exists_getElem?, hmem]
  have hcomplete : current.completeMembershipOptions role member = some os := by
    simp [RoleGraph.completeMembershipOptions, hgs, hos, hne, hkeys]
  refine ⟨os, ?_, hrows⟩
  rw [provenOptions, hcomplete, Option.filter_some, if_pos]
  -- The first edge of the pair is its effective edge.
  unfold agreesWithEffective
  obtain ⟨e, he, her, hem⟩ := h.memberships.exists_edge hrow
  cases hfind : current.memberships.toList.find? fun e => e.role == role && e.member == member with
  | none =>
      have hno := List.find?_eq_none.1 hfind e (ExtTreeSet.mem_toList.2 he)
      simp [her, hem] at hno
  | some a =>
      have hmem := ExtTreeSet.mem_toList.1 (List.mem_of_find?_eq_some hfind)
      have hpair := List.find?_some hfind
      simp only [Bool.and_eq_true, beq_iff_eq] at hpair
      obtain ⟨hr, hm⟩ := hpair
      obtain ⟨-, hi, ha⟩ := (h.memberships a).1 hmem
      rw [hr, hm] at hi ha
      have hany : ∀ option : MembershipOptions → Bool,
          (os.toList.any fun entry => option entry.2) = true ↔ Supplied catalog role member option := by
        intro option
        rw [any_toList_iff]
        simp only [hrows]
        rfl
      have hinherit : a.inherit = os.toList.any (·.2.inherit) :=
        Bool.eq_iff_iff.2 (hi.trans (hany _).symm)
      have hadmin : a.admin = os.toList.any (·.2.admin) :=
        Bool.eq_iff_iff.2 (ha.trans (hany _).symm)
      simp [hinherit, hadmin]

end RecordsCatalog

/-! ## Inspected graphs record the catalog -/

/-- The rows of the membership query over a catalog of PostgreSQL 16 or later. -/
def catalogRows (catalog : MembershipCatalog)
    (executorAuthority : String × String × String → Bool) : List MembershipRow :=
  catalog.toList.map fun e =>
    { roleName := e.1.1
      memberName := e.1.2.1
      adminOption := e.2.admin
      inheritOption := e.2.inherit
      setOption := e.2.set
      grantor := some e.1.2.2
      executorAuthority := executorAuthority e.1 }

section Inspected

variable {catalog : MembershipCatalog} {authority : String × String × String → Bool}
  {role member g : String}

theorem exists_catalogRow {p : MembershipRow → Prop} :
    (∃ row ∈ catalogRows catalog authority, row.pair = (role, member) ∧ p row) ↔
      ∃ (g : String) (o : MembershipOptions), catalog[(role, member, g)]? = some o ∧
        p ⟨role, member, o.admin, o.inherit, o.set, some g, authority (role, member, g)⟩ := by
  constructor
  · intro hex
    obtain ⟨row, hrow, hpair, hp⟩ := hex
    obtain ⟨⟨⟨r, m, g⟩, o⟩, hentry, rfl⟩ := List.mem_map.1 hrow
    obtain ⟨rfl, rfl⟩ := Prod.mk.inj hpair
    exact ⟨g, o, mem_toList_iff.1 hentry, hp⟩
  · intro hex
    obtain ⟨g, o, ho, hp⟩ := hex
    exact ⟨_, List.mem_map.2 ⟨((role, member, g), o), mem_toList_iff.2 ho, rfl⟩, rfl, hp⟩

theorem optionsAt_eq_liveOptions (graph : RoleGraph) (pair : String × String) :
    optionsAt graph.membershipEdgeOptions pair g = liveOptions graph pair g := rfl

theorem exists_catalogRow_iff :
    (∃ row ∈ catalogRows catalog authority, row.pair = (role, member)) ↔
      ∃ g, (role, member, g) ∈ catalog := by
  constructor
  · intro hex
    obtain ⟨row, hrow, hpair⟩ := hex
    obtain ⟨g, o, ho, -⟩ := (exists_catalogRow (p := fun _ => True)).1 ⟨row, hrow, hpair, trivial⟩
    exact ⟨g, mem_iff_exists_getElem?.2 ⟨o, ho⟩⟩
  · intro hex
    obtain ⟨g, hg⟩ := hex
    obtain ⟨o, ho⟩ := mem_iff_exists_getElem?.1 hg
    obtain ⟨row, hrow, hpair, -⟩ := (exists_catalogRow (p := fun _ => True)).2 ⟨g, o, ho, trivial⟩
    exact ⟨row, hrow, hpair⟩

/-- Inspection of a catalog gives a graph that records it. -/
theorem recordsCatalog_recordMemberships (graph : RoleGraph) :
    RecordsCatalog (recordMemberships graph (catalogRows catalog authority)) catalog where
  grantors role member g := by
    rw [mem_membershipEdgeGrantors, exists_catalogRow, mem_iff_exists_getElem?]
    constructor
    · intro hex
      obtain ⟨a, o, ho, hg⟩ := hex
      rw [← Option.some.inj hg]
      exact ⟨o, ho⟩
    · intro hex
      obtain ⟨o, ho⟩ := hex
      exact ⟨g, o, ho, rfl⟩
  grantors_nonempty pair gs hgs := membershipEdgeGrantors_nonempty hgs
  options role member g := by
    refine Option.ext fun o => ?_
    rw [← optionsAt_eq_liveOptions, membershipEdgeOptions_eq_some_iff, exists_catalogRow]
    · constructor
      · intro hex
        obtain ⟨a, o', ho, hg, rfl⟩ := hex
        rw [← Option.some.inj hg]
        exact ho
      · intro ho
        exact ⟨g, o, ho, rfl, rfl⟩
    · intro row hrow row' hrow' hpair hgrantor
      obtain ⟨⟨⟨r, m, a⟩, o⟩, hentry, rfl⟩ := List.mem_map.1 hrow
      obtain ⟨⟨⟨r', m', a'⟩, o'⟩, hentry', rfl⟩ := List.mem_map.1 hrow'
      obtain ⟨rfl, rfl⟩ := Prod.mk.inj hpair
      cases Option.some.inj hgrantor
      have hsame := (mem_toList_iff.1 hentry).symm.trans (mem_toList_iff.1 hentry')
      simp [Option.some.inj hsame]
  memberships e := by
    rw [mem_memberships_recordMemberships, MembershipEdge.pair, exists_catalogRow_iff,
      exists_catalogRow, exists_catalogRow]
    rfl

end Inspected

/-! ## Option changes on one row -/

/-- A row after reductions. -/
def reduced (inherit admin : Bool) (o : MembershipOptions) : MembershipOptions :=
  ⟨o.inherit && !inherit, o.admin && !admin, o.set⟩

/-- A row after increases; a new row has the increases alone, and no SET. -/
def increased (inherit admin : Bool) (row : Option MembershipOptions) : MembershipOptions :=
  ⟨row.elim false (·.inherit) || inherit, row.elim false (·.admin) || admin,
    row.elim false (·.set)⟩

/-- Only an option that the row has can be reduced. -/
theorem reduced_held (inherit admin : Bool) (o : MembershipOptions) :
    reduced (inherit && o.inherit) (admin && o.admin) o = reduced inherit admin o := by
  obtain ⟨i, a, set⟩ := o
  cases i <;> cases a <;> simp [reduced]

section Rows

variable {server : ServerDefaults} {v : Nat} {role member g a : String}
  {row : Option MembershipOptions} {inherit admin : Option Bool}
  {binding : Option MembershipOptionBinding}

/-- An option change is about the row of its grantor. -/
theorem changeRow_update_of_ne (hne : g ≠ a) :
    changeRow server v (role, member, a) row
      (.updateMemberOptions role member g inherit admin binding) = row := by
  have hkey : (role, member, g) ≠ (role, member, a) := by simpa using hne
  apply foldl_eq_self_of_forall
  intro s hs row
  simp only [renderMembership, renderUpdateMemberOptions, List.mem_append] at hs
  rcases hs with (hs | hs) | hs <;>
  · split at hs
    · rw [List.mem_singleton.1 hs]
      exact if_neg hkey
    · exact absurd hs List.not_mem_nil

theorem changeRow_reduction (hi : inherit ≠ some true) (ha : admin ≠ some true) :
    changeRow server v (role, member, g) row
        (.updateMemberOptions role member g inherit admin binding) =
      row.map (reduced inherit.isSome admin.isSome) := by
  rcases inherit with - | - | -
  · rcases admin with - | - | - <;>
      cases row <;>
        simp_all [changeRow, renderMembership, renderUpdateMemberOptions, rowStep, statementRow,
          rowEffect, reduced]
  · rcases admin with - | - | - <;>
      cases row <;>
        simp_all [changeRow, renderMembership, renderUpdateMemberOptions, rowStep, statementRow,
          rowEffect, reduced]
  · exact absurd rfl hi

/-- An increase gives options to the row, or makes it. -/
theorem changeRow_increase (hi : inherit ≠ some false) (ha : admin ≠ some false)
    (hsome : inherit = some true ∨ admin = some true)
    (hcreates : createsEdge binding = row.isNone) :
    changeRow server v (role, member, g) row
        (.updateMemberOptions role member g inherit admin binding) =
      some (increased inherit.isSome admin.isSome row) := by
  rcases inherit with - | - | -
  · rcases admin with - | - | -
    · simp at hsome
    · exact absurd rfl ha
    · cases row <;>
        simp_all [changeRow, renderMembership, renderUpdateMemberOptions, rowStep, statementRow,
          rowEffect, increased, grantOptions]
  · exact absurd rfl hi
  · rcases admin with - | - | -
    · cases row <;>
        simp_all [changeRow, renderMembership, renderUpdateMemberOptions, rowStep, statementRow,
          rowEffect, increased, grantOptions]
    · exact absurd rfl ha
    · cases row <;>
        simp_all [changeRow, renderMembership, renderUpdateMemberOptions, rowStep, statementRow,
          rowEffect, increased, grantOptions]

end Rows

/-! ## Resolution of the membership changes -/

/-- The grantor an increase of the pair is attributed to. -/
def chosenGrantor (current : RoleGraph) (authority : MembershipAuthority) (role member : String) :
    String :=
  ((provenOptions current role member).map (increaseGrantor authority role)).getD
    authority.executor

/-- The resolution of a change, where it succeeds. -/
def resolvedChange (current : RoleGraph) (authority : MembershipAuthority) (c : Change) : Change :=
  match resolveMembershipOption current authority c with
  | .ok c' => c'
  | .error _ => c

/-- Resolution succeeds on the change. -/
def Resolves (current : RoleGraph) (authority : MembershipAuthority) (c : Change) : Prop :=
  resolveMembershipOption current authority c = .ok (resolvedChange current authority c)

theorem resolves_of_ok {current : RoleGraph} {authority : MembershipAuthority} {c c' : Change}
    (h : resolveMembershipOption current authority c = .ok c') :
    Resolves current authority c ∧ resolvedChange current authority c = c' := by
  have heq : resolvedChange current authority c = c' := by rw [resolvedChange, h]
  exact ⟨by rw [Resolves, heq, h], heq⟩

/-- A plan whose changes all resolve is accepted, change by change. -/
theorem resolveMembershipOptions_eq_map {current : RoleGraph} {authority : MembershipAuthority}
    {changes : List Change} (h : ∀ c ∈ changes, Resolves current authority c) :
    resolveMembershipOptions changes current authority =
      .ok (changes.map (resolvedChange current authority)) := by
  induction changes with
  | nil => rfl
  | cons c changes ih =>
      have hrest := ih fun d hd => h d (List.mem_cons_of_mem _ hd)
      rw [resolveMembershipOptions] at hrest ⊢
      rw [List.mapM_cons, h c List.mem_cons_self, hrest]
      rfl

theorem membershipPair_resolvedChange {current : RoleGraph} {authority : MembershipAuthority}
    {c : Change} (h : Resolves current authority c) :
    membershipPair (resolvedChange current authority c) = membershipPair c := by
  cases c <;> try rfl
  case updateMemberOptions role member grantor inherit admin binding =>
    unfold Resolves resolveMembershipOption at h
    split at h <;> try cases h
    next hupdate =>
      cases hupdate
      split at h
      · cases h
      · split_ifs at h <;> (rw [← Except.ok.inj h]; rfl)
    next hother => exact absurd rfl (hother _ _ _ _ _ _)

namespace RecordsCatalog

variable {current desired : RoleGraph} {catalog : MembershipCatalog}
  (h : RecordsCatalog current catalog) (authority : MembershipAuthority)
  {role member g : String} {inherit admin : Option Bool}

include h

/-- A reduction keeps its grantor. -/
theorem resolve_reduction (hrow : (role, member, g) ∈ catalog) (hi : inherit ≠ some true)
    (ha : admin ≠ some true) :
    ∃ os, resolveMembershipOption current authority
        (.updateMemberOptions role member g inherit admin none) =
      .ok (boundOptionChange authority os role member g inherit admin) := by
  obtain ⟨os, hos, hrows⟩ := h.provenOptions_of_row hrow
  have hmem : os.contains g = true := by
    rw [ExtTreeMap.contains_iff_mem, mem_iff_exists_getElem?, hrows, ← mem_iff_exists_getElem?]
    exact hrow
  refine ⟨os, ?_⟩
  simp [resolveMembershipOption, hos, hi, ha, hmem]

/-- An increase goes to the chosen grantor, bound to the rows of the pair. -/
theorem resolve_increase (hrow : (role, member, g) ∈ catalog)
    (hsome : inherit = some true ∨ admin = some true) (placeholder : String) :
    ∃ os, (∀ a : String, os[a]? = catalog[(role, member, a)]?) ∧
      resolveMembershipOption current authority
          (.updateMemberOptions role member placeholder inherit admin none) =
        .ok (boundOptionChange authority os role member
          (chosenGrantor current authority role member) inherit admin) := by
  obtain ⟨os, hos, hrows⟩ := h.provenOptions_of_row hrow
  refine ⟨os, hrows, ?_⟩
  simp [resolveMembershipOption, chosenGrantor, hos, hsome]

end RecordsCatalog

/-! ## The changes of one pair -/

section Pairs

variable {current desired : RoleGraph} {pair : String × String} {c : Change}

theorem membershipPair_of_mem_removeAllEdges (hc : c ∈ removeAllEdges current pair) :
    membershipPair c = some pair := by
  rcases mem_removeAllEdges.1 hc with ⟨-, rfl⟩ | ⟨_, _, -, -, -, rfl⟩ <;> rfl

theorem membershipPair_of_mem_pairRemoves {e : MembershipEdge}
    (hc : c ∈ pairRemoves current pair e) : membershipPair c = some pair := by
  rcases mem_pairRemoves.1 hc with ⟨_, -, -, ⟨-, rfl⟩ | ⟨grantors, -, hc⟩⟩
  · rfl
  · obtain ⟨g, -, -, rfl⟩ := mem_optionReductions.1 hc
    rfl

theorem membershipPair_of_mem_pairAdds {e : MembershipEdge} (he : e.pair = pair)
    (hc : c ∈ pairAdds current pair e) : membershipPair c = some pair := by
  rcases mem_pairAdds.1 hc with ⟨-, rfl⟩ | ⟨_, -, -, ⟨-, rfl⟩ | ⟨grantors, -, hc⟩⟩
  · exact congrArg some he
  · exact congrArg some he
  · obtain ⟨-, rfl⟩ := mem_optionIncreases.1 hc
    rfl

end Pairs

/-- A resolved change as one row sees it. -/
def resolvedRow (server : ServerDefaults) (v : Nat) (current : RoleGraph)
    (authority : MembershipAuthority) (key : String × String × String)
    (row : Option MembershipOptions) (c : Change) : Option MembershipOptions :=
  changeRow server v key row (resolvedChange current authority c)

/-- The membership changes of a plan, removals first. -/
def membershipChanges (current desired : RoleGraph) : List Change :=
  memberRemoves current desired ++ memberAdds current desired

theorem filter_membership_diff (current desired : RoleGraph) :
    (diff current desired).filter (fun c => c.phase == .membership) =
      membershipChanges current desired := by
  rw [diff, filter_phase_diffResolved (· == .membership)]
  simp [membershipChanges, memberRemoves, memberAdds, resolveRoutineAliases_memberships]

section Plan

variable {current desired : RoleGraph} {catalog : MembershipCatalog}
  (h : RecordsCatalog current catalog) (authority : MembershipAuthority) (server : ServerDefaults)
  {v : Nat} {role member g : String}

/-- A row sees the changes of its own pair only. -/
theorem foldl_membershipChanges
    (hres : ∀ c ∈ membershipChanges current desired, Resolves current authority c)
    (row : Option MembershipOptions) :
    (membershipChanges current desired).foldl
        (resolvedRow server v current authority (role, member, g)) row =
      match (membershipMap desired.memberships)[(role, member)]? with
      | some e =>
          (pairRemoves current (role, member) e ++ pairAdds current (role, member) e).foldl
            (resolvedRow server v current authority (role, member, g)) row
      | none =>
          match (membershipMap current.memberships)[(role, member)]? with
          | some _ =>
              (removeAllEdges current (role, member)).foldl
                (resolvedRow server v current authority (role, member, g)) row
          | none => row := by
  have hlocal : ∀ c ∈ membershipChanges current desired,
      membershipPair c ≠ some (role, member) → ∀ row,
        resolvedRow server v current authority (role, member, g) row c = row := by
    intro c hc hne row
    apply changeRow_of_pair_ne
    rw [membershipPair_resolvedChange (hres c hc)]
    exact hne
  have hmem : ∀ c, c ∈ membershipChanges current desired ↔
      c ∈ memberRemoves current desired ∨ c ∈ memberAdds current desired := by
    intro c
    exact List.mem_append
  rw [membershipChanges, memberRemoves, memberAdds, List.foldl_append, List.foldl_append,
    foldl_flatMap_toList (membershipMap desired.memberships) (role, member),
    foldl_flatMap_toList (membershipMap current.memberships) (role, member),
    foldl_flatMap_toList (membershipMap desired.memberships) (role, member)]
  · cases hd : (membershipMap desired.memberships)[(role, member)]? with
    | none =>
        have hnot : (role, member) ∉ membershipMap desired.memberships := not_mem_iff_getElem?.2 hd
        cases hc : (membershipMap current.memberships)[(role, member)]? with
        | none => rfl
        | some c => simp only [if_neg hnot]
    | some e =>
        have hin : (role, member) ∈ membershipMap desired.memberships :=
          mem_iff_exists_getElem?.2 ⟨e, hd⟩
        cases hc : (membershipMap current.memberships)[(role, member)]? with
        | none => simp only [List.foldl_append]
        | some c => simp only [if_pos hin, List.foldl_nil, List.foldl_append]
  · intro e he hne c hc
    apply hlocal c ((hmem c).2 (Or.inl (mem_memberRemoves.2 (Or.inl ⟨e.1, e.2, he, hc⟩))))
    rw [membershipPair_of_mem_pairRemoves hc]
    simpa using hne
  · intro e he hne c hc
    split_ifs at hc with hin
    · exact absurd hc List.not_mem_nil
    · have hremove := mem_memberRemoves.2
        (Or.inr ⟨e.1, e.2, he, not_mem_iff_getElem?.1 hin, hc⟩)
      apply hlocal c ((hmem c).2 (Or.inl hremove))
      rw [membershipPair_of_mem_removeAllEdges hc]
      simpa using hne
  · intro e he hne c hc
    apply hlocal c ((hmem c).2 (Or.inr (mem_memberAdds.2 ⟨e.1, e.2, he, hc⟩)))
    rw [membershipPair_of_mem_pairAdds (of_membershipMap_eq_some he).2 hc]
    simpa using hne

end Plan

/-! ## Option deltas -/

section Deltas

variable {current : RoleGraph} {pair : String × String} {c d : MembershipEdge} {g : String}

theorem inheritReduction_ne_true : inheritReduction current pair c d g ≠ some true := by
  unfold inheritReduction optionReduction
  split_ifs <;> simp

theorem adminReduction_ne_true : adminReduction current pair c d g ≠ some true := by
  unfold adminReduction optionReduction
  split_ifs <;> simp

theorem isSome_inheritReduction {o : MembershipOptions}
    (ho : liveOptions current pair g = some o) :
    (inheritReduction current pair c d g).isSome = (c.inherit && !d.inherit && o.inherit) := by
  cases hc : c.inherit <;> cases hd : d.inherit <;> cases hoi : o.inherit <;>
    simp [inheritReduction, optionReduction, ho, hc, hd, hoi]

theorem isSome_adminReduction {o : MembershipOptions} (ho : liveOptions current pair g = some o) :
    (adminReduction current pair c d g).isSome =
      (c.admin && !d.admin && !executorAuthority current pair.1 pair.2 g && o.admin) := by
  cases ha : executorAuthority current pair.1 pair.2 g <;> cases hc : c.admin <;>
    cases hd : d.admin <;> cases hoa : o.admin <;>
      simp [adminReduction, optionReduction, ha, ho, hc, hd, hoa]

theorem optionIncrease_ne_false {b b' : Bool} : optionIncrease b b' ≠ some false := by
  unfold optionIncrease
  split_ifs <;> simp

theorem isSome_optionIncrease (b b' : Bool) : (optionIncrease b b').isSome = (!b && b') := by
  cases b <;> cases b' <;> rfl

theorem optionIncrease_eq_true_of_isSome {b b' : Bool} (h : (optionIncrease b b').isSome) :
    optionIncrease b b' = some true := by
  rw [isSome_optionIncrease] at h
  simp [optionIncrease, h]

end Deltas

namespace RecordsCatalog

variable {current desired : RoleGraph} {catalog : MembershipCatalog}
  (h : RecordsCatalog current catalog) (authority : MembershipAuthority)
  {role member g : String}

include h

/-- Every membership change of a plan resolves. -/
theorem resolves_membershipChanges :
    ∀ c ∈ membershipChanges current desired, Resolves current authority c := by
  intro c hc
  rcases List.mem_append.1 hc with hc | hc
  · rcases mem_memberRemoves.1 hc with ⟨pair, e, -, hc⟩ | ⟨pair, e, -, -, hc⟩
    · obtain ⟨currentEdge, -, -, ⟨-, rfl⟩ | ⟨gs, hgs, hc⟩⟩ := mem_pairRemoves.1 hc
      · exact (resolves_of_ok rfl).1
      · obtain ⟨g, hg, -, rfl⟩ := mem_optionReductions.1 hc
        have hrow := h.mem_catalog_of_recorded hgs hg
        obtain ⟨os, hok⟩ := h.resolve_reduction authority hrow inheritReduction_ne_true
          adminReduction_ne_true
        exact (resolves_of_ok hok).1
    · rcases mem_removeAllEdges.1 hc with ⟨-, rfl⟩ | ⟨_, _, -, -, -, rfl⟩
      · exact (resolves_of_ok rfl).1
      · exact (resolves_of_ok rfl).1
  · obtain ⟨pair, e, -, hc⟩ := mem_memberAdds.1 hc
    rcases mem_pairAdds.1 hc with ⟨-, rfl⟩ | ⟨currentEdge, hcur, -, ⟨-, rfl⟩ | ⟨gs, hgs, hc⟩⟩
    · exact (resolves_of_ok rfl).1
    · exact (resolves_of_ok rfl).1
    · obtain ⟨hsome, rfl⟩ := mem_optionIncreases.1 hc
      obtain ⟨hedge, rfl⟩ := of_membershipMap_eq_some hcur
      obtain ⟨⟨g, hrow⟩, -, -⟩ := (h.memberships currentEdge).1 hedge
      obtain ⟨os, -, hok⟩ := h.resolve_increase authority hrow
        (hsome.imp optionIncrease_eq_true_of_isSome optionIncrease_eq_true_of_isSome)
        (gs.toList.headD "")
      exact (resolves_of_ok hok).1

end RecordsCatalog

/-! ## Each row after the plan -/

section Rows

variable {current desired : RoleGraph} {catalog : MembershipCatalog}
  (h : RecordsCatalog current catalog) (authority : MembershipAuthority) (server : ServerDefaults)
  {v : Nat} {role member g : String}

include h

/-- Removing all edges of a pair leaves the rows of the executor's own authority. -/
theorem foldl_removeAllEdges (hv : 16 ≤ v) {a : String} (hrow : (role, member, a) ∈ catalog) :
    (removeAllEdges current (role, member)).foldl
        (resolvedRow server v current authority (role, member, g)) catalog[(role, member, g)]? =
      if executorAuthority current role member g then catalog[(role, member, g)]? else none := by
  obtain ⟨gs, hgs, hmem⟩ := h.recordedGrantors_of_row hrow
  have hnodup : (gs.toList.filter fun g => !executorAuthority current role member g).Nodup :=
    (nodup_of_sorted ExtTreeSet.ordered_toList).filter _
  have hlist : removeAllEdges current (role, member) =
      (gs.toList.filter fun g => !executorAuthority current role member g).flatMap
        fun g => [.removeMember role member (some g)] := by
    rw [removeAllEdges, hgs, ← List.map_eq_flatMap]
  rw [hlist, foldl_flatMap_eq_single hnodup g]
  · simp only [List.mem_filter, ExtTreeSet.mem_toList, Bool.not_eq_true', hmem]
    cases hauth : executorAuthority current role member g with
    | true => simp
    | false =>
        by_cases hin : (role, member, g) ∈ catalog
        · simp [hin, resolvedRow, resolvedChange, resolveMembershipOption, changeRow,
            renderMembership, renderRemoveMember, supportsGrantWithOptions, hv, rowStep,
            statementRow, rowEffect]
        · simp [hin]
  · intro b _ hne c hc row
    rw [List.mem_singleton.1 hc]
    simp [resolvedRow, resolvedChange, resolveMembershipOption, changeRow,
      renderMembership, renderRemoveMember, supportsGrantWithOptions, hv, rowStep,
      statementRow, hne]

/-- A resolved reduction acts on its own grantor's row. -/
theorem resolvedRow_reduction {inherit admin : Option Bool} {b : String}
    (hrow : (role, member, b) ∈ catalog) (hi : inherit ≠ some true) (ha : admin ≠ some true)
    (row : Option MembershipOptions) :
    resolvedRow server v current authority (role, member, g) row
        (.updateMemberOptions role member b inherit admin none) =
      if b = g then row.map (reduced inherit.isSome admin.isSome) else row := by
  obtain ⟨os, hok⟩ := h.resolve_reduction authority hrow hi ha
  rw [resolvedRow, (resolves_of_ok hok).2, boundOptionChange]
  by_cases hb : b = g
  · subst hb
    rw [if_pos rfl]
    exact changeRow_reduction hi ha
  · rw [if_neg hb]
    exact changeRow_update_of_ne hb

/-- What the reductions of a pair leave of one row. -/
theorem foldl_optionReductions {gs : BTreeSet String} {c d : MembershipEdge}
    (hmem : ∀ a, a ∈ gs ↔ (role, member, a) ∈ catalog) :
    (optionReductions current (role, member) gs c d).foldl
        (resolvedRow server v current authority (role, member, g)) catalog[(role, member, g)]? =
      catalog[(role, member, g)]?.map (reduced (c.inherit && !d.inherit)
        (c.admin && !d.admin && !executorAuthority current role member g)) := by
  rw [optionReductions, foldl_flatMap_eq_single (nodup_of_sorted ExtTreeSet.ordered_toList) g]
  · simp only [ExtTreeSet.mem_toList]
    cases ho : catalog[(role, member, g)]? with
    | none =>
        have hnot : g ∉ gs := by rwa [hmem, not_mem_iff_getElem?]
        rw [if_neg hnot]
        rfl
    | some o =>
        have hrow : (role, member, g) ∈ catalog := mem_iff_exists_getElem?.2 ⟨o, ho⟩
        have hlive : liveOptions current (role, member) g = some o := by rw [h.options, ho]
        have hi := isSome_inheritReduction (c := c) (d := d) hlive
        have ha := isSome_adminReduction (c := c) (d := d) hlive
        -- A row the diff leaves out has nothing to reduce.
        rw [if_pos ((hmem g).2 hrow), Option.map_some, ← reduced_held, ← hi, ← ha]
        split_ifs with hnone
        · simp only [Bool.and_eq_true, Option.isNone_iff_eq_none] at hnone
          simp [hnone.1, hnone.2, reduced]
        · rw [List.foldl_cons, List.foldl_nil, resolvedRow_reduction h authority server hrow
            inheritReduction_ne_true adminReduction_ne_true, if_pos rfl]
          rfl
  · intro b hb hne x hx row
    rw [ExtTreeSet.mem_toList, hmem] at hb
    dsimp only at hx
    split_ifs at hx
    · exact absurd hx List.not_mem_nil
    · rw [List.mem_singleton.1 hx, resolvedRow_reduction h authority server hb
        inheritReduction_ne_true adminReduction_ne_true, if_neg hne]

/-- A resolved increase acts on the chosen grantor's row; a row that is not there is created. -/
theorem resolvedRow_increase {inherit admin : Option Bool} {b placeholder : String}
    (hrow : (role, member, b) ∈ catalog) (hi : inherit ≠ some false) (ha : admin ≠ some false)
    (hsome : inherit = some true ∨ admin = some true) {row : Option MembershipOptions}
    (hsame : row.isNone = catalog[(role, member, g)]?.isNone) :
    resolvedRow server v current authority (role, member, g) row
        (.updateMemberOptions role member placeholder inherit admin none) =
      if chosenGrantor current authority role member = g then
        some (increased inherit.isSome admin.isSome row)
      else row := by
  obtain ⟨os, hrows, hok⟩ := h.resolve_increase authority hrow hsome placeholder
  rw [resolvedRow, (resolves_of_ok hok).2, boundOptionChange]
  by_cases hchosen : chosenGrantor current authority role member = g
  · rw [if_pos hchosen, hchosen]
    apply changeRow_increase hi ha hsome
    rw [hsame, ← hrows]
    cases os[g]? <;> rfl
  · rw [if_neg hchosen]
    exact changeRow_update_of_ne hchosen

/-- What the increases of a pair make of one row. -/
theorem foldl_optionIncreases {gs : BTreeSet String} {c d : MembershipEdge} {b : String}
    (hrow : (role, member, b) ∈ catalog) {row : Option MembershipOptions}
    (hsame : row.isNone = catalog[(role, member, g)]?.isNone) :
    (optionIncreases (role, member) gs c d).foldl
        (resolvedRow server v current authority (role, member, g)) row =
      if chosenGrantor current authority role member = g ∧
          (!c.inherit && d.inherit || !c.admin && d.admin) = true then
        some (increased (!c.inherit && d.inherit) (!c.admin && d.admin) row)
      else row := by
  have hi := isSome_optionIncrease c.inherit d.inherit
  have ha := isSome_optionIncrease c.admin d.admin
  rw [optionIncreases, ← hi, ← ha]
  by_cases hsome : (optionIncrease c.inherit d.inherit).isSome = true ∨
      (optionIncrease c.admin d.admin).isSome = true
  · have hnone : ((optionIncrease c.inherit d.inherit).isNone &&
        (optionIncrease c.admin d.admin).isNone) = false := by
      rcases hsome with hsome | hsome <;> simp [← Option.not_isSome, hsome]
    simp only [hnone, Bool.false_eq_true, if_false, List.foldl_cons, List.foldl_nil]
    rw [resolvedRow_increase h authority server hrow optionIncrease_ne_false
      optionIncrease_ne_false
      (hsome.imp optionIncrease_eq_true_of_isSome optionIncrease_eq_true_of_isSome) hsame]
    simp [hsome]
  · simp only [not_or, Bool.not_eq_true, Option.isSome_eq_false_iff] at hsome
    simp [Option.isNone_iff_eq_none.1 hsome.1, Option.isNone_iff_eq_none.1 hsome.2]

/-- The row of a declared pair after the plan: reduced where the effective option is not wanted,
and increased at the chosen grantor where a wanted option is missing. -/
theorem foldl_declared {b : String} (hrow : (role, member, b) ∈ catalog)
    {c d : MembershipEdge} (hc : (membershipMap current.memberships)[(role, member)]? = some c) :
    (pairRemoves current (role, member) d ++ pairAdds current (role, member) d).foldl
        (resolvedRow server v current authority (role, member, g)) catalog[(role, member, g)]? =
      let kept := catalog[(role, member, g)]?.map (reduced (c.inherit && !d.inherit)
        (c.admin && !d.admin && !executorAuthority current role member g))
      if chosenGrantor current authority role member = g ∧
          (!c.inherit && d.inherit || !c.admin && d.admin) = true then
        some (increased (!c.inherit && d.inherit) (!c.admin && d.admin) kept)
      else kept := by
  obtain ⟨gs, hgs, hmem⟩ := h.recordedGrantors_of_row hrow
  cases hsame : sameOptions c d with
  | true =>
      simp only [sameOptions, Bool.and_eq_true, beq_iff_eq] at hsame
      have hreduced : reduced false false = id := by
        funext o
        simp [reduced]
      simp [pairRemoves, pairAdds, hc, sameOptions, hsame.1, hsame.2, hreduced]
  | false =>
      have hremoves : pairRemoves current (role, member) d =
          optionReductions current (role, member) gs c d := by simp [pairRemoves, hc, hsame, hgs]
      have hadds : pairAdds current (role, member) d = optionIncreases (role, member) gs c d := by
        simp [pairAdds, hc, hsame, hgs]
      rw [hremoves, hadds, List.foldl_append, foldl_optionReductions h authority server hmem,
        foldl_optionIncreases h authority server hrow (by rw [Option.isNone_map])]

end Rows

/-! ## The catalog after the plan -/

/-- The catalog after the resolved plan. -/
def afterPlan (server : ServerDefaults) (v : Nat) (current desired : RoleGraph)
    (authority : MembershipAuthority) (catalog : MembershipCatalog) : MembershipCatalog :=
  execMemberships server v catalog
    ((diff current desired).map (resolvedChange current authority))

section After

variable {current desired : RoleGraph} {catalog : MembershipCatalog}
  (h : RecordsCatalog current catalog) (authority : MembershipAuthority) (server : ServerDefaults)
  {v : Nat} {role member g : String}

/-- Resolution leaves every other change alone. -/
theorem resolves_of_phase_ne {c : Change} (hc : c.phase ≠ .membership) :
    Resolves current authority c ∧ resolvedChange current authority c = c := by
  cases c <;> first | exact resolves_of_ok rfl | exact absurd rfl hc

theorem membershipPair_of_phase_ne {c : Change} (hc : c.phase ≠ .membership) :
    membershipPair c = none := by
  cases c <;> first | rfl | exact absurd rfl hc

/-- The whole plan resolves. -/
theorem RecordsCatalog.resolves_diff (h : RecordsCatalog current catalog) :
    ∀ c ∈ diff current desired, Resolves current authority c := by
  intro c hc
  by_cases hphase : c.phase = .membership
  · have hmem : c ∈ membershipChanges current desired := by
      rw [← filter_membership_diff]
      exact List.mem_filter.2 ⟨hc, by simp [hphase]⟩
    exact h.resolves_membershipChanges authority c hmem
  · exact (resolves_of_phase_ne authority hphase).1

theorem getElem?_afterPlan :
    (afterPlan server v current desired authority catalog)[(role, member, g)]? =
      (membershipChanges current desired).foldl
        (resolvedRow server v current authority (role, member, g)) catalog[(role, member, g)]? := by
  rw [afterPlan, getElem?_execMemberships, List.foldl_map, ← filter_membership_diff]
  apply foldl_eq_foldl_filter
  intro row c hc
  have hphase : c.phase ≠ .membership := by simpa using hc
  rw [(resolves_of_phase_ne authority hphase).2, changeRow_of_pair_ne]
  rw [membershipPair_of_phase_ne hphase]
  exact nofun

include h

/-- A row of an undeclared pair stays exactly when it is the executor's own authority. -/
theorem row_of_undeclared (hv : 16 ≤ v)
    (hd : (membershipMap desired.memberships)[(role, member)]? = none) :
    (afterPlan server v current desired authority catalog)[(role, member, g)]? =
      if executorAuthority current role member g then catalog[(role, member, g)]? else none := by
  rw [getElem?_afterPlan, foldl_membershipChanges authority server
    (h.resolves_membershipChanges authority), hd]
  by_cases hrow : ∃ a, (role, member, a) ∈ catalog
  · obtain ⟨a, hrow⟩ := hrow
    obtain ⟨c, hc, -, -⟩ := h.memberships.exists_currentEdge hrow
    simp only [hc]
    exact foldl_removeAllEdges h authority server hv hrow
  · have hnone : ∀ a, (role, member, a) ∉ catalog := not_exists.1 hrow
    simp [h.memberships.currentEdge_eq_none hnone, not_mem_iff_getElem?.1 (hnone g)]

/-- A declared pair without rows gets the declared edge as its only row. -/
theorem row_of_new (hv : 16 ≤ v) {d : MembershipEdge}
    (hd : (membershipMap desired.memberships)[(role, member)]? = some d)
    (hnone : ∀ a, (role, member, a) ∉ catalog) :
    (afterPlan server v current desired authority catalog)[(role, member, g)]? =
      if server.attributedTo role member = g then some ⟨d.inherit, d.admin, true⟩ else none := by
  obtain ⟨-, hpair⟩ := of_membershipMap_eq_some hd
  obtain ⟨r, m, i, a⟩ := d
  obtain ⟨rfl, rfl⟩ := Prod.mk.inj hpair
  rw [getElem?_afterPlan, foldl_membershipChanges authority server
    (h.resolves_membershipChanges authority), hd]
  have hc := h.memberships.currentEdge_eq_none hnone
  have hempty := not_mem_iff_getElem?.1 (hnone g)
  by_cases hg : server.attributedTo r m = g
  · cases a <;> simp [pairRemoves, pairAdds, hc, hempty, resolvedRow, resolvedChange,
      resolveMembershipOption, addMemberOf, changeRow, renderMembership, renderAddMember,
      supportsGrantWithOptions, hv, rowStep, statementRow, rowEffect, grantOptions, hg]
  · simp [pairRemoves, pairAdds, hc, hempty, resolvedRow, resolvedChange,
      resolveMembershipOption, addMemberOf, changeRow, renderMembership, renderAddMember,
      rowStep, statementRow, hg]

/-- A row of a declared pair after the plan: reduced, and increased where its grantor is chosen. -/
theorem row_of_declared {b : String} (hrow : (role, member, b) ∈ catalog) {c d : MembershipEdge}
    (hc : (membershipMap current.memberships)[(role, member)]? = some c)
    (hd : (membershipMap desired.memberships)[(role, member)]? = some d) :
    (afterPlan server v current desired authority catalog)[(role, member, g)]? =
      let kept := catalog[(role, member, g)]?.map (reduced (c.inherit && !d.inherit)
        (c.admin && !d.admin && !executorAuthority current role member g))
      if chosenGrantor current authority role member = g ∧
          (!c.inherit && d.inherit || !c.admin && d.admin) = true then
        some (increased (!c.inherit && d.inherit) (!c.admin && d.admin) kept)
      else kept := by
  rw [getElem?_afterPlan, foldl_membershipChanges authority server
    (h.resolves_membershipChanges authority), hd]
  exact foldl_declared h authority server hrow hc

section Declared

variable {b : String} {c d : MembershipEdge} (hrow : (role, member, b) ∈ catalog)
  (hc : (membershipMap current.memberships)[(role, member)]? = some c)
  (hd : (membershipMap desired.memberships)[(role, member)]? = some d)

include hrow hc hd

/-- The options of a declared pair's row, from the row before the plan. -/
theorem options_of_declared {o' : MembershipOptions}
    (ho : (afterPlan server v current desired authority catalog)[(role, member, g)]? = some o') :
    o'.inherit = (catalog[(role, member, g)]?.elim false (·.inherit) &&
        !(c.inherit && !d.inherit) ||
      decide (chosenGrantor current authority role member = g) && (!c.inherit && d.inherit)) ∧
    o'.admin = (catalog[(role, member, g)]?.elim false (·.admin) &&
        !(c.admin && !d.admin && !executorAuthority current role member g) ||
      decide (chosenGrantor current authority role member = g) && (!c.admin && d.admin)) ∧
    o'.set = catalog[(role, member, g)]?.elim false (·.set) := by
  rw [row_of_declared h authority server hrow hc hd] at ho
  by_cases hinc : chosenGrantor current authority role member = g ∧
      (!c.inherit && d.inherit || !c.admin && d.admin) = true
  · simp only [if_pos hinc] at ho
    rw [← Option.some.inj ho]
    cases catalog[(role, member, g)]? <;> simp [increased, reduced, hinc.1]
  · simp only [if_neg hinc] at ho
    obtain ⟨o, hold, rfl⟩ := Option.map_eq_some_iff.1 ho
    rw [hold]
    by_cases hchosen : chosenGrantor current authority role member = g
    · have hno : (!c.inherit && d.inherit || !c.admin && d.admin) = false := by
        simpa [hchosen] using hinc
      rw [Bool.or_eq_false_iff] at hno
      simp [reduced, hno.1, hno.2]
    · simp [reduced, hchosen]

theorem exists_row_of_row {o : MembershipOptions} (ho : catalog[(role, member, g)]? = some o) :
    ∃ o', (afterPlan server v current desired authority catalog)[(role, member, g)]? = some o' := by
  rw [row_of_declared h authority server hrow hc hd, ho]
  dsimp only
  split_ifs
  · exact ⟨_, rfl⟩
  · exact ⟨_, rfl⟩

theorem exists_row_of_increase (hinc : (!c.inherit && d.inherit || !c.admin && d.admin) = true) :
    ∃ o', (afterPlan server v current desired authority catalog)[(role, member,
      chosenGrantor current authority role member)]? = some o' := by
  rw [row_of_declared h authority server hrow hc hd]
  exact ⟨_, if_pos ⟨rfl, hinc⟩⟩

/-- An option that the catalog supplies, or that the plan increases, is supplied after it. -/
theorem supplied_after (option : MembershipOptions → Bool) {currentValue : Bool}
    (hcur : currentValue = true ↔ Supplied catalog role member option)
    (hkeep : currentValue = true → ∀ (g : String) (o o' : MembershipOptions),
      catalog[(role, member, g)]? = some o → option o = true →
        (afterPlan server v current desired authority catalog)[(role, member, g)]? = some o' →
          option o' = true)
    (hinc : currentValue = false →
      (!c.inherit && d.inherit || !c.admin && d.admin) = true ∧
        ∀ o' : MembershipOptions, (afterPlan server v current desired authority catalog)[(role,
          member, chosenGrantor current authority role member)]? = some o' → option o' = true) :
    Supplied (afterPlan server v current desired authority catalog) role member option := by
  cases hval : currentValue with
  | true =>
      obtain ⟨g, o, ho, hopt⟩ := hcur.1 hval
      obtain ⟨o', ho'⟩ := exists_row_of_row h authority server hrow hc hd ho
      exact ⟨g, o', ho', hkeep hval g o o' ho hopt ho'⟩
  | false =>
      obtain ⟨hany, hset⟩ := hinc hval
      obtain ⟨o', ho'⟩ := exists_row_of_increase h authority server hrow hc hd hany
      exact ⟨_, o', ho', hset o' ho'⟩

/-- INHERIT is supplied after the plan when it is declared. -/
theorem supplied_inherit_iff
    (hcur : c.inherit = true ↔ Supplied catalog role member (·.inherit)) :
    Supplied (afterPlan server v current desired authority catalog) role member (·.inherit) ↔
      d.inherit = true := by
  constructor
  · intro hsup
    obtain ⟨g, o', ho', hopt⟩ := hsup
    obtain ⟨hi, -, -⟩ := options_of_declared h authority server hrow hc hd ho'
    cases hdi : d.inherit with
    | true => rfl
    | false =>
        -- Without an increase the option was there before, and then it was reduced.
        cases hrow' : catalog[(role, member, g)]? with
        | none => simp [hrow', hdi, hi] at hopt
        | some o =>
            simp only [hrow', hdi, hi, Option.elim_some, Bool.not_false, Bool.and_true,
              Bool.and_false, Bool.or_false, Bool.and_eq_true, Bool.not_eq_true'] at hopt
            have hci : c.inherit = true := hcur.2 ⟨g, o, hrow', hopt.1⟩
            rw [hci] at hopt
            exact absurd hopt.2 (by simp)
  · intro hdi
    apply supplied_after h authority server hrow hc hd (·.inherit) hcur
    · intro hci g o o' ho hopt ho'
      obtain ⟨hi, -, -⟩ := options_of_declared h authority server hrow hc hd ho'
      simp [hi, ho, hopt, hdi]
    · intro hci
      refine ⟨by simp [hci, hdi], fun o' ho' => ?_⟩
      obtain ⟨hi, -, -⟩ := options_of_declared h authority server hrow hc hd ho'
      simp [hi, hci, hdi]

theorem supplied_admin (hcur : c.admin = true ↔ Supplied catalog role member (·.admin))
    (hda : d.admin = true) :
    Supplied (afterPlan server v current desired authority catalog) role member (·.admin) := by
  apply supplied_after h authority server hrow hc hd (·.admin) hcur
  · intro hca g o o' ho hopt ho'
    obtain ⟨-, ha, -⟩ := options_of_declared h authority server hrow hc hd ho'
    simp [ha, ho, hopt, hda]
  · intro hca
    refine ⟨by simp [hca, hda], fun o' ho' => ?_⟩
    obtain ⟨-, ha, -⟩ := options_of_declared h authority server hrow hc hd ho'
    simp [ha, hca, hda]

/-- ADMIN that stays undeclared is the executor's authority. -/
theorem authority_of_admin (hcur : c.admin = true ↔ Supplied catalog role member (·.admin))
    (hda : d.admin = false) {o' : MembershipOptions}
    (ho' : (afterPlan server v current desired authority catalog)[(role, member, g)]? = some o')
    (hadmin : o'.admin = true) : executorAuthority current role member g = true := by
  obtain ⟨-, ha, -⟩ := options_of_declared h authority server hrow hc hd ho'
  rw [ha] at hadmin
  cases hrow' : catalog[(role, member, g)]? with
  | none => simp [hrow', hda] at hadmin
  | some o =>
      simp only [hrow', hda, Option.elim_some, Bool.not_false, Bool.and_true, Bool.and_false,
        Bool.or_false, Bool.and_eq_true, Bool.not_eq_true', Bool.and_eq_false_iff] at hadmin
      have hca : c.admin = true := hcur.2 ⟨g, o, hrow', hadmin.1⟩
      simpa [hca] using hadmin.2

end Declared

end After

/-! ## Convergence -/

/-- What the plan achieves on the catalog. -/
structure MembershipsConverged (current desired : RoleGraph)
    (catalog after : MembershipCatalog) : Prop where
  declared : ∀ e ∈ desired.memberships, ∃ g, (e.role, e.member, g) ∈ after
  inherit : ∀ e ∈ desired.memberships,
    (Supplied after e.role e.member (·.inherit) ↔ e.inherit = true)
  admin : ∀ e ∈ desired.memberships, e.admin = true → Supplied after e.role e.member (·.admin)
  /-- ADMIN that is not wanted is left only with the executor's own authority. -/
  admin_authority : ∀ e ∈ desired.memberships, e.admin = false →
    ∀ (g : String) (o : MembershipOptions), after[(e.role, e.member, g)]? = some o →
      o.admin = true → executorAuthority current e.role e.member g = true
  undeclared : ∀ role member : String, (∀ e ∈ desired.memberships, e.pair ≠ (role, member)) →
    ∀ g : String, after[(role, member, g)]? =
      if executorAuthority current role member g then catalog[(role, member, g)]? else none
  authority : ∀ (role member g : String) (o : MembershipOptions),
    executorAuthority current role member g = true → catalog[(role, member, g)]? = some o →
      ∃ o' : MembershipOptions, after[(role, member, g)]? = some o' ∧
        (o.admin = true → o'.admin = true)
  set_kept : ∀ (key : String × String × String) (o o' : MembershipOptions),
    catalog[key]? = some o → after[key]? = some o' → o'.set = o.set
  /-- A row created beside existing rows of its pair has no SET. -/
  set_created : ∀ (role member g a : String) (o : MembershipOptions),
    (role, member, a) ∈ catalog → (role, member, g) ∉ catalog →
      after[(role, member, g)]? = some o → o.set = false

section Converged

variable {current desired : RoleGraph} {catalog : MembershipCatalog}
  (h : RecordsCatalog current catalog) (hone : OneEdgePerPair desired.memberships)
  (authority : MembershipAuthority) (server : ServerDefaults) {v : Nat} (hv : 16 ≤ v)

include h hv

theorem set_kept_afterPlan (key : String × String × String) (o o' : MembershipOptions)
    (ho : catalog[key]? = some o)
    (ho' : (afterPlan server v current desired authority catalog)[key]? = some o') :
    o'.set = o.set := by
  obtain ⟨role, member, g⟩ := key
  have hrow : (role, member, g) ∈ catalog := mem_iff_exists_getElem?.2 ⟨o, ho⟩
  cases hd : (membershipMap desired.memberships)[(role, member)]? with
  | none =>
      rw [row_of_undeclared h authority server hv hd, ho] at ho'
      split_ifs at ho'
      rw [Option.some.inj ho']
  | some d =>
      obtain ⟨c, hc, -, -⟩ := h.memberships.exists_currentEdge hrow
      obtain ⟨-, -, hset⟩ := options_of_declared h authority server hrow hc hd ho'
      rw [hset, ho]
      rfl

theorem set_created_afterPlan {role member g a : String} {o : MembershipOptions}
    (hrow : (role, member, a) ∈ catalog) (hnew : (role, member, g) ∉ catalog)
    (ho : (afterPlan server v current desired authority catalog)[(role, member, g)]? = some o) :
    o.set = false := by
  rw [not_mem_iff_getElem?] at hnew
  cases hd : (membershipMap desired.memberships)[(role, member)]? with
  | none =>
      rw [row_of_undeclared h authority server hv hd, hnew] at ho
      split_ifs at ho
  | some d =>
      obtain ⟨c, hc, -, -⟩ := h.memberships.exists_currentEdge hrow
      obtain ⟨-, -, hset⟩ := options_of_declared h authority server hrow hc hd ho
      rw [hset, hnew]
      rfl

/-- The executor's authority stays in place. -/
theorem authority_afterPlan {role member g : String} {o : MembershipOptions}
    (hauth : executorAuthority current role member g = true)
    (ho : catalog[(role, member, g)]? = some o) :
    ∃ o', (afterPlan server v current desired authority catalog)[(role, member, g)]? = some o' ∧
      (o.admin = true → o'.admin = true) := by
  have hrow : (role, member, g) ∈ catalog := mem_iff_exists_getElem?.2 ⟨o, ho⟩
  cases hd : (membershipMap desired.memberships)[(role, member)]? with
  | none =>
      rw [row_of_undeclared h authority server hv hd, hauth]
      exact ⟨o, ho, id⟩
  | some d =>
      obtain ⟨c, hc, -, -⟩ := h.memberships.exists_currentEdge hrow
      obtain ⟨o', ho'⟩ := exists_row_of_row h authority server hrow hc hd ho
      obtain ⟨-, hadmin, -⟩ := options_of_declared h authority server hrow hc hd ho'
      refine ⟨o', ho', fun hold => ?_⟩
      simp [hadmin, ho, hold, hauth]

include hone

/-- The plan brings the catalog to the declared memberships. -/
theorem membershipsConverged_afterPlan :
    MembershipsConverged current desired catalog
      (afterPlan server v current desired authority catalog) where
  declared e he := by
    have hd := hone.membershipMap_eq_some_iff.2 ⟨he, rfl⟩
    by_cases hrow : ∃ a, (e.role, e.member, a) ∈ catalog
    · obtain ⟨a, hrow⟩ := hrow
      obtain ⟨c, hc, -, -⟩ := h.memberships.exists_currentEdge hrow
      obtain ⟨o, ho⟩ := mem_iff_exists_getElem?.1 hrow
      exact ⟨a, mem_iff_exists_getElem?.2 (exists_row_of_row h authority server hrow hc hd ho)⟩
    · refine ⟨server.attributedTo e.role e.member, mem_iff_exists_getElem?.2 ?_⟩
      rw [row_of_new h authority server hv hd (not_exists.1 hrow), if_pos rfl]
      exact ⟨_, rfl⟩
  inherit e he := by
    have hd := hone.membershipMap_eq_some_iff.2 ⟨he, rfl⟩
    by_cases hrow : ∃ a, (e.role, e.member, a) ∈ catalog
    · obtain ⟨a, hrow⟩ := hrow
      obtain ⟨c, hc, hi, -⟩ := h.memberships.exists_currentEdge hrow
      exact supplied_inherit_iff h authority server hrow hc hd hi
    · rw [Supplied]
      simp only [row_of_new h authority server hv hd (not_exists.1 hrow)]
      simp
  admin e he hadmin := by
    have hd := hone.membershipMap_eq_some_iff.2 ⟨he, rfl⟩
    by_cases hrow : ∃ a, (e.role, e.member, a) ∈ catalog
    · obtain ⟨a, hrow⟩ := hrow
      obtain ⟨c, hc, -, ha⟩ := h.memberships.exists_currentEdge hrow
      exact supplied_admin h authority server hrow hc hd ha hadmin
    · refine ⟨server.attributedTo e.role e.member, ⟨e.inherit, e.admin, true⟩, ?_, hadmin⟩
      rw [row_of_new h authority server hv hd (not_exists.1 hrow), if_pos rfl]
  admin_authority e he hadmin g o ho hheld := by
    have hd := hone.membershipMap_eq_some_iff.2 ⟨he, rfl⟩
    by_cases hrow : ∃ a, (e.role, e.member, a) ∈ catalog
    · obtain ⟨a, hrow⟩ := hrow
      obtain ⟨c, hc, -, ha⟩ := h.memberships.exists_currentEdge hrow
      exact authority_of_admin h authority server hrow hc hd ha hadmin ho hheld
    · rw [row_of_new h authority server hv hd (not_exists.1 hrow)] at ho
      split_ifs at ho
      rw [← Option.some.inj ho, hadmin] at hheld
      cases hheld
  undeclared role member hnone g := by
    apply row_of_undeclared h authority server hv
    cases hd : (membershipMap desired.memberships)[(role, member)]? with
    | none => rfl
    | some d =>
        obtain ⟨hmem, hpair⟩ := of_membershipMap_eq_some hd
        exact absurd hpair (hnone d hmem)
  authority _ _ _ _ hauth ho := authority_afterPlan h authority server hv hauth ho
  set_kept := set_kept_afterPlan h authority server hv
  set_created _ _ _ _ _ hrow hnew ho := set_created_afterPlan h authority server hv hrow hnew ho

end Converged

/-- No membership change is planned for a catalog that has converged. -/
theorem MembershipsConverged.membershipChanges_eq_nil {current desired next : RoleGraph}
    {catalog after : MembershipCatalog} (h : MembershipsConverged current desired catalog after)
    (hnext : RecordsCatalog next after)
    (hauthority : next.executorAuthorityEdges = current.executorAuthorityEdges) :
    membershipChanges next desired = [] := by
  have hauth : executorAuthority next = executorAuthority current := by
    funext role member g
    rw [executorAuthority, executorAuthority, hauthority]
  apply List.eq_nil_iff_forall_not_mem.2
  intro c hc
  -- A pair of the next graph has rows, and its edge holds their effective options.
  have hrows : ∀ (pair : String × String) (n : MembershipEdge),
      (membershipMap next.memberships)[pair]? = some n →
        recordedGrantors next pair ≠ none ∧
          (n.inherit = true ↔ Supplied after pair.1 pair.2 (·.inherit)) ∧
            (n.admin = true ↔ Supplied after pair.1 pair.2 (·.admin)) := by
    intro pair n hn
    obtain ⟨he, rfl⟩ := of_membershipMap_eq_some hn
    obtain ⟨⟨g, hrow⟩, hi, ha⟩ := (hnext.memberships n).1 he
    obtain ⟨gs, hgs, -⟩ := hnext.recordedGrantors_of_row hrow
    refine ⟨?_, hi, ha⟩
    intro hnone
    rw [MembershipEdge.pair, hgs] at hnone
    cases hnone
  rcases List.mem_append.1 hc with hc | hc
  · rcases mem_memberRemoves.1 hc with ⟨pair, e, he, hc⟩ | ⟨pair, n, hn, hd, hc⟩
    · obtain ⟨hmem, rfl⟩ := of_membershipMap_eq_some he
      obtain ⟨n, hn, -, ⟨hnone, -⟩ | ⟨gs, hgs, hc⟩⟩ := mem_pairRemoves.1 hc
      · exact (hrows e.pair n hn).1 hnone
      · obtain ⟨g, hg, hsome, -⟩ := mem_optionReductions.1 hc
        obtain ⟨-, hi, ha⟩ := hrows e.pair n hn
        obtain ⟨o, ho⟩ := mem_iff_exists_getElem?.1 (hnext.mem_catalog_of_recorded hgs hg)
        have hlive : liveOptions next e.pair g = some o := by
          rw [← ho]
          exact hnext.options e.role e.member g
        rcases hsome with hsome | hsome
        · rw [isSome_inheritReduction hlive] at hsome
          simp only [Bool.and_eq_true, Bool.not_eq_true'] at hsome
          have hwant := (h.inherit e hmem).1 (hi.1 hsome.1.1)
          rw [hsome.1.2] at hwant
          cases hwant
        · rw [isSome_adminReduction hlive, hauth] at hsome
          simp only [Bool.and_eq_true, Bool.not_eq_true'] at hsome
          have hkept := h.admin_authority e hmem hsome.1.1.2 g o ho hsome.2
          rw [MembershipEdge.pair, hkept] at hsome
          exact absurd hsome.1.2 (by simp)
    · rcases mem_removeAllEdges.1 hc with ⟨hnone, -⟩ | ⟨gs, g, hgs, hg, hspared, -⟩
      · exact (hrows pair n hn).1 hnone
      · obtain ⟨o, ho⟩ := mem_iff_exists_getElem?.1 (hnext.mem_catalog_of_recorded hgs hg)
        have hundeclared : ∀ e ∈ desired.memberships, e.pair ≠ (pair.1, pair.2) := by
          intro e he heq
          obtain ⟨a, ha⟩ := exists_membershipMap_eq_some he
          rw [heq, hd] at ha
          cases ha
        rw [h.undeclared pair.1 pair.2 hundeclared g, ← hauth, hspared] at ho
        cases ho
  · obtain ⟨pair, e, he, hc⟩ := mem_memberAdds.1 hc
    obtain ⟨hmem, rfl⟩ := of_membershipMap_eq_some he
    rcases mem_pairAdds.1 hc with ⟨hn, -⟩ | ⟨n, hn, -, ⟨hnone, -⟩ | ⟨gs, -, hc⟩⟩
    · obtain ⟨g, hrow⟩ := h.declared e hmem
      obtain ⟨n, hn', -, -⟩ := hnext.memberships.exists_currentEdge hrow
      rw [MembershipEdge.pair, hn'] at hn
      cases hn
    · exact (hrows e.pair n hn).1 hnone
    · obtain ⟨hsome, -⟩ := mem_optionIncreases.1 hc
      obtain ⟨-, hi, ha⟩ := hrows e.pair n hn
      simp only [isSome_optionIncrease, Bool.and_eq_true, Bool.not_eq_true'] at hsome
      rcases hsome with hsome | hsome
      · have hheld := hi.2 ((h.inherit e hmem).2 hsome.2)
        rw [hsome.1] at hheld
        cases hheld
      · have hheld := ha.2 (h.admin e hmem hsome.2)
        rw [hsome.1] at hheld
        cases hheld

/-- The plan's option changes resolve, their execution converges, and a graph that records the
result plans no membership change. -/
theorem membership_convergence {current desired : RoleGraph} {catalog : MembershipCatalog}
    (h : RecordsCatalog current catalog) (hone : OneEdgePerPair desired.memberships)
    (authority : MembershipAuthority) (server : ServerDefaults) {v : Nat} (hv : 16 ≤ v) :
    ∃ resolved, resolveMembershipOptions (diff current desired) current authority = .ok resolved ∧
      MembershipsConverged current desired catalog (execMemberships server v catalog resolved) ∧
        ∀ next, RecordsCatalog next (execMemberships server v catalog resolved) →
          next.executorAuthorityEdges = current.executorAuthorityEdges →
            (diff next desired).filter (fun c => c.phase == .membership) = [] := by
  have hconverged := membershipsConverged_afterPlan h hone authority server hv
  refine ⟨_, resolveMembershipOptions_eq_map (h.resolves_diff authority), hconverged, ?_⟩
  intro next hnext hauthority
  rw [filter_membership_diff]
  exact hconverged.membershipChanges_eq_nil hnext hauthority

/-- Two grantors gave `alice` the role `app`; the row of `postgres` is the executor's authority. One
grantor gave it to `dave` and to `erin`. -/
def sharedCatalog : MembershipCatalog :=
  ExtTreeMap.ofList [(("app", "alice", "postgres"), ⟨true, true, true⟩),
    (("app", "alice", "bob"), ⟨true, true, false⟩),
    (("app", "dave", "bob"), ⟨false, false, true⟩),
    (("app", "erin", "bob"), ⟨true, false, true⟩)] compare

/-- The database as inspected: the executor has authority over the edges of `postgres`. -/
def sharedCurrent : RoleGraph :=
  recordMemberships {} (catalogRows sharedCatalog fun key => key.2.2 == "postgres")

/-- The options of `alice` go and those of `dave` come, `carol` joins and `erin` leaves. -/
def sharedDesired : RoleGraph :=
  { memberships := ExtTreeSet.ofList
      [⟨"app", "alice", false, false⟩, ⟨"app", "carol", true, false⟩,
        ⟨"app", "dave", true, true⟩] compare }

/-- The executor can act as the grantor `alice` only. -/
def sharedAuthority : MembershipAuthority where
  executor := "alice"
  usableGrantors := ExtTreeMap.ofList [("app", ExtTreeSet.ofList ["alice"] compare)] compare

/-- Statements without a grantor are attributed to `alice`. -/
def sharedServer : ServerDefaults where
  attributedTo _ _ := "alice"
  memberInherits _ := true

/-- The plan adds, removes and changes memberships, and converges. -/
theorem sharedCatalog_converges :
    (.addMember "app" "carol" true false ∈ diff sharedCurrent sharedDesired ∧
      .updateMemberOptions "app" "alice" "bob" (some false) (some false) none ∈
        diff sharedCurrent sharedDesired ∧
      .updateMemberOptions "app" "dave" "bob" (some true) (some true) none ∈
        diff sharedCurrent sharedDesired ∧
      .removeMember "app" "erin" (some "bob") ∈ diff sharedCurrent sharedDesired) ∧
    ∃ resolved,
      resolveMembershipOptions (diff sharedCurrent sharedDesired) sharedCurrent sharedAuthority =
          .ok resolved ∧
        MembershipsConverged sharedCurrent sharedDesired sharedCatalog
          (execMemberships sharedServer 16 sharedCatalog resolved) ∧
        ∀ next, RecordsCatalog next (execMemberships sharedServer 16 sharedCatalog resolved) →
          next.executorAuthorityEdges = sharedCurrent.executorAuthorityEdges →
            (diff next sharedDesired).filter (fun c => c.phase == .membership) = [] := by
  have hone : OneEdgePerPair sharedDesired.memberships := oneEdgePerPair_iff.2 (by decide +kernel)
  exact ⟨by decide +kernel, membership_convergence (recordsCatalog_recordMemberships {}) hone
    sharedAuthority sharedServer (Nat.le_refl 16)⟩

end PgRoles.Semantics

import PgRoles.Lib.Claims
import PgRoles.Core.ExpandSpec

/-!
# Expansion does not depend on the order of declarations

A manifest whose roles, grants, default privileges, memberships and retirements are listed in
another order is accepted when the first one is (`expandManifest_reordered`), and both have one
desired graph (`fromExpanded_reordered`). The checks of the expander that remember what they have
seen are the ones with something to prove: each is equivalent to a condition on pairs of
declarations.
-/

set_option autoImplicit false

namespace PgRoles.Core

open Std PgRoles.Lib

/-! ## Repeated names -/

/-- Names pass when none is seen twice. -/
theorem rejectDuplicates_eq_ok {error : String → ManifestError} {seen names : List String} :
    rejectDuplicates error seen names = .ok () ↔
      names.Nodup ∧ ∀ name ∈ names, name ∉ seen := by
  induction names generalizing seen with
  | nil => simp [rejectDuplicates]
  | cons name names ih =>
      rw [rejectDuplicates, check_bind_eq_ok, rejectIf_eq_ok, ih, List.nodup_cons,
        List.forall_mem_cons]
      have hseen : seen.contains name = false ↔ name ∉ seen := by simp
      rw [hseen]
      constructor
      · intro h
        obtain ⟨hnew, hnodup, hfresh⟩ := h
        refine ⟨⟨fun hmem => hfresh name hmem List.mem_cons_self, hnodup⟩, hnew, ?_⟩
        intro other hother hin
        exact hfresh other hother (List.mem_cons_of_mem _ hin)
      · intro h
        obtain ⟨⟨hnot, hnodup⟩, hnew, hfresh⟩ := h
        refine ⟨hnew, hnodup, fun other hother hin => ?_⟩
        rcases List.mem_cons.1 hin with rfl | hin
        · exact hnot hother
        · exact hfresh other hother hin

theorem rejectDuplicates_nil_eq_ok {error : String → ManifestError} {names : List String} :
    rejectDuplicates error [] names = .ok () ↔ names.Nodup := by
  simp [rejectDuplicates_eq_ok]

/-- What a retirement must satisfy beside being the only one of its role. -/
def RetirementFits (desiredRoles : List String) (retirement : RoleRetirement) : Prop :=
  retirement.role ∉ desiredRoles ∧ retirement.reassignOwnedTo ≠ some retirement.role

/-- Retirements pass when they are of different roles not seen before, and each of them fits. -/
theorem validateRetirements_eq_ok {desiredRoles seen : List String}
    {retirements : List RoleRetirement} :
    validateRetirements desiredRoles seen retirements = .ok () ↔
      (retirements.map (·.role)).Nodup ∧ (∀ r ∈ retirements, r.role ∉ seen) ∧
        ∀ r ∈ retirements, RetirementFits desiredRoles r := by
  induction retirements generalizing seen with
  | nil => simp [validateRetirements]
  | cons r retirements ih =>
      rw [validateRetirements, check_bind_eq_ok, check_bind_eq_ok, check_bind_eq_ok,
        rejectIf_eq_ok, rejectIf_eq_ok, rejectIf_eq_ok, ih, List.map_cons, List.nodup_cons,
        List.forall_mem_cons, List.forall_mem_cons]
      have hseen : seen.contains r.role = false ↔ r.role ∉ seen := by simp
      have hdesired : desiredRoles.contains r.role = false ↔ r.role ∉ desiredRoles := by simp
      have hself : (r.reassignOwnedTo == some r.role) = false ↔
          r.reassignOwnedTo ≠ some r.role := by simp
      rw [hseen, hdesired, hself]
      constructor
      · intro h
        obtain ⟨hnew, hnot, hother, hnodup, hfresh, hfits⟩ := h
        refine ⟨⟨?_, hnodup⟩, ⟨hnew, ?_⟩, ⟨hnot, hother⟩, hfits⟩
        · intro hmem
          obtain ⟨r', hr', heq⟩ := List.mem_map.1 hmem
          exact hfresh r' hr' (heq ▸ List.mem_cons_self)
        · intro r' hr' hin
          exact hfresh r' hr' (List.mem_cons_of_mem _ hin)
      · intro h
        obtain ⟨⟨hnot, hnodup⟩, ⟨hnew, hfresh⟩, ⟨hdes, hother⟩, hfits⟩ := h
        refine ⟨hnew, hdes, hother, hnodup, fun r' hr' hin => ?_, hfits⟩
        rcases List.mem_cons.1 hin with heq | hin
        · exact hnot (List.mem_map.2 ⟨r', hr', heq⟩)
        · exact hfresh r' hr' hin

/-! ## Grants that contradict each other -/

/-- The two assertions are a wildcard and a named selector of one grantee, type, schema and
privilege. -/
structure SameSelectors (a b : Grant × Privilege) (schema name : String) : Prop where
  privilege : a.2 = b.2
  role : a.1.role = b.1.role
  objectType : a.1.object.objectType = b.1.object.objectType
  wildSchema : a.1.object.schema = some schema
  namedSchema : b.1.object.schema = some schema
  wild : a.1.object.name = some wildcardName
  named : b.1.object.name = some name
  name_ne : name ≠ wildcardName

/-- No two of the assertions contradict each other. -/
structure Consistent (l : List (Grant × Privilege)) : Prop where
  same_target : ∀ a ∈ l, ∀ b ∈ l, assertionKey a.1 a.2 = assertionKey b.1 b.2 →
    a.1.ensure = b.1.ensure
  same_selectors : ∀ a ∈ l, ∀ b ∈ l, ∀ schema name, SameSelectors a b schema name →
    a.1.ensure = b.1.ensure

theorem Consistent.subset {l l' : List (Grant × Privilege)} (h : Consistent l) (hsub : l' ⊆ l) :
    Consistent l' :=
  ⟨fun a ha b hb => h.same_target a (hsub ha) b (hsub hb),
    fun a ha b hb => h.same_selectors a (hsub ha) b (hsub hb)⟩

/-- Assertions that were all noted are consistent. -/
theorem AssertionsNoted.consistent {l : List (Grant × Privilege)} {state : AssertionState}
    (h : AssertionsNoted l state) : Consistent l := by
  constructor
  · intro a ha b hb hkey
    have hnoted := h.assertions a ha
    rw [hkey, h.assertions b hb] at hnoted
    exact (Option.some.inj hnoted).symm
  · intro a ha b hb schema name hsame
    obtain ⟨flags, hflags, hmarked⟩ := h.selectors a ha schema _ hsame.wildSchema hsame.wild
    obtain ⟨flags', hflags', hmarked'⟩ := h.selectors b hb schema name hsame.namedSchema hsame.named
    rw [hsame.role, hsame.objectType, hsame.privilege] at hflags
    obtain rfl : flags = flags' := Option.some.inj (hflags.symm.trans hflags')
    have hconflict := h.no_conflict _ flags hflags
    have hnamed : (name == wildcardName) = false := by simpa using hsame.name_ne
    rw [hnamed] at hmarked'
    simp only [beq_self_eq_true] at hmarked
    cases hea : a.1.ensure <;> cases heb : b.1.ensure <;>
      simp_all [SelectorFlags.conflict, SelectorFlags.marked]

/-- The state holds nothing but what the assertions done so far have left behind. -/
structure NotedFrom (done : List (Grant × Privilege)) (state : AssertionState) : Prop where
  assertions : ∀ key ensure, state.assertions[key]? = some ensure →
    ∃ a ∈ done, assertionKey a.1 a.2 = key ∧ a.1.ensure = ensure
  selectors : ∀ (key : String × ObjectType × String × Privilege) flags wild ensure,
    state.selectors[key]? = some flags → flags.marked wild ensure = true →
      ∃ a ∈ done, ∃ name, a.1.object.schema = some key.2.2.1 ∧ a.1.object.name = some name ∧
        (a.1.role, a.1.object.objectType, key.2.2.1, a.2) = key ∧
        (name == wildcardName) = wild ∧ a.1.ensure = ensure

theorem notedFrom_nil : NotedFrom [] {} := by
  constructor
  · intro key ensure h
    simp at h
  · intro key flags wild ensure h
    simp at h

/-- The assertions recorded after one more. -/
theorem NotedFrom.insertAssertion {done : List (Grant × Privilege)} {state : AssertionState}
    {a : Grant × Privilege} (h : NotedFrom done state) (key : GrantAssertionKey)
    (ensure : Ensure)
    (hget : (state.assertions.insert (assertionKey a.1 a.2) a.1.ensure)[key]? = some ensure) :
    ∃ b ∈ done ++ [a], assertionKey b.1 b.2 = key ∧ b.1.ensure = ensure := by
  rw [getElem?_insert_eq] at hget
  split at hget
  · next heq =>
      exact ⟨a, List.mem_append_right _ (List.mem_singleton.2 rfl), heq, Option.some.inj hget⟩
  · obtain ⟨b, hb, hkey⟩ := h.assertions key ensure hget
    exact ⟨b, List.mem_append_left _ hb, hkey⟩

/-- The selectors recorded after one more; `a` is the assertion that set the flag. -/
theorem NotedFrom.markSelector {done : List (Grant × Privilege)} {state : AssertionState}
    {a : Grant × Privilege} (h : NotedFrom done state) {schema name : String}
    (hschema : a.1.object.schema = some schema) (hname : a.1.object.name = some name)
    (wild : Bool) (ensure : Ensure)
    (hmarked : (((state.selectors[(a.1.role, a.1.object.objectType, schema, a.2)]?).getD {}).mark
      (name == wildcardName) a.1.ensure).marked wild ensure = true) :
    ∃ b ∈ done ++ [a], ∃ n, b.1.object.schema = some schema ∧ b.1.object.name = some n ∧
      (b.1.role, b.1.object.objectType, schema, b.2) =
        (a.1.role, a.1.object.objectType, schema, a.2) ∧
      (n == wildcardName) = wild ∧ b.1.ensure = ensure := by
  rw [SelectorFlags.marked_mark, Bool.or_eq_true, Bool.and_eq_true] at hmarked
  rcases hmarked with hold | ⟨hwild, hensure⟩
  · cases hflags : state.selectors[(a.1.role, a.1.object.objectType, schema, a.2)]? with
    | none =>
        rw [hflags] at hold
        cases wild <;> cases ensure <;> simp [SelectorFlags.marked] at hold
    | some flags =>
        rw [hflags, Option.getD_some] at hold
        obtain ⟨b, hb, n, hbschema, hbname, hkey, hrest⟩ :=
          h.selectors _ flags wild ensure hflags hold
        exact ⟨b, List.mem_append_left _ hb, n, hbschema, hbname, hkey, hrest⟩
  · exact ⟨a, List.mem_append_right _ (List.mem_singleton.2 rfl), name, hschema, hname, rfl,
      by simpa using hwild, by simpa using hensure⟩

/-- The flags of an assertion's selectors once it is noted. -/
def flagsAfter (state : AssertionState) (a : Grant × Privilege) (schema name : String) :
    SelectorFlags :=
  ((state.selectors[(a.1.role, a.1.object.objectType, schema, a.2)]?).getD {}).mark
    (name == wildcardName) a.1.ensure

theorem noteAssertion_of_selector {state : AssertionState} {a : Grant × Privilege}
    {schema name : String} (hschema : a.1.object.schema = some schema)
    (hname : a.1.object.name = some name)
    (hagree : (state.assertions[assertionKey a.1 a.2]?).any (· != a.1.ensure) = false)
    (hconflict : (flagsAfter state a schema name).conflict = false) :
    noteAssertion state a = .ok ⟨state.assertions.insert (assertionKey a.1 a.2) a.1.ensure,
      state.selectors.insert (a.1.role, a.1.object.objectType, schema, a.2)
        (flagsAfter state a schema name)⟩ := by
  refine check_bind_eq_ok.2 ⟨rejectIf_eq_ok.2 hagree, ?_⟩
  simp only [hschema, hname]
  exact check_bind_eq_ok.2 ⟨rejectIf_eq_ok.2 hconflict, rfl⟩

theorem noteAssertion_of_target {state : AssertionState} {a : Grant × Privilege}
    (hnone : a.1.object.schema = none ∨ a.1.object.name = none)
    (hagree : (state.assertions[assertionKey a.1 a.2]?).any (· != a.1.ensure) = false) :
    noteAssertion state a =
      .ok ⟨state.assertions.insert (assertionKey a.1 a.2) a.1.ensure, state.selectors⟩ := by
  refine check_bind_eq_ok.2 ⟨rejectIf_eq_ok.2 hagree, ?_⟩
  rcases hnone with hnone | hnone
  · simp only [hnone]
    rfl
  · simp only [hnone]
    cases a.1.object.schema with
    | none => rfl
    | some schema => rfl

/-- A conflict would need a flag of each kind, and each flag has its assertion. -/
theorem NotedFrom.no_conflict {done : List (Grant × Privilege)} {state : AssertionState}
    {a : Grant × Privilege} (h : NotedFrom done state) (hcons : Consistent (done ++ [a]))
    {schema name : String} (hschema : a.1.object.schema = some schema)
    (hname : a.1.object.name = some name) : (flagsAfter state a schema name).conflict = false := by
  have hpair : ∀ e e' : Ensure, e ≠ e' → ¬ ((flagsAfter state a schema name).marked true e = true ∧
      (flagsAfter state a schema name).marked false e' = true) := by
    intro e e' hne hboth
    obtain ⟨b, hb, n, hbs, hbn, hbkey, hbwild, hbe⟩ := h.markSelector hschema hname _ _ hboth.1
    obtain ⟨c, hc, n', hcs, hcn, hckey, hcwild, hce⟩ := h.markSelector hschema hname _ _ hboth.2
    simp only [Prod.mk.injEq, true_and] at hbkey hckey
    have hn : n = wildcardName := by simpa using hbwild
    rw [hn] at hbn
    refine hne (hbe.symm.trans ((hcons.same_selectors b hb c hc schema n' ?_).trans hce))
    exact ⟨hbkey.2.2.trans hckey.2.2.symm, hbkey.1.trans hckey.1.symm,
      hbkey.2.1.trans hckey.2.1.symm, hbs, hcs, hbn, hcn, by simpa using hcwild⟩
  refine Bool.eq_false_iff.2 fun hconflict => ?_
  rw [SelectorFlags.conflict, Bool.or_eq_true, Bool.and_eq_true, Bool.and_eq_true] at hconflict
  rcases hconflict with hconflict | hconflict
  · exact hpair .present .absent (by decide) hconflict
  · exact hpair .absent .present (by decide) hconflict

/-- Consistent assertions are noted. -/
theorem NotedFrom.exists_note {done : List (Grant × Privilege)} {state : AssertionState}
    {a : Grant × Privilege} (h : NotedFrom done state) (hcons : Consistent (done ++ [a])) :
    ∃ state', noteAssertion state a = .ok state' ∧ NotedFrom (done ++ [a]) state' := by
  have hlast : a ∈ done ++ [a] := List.mem_append_right _ (List.mem_singleton.2 rfl)
  have hagree : (state.assertions[assertionKey a.1 a.2]?).any (· != a.1.ensure) = false := by
    cases hold : state.assertions[assertionKey a.1 a.2]? with
    | none => rfl
    | some ensure =>
        obtain ⟨b, hb, hkey, hensure⟩ := h.assertions _ _ hold
        have hsame := hcons.same_target b (List.mem_append_left _ hb) a hlast hkey
        simp [← hensure, hsame]
  have hold : ∀ key flags wild ensure, state.selectors[key]? = some flags →
      flags.marked wild ensure = true → ∃ b ∈ done ++ [a], ∃ name,
        b.1.object.schema = some key.2.2.1 ∧ b.1.object.name = some name ∧
        (b.1.role, b.1.object.objectType, key.2.2.1, b.2) = key ∧
        (name == wildcardName) = wild ∧ b.1.ensure = ensure := by
    intro key flags wild ensure hget hmarked
    obtain ⟨b, hb, hrest⟩ := h.selectors key flags wild ensure hget hmarked
    exact ⟨b, List.mem_append_left _ hb, hrest⟩
  by_cases hnone : a.1.object.schema = none ∨ a.1.object.name = none
  · exact ⟨_, noteAssertion_of_target hnone hagree, fun key e he => h.insertAssertion key e he,
      hold⟩
  · rw [not_or] at hnone
    obtain ⟨schema, hschema⟩ := Option.ne_none_iff_exists'.1 hnone.1
    obtain ⟨name, hname⟩ := Option.ne_none_iff_exists'.1 hnone.2
    refine ⟨_, noteAssertion_of_selector hschema hname hagree (h.no_conflict hcons hschema hname),
      fun key e he => h.insertAssertion key e he, ?_⟩
    intro key flags wild ensure hget hmarked
    rw [getElem?_insert_eq] at hget
    split at hget
    · next heq =>
        rw [← Option.some.inj hget] at hmarked
        obtain rfl := heq
        exact h.markSelector hschema hname wild ensure hmarked
    · exact hold key flags wild ensure hget hmarked

theorem exists_noteAssertions {l done : List (Grant × Privilege)} {state : AssertionState}
    (h : NotedFrom done state) (hcons : Consistent (done ++ l)) :
    ∃ state', l.foldlM noteAssertion state = .ok state' := by
  induction l generalizing done state with
  | nil => exact ⟨state, rfl⟩
  | cons a l ih =>
      have hall : done ++ a :: l = (done ++ [a]) ++ l := by simp
      rw [hall] at hcons
      obtain ⟨next, hnext, hfrom⟩ := h.exists_note (hcons.subset (List.subset_append_left _ _))
      obtain ⟨state', hstate'⟩ := ih hfrom hcons
      exact ⟨state', by rw [List.foldlM_cons, hnext]; exact hstate'⟩

/-- The grant assertions are noted exactly when they are consistent. -/
theorem noteAssertions_isOk_iff {l : List (Grant × Privilege)} :
    (∃ state, l.foldlM noteAssertion {} = .ok state) ↔ Consistent l := by
  constructor
  · intro h
    obtain ⟨state, hstate⟩ := h
    have hstart : AssertionsNoted [] {} :=
      ⟨fun a ha => absurd ha List.not_mem_nil, fun a ha => absurd ha List.not_mem_nil,
        fun key flags hflags => by simp at hflags⟩
    exact (foldlM_invariant AssertionsNoted (fun _ _ _ _ hnoted hstep => hnoted.note hstep) hstart
      hstate).consistent
  · intro h
    exact exists_noteAssertions notedFrom_nil h

/-! ## Default privileges that contradict each other -/

/-- Assertions of one key agree, with each other and with what is noted already. -/
theorem noteDefaultAssertions_isOk_iff {l : List DefaultAssertion}
    {state : BTreeMap DefaultAssertionKey Ensure} :
    (∃ state', l.foldlM noteDefaultAssertion state = .ok state') ↔
      (∀ a ∈ l, ∀ b ∈ l, a.key = b.key → a.ensure = b.ensure) ∧
        ∀ a ∈ l, ∀ ensure, state[a.key]? = some ensure → ensure = a.ensure := by
  induction l generalizing state with
  | nil => simp [pure, Except.pure]
  | cons a l ih =>
      have hstep : ∀ next, noteDefaultAssertion state a = .ok next ↔
          (∀ ensure, state[a.key]? = some ensure → ensure = a.ensure) ∧
            next = state.insert a.key a.ensure := by
        intro next
        have hagree : (state[a.key]?).any (· != a.ensure) = false ↔
            ∀ ensure, state[a.key]? = some ensure → ensure = a.ensure := by
          cases state[a.key]? with
          | none => simp
          | some ensure => simp
        unfold noteDefaultAssertion
        rw [check_bind_eq_ok, rejectIf_eq_ok, hagree]
        simp only [pure, Except.pure, Except.ok.injEq]
        exact and_congr_right fun _ => eq_comm
      constructor
      · intro h
        obtain ⟨state', hfold⟩ := h
        rw [List.foldlM_cons] at hfold
        obtain ⟨next, hnext, hrest⟩ := bind_eq_ok.1 hfold
        obtain ⟨hold, rfl⟩ := (hstep next).1 hnext
        obtain ⟨hpairs, hnoted⟩ := ih.1 ⟨state', hrest⟩
        have hwith : ∀ b ∈ l, a.key = b.key → a.ensure = b.ensure := by
          intro b hb hkey
          refine hnoted b hb a.ensure ?_
          rw [getElem?_insert_eq, if_pos hkey]
        refine ⟨?_, ?_⟩
        · intro b hb c hc hkey
          rcases List.mem_cons.1 hb with rfl | hbl
          · rcases List.mem_cons.1 hc with rfl | hcl
            · rfl
            · exact hwith c hcl hkey
          · rcases List.mem_cons.1 hc with rfl | hcl
            · exact (hwith b hbl hkey.symm).symm
            · exact hpairs b hbl c hcl hkey
        · intro b hb ensure hget
          rcases List.mem_cons.1 hb with rfl | hb
          · exact hold ensure hget
          · by_cases hkey : a.key = b.key
            · rw [← hkey] at hget
              rw [hold ensure hget, hwith b hb hkey]
            · refine hnoted b hb ensure ?_
              rw [getElem?_insert_eq, if_neg hkey]
              exact hget
      · intro h
        obtain ⟨hpairs, hnoted⟩ := h
        have hrest : ∃ state', l.foldlM noteDefaultAssertion (state.insert a.key a.ensure) =
            .ok state' := by
          refine ih.2 ⟨fun b hb c hc => hpairs b (List.mem_cons_of_mem _ hb) c
            (List.mem_cons_of_mem _ hc), fun b hb ensure hget => ?_⟩
          rw [getElem?_insert_eq] at hget
          split at hget
          · next hkey =>
              rw [← Option.some.inj hget]
              exact hpairs a List.mem_cons_self b (List.mem_cons_of_mem _ hb) hkey
          · exact hnoted b (List.mem_cons_of_mem _ hb) ensure hget
        obtain ⟨state', hstate'⟩ := hrest
        refine ⟨state', ?_⟩
        rw [List.foldlM_cons, (hstep _).2 ⟨hnoted a List.mem_cons_self, rfl⟩]
        exact hstate'

/-- Noting declaration by declaration is noting all their assertions. -/
theorem noteDefaultPrivileges_eq_ok {defaultOwner : Option String} {ds : List DefaultPrivilege}
    {state state' : BTreeMap DefaultAssertionKey Ensure} :
    ds.foldlM (noteDefaultPrivilege defaultOwner) state = .ok state' ↔
      ∃ assertions, ds.mapM (defaultAssertions defaultOwner) = .ok assertions ∧
        assertions.flatten.foldlM noteDefaultAssertion state = .ok state' := by
  induction ds generalizing state with
  | nil => simp [pure, Except.pure]
  | cons d ds ih =>
      rw [List.foldlM_cons, bind_eq_ok]
      constructor
      · intro h
        obtain ⟨next, hnext, hrest⟩ := h
        obtain ⟨as, has, hnext⟩ := bind_eq_ok.1 hnext
        obtain ⟨rest, hmap, hfold⟩ := ih.1 hrest
        refine ⟨as :: rest, ?_, ?_⟩
        · rw [List.mapM_cons]
          exact bind_eq_ok.2 ⟨as, has, bind_eq_ok.2 ⟨rest, hmap, rfl⟩⟩
        · rw [List.flatten_cons, List.foldlM_append, hnext]
          exact hfold
      · intro h
        obtain ⟨assertions, hmap, hfold⟩ := h
        rw [List.mapM_cons] at hmap
        obtain ⟨as, has, hmap⟩ := bind_eq_ok.1 hmap
        obtain ⟨rest, hrest, heq⟩ := bind_eq_ok.1 hmap
        rw [← Except.ok.inj heq, List.flatten_cons, List.foldlM_append] at hfold
        obtain ⟨next, hnext, hfold⟩ := bind_eq_ok.1 hfold
        exact ⟨next, bind_eq_ok.2 ⟨as, has, hnext⟩, ih.2 ⟨rest, hrest, hfold⟩⟩

/-- Declarations in another order contradict each other no more. -/
theorem validateEnsureConflicts_perm {defaultOwner : Option String} {grants grants' : List Grant}
    {ds ds' : List DefaultPrivilege} (hgrants : grants.Perm grants') (hds : ds.Perm ds')
    (h : validateEnsureConflicts defaultOwner grants ds = .ok ()) :
    validateEnsureConflicts defaultOwner grants' ds' = .ok () := by
  obtain ⟨noted, hnoted, h⟩ := bind_eq_ok.1 h
  obtain ⟨defaults, hdefaults, -⟩ := bind_eq_ok.1 h
  have hsub : grantAssertions grants' ⊆ grantAssertions grants :=
    (hgrants.flatMap_right _).symm.subset
  obtain ⟨noted', hnoted'⟩ :=
    noteAssertions_isOk_iff.2 ((noteAssertions_isOk_iff.1 ⟨noted, hnoted⟩).subset hsub)
  obtain ⟨assertions, hmap, hfold⟩ := noteDefaultPrivileges_eq_ok.1 hdefaults
  obtain ⟨assertions', hmap', hperm⟩ := mapM_perm hds hmap
  obtain ⟨hpairs, -⟩ := noteDefaultAssertions_isOk_iff.1 ⟨defaults, hfold⟩
  have hmem : ∀ a, a ∈ assertions'.flatten → a ∈ assertions.flatten := fun a ha =>
    hperm.flatten.mem_iff.1 ha
  obtain ⟨defaults', hfold'⟩ := (@noteDefaultAssertions_isOk_iff _ ∅).2
    ⟨fun a ha b hb => hpairs a (hmem a ha) b (hmem b hb), fun a _ ensure hget => by simp at hget⟩
  exact bind_eq_ok.2 ⟨noted', hnoted', bind_eq_ok.2
    ⟨defaults', noteDefaultPrivileges_eq_ok.2 ⟨assertions', hmap', hfold'⟩, rfl⟩⟩

/-! ## Reordered manifests -/

/-- The second manifest lists the declarations of the first in another order; what the bindings
expand by is the same. -/
structure PolicyManifest.Reordered (m m' : PolicyManifest) : Prop where
  rolePattern : m.rolePattern = m'.rolePattern
  defaultOwner : m.defaultOwner = m'.defaultOwner
  profiles : m.profiles = m'.profiles
  schemas : m.schemas = m'.schemas
  roles : m.roles.Perm m'.roles
  grants : m.grants.Perm m'.grants
  defaultPrivileges : m.defaultPrivileges.Perm m'.defaultPrivileges
  memberships : m.memberships.Perm m'.memberships
  retirements : m.retirements.Perm m'.retirements

/-- The second expansion lists the declarations of the first in another order. -/
structure ExpandedManifest.Reordered (e e' : ExpandedManifest) : Prop where
  schemas : e.schemas = e'.schemas
  roles : e.roles.Perm e'.roles
  grants : e.grants.Perm e'.grants
  defaultPrivileges : e.defaultPrivileges.Perm e'.defaultPrivileges
  memberships : e.memberships.Perm e'.memberships

section Reordered

variable {m m' : PolicyManifest} {e e' : ExpandedManifest}

theorem validateBounds_reordered (h : m.Reordered m') (hok : validateBounds m = .ok ()) :
    validateBounds m' = .ok () := by
  unfold validateBounds at hok ⊢
  rw [h.rolePattern, h.defaultOwner, h.profiles, h.schemas, h.roles.length_eq,
    h.grants.length_eq, h.defaultPrivileges.length_eq, h.memberships.length_eq,
    h.retirements.length_eq] at hok
  simp only [check_bind_eq_ok] at hok ⊢
  obtain ⟨h₁, h₂, h₃, h₄, h₅, h₆, h₇, h₈, h₉, h₁₀, h₁₁, h₁₂, h₁₃, h₁₄, h₁₅, h₁₆⟩ := hok
  exact ⟨h₁, h₂, h₃, h₄, h₅, h₆, h₇, forM_perm h.roles h₈, h₉, forM_perm h.grants h₁₀, h₁₁,
    forM_perm h.defaultPrivileges h₁₂, h₁₃, forM_perm h.memberships h₁₄, h₁₅,
    forM_perm h.retirements h₁₆⟩

theorem expandBindings_reordered (h : m.Reordered m') : expandBindings m = expandBindings m' := by
  unfold expandBindings expandProfile bindingPattern profileDefaultPrivileges
  simp only [h.rolePattern, h.defaultOwner, h.profiles, h.schemas]

theorem mergeExpansions_reordered (h : m.Reordered m') (expansions : List ProfileExpansion) :
    (mergeExpansions m expansions).Reordered (mergeExpansions m' expansions) := by
  unfold mergeExpansions
  refine ⟨?_, h.roles.append_left _, h.grants.append_left _, ?_, h.memberships⟩
  · simp only [h.schemas, h.defaultOwner]
  · simp only [h.defaultOwner]
    exact (h.defaultPrivileges.append_left _).map _

theorem validateExclusive_reordered (h : m.Reordered m') (membership : Membership) :
    validateExclusive m membership = validateExclusive m' membership := by
  have hcontains : (externalNames m.roles).contains membership.role =
      (externalNames m'.roles).contains membership.role := by
    rw [Bool.eq_iff_iff, List.contains_iff_mem, List.contains_iff_mem]
    exact ((h.roles.filter _).map _).mem_iff
  rw [validateExclusive, validateExclusive, hcontains]

theorem validateConfigEntry_reordered (he : e.Reordered e') (role : RoleDefinition)
    (entry : String × String) :
    validateConfigEntry (e.roles.map (·.name)) e.memberships role entry =
      validateConfigEntry (e'.roles.map (·.name)) e'.memberships role entry := by
  have hnames : (e.roles.map (·.name)).contains entry.2 =
      (e'.roles.map (·.name)).contains entry.2 := by
    rw [Bool.eq_iff_iff, List.contains_iff_mem, List.contains_iff_mem]
    exact (he.roles.map _).mem_iff
  have hmember : declaresMember e.memberships entry.2 role.name =
      declaresMember e'.memberships entry.2 role.name := he.memberships.any_eq
  rw [validateConfigEntry, validateConfigEntry, hnames, hmember]

theorem validatePublicReservation_reordered (h : m.Reordered m') (he : e.Reordered e')
    (hok : validatePublicReservation m e.roles e.schemas e.defaultPrivileges e.memberships =
      .ok ()) :
    validatePublicReservation m' e'.roles e'.schemas e'.defaultPrivileges e'.memberships =
      .ok () := by
  unfold validatePublicReservation at hok ⊢
  rw [h.defaultOwner, he.schemas] at hok
  obtain ⟨howner, hok⟩ := check_bind_eq_ok.1 hok
  obtain ⟨hroles, hok⟩ := check_bind_eq_ok.1 hok
  obtain ⟨hschemas, hok⟩ := check_bind_eq_ok.1 hok
  obtain ⟨hdefaults, hok⟩ := check_bind_eq_ok.1 hok
  obtain ⟨hmemberships, hretirements⟩ := check_bind_eq_ok.1 hok
  exact check_bind_eq_ok.2 ⟨howner, check_bind_eq_ok.2 ⟨forM_perm he.roles hroles,
    check_bind_eq_ok.2 ⟨hschemas, check_bind_eq_ok.2 ⟨forM_perm he.defaultPrivileges hdefaults,
      check_bind_eq_ok.2 ⟨forM_perm he.memberships hmemberships,
        forM_perm h.retirements hretirements⟩⟩⟩⟩⟩

/-- A reordered expansion passes the same checks. -/
theorem validateExpanded_reordered (h : m.Reordered m') (he : e.Reordered e')
    (hok : validateExpanded m e = .ok ()) : validateExpanded m' e' = .ok () := by
  unfold validateExpanded at hok ⊢
  obtain ⟨hpublic, hok⟩ := check_bind_eq_ok.1 hok
  obtain ⟨hdatabase, hok⟩ := check_bind_eq_ok.1 hok
  obtain ⟨hscopes, hok⟩ := check_bind_eq_ok.1 hok
  obtain ⟨hconflicts, hok⟩ := check_bind_eq_ok.1 hok
  obtain ⟨hduplicates, hok⟩ := check_bind_eq_ok.1 hok
  obtain ⟨hretirements, hok⟩ := check_bind_eq_ok.1 hok
  obtain ⟨hpasswords, hok⟩ := check_bind_eq_ok.1 hok
  obtain ⟨htimestamps, hconfigs⟩ := check_bind_eq_ok.1 hok
  have hnames := he.roles.map (·.name)
  refine check_bind_eq_ok.2 ⟨validatePublicReservation_reordered h he hpublic,
    check_bind_eq_ok.2 ⟨?_, check_bind_eq_ok.2 ⟨forM_perm he.defaultPrivileges hscopes,
    check_bind_eq_ok.2 ⟨?_, check_bind_eq_ok.2 ⟨?_, check_bind_eq_ok.2 ⟨?_,
    check_bind_eq_ok.2 ⟨forM_perm he.roles hpasswords,
    check_bind_eq_ok.2 ⟨forM_perm he.roles htimestamps, ?_⟩⟩⟩⟩⟩⟩⟩⟩
  · unfold validateDatabaseGrantTargets at hdatabase ⊢
    rw [← he.grants.any_eq]
    exact hdatabase
  · rw [← h.defaultOwner]
    exact validateEnsureConflicts_perm he.grants he.defaultPrivileges hconflicts
  · rw [rejectDuplicates_nil_eq_ok] at hduplicates ⊢
    exact hnames.nodup_iff.1 hduplicates
  · rw [validateRetirements_eq_ok] at hretirements ⊢
    obtain ⟨hnodup, -, hfits⟩ := hretirements
    refine ⟨(h.retirements.map _).nodup_iff.1 hnodup, fun r _ => List.not_mem_nil, ?_⟩
    intro r hr
    obtain ⟨hnot, hother⟩ := hfits r (h.retirements.mem_iff.2 hr)
    exact ⟨fun hmem => hnot (hnames.mem_iff.2 hmem), hother⟩
  · refine forM_eq_ok.2 fun role hrole => ?_
    have hconfig := forM_eq_ok.1 hconfigs role (he.roles.mem_iff.2 hrole)
    refine forM_eq_ok.2 fun entry hentry => ?_
    rw [← validateConfigEntry_reordered he]
    exact forM_eq_ok.1 hconfig entry hentry

/-- A manifest in another order is accepted, with its expansion in another order. -/
theorem expandManifest_reordered (h : m.Reordered m') (hok : expandManifest m = .ok e) :
    ∃ e', expandManifest m' = .ok e' ∧ e.Reordered e' := by
  obtain ⟨expansions, hbounds, hpredefined, hexclusive, hschemas, hexpansions, hroles, hvalid,
    rfl⟩ := of_expandManifest_eq_ok hok
  have he := mergeExpansions_reordered h expansions
  refine ⟨mergeExpansions m' expansions, ?_, he⟩
  refine check_bind_eq_ok.2 ⟨validateBounds_reordered h hbounds, check_bind_eq_ok.2
    ⟨forM_perm h.roles hpredefined, check_bind_eq_ok.2 ⟨?_, check_bind_eq_ok.2 ⟨?_,
    bind_eq_ok.2 ⟨expansions, ?_, check_bind_eq_ok.2 ⟨forM_perm h.defaultPrivileges hroles,
    check_bind_eq_ok.2 ⟨validateExpanded_reordered h he hvalid, rfl⟩⟩⟩⟩⟩⟩⟩
  · refine forM_eq_ok.2 fun membership hmembership => ?_
    rw [← validateExclusive_reordered h]
    exact forM_eq_ok.1 hexclusive membership (h.memberships.mem_iff.2 hmembership)
  · rw [← h.schemas]
    exact hschemas
  · rw [← expandBindings_reordered h]
    exact hexpansions

/-- Role names are declared once. -/
theorem nodup_roles_of_expandManifest (hok : expandManifest m = .ok e) :
    (e.roles.map (·.name)).Nodup := by
  exact rejectDuplicates_nil_eq_ok.1 (expandedChecks_of_expandManifest hok).duplicate_roles

theorem ofList_set_eq_of_perm {K : Type} [Ord K] [TransOrd K] [LawfulEqOrd K] [DecidableEq K]
    {l l' : List K} (h : l.Perm l') :
    ExtTreeSet.ofList l compare = ExtTreeSet.ofList l' compare := by
  refine ExtTreeSet.ext_mem fun k => ?_
  rw [ExtTreeSet.mem_ofList, ExtTreeSet.mem_ofList, List.contains_iff_mem, List.contains_iff_mem,
    h.mem_iff]

/-- Both orders have one desired graph. -/
theorem fromExpanded_reordered {defaultOwner : Option String} {g : RoleGraph}
    (he : e.Reordered e') (hnodup : (e.roles.map (·.name)).Nodup)
    (hok : RoleGraph.fromExpanded e defaultOwner = .ok g) :
    RoleGraph.fromExpanded e' defaultOwner = .ok g := by
  obtain ⟨entries, hentries, rfl⟩ := of_fromExpanded_eq_ok hok
  obtain ⟨entries', hentries', hperm⟩ := mapM_perm he.defaultPrivileges hentries
  refine bind_eq_ok.2 ⟨entries', hentries', congrArg Except.ok ?_⟩
  have hgrants : ∀ ensure, extendEntries ∅ (grantEntries ensure e'.grants) =
      extendEntries ∅ (grantEntries ensure e.grants) := fun ensure =>
    extendEntries_perm ((he.grants.filter _).map _).symm ∅
  have hdefaults : ∀ ensure, extendEntries ∅ (entriesWith ensure entries'.flatten) =
      extendEntries ∅ (entriesWith ensure entries.flatten) := fun ensure =>
    extendEntries_perm ((hperm.flatten.filter _).map _) ∅
  have hroles : ExtTreeMap.ofList
      (e'.roles.map fun d => (d.name, RoleState.fromDefinition d)) compare =
      ExtTreeMap.ofList (e.roles.map fun d => (d.name, RoleState.fromDefinition d)) compare := by
    refine (ofList_eq_of_perm ?_ (he.roles.map _)).symm
    rw [List.map_map]
    exact hnodup
  have hmemberships : ExtTreeSet.ofList (membershipEdges e'.memberships) compare =
      ExtTreeSet.ofList (membershipEdges e.memberships) compare :=
    ofList_set_eq_of_perm (he.memberships.flatMap_right _).symm
  have hexclusive :
      ExtTreeSet.ofList ((e'.memberships.filter (·.exclusive)).map (·.role)) compare =
        ExtTreeSet.ofList ((e.memberships.filter (·.exclusive)).map (·.role)) compare :=
    ofList_set_eq_of_perm ((he.memberships.filter _).map _).symm
  rw [hroles, hgrants, hgrants, hdefaults, hdefaults, hmemberships, hexclusive, he.schemas]

end Reordered

end PgRoles.Core

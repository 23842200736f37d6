import PgRoles.Lib.BTree
import PgRoles.Lib.Check

/-!
# Claims on keys

A register gives each key one owner. A claim on a key that has an owner fails, also when the two
owners are the same; so a sequence of claims succeeds exactly when no key is claimed twice
(`claimEach_eq_ok`). That condition does not mention the order of the claims, and neither does the
register they leave behind (`ofList_eq_of_perm`).
-/

set_option autoImplicit false

namespace PgRoles.Lib

open Std

universe u

section Registers

variable {ε O K : Type} [Ord K] [TransOrd K] [LawfulEqOrd K]

omit [LawfulEqOrd K] in
/-- Claim a key for an owner. -/
def claim (error : K → O → O → ε) (register : BTreeMap K O) (c : K × O) :
    Except ε (BTreeMap K O) :=
  match register[c.1]? with
  | some first => .error (error c.1 first c.2)
  | none => .ok (register.insert c.1 c.2)

omit [LawfulEqOrd K] in
theorem claim_eq_ok {error : K → O → O → ε} {register register' : BTreeMap K O} {c : K × O} :
    claim error register c = .ok register' ↔
      c.1 ∉ register ∧ register' = register.insert c.1 c.2 := by
  unfold claim
  cases hc : register[c.1]? with
  | some first =>
      have hmem : c.1 ∈ register := mem_iff_exists_getElem?.2 ⟨first, hc⟩
      simp [hmem]
  | none =>
      have hmem : c.1 ∉ register := not_mem_iff_getElem?.2 hc
      simp only [Except.ok.injEq, hmem, not_false_eq_true, true_and]
      exact eq_comm

/-- Claims succeed when the keys are new and none is claimed twice; the register then holds each
claim. -/
theorem claimEach_eq_ok {error : K → O → O → ε} {claims : List (K × O)}
    {register register' : BTreeMap K O} :
    claims.foldlM (claim error) register = .ok register' ↔
      (claims.map Prod.fst).Nodup ∧ (∀ c ∈ claims, c.1 ∉ register) ∧
        register' = register.insertMany claims := by
  induction claims generalizing register with
  | nil =>
      rw [List.foldlM_nil, ExtTreeMap.insertMany_nil]
      simp only [pure, Except.pure, Except.ok.injEq, List.map_nil, List.nodup_nil,
        List.not_mem_nil, false_implies, implies_true, true_and]
      exact eq_comm
  | cons c claims ih =>
      rw [List.foldlM_cons, bind_eq_ok, List.map_cons, List.nodup_cons, List.forall_mem_cons,
        ExtTreeMap.insertMany_cons]
      constructor
      · intro h
        obtain ⟨next, hclaim, hrest⟩ := h
        obtain ⟨hnew, rfl⟩ := claim_eq_ok.1 hclaim
        obtain ⟨hnodup, hfresh, hregister⟩ := ih.1 hrest
        have hapart : ∀ d ∈ claims, d.1 ≠ c.1 ∧ d.1 ∉ register := by
          intro d hd
          have hd := hfresh d hd
          rw [ExtTreeMap.mem_insert, compare_eq_iff, not_or] at hd
          exact ⟨fun h => hd.1 h.symm, hd.2⟩
        refine ⟨⟨?_, hnodup⟩, ⟨hnew, fun d hd => (hapart d hd).2⟩, hregister⟩
        intro hmem
        obtain ⟨d, hd, heq⟩ := List.mem_map.1 hmem
        exact (hapart d hd).1 heq
      · intro h
        obtain ⟨⟨hapart, hnodup⟩, ⟨hnew, hfresh⟩, hregister⟩ := h
        refine ⟨_, claim_eq_ok.2 ⟨hnew, rfl⟩, ih.2 ⟨hnodup, ?_, hregister⟩⟩
        intro d hd
        rw [ExtTreeMap.mem_insert, compare_eq_iff, not_or]
        exact ⟨fun h => hapart (List.mem_map.2 ⟨d, hd, h.symm⟩), hfresh d hd⟩

/-- From an empty register only the keys of the claims matter. -/
theorem claimEach_empty_eq_ok {error : K → O → O → ε} {claims : List (K × O)}
    {register : BTreeMap K O} :
    claims.foldlM (claim error) ∅ = .ok register ↔
      (claims.map Prod.fst).Nodup ∧ register = ExtTreeMap.ofList claims compare := by
  rw [claimEach_eq_ok, ExtTreeMap.ofList_eq_insertMany_empty]
  constructor
  · intro h
    exact ⟨h.1, h.2.2⟩
  · intro h
    exact ⟨h.1, fun c _ => ExtTreeMap.not_mem_empty, h.2⟩

end Registers

/-- A key without a second claim comes from one claimant. -/
theorem eq_of_nodup_flatMap {A B : Type} {l : List A} {f : A → List B}
    (hnodup : (l.flatMap f).Nodup) {a a' : A} (ha : a ∈ l) (ha' : a' ∈ l) {b : B} (hb : b ∈ f a)
    (hb' : b ∈ f a') : a = a' := by
  by_contra hne
  have hpairwise := (List.nodup_flatMap.1 hnodup).2
  have hsymm : Std.Symm (Function.onFun List.Disjoint f) := ⟨fun _ _ h => List.Disjoint.symm h⟩
  exact hpairwise.forall ha ha' hne hb hb'

/-! ## Maps from lists without repeated keys -/

section Lists

variable {K : Type u} {V : Type u} [Ord K] [TransOrd K] [LawfulEqOrd K]

/-- Without repeated keys a map built from a list holds exactly the pairs of the list. -/
theorem getElem?_ofList_iff {l : List (K × V)} (hnodup : (l.map Prod.fst).Nodup) {k : K} {v : V} :
    (ExtTreeMap.ofList l compare)[k]? = some v ↔ (k, v) ∈ l := by
  constructor
  · exact mem_of_getElem?_ofList
  · intro h
    obtain ⟨v', hv'⟩ := exists_getElem?_ofList h
    have hmem := mem_of_getElem?_ofList hv'
    have hsame : (k, v') = (k, v) := List.inj_on_of_nodup_map hnodup hmem h rfl
    rw [hv', (Prod.mk.inj hsame).2]

theorem mem_ofList_iff {l : List (K × V)} {k : K} :
    k ∈ ExtTreeMap.ofList l compare ↔ k ∈ l.map Prod.fst := by
  rw [mem_iff_exists_getElem?, List.mem_map]
  constructor
  · intro h
    obtain ⟨v, hv⟩ := h
    exact ⟨(k, v), mem_of_getElem?_ofList hv, rfl⟩
  · intro h
    obtain ⟨⟨k', v⟩, hmem, rfl⟩ := h
    exact exists_getElem?_ofList hmem

/-- Without repeated keys the order of the list does not matter. -/
theorem ofList_eq_of_perm {l l' : List (K × V)} (hnodup : (l.map Prod.fst).Nodup)
    (hperm : l.Perm l') : ExtTreeMap.ofList l compare = ExtTreeMap.ofList l' compare := by
  have hnodup' : (l'.map Prod.fst).Nodup := (hperm.map Prod.fst).nodup_iff.1 hnodup
  refine ExtTreeMap.ext_getElem? fun k => Option.ext fun v => ?_
  rw [getElem?_ofList_iff hnodup, getElem?_ofList_iff hnodup', hperm.mem_iff]

end Lists

end PgRoles.Lib

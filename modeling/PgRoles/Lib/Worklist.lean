import Mathlib.Data.Finset.Card
import Mathlib.Logic.Relation
import PgRoles.Lib.BTree

/-!
# Breadth-first search over a finite universe

A worklist search keeps the elements seen so far and a queue of those whose successors are still to
be looked at. The bound on its steps is a fuel argument; one step more than the universe is large
is enough, since an element enters the queue once. The search then sees exactly what the successor
function reaches (`mem_reachFrom_iff`).
-/

set_option autoImplicit false

universe u

namespace PgRoles.Lib

open Std

section Worklist

variable {K : Type u} [Ord K] [TransOrd K]

/-- Note a successor: it enters the queue when it is seen for the first time. -/
def enqueue (acc : BTreeSet K × List K) (k : K) : BTreeSet K × List K :=
  if acc.1.contains k then acc else (acc.1.insert k, acc.2 ++ [k])

/-- Take elements off the queue until it is empty. -/
def worklist (next : K → List K) : Nat → List K → BTreeSet K → BTreeSet K
  | 0, _, seen => seen
  | _ + 1, [], seen => seen
  | fuel + 1, k :: queue, seen =>
      let step := (next k).foldl enqueue (seen, queue)
      worklist next fuel step.2 step.1

/-- Search from one element. -/
def reachFrom (next : K → List K) (fuel : Nat) (start : K) : BTreeSet K :=
  worklist next fuel [start] ((∅ : BTreeSet K).insert start)

variable [LawfulEqOrd K]

/-- What a fold over successors sees: the earlier elements and the successors. -/
theorem mem_foldl_enqueue {l : List K} {acc : BTreeSet K × List K} {a : K} :
    a ∈ (l.foldl enqueue acc).1 ↔ a ∈ acc.1 ∨ a ∈ l := by
  induction l generalizing acc with
  | nil => simp
  | cons k l ih =>
    rw [List.foldl_cons, ih, List.mem_cons]
    by_cases hk : acc.1.contains k = true
    · rw [enqueue, if_pos hk]
      constructor
      · rintro (h | h)
        · exact Or.inl h
        · exact Or.inr (Or.inr h)
      · rintro (h | rfl | h)
        · exact Or.inl h
        · exact Or.inl (ExtTreeSet.mem_iff_contains.2 hk)
        · exact Or.inr h
    · rw [enqueue, if_neg hk, mem_insert_iff]
      constructor
      · rintro ((rfl | h) | h)
        · exact Or.inr (Or.inl rfl)
        · exact Or.inl h
        · exact Or.inr (Or.inr h)
      · rintro (h | rfl | h)
        · exact Or.inl (Or.inr h)
        · exact Or.inl (Or.inl rfl)
        · exact Or.inr h

/-- What a fold over successors queues is old, or a successor that was not seen. -/
theorem mem_queue_foldl_enqueue {l : List K} {acc : BTreeSet K × List K} {a : K} :
    a ∈ (l.foldl enqueue acc).2 ↔ a ∈ acc.2 ∨ a ∈ l ∧ a ∉ acc.1 := by
  induction l generalizing acc with
  | nil => simp
  | cons k l ih =>
    rw [List.foldl_cons, ih, List.mem_cons]
    by_cases hk : acc.1.contains k = true
    · rw [enqueue, if_pos hk]
      have hmem : k ∈ acc.1 := ExtTreeSet.mem_iff_contains.2 hk
      constructor
      · rintro (h | ⟨h, hn⟩)
        · exact Or.inl h
        · exact Or.inr ⟨Or.inr h, hn⟩
      · rintro (h | ⟨rfl | h, hn⟩)
        · exact Or.inl h
        · exact absurd hmem hn
        · exact Or.inr ⟨h, hn⟩
    · rw [enqueue, if_neg hk]
      have hmem : k ∉ acc.1 := fun h => hk (ExtTreeSet.mem_iff_contains.1 h)
      simp only [List.mem_append, List.mem_singleton, mem_insert_iff, not_or]
      constructor
      · rintro ((h | rfl) | ⟨h, -, hn⟩)
        · exact Or.inl h
        · exact Or.inr ⟨Or.inl rfl, hmem⟩
        · exact Or.inr ⟨Or.inr h, hn⟩
      · rintro (h | ⟨rfl | h, hn⟩)
        · exact Or.inl (Or.inl h)
        · exact Or.inl (Or.inr rfl)
        · by_cases hak : k = a
          · exact Or.inl (Or.inr hak.symm)
          · exact Or.inr ⟨h, hak, hn⟩

/-! ## The search reaches no more -/

theorem worklist_sound (next : K → List K) {start : K} :
    ∀ (fuel : Nat) (queue : List K) (seen : BTreeSet K), (∀ a ∈ queue, a ∈ seen) →
      (∀ a ∈ seen, Relation.ReflTransGen (fun a b => b ∈ next a) start a) →
      ∀ a ∈ worklist next fuel queue seen,
        Relation.ReflTransGen (fun a b => b ∈ next a) start a
  | 0, _, _, _, hseen => hseen
  | _ + 1, [], _, _, hseen => hseen
  | fuel + 1, k :: queue, seen, hqueue, hseen => by
    refine worklist_sound next fuel _ _ ?_ ?_
    · intro a ha
      rw [mem_foldl_enqueue]
      obtain h | ⟨h, -⟩ := mem_queue_foldl_enqueue.1 ha
      · exact Or.inl (hqueue a (List.mem_cons_of_mem _ h))
      · exact Or.inr h
    · intro a ha
      obtain h | h := mem_foldl_enqueue.1 ha
      · exact hseen a h
      · exact (hseen k (hqueue k List.mem_cons_self)).tail h

/-! ## The search reaches all -/

theorem subset_worklist (next : K → List K) :
    ∀ (fuel : Nat) (queue : List K) (seen : BTreeSet K), ∀ a ∈ seen,
      a ∈ worklist next fuel queue seen
  | 0, _, _, _, ha => ha
  | _ + 1, [], _, _, ha => ha
  | fuel + 1, _ :: _, _, a, ha =>
      subset_worklist next fuel _ _ a (mem_foldl_enqueue.2 (Or.inl ha))

variable [DecidableEq K]

/-- The elements of a finite universe that are still unseen. -/
def unseen (domain : Finset K) (seen : BTreeSet K) : Finset K :=
  domain.filter fun k => seen.contains k = false

/-- Seeing an element of the universe for the first time leaves one unseen element less. -/
theorem card_unseen_insert {domain : Finset K} {seen : BTreeSet K} {k : K} (hk : k ∈ domain)
    (hnew : seen.contains k = false) :
    (unseen domain (seen.insert k)).card + 1 = (unseen domain seen).card := by
  have herase : unseen domain (seen.insert k) = (unseen domain seen).erase k := by
    ext a
    simp only [unseen, Finset.mem_filter, Finset.mem_erase, contains_eq_false_iff, mem_insert_iff,
      not_or]
    constructor
    · rintro ⟨ha, hne, hn⟩
      exact ⟨Ne.symm hne, ha, hn⟩
    · rintro ⟨hne, ha, hn⟩
      exact ⟨ha, Ne.symm hne, hn⟩
  have hmem : k ∈ unseen domain seen := Finset.mem_filter.2 ⟨hk, hnew⟩
  rw [herase, Finset.card_erase_of_mem hmem]
  have hpos := Finset.card_pos.2 ⟨k, hmem⟩
  omega

/-- Noting successors moves elements from the unseen to the queue. -/
theorem potential_foldl_enqueue {domain : Finset K} {l : List K} (hl : ∀ a ∈ l, a ∈ domain)
    (acc : BTreeSet K × List K) :
    (l.foldl enqueue acc).2.length + (unseen domain (l.foldl enqueue acc).1).card =
      acc.2.length + (unseen domain acc.1).card := by
  induction l generalizing acc with
  | nil => rfl
  | cons k l ih =>
    rw [List.foldl_cons, ih fun a ha => hl a (List.mem_cons_of_mem _ ha)]
    cases hk : acc.1.contains k with
    | true => rw [enqueue, if_pos hk]
    | false =>
      have hcard := card_unseen_insert (hl k List.mem_cons_self) hk
      rw [enqueue, if_neg (by simp [hk])]
      dsimp only
      rw [List.length_append, List.length_singleton]
      omega

/-- With enough fuel the search ends with an empty queue: what it has seen is closed. -/
theorem worklist_closed (next : K → List K) {domain : Finset K}
    (hnext : ∀ a, ∀ b ∈ next a, b ∈ domain) :
    ∀ (fuel : Nat) (queue : List K) (seen : BTreeSet K),
      queue.length + (unseen domain seen).card ≤ fuel →
      (∀ a ∈ seen, a ∉ queue → ∀ b ∈ next a, b ∈ seen) →
      ∀ a ∈ worklist next fuel queue seen, ∀ b ∈ next a, b ∈ worklist next fuel queue seen
  | 0, queue, seen, hfuel, hclosed => by
    have hempty : queue = [] := List.length_eq_zero_iff.1 (by omega)
    subst hempty
    exact fun a ha => hclosed a ha List.not_mem_nil
  | _ + 1, [], _, _, hclosed => fun a ha => hclosed a ha List.not_mem_nil
  | fuel + 1, k :: queue, seen, hfuel, hclosed => by
    refine worklist_closed next hnext fuel _ _ ?_ ?_
    · rw [potential_foldl_enqueue (hnext k)]
      rw [List.length_cons] at hfuel
      dsimp only
      omega
    · -- an element outside the new queue was looked at before, or just now
      intro a ha hqueue b hb
      rw [mem_queue_foldl_enqueue, not_or] at hqueue
      rw [mem_foldl_enqueue] at ha ⊢
      by_cases hak : a = k
      · exact Or.inr (hak ▸ hb)
      · have hseen : a ∈ seen := by
          obtain h | h := ha
          · exact h
          · by_contra hn
            exact hqueue.2 ⟨h, hn⟩
        refine Or.inl (hclosed a hseen ?_ b hb)
        rw [List.mem_cons, not_or]
        exact ⟨hak, hqueue.1⟩

/-- The search sees exactly the elements that successor steps lead to. -/
theorem mem_reachFrom_iff {next : K → List K} {domain : Finset K}
    (hnext : ∀ a, ∀ b ∈ next a, b ∈ domain) {fuel : Nat} (hfuel : domain.card < fuel)
    {start a : K} :
    a ∈ reachFrom next fuel start ↔ Relation.ReflTransGen (fun a b => b ∈ next a) start a := by
  constructor
  · refine worklist_sound next fuel _ _ ?_ ?_ a
    · intro b hb
      exact mem_insert_iff.2 (Or.inl (List.mem_singleton.1 hb).symm)
    · intro b hb
      obtain rfl | hb := mem_insert_iff.1 hb
      · exact Relation.ReflTransGen.refl
      · exact absurd hb ExtTreeSet.not_mem_empty
  · intro h
    have hclosed := worklist_closed next hnext fuel [start] ((∅ : BTreeSet K).insert start)
      (by
        have hcard := Finset.card_filter_le domain
          fun k => ((∅ : BTreeSet K).insert start).contains k = false
        rw [List.length_singleton]
        unfold unseen
        omega)
      (by
        intro b hb hqueue
        obtain rfl | hb := mem_insert_iff.1 hb
        · exact absurd List.mem_cons_self hqueue
        · exact absurd hb ExtTreeSet.not_mem_empty)
    induction h with
    | refl => exact subset_worklist next fuel _ _ _ (mem_insert_iff.2 (Or.inl rfl))
    | tail _ hstep ih => exact hclosed _ ih _ hstep

end Worklist

end PgRoles.Lib

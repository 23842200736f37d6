import Mathlib

/-!
# Bounded retention with an age floor

Objects are listed oldest first, and those inside an age floor follow those outside it. A walk
removes from the front until a count is met, sparing what is inside the floor unless more than a
ceiling would stay (`evictOldest`). It removes a prefix, whose length has a closed form
(`evictOldest_eq_take`), and from it follow the bounds on what stays (`evictOldest_retains`).
-/

set_option autoImplicit false

namespace PgRoles.Lib

universe u

section Retention

variable {α : Type u} (keep ceiling : Nat) (inside : α → Bool)

/-- Remove from the front; `remaining` objects are left so far. -/
def evictOldest : Nat → List α → List α
  | _, [] => []
  | remaining, a :: rest =>
      if remaining ≤ keep then []
      else if inside a && decide (remaining ≤ ceiling) then evictOldest remaining rest
      else a :: evictOldest (remaining - 1) rest

/-- How many of `n` objects go, of which the first `outside` are outside the floor. -/
def evictedCount (outside n : Nat) : Nat := max (min outside (n - keep)) (n - ceiling)

/-- What a removal leaves: it takes a prefix, the count and the ceiling hold, beyond the count only
objects inside the floor stay, and one inside the floor goes only over the ceiling. -/
structure Retains (all evicted kept : List α) : Prop where
  split : all = evicted ++ kept
  atLeast : min keep all.length ≤ kept.length
  atMost : kept.length ≤ min all.length ceiling
  spared : keep < kept.length → ∀ a ∈ kept.take (kept.length - keep), inside a = true
  forced : ∀ i a, evicted[i]? = some a → inside a = true → ceiling < all.length - i

variable {keep ceiling inside}

/-- Once the ceiling holds, nothing inside the floor is removed. -/
theorem evictOldest_spared {remaining : Nat} (hceiling : remaining ≤ ceiling) {l : List α}
    (hinside : ∀ a ∈ l, inside a = true) : evictOldest keep ceiling inside remaining l = [] := by
  induction l with
  | nil => rfl
  | cons a l ih =>
    unfold evictOldest
    split_ifs with hkeep hspare
    · rfl
    · exact ih fun b hb => hinside b (List.mem_cons_of_mem _ hb)
    · exact absurd (by simp [hinside a List.mem_cons_self, hceiling]) hspare

/-- Of objects inside the floor, those over the ceiling go. -/
theorem evictOldest_inside (hle : keep ≤ ceiling) {l : List α}
    (hinside : ∀ a ∈ l, inside a = true) :
    evictOldest keep ceiling inside l.length l = l.take (l.length - ceiling) := by
  induction l with
  | nil => simp [evictOldest]
  | cons a l ih =>
    have hrest : ∀ b ∈ l, inside b = true := fun b hb => hinside b (List.mem_cons_of_mem _ hb)
    have hlength : (a :: l).length = l.length + 1 := rfl
    by_cases hceiling : (a :: l).length ≤ ceiling
    · rw [evictOldest_spared hceiling hinside, Nat.sub_eq_zero_of_le hceiling, List.take_zero]
    · obtain ⟨m, hm⟩ : ∃ m, (a :: l).length - ceiling = m + 1 := ⟨l.length - ceiling, by omega⟩
      have hsame : l.length - ceiling = m := by omega
      unfold evictOldest
      have hgoes : ¬ (inside a && decide ((a :: l).length ≤ ceiling)) = true := by
        rw [Bool.and_eq_true, decide_eq_true_eq]
        omega
      rw [if_neg (by omega), if_neg hgoes, hm, List.take_succ_cons, hlength, Nat.add_sub_cancel,
        ih hrest, hsame]

/-- The walk removes a prefix of the length `evictedCount`. -/
theorem evictOldest_append (hle : keep ≤ ceiling) {outer inner : List α}
    (houter : ∀ a ∈ outer, inside a = false) (hinner : ∀ a ∈ inner, inside a = true) :
    evictOldest keep ceiling inside (outer ++ inner).length (outer ++ inner) =
      (outer ++ inner).take (evictedCount keep ceiling outer.length (outer ++ inner).length) := by
  induction outer with
  | nil =>
    rw [List.nil_append, evictOldest_inside hle hinner, evictedCount, List.length_nil, Nat.zero_min,
      Nat.zero_max]
  | cons a outer ih =>
    have hlength : (a :: outer ++ inner).length = (outer ++ inner).length + 1 := rfl
    have hrest := ih fun b hb => houter b (List.mem_cons_of_mem _ hb)
    rw [List.cons_append, evictOldest]
    split_ifs with hkeep hspare
    · have hzero : evictedCount keep ceiling (a :: outer).length (a :: (outer ++ inner)).length =
          0 := by
        unfold evictedCount
        omega
      rw [hzero, List.take_zero]
    · rw [houter a List.mem_cons_self, Bool.false_and] at hspare
      cases hspare
    · have hsucc : evictedCount keep ceiling (a :: outer).length (a :: (outer ++ inner)).length =
          evictedCount keep ceiling outer.length (outer ++ inner).length + 1 := by
        have houterLength : (a :: outer).length = outer.length + 1 := rfl
        have hlength : (a :: (outer ++ inner)).length = (outer ++ inner).length + 1 := rfl
        unfold evictedCount
        omega
      rw [hsucc, List.take_succ_cons, ← hrest]
      rfl

/-- The objects outside the floor come first. -/
abbrev FloorSorted (inside : α → Bool) (l : List α) : Prop :=
  l.Pairwise fun a b => inside a = true → inside b = true

/-- The number of objects outside the floor. -/
def outsideCount (inside : α → Bool) (l : List α) : Nat := l.countP fun a => !inside a

theorem outsideCount_le (inside : α → Bool) (l : List α) : outsideCount inside l ≤ l.length :=
  List.countP_le_length

/-- A list sorted by the floor splits into what is outside and what is inside. -/
theorem FloorSorted.exists_split {l : List α} (h : FloorSorted inside l) :
    ∃ outer inner, l = outer ++ inner ∧ outer.length = outsideCount inside l ∧
      (∀ a ∈ outer, inside a = false) ∧ ∀ a ∈ inner, inside a = true := by
  induction l with
  | nil => exact ⟨[], [], rfl, rfl, nofun, nofun⟩
  | cons a l ih =>
    obtain ⟨hhead, htail⟩ := List.pairwise_cons.1 h
    cases ha : inside a with
    | true =>
      have hall : ∀ b ∈ a :: l, inside b = true :=
        List.forall_mem_cons.2 ⟨ha, fun b hb => hhead b hb ha⟩
      refine ⟨[], a :: l, rfl, ?_, nofun, hall⟩
      exact (List.countP_eq_zero.2 fun b hb => by simp [hall b hb]).symm
    | false =>
      obtain ⟨outer, inner, rfl, hlength, houter, hinner⟩ := ih htail
      refine ⟨a :: outer, inner, rfl, ?_, List.forall_mem_cons.2 ⟨ha, houter⟩, hinner⟩
      rw [List.length_cons, hlength, outsideCount, outsideCount,
        List.countP_cons_of_pos (by simp [ha])]

theorem evictOldest_eq_take (hle : keep ≤ ceiling) {l : List α} (h : FloorSorted inside l) :
    evictOldest keep ceiling inside l.length l =
      l.take (evictedCount keep ceiling (outsideCount inside l) l.length) := by
  obtain ⟨outer, inner, hsplit, hlength, houter, hinner⟩ := h.exists_split
  rw [← hlength, hsplit]
  exact evictOldest_append hle houter hinner

/-- What is beyond the first objects, as many as are outside the floor, is inside it. -/
theorem FloorSorted.inside_of_getElem? {l : List α} (h : FloorSorted inside l) {i : Nat} {a : α}
    (ha : l[i]? = some a) : inside a = true ↔ outsideCount inside l ≤ i := by
  obtain ⟨outer, inner, hsplit, hlength, houter, hinner⟩ := h.exists_split
  rw [← hlength]
  rw [hsplit] at ha
  by_cases hi : i < outer.length
  · rw [List.getElem?_append_left hi] at ha
    have hfalse := houter a (List.mem_of_getElem? ha)
    rw [hfalse]
    exact ⟨nofun, fun hle => absurd hle (by omega)⟩
  · rw [List.getElem?_append_right (by omega)] at ha
    exact ⟨fun _ => by omega, fun _ => hinner a (List.mem_of_getElem? ha)⟩

/-- The bounds hold of what the walk leaves. -/
theorem evictOldest_retains (hle : keep ≤ ceiling) {l : List α} (h : FloorSorted inside l) :
    ∃ kept, Retains keep ceiling inside l (evictOldest keep ceiling inside l.length l) kept := by
  have houtside := outsideCount_le inside l
  rw [evictOldest_eq_take hle h]
  generalize hcount : evictedCount keep ceiling (outsideCount inside l) l.length = k
  unfold evictedCount at hcount
  have hk : k ≤ l.length := by omega
  refine ⟨l.drop k, (List.take_append_drop k l).symm, ?_, ?_, fun hmore a ha => ?_,
    fun i a ha hin => ?_⟩
  · rw [List.length_drop]
    omega
  · rw [List.length_drop]
    omega
  · rw [List.length_drop] at hmore
    obtain ⟨i, hi⟩ := List.mem_iff_getElem?.1 (List.mem_of_mem_take ha)
    rw [List.getElem?_drop] at hi
    -- more than the count stays only if everything outside the floor is gone
    exact (h.inside_of_getElem? hi).2 (by omega)
  · rw [List.getElem?_take] at ha
    split_ifs at ha with hi
    have hfirst := (h.inside_of_getElem? ha).1 hin
    omega

end Retention

end PgRoles.Lib

import Mathlib.Data.List.Basic

/-!
# Texts with separators

Two lists cut at the first occurrence of a separator are equal part by part, and a joined list has
nothing but its parts and the separator.
-/

set_option autoImplicit false

namespace PgRoles.Lib

variable {α : Type}

/-- The parts before and after the first separator. -/
theorem append_cons_inj {c : α} {a a' r r' : List α} (ha : c ∉ a) (ha' : c ∉ a')
    (h : a ++ c :: r = a' ++ c :: r') : a = a' ∧ r = r' := by
  induction a generalizing a' with
  | nil =>
      cases a' with
      | nil => exact ⟨rfl, (List.cons.inj h).2⟩
      | cons x xs =>
          have hx : c = x := (List.cons.inj h).1
          exact absurd (hx ▸ List.mem_cons_self) ha'
  | cons x xs ih =>
      cases a' with
      | nil =>
          have hx : x = c := (List.cons.inj h).1
          exact absurd (hx ▸ List.mem_cons_self) ha
      | cons y ys =>
          obtain ⟨hxy, hrest⟩ := List.cons.inj h
          obtain ⟨hxs, hr⟩ := ih (fun hc => ha (List.mem_cons_of_mem _ hc))
            (fun hc => ha' (List.mem_cons_of_mem _ hc)) hrest
          exact ⟨by rw [hxy, hxs], hr⟩

/-- Lists with different separators differ, if neither separator occurs in the other's start. -/
theorem append_cons_ne {c d : α} {a b r s : List α} (hne : c ≠ d) (ha : d ∉ a) (hb : c ∉ b) :
    a ++ c :: r ≠ b ++ d :: s := by
  intro h
  induction a generalizing b with
  | nil =>
      cases b with
      | nil => exact hne (List.cons.inj h).1
      | cons x xs =>
          have hx : c = x := (List.cons.inj h).1
          exact hb (hx ▸ List.mem_cons_self)
  | cons x xs ih =>
      cases b with
      | nil =>
          have hx : x = d := (List.cons.inj h).1
          exact ha (hx ▸ List.mem_cons_self)
      | cons y ys =>
          exact ih (fun hc => ha (List.mem_cons_of_mem _ hc))
            (fun hc => hb (List.mem_cons_of_mem _ hc)) (List.cons.inj h).2

/-- What a joined list has, the separator has or one of the lists. -/
theorem exists_of_mem_intercalate {sep : List α} {l : List (List α)} {c : α}
    (h : c ∈ sep.intercalate l) : c ∈ sep ∨ ∃ s ∈ l, c ∈ s := by
  induction l with
  | nil => exact absurd h List.not_mem_nil
  | cons s l ih =>
      cases l with
      | nil =>
          rw [List.intercalate_singleton] at h
          exact .inr ⟨s, List.mem_cons_self, h⟩
      | cons s' l =>
          rw [List.intercalate_cons_cons, List.mem_append, List.mem_append] at h
          rcases h with (h | h) | h
          · exact .inr ⟨s, List.mem_cons_self, h⟩
          · exact .inl h
          · rcases ih h with h | ⟨t, ht, h⟩
            · exact .inl h
            · exact .inr ⟨t, List.mem_cons_of_mem s ht, h⟩

/-- A joined list has each of its parts as it is. -/
theorem infix_intercalate {sep : List α} {l : List (List α)} {s : List α} (h : s ∈ l) :
    s <:+: sep.intercalate l := by
  induction l with
  | nil => exact absurd h List.not_mem_nil
  | cons first rest ih =>
      cases rest with
      | nil =>
          rw [List.mem_singleton.1 h]
          exact ⟨[], [], by simp⟩
      | cons second rest =>
          rw [List.intercalate_cons_cons]
          rcases List.mem_cons.1 h with rfl | h
          · exact ⟨[], sep ++ sep.intercalate (second :: rest), by simp⟩
          · exact (ih h).trans (List.suffix_append _ _).isInfix

end PgRoles.Lib

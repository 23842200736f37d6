import Mathlib.Logic.Relation
import Mathlib.Data.List.Flatten

/-!
# Texts that are spelled alike

An escape replaces each character of a text by characters that stand for themselves. What the escape
makes equal are the texts that are spelled alike: one becomes the other by writing characters out as
their replacements, or back (`flatMap_eq_flatMap_iff`). The escape itself does not occur in that
relation; it steps from a text to one with a single replacement.
-/

set_option autoImplicit false

namespace PgRoles.Lib

variable {α : Type} {φ : α → List α} {s t : List α}

/-- One element of the first text is written out in the second. -/
inductive WrittenOut (φ : α → List α) : List α → List α → Prop
  | one (before : List α) (a : α) (after : List α) :
      WrittenOut φ (before ++ a :: after) (before ++ (φ a ++ after))

/-- Elements are written out or back, any number of times. -/
def SpelledAlike (φ : α → List α) : List α → List α → Prop := Relation.EqvGen (WrittenOut φ)

theorem SpelledAlike.refl (s : List α) : SpelledAlike φ s s := Relation.EqvGen.refl s

theorem WrittenOut.flatMap_eq (hφ : ∀ a, (φ a).flatMap φ = φ a) (h : WrittenOut φ s t) :
    s.flatMap φ = t.flatMap φ := by
  cases h with
  | one before a after =>
      rw [List.flatMap_append, List.flatMap_append, List.flatMap_append, List.flatMap_cons, hφ]

/-- A text is spelled like its escape. -/
theorem spelledAlike_flatMap (before s : List α) :
    SpelledAlike φ (before ++ s) (before ++ s.flatMap φ) := by
  induction s generalizing before with
  | nil => exact SpelledAlike.refl _
  | cons a s ih =>
      have hhead : SpelledAlike φ (before ++ a :: s) (before ++ φ a ++ s) := by
        rw [List.append_assoc]
        exact Relation.EqvGen.rel _ _ (WrittenOut.one before a s)
      have htail := ih (before ++ φ a)
      rw [List.append_assoc before (φ a) (s.flatMap φ), ← List.flatMap_cons] at htail
      exact Relation.EqvGen.trans _ _ _ hhead htail

/-- An escape whose replacements stand for themselves makes equal what is spelled alike. -/
theorem flatMap_eq_flatMap_iff (hφ : ∀ a, (φ a).flatMap φ = φ a) :
    s.flatMap φ = t.flatMap φ ↔ SpelledAlike φ s t := by
  constructor
  · intro h
    have hs := spelledAlike_flatMap (φ := φ) [] s
    have ht := spelledAlike_flatMap (φ := φ) [] t
    rw [← h] at ht
    exact Relation.EqvGen.trans _ _ _ hs (Relation.EqvGen.symm _ _ ht)
  · intro h
    induction h with
    | rel x y hxy => exact hxy.flatMap_eq hφ
    | refl x => rfl
    | symm x y _ ih => exact ih.symm
    | trans x y z _ _ ihxy ihyz => exact ihxy.trans ihyz

end PgRoles.Lib

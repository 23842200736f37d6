import PgRoles.Lib.Run

/-!
# Rows collected under keys

Rows of a query are collected into an ordered map: each row that has a key updates the entry of
that key. What is collected under one key depends on the rows of that key alone, so that a query
over fewer rows agrees with a query over more on every key whose rows both return.
-/

set_option autoImplicit false

namespace PgRoles.Lib

open Std

variable {K V C : Type} [Ord K] [TransOrd K] [LawfulEqOrd K] [DecidableEq K]

/-- Update the entry of the row's key; a row without a key is passed over. -/
def collectRow (key : C → Option K) (put : Option V → C → V) (m : BTreeMap K V) (row : C) :
    BTreeMap K V :=
  match key row with
  | none => m
  | some k => m.alter k fun held => some (put held row)

/-- The rows collected by their keys. -/
def collectRows (key : C → Option K) (put : Option V → C → V) (rows : List C) : BTreeMap K V :=
  rows.foldl (collectRow key put) ∅

/-- What a row does to the entry of one key. -/
def collectAt (key : C → Option K) (put : Option V → C → V) (k : K) (held : Option V) (row : C) :
    Option V :=
  if key row = some k then some (put held row) else held

theorem getElem?_collectRow (key : C → Option K) (put : Option V → C → V) (m : BTreeMap K V)
    (row : C) (k : K) : (collectRow key put m row)[k]? = collectAt key put k m[k]? row := by
  unfold collectRow collectAt
  cases key row with
  | none => simp
  | some a =>
      rw [getElem?_alter_eq]
      simp only [Option.some.injEq]

/-- A key's entry comes from the rows of the key. -/
theorem getElem?_collectRows (key : C → Option K) (put : Option V → C → V) (rows : List C)
    (k : K) :
    (collectRows key put rows)[k]? =
      (rows.filter fun row => key row = some k).foldl (collectAt key put k) none := by
  rw [collectRows, getElem?_foldl_of_pointwise (getElem?_collectRow key put)]
  rw [foldl_eq_foldl_filter (q := fun row => decide (key row = some k))]
  · simp
  · intro held row hkey
    rw [collectAt, if_neg (of_decide_eq_false hkey)]

/-- A query that returns all rows of a key collects under it what the whole catalog gives. -/
theorem getElem?_collectRows_filter {key : C → Option K} {put : Option V → C → V} {rows : List C}
    {selects : C → Bool} {k : K}
    (h : ∀ row, key row = some k → selects row = true) :
    (collectRows key put (rows.filter selects))[k]? = (collectRows key put rows)[k]? := by
  rw [getElem?_collectRows, getElem?_collectRows, List.filter_filter]
  congr 1
  refine List.filter_congr fun row _ => ?_
  by_cases hkey : key row = some k
  · simp [hkey, h row hkey]
  · simp [hkey]

end PgRoles.Lib

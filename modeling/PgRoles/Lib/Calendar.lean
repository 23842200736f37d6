import Mathlib

/-!
# The civil calendar in days

Days are counted from 1 March of the year 0 of the proleptic Gregorian calendar, so that the leap day
is the last day of a year. A year of an era of 400 years starts on day `yearStart`, and a month that
many days after it. The year of a day is found by a division that takes out the leap days before it
(`yearOfEra_eq`), and every day has one year, month and day (`exists_yearOfEra`, `exists_month`).
-/

set_option autoImplicit false

namespace PgRoles.Lib

/-- The days of an era of 400 years. -/
def eraDays : Nat := 146097

/-- The first day of a year that starts in March. -/
def yearStart (y : Nat) : Nat := 365 * y + y / 4 - y / 100 + y / 400

/-- The first day of a month in a year that starts in March. -/
def monthStart (m : Nat) : Nat := (153 * m + 2) / 5

/-- The days of an era up to one of them, without the leap days. -/
def commonDays (doe : Nat) : Nat := doe - doe / 1460 + doe / 36524 - doe / 146096

/-! ## Years -/

theorem yearStart_lt_succ (y : Nat) : yearStart y < yearStart (y + 1) := by
  unfold yearStart
  omega

theorem yearStart_mono {a b : Nat} (h : a ≤ b) : yearStart a ≤ yearStart b :=
  monotone_nat_of_le_succ (fun y => (yearStart_lt_succ y).le) h

/-- Eras have the same years. -/
theorem yearStart_add_era (y era : Nat) :
    yearStart (y + 400 * era) = yearStart y + eraDays * era := by
  unfold yearStart eraDays
  omega

/-- One day more is no fewer days without the leap days. -/
theorem commonDays_mono {a b : Nat} (h : a ≤ b) (hb : b < eraDays) :
    commonDays a ≤ commonDays b := by
  unfold eraDays at hb
  unfold commonDays
  induction b, h using Nat.le_induction with
  | base => exact Nat.le_refl _
  | succ n hn ih =>
      refine Nat.le_trans (ih (by omega)) ?_
      have hleap : (n + 1) / 1460 = n / 1460 ∨
          (n + 1) / 1460 = n / 1460 + 1 ∧ (n + 1) % 1460 = 0 := by omega
      have hcentury : (n + 1) / 36524 = n / 36524 ∨ (n + 1) / 36524 = n / 36524 + 1 := by omega
      -- The last day of an era ends a century as well.
      have hera : (n + 1) / 146096 = n / 146096 ∨
          (n + 1) / 146096 = n / 146096 + 1 ∧ n + 1 = 146096 := by omega
      omega

/-- The first and the last day of a year are found in it. -/
theorem commonDays_yearStart : ∀ y < 400, commonDays (yearStart y) / 365 = y ∧
    commonDays (yearStart (y + 1) - 1) / 365 = y := by
  decide +kernel

/-- So is every day between them. -/
theorem yearOfEra_eq {doe y : Nat} (hy : y < 400) (hstart : yearStart y ≤ doe)
    (hend : doe < yearStart (y + 1)) : commonDays doe / 365 = y := by
  have hera : yearStart (y + 1) ≤ eraDays := yearStart_mono (b := 400) (by omega)
  obtain ⟨hfirst, hlast⟩ := commonDays_yearStart y hy
  have hlow := Nat.div_le_div_right (c := 365)
    (commonDays_mono hstart (Nat.lt_of_lt_of_le hend hera))
  have hhigh := Nat.div_le_div_right (c := 365)
    (commonDays_mono (show doe ≤ yearStart (y + 1) - 1 by omega) (by unfold eraDays at *; omega))
  omega

theorem exists_yearOfEra {doe : Nat} (h : doe < eraDays) :
    ∃ y < 400, yearStart y ≤ doe ∧ doe < yearStart (y + 1) := by
  have hend : doe < yearStart (399 + 1) := h
  have hlast : ∃ y, doe < yearStart (y + 1) := ⟨399, hend⟩
  refine ⟨Nat.find hlast, ?_, ?_, Nat.find_spec hlast⟩
  · have hle := Nat.find_min' hlast hend
    omega
  · cases hfind : Nat.find hlast with
    | zero => exact Nat.zero_le _
    | succ y =>
        have hmin := Nat.find_min hlast (m := y) (by omega)
        omega

/-! ## Months -/

/-- The month of a day of a year. -/
theorem exists_month {doy : Nat} (h : doy ≤ 365) :
    (5 * doy + 2) / 153 ≤ 11 ∧ monthStart ((5 * doy + 2) / 153) ≤ doy ∧
      doy < monthStart ((5 * doy + 2) / 153 + 1) := by
  unfold monthStart
  omega

theorem monthStart_lt_succ (m : Nat) : monthStart m < monthStart (m + 1) := by
  unfold monthStart
  omega

theorem monthStart_mono {a b : Nat} (h : a ≤ b) : monthStart a ≤ monthStart b :=
  monotone_nat_of_le_succ (fun m => (monthStart_lt_succ m).le) h

end PgRoles.Lib

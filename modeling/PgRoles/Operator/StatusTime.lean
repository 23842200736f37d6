import PgRoles.Lib.Calendar
import PgRoles.Core.Timestamp
import PgRoles.Operator.DerivedNames

/-!
# Timestamps of status fields

The operator writes times as seconds since the epoch in UTC and reads them back to measure how old a
condition is. Writing finds the date of a day and reading finds the day of a date; they are inverse
(`daysOfDate_daysToDate`), and later times have later dates.

The reading takes any numbers in the six fields and subtracts unsigned numbers on the way: a year
before the month, a day before the first, and the days before the epoch. So on some texts that have
the form it does not return at all (`parseRfc3339_total_iff`).
-/

set_option autoImplicit false

namespace PgRoles.Operator

open PgRoles.Lib PgRoles.Core

/-! ## Writing -/

/-- The text of a time, in seconds since the epoch. -/
def formatRfc3339 (secs : Nat) : String :=
  let days := secs / 86400
  let remaining := secs % 86400
  let date := daysToDate days
  String.ofList (padded 4 date.1 ++ '-' :: (padded 2 date.2.1 ++ '-' ::
    (padded 2 date.2.2 ++ 'T' :: (padded 2 (remaining / 3600) ++ ':' ::
    (padded 2 (remaining % 3600 / 60) ++ ':' :: (padded 2 (remaining % 60) ++ ['Z']))))))

/-! ## Reading -/

/-- A subtraction of unsigned numbers, without a result below zero. -/
def checkedSub (a b : Nat) : Option Nat := if b ≤ a then some (a - b) else none

/-- The numbers of the six fields. -/
structure TimestampNumbers where
  year : Nat
  month : Nat
  day : Nat
  hours : Nat
  minutes : Nat
  seconds : Nat
  deriving DecidableEq

/-- The number between two byte positions; there is none where a position splits a character. -/
def readField (chars : List Char) (start stop : Nat) : Option Nat :=
  (sliceBytes chars start stop).bind parseUnsigned

/-- The fields of a text that is long enough and ends in `Z`; what separates them is not looked
at. -/
def timestampNumbers (text : String) : Option TimestampNumbers :=
  let chars := text.toList
  if (textBytes chars).length < 20 || chars.getLast? != some 'Z' then none
  else do
    let year ← readField chars 0 4
    let month ← readField chars 5 7
    let day ← readField chars 8 10
    let hours ← readField chars 11 13
    let minutes ← readField chars 14 16
    let seconds ← readField chars 17 19
    return { year, month, day, hours, minutes, seconds }

/-- The year and month counted from March. -/
def fromMarch (year month : Nat) : Option (Nat × Nat) :=
  if month ≤ 2 then (checkedSub year 1).map fun y => (y, month + 9)
  else (checkedSub month 3).map fun m => (year, m)

/-- The day since the epoch of a date, unless a subtraction goes below zero. -/
def daysOfDate (year month day : Nat) : Option Nat := do
  let (y, m) ← fromMarch year month
  let era := y / 400
  let yoe ← checkedSub y (era * 400)
  let doy ← checkedSub ((153 * m + 2) / 5 + day) 1
  let doe := (← checkedSub (yoe * 365 + yoe / 4) (yoe / 100)) + doy
  checkedSub (era * 146097 + doe) 719468

/-- The seconds since the epoch, for a date that there is. -/
def TimestampNumbers.epochSecs (t : TimestampNumbers) : Option Nat :=
  (daysOfDate t.year t.month t.day).map fun days =>
    days * 86400 + t.hours * 3600 + t.minutes * 60 + t.seconds

/-- The reading of a text as a time; the outer option has no value where a subtraction goes below
zero. -/
def parseRfc3339ToEpochSecs (text : String) : Option (Option Nat) :=
  match timestampNumbers text with
  | none => some none
  | some t => t.epochSecs.map some

/-! ## Dates and days -/

theorem checkedSub_eq_some_iff {a b c : Nat} : checkedSub a b = some c ↔ b ≤ a ∧ a = c + b := by
  unfold checkedSub
  split_ifs with h
  · rw [Option.some.injEq]
    omega
  · simp [h]

/-- A year without its era starts as many days into its era. -/
theorem yearStart_eq (y : Nat) :
    yearStart y = y / 400 * 146097 +
      ((y - y / 400 * 400) * 365 + (y - y / 400 * 400) / 4 - (y - y / 400 * 400) / 100) := by
  have hsplit : y = (y - y / 400 * 400) + 400 * (y / 400) := by omega
  have hlt : y - y / 400 * 400 < 400 := by omega
  conv_lhs => rw [hsplit, yearStart_add_era]
  unfold yearStart eraDays
  omega

/-- The reading of a date: the days up to its year, its month and itself. -/
theorem daysOfDate_eq_some_iff {year month day n : Nat} :
    daysOfDate year month day = some n ↔ ∃ y m, fromMarch year month = some (y, m) ∧
      1 ≤ monthStart m + day ∧ yearStart y + (monthStart m + day) = n + 719469 := by
  unfold daysOfDate
  simp only [Option.bind_eq_bind, Option.bind_eq_some_iff, checkedSub_eq_some_iff, Prod.exists]
  constructor
  · rintro ⟨y, m, hfrom, yoe, ⟨-, hyoe⟩, doy, ⟨hday, hdoy⟩, start, ⟨-, hstart⟩, -, hdays⟩
    refine ⟨y, m, hfrom, hday, ?_⟩
    obtain rfl : yoe = y - y / 400 * 400 := by omega
    have hyear := yearStart_eq y
    unfold monthStart at *
    omega
  · rintro ⟨y, m, hfrom, hday, hdays⟩
    have hyear := yearStart_eq y
    unfold monthStart at *
    refine ⟨y, m, hfrom, y - y / 400 * 400, ⟨by omega, by omega⟩, (153 * m + 2) / 5 + day - 1,
      ⟨hday, by omega⟩, (y - y / 400 * 400) * 365 + (y - y / 400 * 400) / 4 -
        (y - y / 400 * 400) / 100, ⟨by omega, by omega⟩, by omega, by omega⟩

theorem fromMarch_eq_some_iff {year month y m : Nat} :
    fromMarch year month = some (y, m) ↔
      month ≤ 2 ∧ year = y + 1 ∧ m = month + 9 ∨ 2 < month ∧ year = y ∧ month = m + 3 := by
  unfold fromMarch
  split_ifs with hearly
  · simp only [Option.map_eq_some_iff, checkedSub_eq_some_iff, Prod.mk.injEq]
    constructor
    · rintro ⟨a, ⟨-, hyear⟩, rfl, rfl⟩
      exact Or.inl ⟨hearly, hyear, rfl⟩
    · rintro (⟨-, hyear, rfl⟩ | ⟨hlate, -⟩)
      · exact ⟨y, ⟨by omega, hyear⟩, rfl, rfl⟩
      · omega
  · simp only [Option.map_eq_some_iff, checkedSub_eq_some_iff, Prod.mk.injEq]
    constructor
    · rintro ⟨a, ⟨-, hmonth⟩, rfl, rfl⟩
      exact Or.inr ⟨by omega, rfl, hmonth⟩
    · rintro (⟨hlate, -⟩ | ⟨-, rfl, hmonth⟩)
      · omega
      · exact ⟨m, ⟨by omega, hmonth⟩, rfl, rfl⟩

/-- The date of a day: its year and month, counted from March, contain it. -/
theorem daysToDate_spec (days : Nat) :
    ∃ y m, m ≤ 11 ∧ yearStart y + monthStart m ≤ days + 719468 ∧
      days + 719468 < yearStart y + monthStart (m + 1) ∧ days + 719468 < yearStart (y + 1) ∧
      daysToDate days = (if m < 10 then y else y + 1, if m < 10 then m + 3 else m - 9,
        days + 719468 - yearStart y - monthStart m + 1) := by
  have hdoe : (days + 719468) % eraDays < eraDays := Nat.mod_lt _ (by decide)
  have hsplit := Nat.div_add_mod (days + 719468) eraDays
  obtain ⟨yoe, hyoe, hstart, hend⟩ := exists_yearOfEra hdoe
  have hyear := yearOfEra_eq hyoe hstart hend
  have hyearStart := yearStart_add_era yoe ((days + 719468) / eraDays)
  have hyearEnd := yearStart_add_era (yoe + 1) ((days + 719468) / eraDays)
  have hshort : yearStart yoe = 365 * yoe + yoe / 4 - yoe / 100 := by
    unfold yearStart
    omega
  have hlength : yearStart (yoe + 1) ≤ yearStart yoe + 366 := by
    unfold yearStart
    omega
  obtain ⟨hmonth, hfirst, hlast⟩ :=
    exists_month (show (days + 719468) % eraDays - yearStart yoe ≤ 365 by omega)
  have hdoeEq : days + 719468 - (days + 719468) / 146097 * 146097 = (days + 719468) % eraDays := by
    unfold eraDays
    omega
  refine ⟨yoe + 400 * ((days + 719468) / eraDays),
    (5 * ((days + 719468) % eraDays - yearStart yoe) + 2) / 153, hmonth, by omega, by omega, ?_, ?_⟩
  · rw [show yoe + 400 * ((days + 719468) / eraDays) + 1 =
      yoe + 1 + 400 * ((days + 719468) / eraDays) by omega]
    omega
  · unfold commonDays at hyear
    unfold daysToDate
    simp only [hdoeEq, hyear, ← hshort]
    generalize hmp : (5 * ((days + 719468) % eraDays - yearStart yoe) + 2) / 153 = mp at *
    have hcommute : yoe + (days + 719468) / 146097 * 400 =
        yoe + 400 * ((days + 719468) / eraDays) := by
      unfold eraDays
      omega
    have hday : (days + 719468) % eraDays - yearStart yoe - (153 * mp + 2) / 5 + 1 =
        days + 719468 - yearStart (yoe + 400 * ((days + 719468) / eraDays)) - monthStart mp + 1 := by
      unfold monthStart at *
      omega
    rw [hcommute, hday]
    -- January and February belong to the year after the one they are counted in.
    by_cases hmarch : mp < 10
    · rw [if_pos hmarch, if_pos hmarch, if_neg (by omega)]
    · rw [if_neg hmarch, if_neg hmarch, if_pos (by omega)]

/-- A month that was counted from March is counted so again. -/
theorem fromMarch_toMarch {y m : Nat} (h : m ≤ 11) :
    fromMarch (if m < 10 then y else y + 1) (if m < 10 then m + 3 else m - 9) = some (y, m) := by
  rw [fromMarch_eq_some_iff]
  split_ifs with hmarch
  · exact Or.inr ⟨by omega, rfl, rfl⟩
  · exact Or.inl ⟨by omega, rfl, by omega⟩

/-- The reading of a date gives the day it was written for. -/
theorem daysOfDate_daysToDate (days : Nat) :
    daysOfDate (daysToDate days).1 (daysToDate days).2.1 (daysToDate days).2.2 = some days := by
  obtain ⟨y, m, hm, hstart, -, -, hdate⟩ := daysToDate_spec days
  have hmonths : 1 ≤ monthStart m + (days + 719468 - yearStart y - monthStart m + 1) := by
    omega
  have hdays : yearStart y + (monthStart m + (days + 719468 - yearStart y - monthStart m + 1)) =
      days + 719469 := by omega
  rw [hdate]
  exact daysOfDate_eq_some_iff.2 ⟨y, m, fromMarch_toMarch hm, hmonths, hdays⟩

/-- One date is before another: in year, month and day. -/
def DateBefore (a b : Nat × Nat × Nat) : Prop :=
  a.1 < b.1 ∨ a.1 = b.1 ∧ (a.2.1 < b.2.1 ∨ a.2.1 = b.2.1 ∧ a.2.2 < b.2.2)

/-- Later days have later dates. -/
theorem daysToDate_strictMono {a b : Nat} (h : a < b) :
    DateBefore (daysToDate a) (daysToDate b) := by
  obtain ⟨y, m, hm, hstart, hend, hyear, hdate⟩ := daysToDate_spec a
  obtain ⟨y', m', hm', hstart', hend', hyear', hdate'⟩ := daysToDate_spec b
  have hyears : y ≤ y' := by
    by_contra hlt
    have hmono := yearStart_mono (show y' + 1 ≤ y by omega)
    omega
  have hmonths : y = y' → m ≤ m' := by
    rintro rfl
    by_contra hlt
    have hmono := monthStart_mono (show m' + 1 ≤ m by omega)
    omega
  rw [hdate, hdate']
  unfold DateBefore
  dsimp only
  rcases Nat.lt_or_eq_of_le hyears with hyears | rfl
  · split_ifs <;> omega
  · have hmonths := hmonths rfl
    rcases Nat.lt_or_eq_of_le hmonths with hmonths | rfl
    · split_ifs <;> omega
    · exact Or.inr ⟨rfl, Or.inr ⟨rfl, by omega⟩⟩

/-! ## Written texts -/

theorem readsDecimal_padded (width n : Nat) : ReadsDecimal (padded width n) n := by
  have hdigits : ∀ c ∈ Nat.toDigits 10 n, isAsciiDigit c = true := fun c hc =>
    isAsciiDigit_of_isDigit (Nat.isDigit_of_mem_toDigits (by decide) (by decide) hc)
  have hzeros : ∀ k, (List.replicate k '0').foldl
      (fun n c => 10 * n + (c.toNat - '0'.toNat)) 0 = 0 := by
    intro k
    induction k with
    | zero => rfl
    | succ k ih =>
        rw [List.replicate_succ, List.foldl_cons]
        exact ih
  constructor
  · rw [List.all_eq_true]
    intro c hc
    rcases List.mem_append.1 hc with hc | hc
    · rw [List.eq_of_mem_replicate hc]
      decide
    · exact hdigits c hc
  · rw [padded, List.foldl_append, hzeros, ← Nat.ofDigitChars_eq_foldl]
    exact (Nat.ofDigitChars_toDigits (by decide) (by decide)).symm

/-- A number that fits is written in exactly so many digits. -/
theorem length_padded {width n : Nat} (hwidth : 0 < width) (hn : n < 10 ^ width) :
    (padded width n).length = width := by
  have hdigits := (Nat.length_toDigits_le_iff (by decide) hwidth).2 hn
  rw [padded, List.length_append, List.length_replicate]
  omega

theorem length_textBytes_padded {width n : Nat} (hwidth : 0 < width) (hn : n < 10 ^ width) :
    (textBytes (padded width n)).length = width := by
  rw [length_textBytes_of_ascii fun c hc => ascii_of_isAsciiDigit
    (List.all_eq_true.1 (readsDecimal_padded width n).1 c hc), length_padded hwidth hn]

/-- A field that stands at a position is read as its number. -/
theorem readField_padded {chars a : List Char} {start stop width n : Nat}
    (hchars : a ++ padded width n <+: chars) (hwidth : 0 < width) (hn : n < 10 ^ width)
    (ha : (textBytes a).length = start) (hstop : start + width = stop) :
    readField chars start stop = some n := by
  obtain ⟨b, rfl⟩ := hchars
  have hne : padded width n ≠ [] := by
    rw [← List.length_pos_iff, length_padded hwidth hn]
    exact hwidth
  rw [List.append_assoc, readField,
    sliceBytes_append ha (by rw [length_textBytes_padded hwidth hn, hstop]), Option.bind_some]
  exact readsUnsigned_of_readsDecimal hne (readsDecimal_padded width n)

/-- The characters of a written time. -/
def timestampText (t : TimestampNumbers) : List Char :=
  padded 4 t.year ++ '-' :: (padded 2 t.month ++ '-' :: (padded 2 t.day ++ 'T' ::
    (padded 2 t.hours ++ ':' :: (padded 2 t.minutes ++ ':' :: (padded 2 t.seconds ++ ['Z'])))))

/-- Numbers that fit into their fields are read from their text. -/
theorem timestampNumbers_timestampText {t : TimestampNumbers} (hyear : t.year < 10 ^ 4)
    (hmonth : t.month < 10 ^ 2) (hday : t.day < 10 ^ 2) (hhours : t.hours < 10 ^ 2)
    (hminutes : t.minutes < 10 ^ 2) (hseconds : t.seconds < 10 ^ 2) :
    timestampNumbers (String.ofList (timestampText t)) = some t := by
  have hy := length_textBytes_padded (by decide) hyear
  have hm := length_textBytes_padded (by decide) hmonth
  have hd := length_textBytes_padded (by decide) hday
  have hh := length_textBytes_padded (by decide) hhours
  have hn := length_textBytes_padded (by decide) hminutes
  have hs := length_textBytes_padded (by decide) hseconds
  have hdash : String.utf8EncodeChar '-' = [45] := by decide
  have hcolon : String.utf8EncodeChar ':' = [58] := by decide
  have htee : String.utf8EncodeChar 'T' = [84] := by decide
  have hzed : String.utf8EncodeChar 'Z' = [90] := by decide
  have hlength : (textBytes (timestampText t)).length = 20 := by
    simp only [timestampText, textBytes_append, textBytes_cons, textBytes_nil, hdash, hcolon, htee,
      hzed, List.length_append, List.length_cons, List.length_nil, hy, hm, hd, hh, hn, hs]
  have hlast : (timestampText t).getLast? = some 'Z' := by
    rw [timestampText, show ∀ y m d h n s : List Char, y ++ '-' :: (m ++ '-' :: (d ++ 'T' ::
      (h ++ ':' :: (n ++ ':' :: (s ++ ['Z']))))) = (y ++ '-' :: (m ++ '-' :: (d ++ 'T' ::
      (h ++ ':' :: (n ++ ':' :: s))))) ++ ['Z'] by simp, List.getLast?_concat]
  -- The text up to each field, one byte for each of its characters.
  have hyearField : readField (timestampText t) 0 4 = some t.year :=
    readField_padded (a := []) (by simp [timestampText]) (by decide) hyear rfl rfl
  have hmonthField : readField (timestampText t) 5 7 = some t.month :=
    readField_padded (a := padded 4 t.year ++ ['-']) (by simp [timestampText]) (by decide) hmonth
      (by simp [hy, hdash]) rfl
  have hdayField : readField (timestampText t) 8 10 = some t.day :=
    readField_padded (a := padded 4 t.year ++ '-' :: (padded 2 t.month ++ ['-']))
      (by simp [timestampText]) (by decide) hday (by simp [hy, hm, hdash]) rfl
  have hhoursField : readField (timestampText t) 11 13 = some t.hours :=
    readField_padded
      (a := padded 4 t.year ++ '-' :: (padded 2 t.month ++ '-' :: (padded 2 t.day ++ ['T'])))
      (by simp [timestampText]) (by decide) hhours (by simp [hy, hm, hd, hdash, htee]) rfl
  have hminutesField : readField (timestampText t) 14 16 = some t.minutes :=
    readField_padded
      (a := padded 4 t.year ++ '-' :: (padded 2 t.month ++ '-' :: (padded 2 t.day ++ 'T' ::
        (padded 2 t.hours ++ [':']))))
      (by simp [timestampText]) (by decide) hminutes
      (by simp [hy, hm, hd, hh, hdash, htee, hcolon]) rfl
  have hsecondsField : readField (timestampText t) 17 19 = some t.seconds :=
    readField_padded
      (a := padded 4 t.year ++ '-' :: (padded 2 t.month ++ '-' :: (padded 2 t.day ++ 'T' ::
        (padded 2 t.hours ++ ':' :: (padded 2 t.minutes ++ [':'])))))
      (by simp [timestampText]) (by decide) hseconds
      (by simp [hy, hm, hd, hh, hn, hdash, htee, hcolon]) rfl
  unfold timestampNumbers
  simp only [String.toList_ofList, hlength, hlast, Nat.lt_irrefl, decide_false,
    bne_self_eq_false, Bool.or_self, Bool.false_eq_true, if_false]
  rw [hyearField, hmonthField, hdayField, hhoursField, hminutesField, hsecondsField]
  rfl

/-- The fields of a time. -/
def timeFields (secs : Nat) : TimestampNumbers :=
  let date := daysToDate (secs / 86400)
  { year := date.1
    month := date.2.1
    day := date.2.2
    hours := secs % 86400 / 3600
    minutes := secs % 86400 % 3600 / 60
    seconds := secs % 86400 % 60 }

/-- Up to the year 9999 a written time is read back. -/
theorem parseRfc3339_formatRfc3339 {secs : Nat} (h : (daysToDate (secs / 86400)).1 ≤ 9999) :
    parseRfc3339ToEpochSecs (formatRfc3339 secs) = some (some secs) := by
  obtain ⟨y, m, hm, hstart, hend, -, hdate⟩ := daysToDate_spec (secs / 86400)
  have hmonth : (daysToDate (secs / 86400)).2.1 < 10 ^ 2 := by
    rw [hdate]
    dsimp only
    split_ifs <;> omega
  have hday : (daysToDate (secs / 86400)).2.2 < 10 ^ 2 := by
    rw [hdate]
    unfold monthStart at *
    dsimp only
    omega
  have hread := timestampNumbers_timestampText (t := timeFields secs)
    (Nat.lt_of_le_of_lt h (by decide)) hmonth hday (by unfold timeFields; dsimp only; omega)
    (by unfold timeFields; dsimp only; omega) (by unfold timeFields; dsimp only; omega)
  have htext : formatRfc3339 secs = String.ofList (timestampText (timeFields secs)) := rfl
  rw [htext, parseRfc3339ToEpochSecs, hread]
  have hdays := daysOfDate_daysToDate (secs / 86400)
  simp only [TimestampNumbers.epochSecs, timeFields, hdays, Option.map_some, Option.some.injEq]
  omega

/-! ## Where the reading stops -/

/-- A date from 1970-01-01 on, where a month past December and a day past the end of a month are
counted on; day 0 of March is no such date, whatever the year. -/
def SinceEpoch (year month day : Nat) : Prop :=
  if month ≤ 2 then 1 ≤ year ∧ 719469 ≤ yearStart (year - 1) + monthStart (month + 9) + day
  else ¬(month = 3 ∧ day = 0) ∧ 719469 ≤ yearStart year + monthStart (month - 3) + day

/-- In the calendar these are the dates from the year 1970 on. -/
theorem sinceEpoch_iff_of_calendar {year month day : Nat} (hmonth : 1 ≤ month ∧ month ≤ 12)
    (hday : 1 ≤ day ∧ day ≤ 31) : SinceEpoch year month day ↔ 1970 ≤ year := by
  have hbefore : ∀ y, y ≤ 1968 → yearStart y ≤ 718797 := fun y hy =>
    Nat.le_trans (yearStart_mono hy) (by decide)
  have hafter : ∀ y, 1970 ≤ y → 719527 ≤ yearStart y := fun y hy =>
    Nat.le_trans (by decide) (yearStart_mono hy)
  have hlast : yearStart 1969 = 719162 := by decide
  have hmonths : ∀ m, m ≤ 11 → monthStart m ≤ 337 ∧ (10 ≤ m → 306 ≤ monthStart m) ∧
      (m ≤ 9 → monthStart m ≤ 275) := by
    unfold monthStart
    omega
  unfold SinceEpoch
  split_ifs with hearly
  · -- January and February are the last months of the year that starts in March before.
    have hstart := hmonths (month + 9) (by omega)
    rcases Nat.lt_trichotomy (year - 1) 1969 with hyear | hyear | hyear
    · have hle := hbefore (year - 1) (by omega)
      omega
    · rw [hyear, hlast]
      omega
    · have hle := hafter (year - 1) (by omega)
      omega
  · have hstart := hmonths (month - 3) (by omega)
    rcases Nat.lt_trichotomy year 1969 with hyear | rfl | hyear
    · have hle := hbefore year (by omega)
      omega
    · rw [hlast]
      omega
    · have hle := hafter year (by omega)
      omega

theorem daysOfDate_isSome_iff {year month day : Nat} :
    (daysOfDate year month day).isSome ↔ SinceEpoch year month day := by
  simp only [Option.isSome_iff_exists, daysOfDate_eq_some_iff, fromMarch_eq_some_iff]
  unfold SinceEpoch
  constructor
  · rintro ⟨n, y, m, ⟨hearly, rfl, rfl⟩ | ⟨hlate, rfl, rfl⟩, hday, hdays⟩
    · rw [if_pos hearly, Nat.add_sub_cancel]
      omega
    · rw [if_neg (by omega), Nat.add_sub_cancel]
      refine ⟨?_, by omega⟩
      rintro ⟨hmarch, rfl⟩
      obtain rfl : m = 0 := by omega
      exact absurd hday (by decide)
  · intro h
    split_ifs at h with hearly
    · refine ⟨yearStart (year - 1) + (monthStart (month + 9) + day) - 719469, year - 1, month + 9,
        Or.inl ⟨hearly, by omega, rfl⟩, ?_, by omega⟩
      unfold monthStart
      omega
    · refine ⟨yearStart year + (monthStart (month - 3) + day) - 719469, year, month - 3,
        Or.inr ⟨by omega, rfl, by omega⟩, ?_, by omega⟩
      -- From April on a month starts after the first day of the year.
      unfold monthStart
      omega

/-- Written times are read back, dates and days are inverse, later times have later dates or times
of day, and a text is read without going below zero exactly when it has no fields that are read, or
its date is from the epoch on. -/
theorem statusTimes_read_iff (days secs later : Nat) (text : String) :
    ((daysToDate (secs / 86400)).1 ≤ 9999 →
      parseRfc3339ToEpochSecs (formatRfc3339 secs) = some (some secs)) ∧
    daysOfDate (daysToDate days).1 (daysToDate days).2.1 (daysToDate days).2.2 = some days ∧
    (secs < later → DateBefore (daysToDate (secs / 86400)) (daysToDate (later / 86400)) ∨
      daysToDate (secs / 86400) = daysToDate (later / 86400) ∧ secs % 86400 < later % 86400) ∧
    ((parseRfc3339ToEpochSecs text).isSome ↔
      ∀ t, timestampNumbers text = some t → SinceEpoch t.year t.month t.day) := by
  refine ⟨parseRfc3339_formatRfc3339, daysOfDate_daysToDate days, fun hlt => ?_, ?_⟩
  · rcases Nat.lt_or_eq_of_le (Nat.div_le_div_right (c := 86400) hlt.le) with hdays | hdays
    · exact Or.inl (daysToDate_strictMono hdays)
    · refine Or.inr ⟨by rw [hdays], ?_⟩
      omega
  · unfold parseRfc3339ToEpochSecs
    cases hnumbers : timestampNumbers text with
    | none => simp
    | some t =>
        simp only [Option.isSome_map, TimestampNumbers.epochSecs, daysOfDate_isSome_iff,
          Option.some.injEq, forall_eq']

/-- A text with day 0 of March, and one with a time before 1970, have the form, and the reading of
either subtracts below zero. -/
theorem parseRfc3339_stops :
    timestampNumbers "2026-03-00T00:00:00Z" = some ⟨2026, 3, 0, 0, 0, 0⟩ ∧
      parseRfc3339ToEpochSecs "2026-03-00T00:00:00Z" = none ∧
      timestampNumbers "1969-12-31T23:59:59Z" = some ⟨1969, 12, 31, 23, 59, 59⟩ ∧
      parseRfc3339ToEpochSecs "1969-12-31T23:59:59Z" = none := by
  decide +kernel

end PgRoles.Operator

import PgRoles.Core.Guc
import PgRoles.Lib.Check

/-!
# Duration strings

Two scanners read strings such as `2h30m`. The one for access durations checks its arithmetic and
refuses what does not fit. The one for reconcile intervals does not: its sums are those of 64-bit
words, which wrap in a release build and panic in a debug build, so the model keeps beside the
wrapped total whether an operation overflowed.

The interval reads as the exact sum of its terms exactly when the sum of the terms in front of the
first malformed one fits a word (`parseInterval_exact_iff`).
-/

set_option autoImplicit false

namespace PgRoles.Operator

open PgRoles.Core PgRoles.Lib

/-! ## Words and text -/

/-- One more than the largest 64-bit word. -/
def wordLimit : Nat := 2 ^ 64

/-- The text without white space at both ends. -/
def trimmed (text : String) : List Char :=
  (text.toList.dropWhile isWhitespace).rdropWhile isWhitespace

/-- The value of a list of decimal digits. -/
def decimal (digits : List Char) : Nat := Nat.ofDigitChars 10 digits 0

/-- Read digits as a word. -/
def parseWord (digits : List Char) : Option Nat :=
  if digits.isEmpty then none
  else if decimal digits < wordLimit then some (decimal digits)
  else none

/-- Seconds of a unit. -/
def unitSeconds : Char → Option Nat
  | 'h' => some 3600
  | 'm' => some 60
  | 's' => some 1
  | _ => none

theorem parseWord_eq_some {digits : List Char} {n : Nat} :
    parseWord digits = some n ↔ digits ≠ [] ∧ decimal digits < wordLimit ∧ n = decimal digits := by
  unfold parseWord
  split_ifs with hempty hfits
  · simp [List.isEmpty_iff.1 hempty]
  · have hne : digits ≠ [] := fun h => hempty (List.isEmpty_iff.2 h)
    simp [hne, hfits, eq_comm]
  · simp [hfits]

/-! ## Reconcile intervals -/

/-- Why an interval is refused; the message names the trimmed interval and the detail. -/
structure InvalidInterval where
  interval : List Char
  detail : String
  deriving DecidableEq

/-- Seconds until the next reconcile when the interval names none. -/
def defaultRequeueSecs : Nat := 300

/-- The scanner between two characters: the total as a word, the digits of the number being read,
and whether an operation overflowed so far. -/
structure IntervalScan where
  total : Nat := 0
  number : List Char := []
  overflowed : Bool := false

/-- Add a number of units to the total, as words do. -/
def IntervalScan.add (scan : IntervalScan) (number unit : Nat) : IntervalScan where
  total := (scan.total + number * unit % wordLimit) % wordLimit
  number := []
  overflowed := scan.overflowed || decide (wordLimit ≤ number * unit) ||
    decide (wordLimit ≤ scan.total + number * unit % wordLimit)

/-- Scan the characters; a number at the end counts seconds. -/
def scanInterval (interval : List Char) :
    IntervalScan → List Char → IntervalScan × Except InvalidInterval Unit
  | scan, [] =>
      if scan.number.isEmpty then (scan, .ok ())
      else match parseWord scan.number with
        | none => (scan, .error ⟨interval, "trailing number"⟩)
        | some number => (scan.add number 1, .ok ())
  | scan, ch :: rest =>
      if isAsciiDigit ch then
        scanInterval interval { scan with number := scan.number ++ [ch] } rest
      else match parseWord scan.number with
        | none =>
            (scan, .error ⟨interval, "invalid number before '" ++ String.singleton ch ++ "'"⟩)
        | some number =>
            match unitSeconds ch with
            | none => (scan, .error ⟨interval, "unknown unit '" ++ String.singleton ch ++ "'"⟩)
            | some unit => scanInterval interval (scan.add number unit) rest

/-- The outcome of the scan with what it left. -/
def intervalScan (interval : String) : IntervalScan × Except InvalidInterval Unit :=
  scanInterval (trimmed interval) {} (trimmed interval)

/-- Seconds of an interval, as a release build computes them. -/
def parseInterval (interval : String) : Except InvalidInterval Nat :=
  if (trimmed interval).isEmpty then .ok defaultRequeueSecs
  else do
    (intervalScan interval).2
    let total := (intervalScan interval).1.total
    return if total = 0 then defaultRequeueSecs else total

/-- An operation of the scan overflowed: a debug build panics there. -/
def intervalOverflows (interval : String) : Bool := (intervalScan interval).1.overflowed

/-! ## Access durations -/

/-- Why a duration is refused. -/
inductive InvalidDuration where
  | empty
  | invalidNumber (value : List Char)
  | invalidUnit (unit : Char)
  | tooLarge
  | missingUnit (value : List Char)
  | zero
  deriving DecidableEq

/-- An operation on words that fails when its result does not fit. -/
def checked (n : Nat) : Except InvalidDuration Nat :=
  if n < wordLimit then .ok n else .error .tooLarge

/-- Scan the characters; a number needs a unit. -/
def scanDuration (value : List Char) :
    Nat → List Char → List Char → Except InvalidDuration Nat
  | total, number, [] =>
      if number.isEmpty then .ok total else .error (.missingUnit value)
  | total, number, ch :: rest =>
      if isAsciiDigit ch then scanDuration value total (number ++ [ch]) rest
      else match parseWord number with
        | none => .error (.invalidNumber value)
        | some amount =>
            match unitSeconds ch with
            | none => .error (.invalidUnit ch)
            | some multiplier => do
                let seconds ← checked (amount * multiplier)
                let total ← checked (total + seconds)
                scanDuration value total [] rest

/-- The seconds of a duration, which is not zero. -/
def parseDuration (text : String) : Except InvalidDuration Nat := do
  let value := trimmed text
  rejectIf value.isEmpty .empty
  let total ← scanDuration value 0 [] value
  rejectIf (decide (total = 0)) .zero
  return total

/-! ## What a string says -/

/-- The seconds a text stands for: the exact sum of its number-unit terms, a trailing number
counting as seconds. -/
inductive Reads : List Char → Nat → Prop where
  | done : Reads [] 0
  | trailing {digits : List Char} (hne : digits ≠ []) (hdigits : ∀ c ∈ digits, isAsciiDigit c) :
      Reads digits (decimal digits)
  | term {digits rest : List Char} {ch : Char} {unit n : Nat} (hne : digits ≠ [])
      (hdigits : ∀ c ∈ digits, isAsciiDigit c) (hunit : unitSeconds ch = some unit)
      (hrest : Reads rest n) : Reads (digits ++ ch :: rest) (decimal digits * unit + n)

/-- The interval a string says: the default where it says nothing or nothing but zero. -/
def SaysInterval (interval : String) (d : Nat) : Prop :=
  trimmed interval = [] ∧ d = defaultRequeueSecs ∨
    trimmed interval ≠ [] ∧ ∃ n, Reads (trimmed interval) n ∧
      d = if n = 0 then defaultRequeueSecs else n

/-- The exact sum of the terms in front of the first malformed one. -/
def acceptedFrom : Nat → List Char → List Char → Nat
  | total, number, [] => (parseWord number).elim total (total + ·)
  | total, number, ch :: rest =>
      if isAsciiDigit ch then acceptedFrom total (number ++ [ch]) rest
      else match parseWord number, unitSeconds ch with
        | some n, some unit => acceptedFrom (total + n * unit) [] rest
        | _, _ => total

/-- The exact sum of a string's terms in front of the first malformed one. -/
def acceptedSum (interval : String) : Nat := acceptedFrom 0 [] (trimmed interval)

theorem not_digit_of_unitSeconds {ch : Char} {unit : Nat} (h : unitSeconds ch = some unit) :
    isAsciiDigit ch = false := by
  unfold unitSeconds at h
  split at h
  · decide
  · decide
  · decide
  · cases h

theorem unitSeconds_pos {ch : Char} {unit : Nat} (h : unitSeconds ch = some unit) : 0 < unit := by
  unfold unitSeconds at h
  split at h <;> cases h <;> decide

theorem le_acceptedFrom :
    ∀ (total : Nat) (number cs : List Char), total ≤ acceptedFrom total number cs
  | total, number, [] => by
    unfold acceptedFrom
    cases parseWord number with
    | none => exact Nat.le_refl total
    | some n => exact Nat.le_add_right total n
  | total, number, ch :: rest => by
    unfold acceptedFrom
    split
    · exact le_acceptedFrom total (number ++ [ch]) rest
    · split
      · exact (Nat.le_add_right _ _).trans (le_acceptedFrom _ _ rest)
      · exact Nat.le_refl total

/-- Digits are collected. -/
theorem scanInterval_digits (interval : List Char) {digits : List Char}
    (hdigits : ∀ c ∈ digits, isAsciiDigit c) (rest : List Char) (scan : IntervalScan) :
    scanInterval interval scan (digits ++ rest) =
      scanInterval interval { scan with number := scan.number ++ digits } rest := by
  induction digits generalizing scan with
  | nil => simp
  | cons c digits ih =>
    rw [List.forall_mem_cons] at hdigits
    rw [List.cons_append, scanInterval, if_pos hdigits.1, ih hdigits.2]
    simp

/-! ## The scan against the exact sum -/

/-- Adding what fits is exact. -/
theorem IntervalScan.add_of_fits {scan : IntervalScan} {number unit : Nat}
    (h : scan.total + number * unit < wordLimit) :
    scan.add number unit =
      { total := scan.total + number * unit, number := [], overflowed := scan.overflowed } := by
  have hproduct : number * unit < wordLimit := by omega
  unfold IntervalScan.add
  rw [Nat.mod_eq_of_lt hproduct, Nat.mod_eq_of_lt h]
  simp [Nat.not_le.2 hproduct, Nat.not_le.2 h]

/-- Adding what does not fit overflows. -/
theorem IntervalScan.overflowed_add {scan : IntervalScan} {number unit : Nat}
    (h : wordLimit ≤ scan.total + number * unit) : (scan.add number unit).overflowed = true := by
  unfold IntervalScan.add
  by_cases hproduct : wordLimit ≤ number * unit
  · simp [hproduct]
  · rw [Nat.mod_eq_of_lt (Nat.not_le.1 hproduct)]
    simp [h]

/-- An overflow is not forgotten. -/
theorem overflowed_scanInterval {interval : List Char} :
    ∀ {cs : List Char} {scan : IntervalScan}, scan.overflowed = true →
      (scanInterval interval scan cs).1.overflowed = true
  | [], scan, h => by
    unfold scanInterval
    split
    · exact h
    · split
      · exact h
      · simp [IntervalScan.add, h]
  | ch :: rest, scan, h => by
    unfold scanInterval
    split
    · exact overflowed_scanInterval h
    · split
      · exact h
      · split
        · exact h
        · exact overflowed_scanInterval (by simp [IntervalScan.add, h])

/-- As long as the exact sum fits, the scan does not overflow and its total is that sum. -/
theorem scanInterval_of_fits {interval : List Char} :
    ∀ {cs : List Char} {scan : IntervalScan}, scan.overflowed = false →
      acceptedFrom scan.total scan.number cs < wordLimit →
      (scanInterval interval scan cs).1.overflowed = false ∧
        (scanInterval interval scan cs).1.total = acceptedFrom scan.total scan.number cs
  | [], scan, hquiet, hfits => by
    unfold scanInterval
    unfold acceptedFrom at hfits ⊢
    split
    · rename_i hempty
      rw [List.isEmpty_iff.1 hempty]
      exact ⟨hquiet, rfl⟩
    · split
      · rename_i hnone
        rw [hnone]
        exact ⟨hquiet, rfl⟩
      · rename_i n hsome
        rw [hsome] at hfits ⊢
        have hadd := @IntervalScan.add_of_fits scan n 1
          (by simpa using hfits)
        rw [hadd, Nat.mul_one]
        exact ⟨hquiet, rfl⟩
  | ch :: rest, scan, hquiet, hfits => by
    unfold scanInterval
    unfold acceptedFrom at hfits ⊢
    split
    · rename_i hdigit
      rw [if_pos hdigit] at hfits
      exact scanInterval_of_fits hquiet hfits
    · rename_i hdigit
      rw [if_neg hdigit] at hfits
      cases hword : parseWord scan.number with
      | none => exact ⟨hquiet, rfl⟩
      | some n =>
        cases hunit : unitSeconds ch with
        | none => exact ⟨hquiet, rfl⟩
        | some unit =>
          simp only [hword, hunit] at hfits ⊢
          have hsum : scan.total + n * unit < wordLimit :=
            (le_acceptedFrom _ _ rest).trans_lt hfits
          rw [IntervalScan.add_of_fits hsum]
          exact scanInterval_of_fits hquiet hfits

/-- When the exact sum does not fit, some operation overflows. -/
theorem scanInterval_of_not_fits {interval : List Char} :
    ∀ {cs : List Char} {scan : IntervalScan}, scan.total < wordLimit →
      wordLimit ≤ acceptedFrom scan.total scan.number cs →
      (scanInterval interval scan cs).1.overflowed = true
  | [], scan, htotal, hlarge => by
    unfold scanInterval
    unfold acceptedFrom at hlarge
    cases hword : parseWord scan.number with
    | none =>
      rw [hword] at hlarge
      exact absurd hlarge (Nat.not_le.2 htotal)
    | some n =>
      have hne : scan.number.isEmpty = false := by
        simpa using (parseWord_eq_some.1 hword).1
      rw [hword] at hlarge
      rw [hne]
      exact IntervalScan.overflowed_add (by simpa using hlarge)
  | ch :: rest, scan, htotal, hlarge => by
    unfold scanInterval
    unfold acceptedFrom at hlarge
    split
    · rename_i hdigit
      rw [if_pos hdigit] at hlarge
      exact scanInterval_of_not_fits htotal hlarge
    · rename_i hdigit
      rw [if_neg hdigit] at hlarge
      cases hword : parseWord scan.number with
      | none =>
        simp only [hword] at hlarge
        exact absurd hlarge (Nat.not_le.2 htotal)
      | some n =>
        cases hunit : unitSeconds ch with
        | none =>
          simp only [hword, hunit] at hlarge
          exact absurd hlarge (Nat.not_le.2 htotal)
        | some unit =>
          simp only [hword, hunit] at hlarge ⊢
          by_cases hsum : scan.total + n * unit < wordLimit
          · rw [IntervalScan.add_of_fits hsum]
            exact scanInterval_of_not_fits hsum hlarge
          · exact overflowed_scanInterval (IntervalScan.overflowed_add (Nat.not_lt.1 hsum))

/-! ## The scan against the reading -/

/-- What is accepted is added to the total. -/
theorem acceptedFrom_eq_add :
    ∀ (total : Nat) (number cs : List Char),
      acceptedFrom total number cs = total + acceptedFrom 0 number cs
  | total, number, [] => by
    unfold acceptedFrom
    cases parseWord number with
    | none => rfl
    | some n => exact congrArg (total + ·) (Nat.zero_add n).symm
  | total, number, ch :: rest => by
    unfold acceptedFrom
    split
    · exact acceptedFrom_eq_add total (number ++ [ch]) rest
    · split
      · rename_i n unit _ _
        rw [acceptedFrom_eq_add (total + n * unit), acceptedFrom_eq_add (0 + n * unit)]
        omega
      · rfl

/-- A scan without errors has read its characters. -/
theorem reads_of_scanInterval {interval : List Char} :
    ∀ {cs : List Char} {scan : IntervalScan}, (∀ c ∈ scan.number, isAsciiDigit c) →
      (scanInterval interval scan cs).2 = .ok () →
      Reads (scan.number ++ cs) (acceptedFrom 0 scan.number cs)
  | [], scan, hnumber, hok => by
    unfold scanInterval at hok
    unfold acceptedFrom
    rw [List.append_nil]
    split at hok
    · rename_i hempty
      rw [List.isEmpty_iff.1 hempty]
      exact .done
    · split at hok
      · cases hok
      · rename_i n hword
        obtain ⟨hne, -, rfl⟩ := parseWord_eq_some.1 hword
        rw [hword]
        simpa using Reads.trailing hne hnumber
  | ch :: rest, scan, hnumber, hok => by
    unfold scanInterval at hok
    unfold acceptedFrom
    split at hok
    · rename_i hdigit
      rw [if_pos hdigit]
      have hnew : ∀ c ∈ scan.number ++ [ch], isAsciiDigit c := by
        intro c hc
        obtain hc | hc := List.mem_append.1 hc
        · exact hnumber c hc
        · exact List.mem_singleton.1 hc ▸ hdigit
      have hreads := @reads_of_scanInterval _ _
        { scan with number := scan.number ++ [ch] } hnew hok
      simpa using hreads
    · rename_i hdigit
      rw [if_neg hdigit]
      split at hok
      · cases hok
      · rename_i n hword
        split at hok
        · cases hok
        · rename_i unit hunit
          obtain ⟨hne, -, rfl⟩ := parseWord_eq_some.1 hword
          have hreads := @reads_of_scanInterval _ _
            (scan.add (decimal scan.number) unit) (by simp [IntervalScan.add]) hok
          rw [hword, hunit]
          dsimp only
          rw [acceptedFrom_eq_add, Nat.zero_add]
          exact .term hne hnumber hunit hreads

theorem acceptedFrom_digits {digits : List Char} (hdigits : ∀ c ∈ digits, isAsciiDigit c)
    (total : Nat) (number rest : List Char) :
    acceptedFrom total number (digits ++ rest) = acceptedFrom total (number ++ digits) rest := by
  induction digits generalizing number with
  | nil => simp
  | cons c digits ih =>
    rw [List.forall_mem_cons] at hdigits
    rw [List.cons_append, acceptedFrom, if_pos hdigits.1, ih hdigits.2]
    simp

/-- What can be read and fits is scanned without errors, and the reading is what is accepted. -/
theorem scanInterval_of_reads {interval cs : List Char} {n : Nat} (hreads : Reads cs n)
    (hfits : n < wordLimit) :
    ∀ scan : IntervalScan, scan.number = [] →
      (scanInterval interval scan cs).2 = .ok () ∧ acceptedFrom 0 [] cs = n := by
  induction hreads with
  | done =>
    intro scan hnumber
    unfold scanInterval acceptedFrom
    simp [hnumber, parseWord]
  | @trailing digits hne hdigits =>
    intro scan hnumber
    have hword : parseWord digits = some (decimal digits) :=
      parseWord_eq_some.2 ⟨hne, hfits, rfl⟩
    have hscan := scanInterval_digits interval hdigits [] scan
    have haccepted := acceptedFrom_digits hdigits 0 [] []
    rw [List.append_nil, hnumber, List.nil_append] at hscan
    rw [List.append_nil, List.nil_append] at haccepted
    rw [hscan, haccepted]
    unfold scanInterval acceptedFrom
    simp [hne, hword]
  | @term digits rest ch unit n hne hdigits hunit hrest ih =>
    intro scan hnumber
    have hunitPos := unitSeconds_pos hunit
    have hdigitsFit : decimal digits < wordLimit := by
      have hle := Nat.le_mul_of_pos_right (decimal digits) hunitPos
      omega
    have hword : parseWord digits = some (decimal digits) :=
      parseWord_eq_some.2 ⟨hne, hdigitsFit, rfl⟩
    obtain ⟨hok, haccepted⟩ := ih (by omega)
      ({ scan with number := digits }.add (decimal digits) unit) rfl
    rw [scanInterval_digits interval hdigits, acceptedFrom_digits hdigits, hnumber,
      List.nil_append]
    unfold scanInterval acceptedFrom
    simp only [not_digit_of_unitSeconds hunit, hword, hunit]
    refine ⟨hok, ?_⟩
    rw [if_neg Bool.false_ne_true, acceptedFrom_eq_add, Nat.zero_add, haccepted]

/-! ## The two scanners -/

theorem checked_eq_ok {n m : Nat} : checked n = .ok m ↔ n < wordLimit ∧ m = n := by
  unfold checked
  split_ifs with hfits
  · simp [hfits, eq_comm]
  · simp [hfits]

/-- A duration that is accepted is exact, and the scanner of intervals accepts the same text. -/
theorem scanInterval_of_scanDuration {value interval : List Char} :
    ∀ {cs number : List Char} {total d : Nat},
      scanDuration value total number cs = .ok d → total < wordLimit →
      d < wordLimit ∧ acceptedFrom total number cs = d ∧
        ∀ scan : IntervalScan, scan.number = number → (scanInterval interval scan cs).2 = .ok ()
  | [], number, total, d, h, htotal => by
    unfold scanDuration at h
    split at h
    · rename_i hempty
      cases h
      have hnil := List.isEmpty_iff.1 hempty
      subst hnil
      refine ⟨htotal, rfl, fun scan hscan => ?_⟩
      unfold scanInterval
      simp [hscan]
    · cases h
  | ch :: rest, number, total, d, h, htotal => by
    unfold scanDuration at h
    unfold acceptedFrom
    split at h
    · rename_i hdigit
      obtain ⟨hd, haccepted, hscan⟩ := scanInterval_of_scanDuration h htotal
      rw [if_pos hdigit]
      refine ⟨hd, haccepted, fun scan hnumber => ?_⟩
      unfold scanInterval
      rw [if_pos hdigit]
      exact hscan _ (by rw [hnumber])
    · rename_i hdigit
      rw [if_neg hdigit]
      split at h
      · cases h
      · rename_i amount hword
        split at h
        · cases h
        · rename_i unit hunit
          obtain ⟨seconds, hseconds, h⟩ := bind_eq_ok.1 h
          obtain ⟨sum, hsum, h⟩ := bind_eq_ok.1 h
          obtain ⟨-, rfl⟩ := checked_eq_ok.1 hseconds
          obtain ⟨hfits, rfl⟩ := checked_eq_ok.1 hsum
          obtain ⟨hd, haccepted, hscan⟩ := scanInterval_of_scanDuration h hfits
          simp only [hword, hunit]
          refine ⟨hd, haccepted, fun scan hnumber => ?_⟩
          unfold scanInterval
          rw [if_neg hdigit, hnumber, hword, hunit]
          exact hscan _ rfl

/-! ## Intervals that read exactly -/

/-- No operation overflows, the interval is what the string says, and a string accepted as an access
duration is the same interval. -/
def ReadsExactly (interval : String) : Prop :=
  intervalOverflows interval = false ∧
    (∀ d, parseInterval interval = .ok d ↔ SaysInterval interval d ∧ d < wordLimit) ∧
    ∀ d, parseDuration interval = .ok d → d < wordLimit ∧ parseInterval interval = .ok d

theorem parseInterval_of_empty {interval : String} (h : trimmed interval = []) :
    parseInterval interval = .ok defaultRequeueSecs := by
  unfold parseInterval
  rw [h]
  rfl

/-- Where the scan is exact, the interval is read off what is accepted. -/
theorem parseInterval_eq_ok {interval : String} (hne : trimmed interval ≠ [])
    (hfits : acceptedSum interval < wordLimit) {d : Nat} :
    parseInterval interval = .ok d ↔ (intervalScan interval).2 = .ok () ∧
      d = if acceptedSum interval = 0 then defaultRequeueSecs else acceptedSum interval := by
  have htotal := (@scanInterval_of_fits (trimmed interval) _ {} rfl hfits).2
  unfold parseInterval
  rw [if_neg (by simpa using hne), check_bind_eq_ok]
  refine and_congr_right fun _ => ?_
  dsimp only
  have hscan : (intervalScan interval).1.total = acceptedSum interval := htotal
  rw [hscan]
  constructor
  · intro h
    exact (Except.ok.inj h).symm
  · rintro rfl
    rfl

theorem saysInterval_iff {interval : String} (hfits : acceptedSum interval < wordLimit) {d : Nat} :
    parseInterval interval = .ok d ↔ SaysInterval interval d ∧ d < wordLimit := by
  unfold SaysInterval
  by_cases hempty : trimmed interval = []
  · rw [parseInterval_of_empty hempty]
    simp only [hempty, ne_eq, not_true_eq_false, false_and, or_false, true_and, Except.ok.injEq]
    constructor
    · rintro rfl
      exact ⟨rfl, by decide⟩
    · rintro ⟨rfl, -⟩
      rfl
  · rw [parseInterval_eq_ok hempty hfits]
    simp only [hempty, false_and, false_or, ne_eq, not_false_eq_true, true_and]
    constructor
    · rintro ⟨hok, rfl⟩
      refine ⟨⟨acceptedSum interval, ?_, rfl⟩, ?_⟩
      · exact @reads_of_scanInterval _ _ {} (by simp) hok
      · split_ifs
        · decide
        · exact hfits
    · rintro ⟨⟨n, hreads, rfl⟩, hd⟩
      have hn : n < wordLimit := by
        split_ifs at hd with hzero
        · rw [hzero]
          decide
        · exact hd
      obtain ⟨hok, haccepted⟩ := @scanInterval_of_reads (trimmed interval) _ _ hreads hn
        {} rfl
      have hsum : acceptedSum interval = n := haccepted
      exact ⟨hok, by rw [hsum]⟩

/-- An accepted duration is the interval of the same text. -/
theorem parseInterval_of_parseDuration {interval : String} {d : Nat}
    (h : parseDuration interval = .ok d) : d < wordLimit ∧ parseInterval interval = .ok d := by
  unfold parseDuration at h
  obtain ⟨hempty, h⟩ := check_bind_eq_ok.1 h
  obtain ⟨total, hscan, h⟩ := bind_eq_ok.1 h
  obtain ⟨hzero, h⟩ := check_bind_eq_ok.1 h
  cases h
  rw [rejectIf_eq_ok] at hempty hzero
  obtain ⟨hd, haccepted, hok⟩ := @scanInterval_of_scanDuration
    (trimmed interval) (trimmed interval) _ _ _ _ hscan (by decide)
  have hsum : acceptedSum interval = d := haccepted
  refine ⟨hd, (parseInterval_eq_ok (by simpa using hempty) (hsum ▸ hd)).2 ⟨hok {} rfl, ?_⟩⟩
  rw [hsum, if_neg (by simpa using hzero)]

/-- An interval reads exactly if and only if the terms in front of the first malformed one sum up to
a word. -/
theorem parseInterval_exact_iff (interval : String) :
    ReadsExactly interval ↔ acceptedSum interval < wordLimit := by
  constructor
  · rintro ⟨hquiet, -, -⟩
    by_contra hlarge
    have hoverflow := @scanInterval_of_not_fits (trimmed interval) _ {}
      (by decide) (Nat.not_lt.1 hlarge)
    rw [intervalOverflows, intervalScan, hoverflow] at hquiet
    cases hquiet
  · intro hfits
    refine ⟨?_, fun d => saysInterval_iff hfits, fun d hd => parseInterval_of_parseDuration hd⟩
    exact (@scanInterval_of_fits (trimmed interval) _ {} rfl hfits).1

/-- An interval whose hours do not fit a word is accepted, as 3584 seconds. -/
theorem manyHours_not_exact :
    parseInterval "5124095576030432h" = .ok 3584 ∧ ¬ ReadsExactly "5124095576030432h" := by
  refine ⟨by rfl, ?_⟩
  intro h
  have hoverflow : intervalOverflows "5124095576030432h" = true := by decide +kernel
  rw [h.1] at hoverflow
  cases hoverflow

end PgRoles.Operator

import PgRoles.Core.Expand

/-!
# The timestamp check on bytes

Expansion checks `password_valid_until` against one form, UTC at second precision. The check counts
and compares bytes and then slices the text, and a slice that falls inside a character stops the
program: `isValidIso8601TimestampBytes` has no result there.

The numeric parsers of the source allow a plus sign before the digits, so the fields the check
accepts (`parseUnsigned`) are more than the decimal ones (`ReadsDecimal`). One shape of the text with
the reading of a field as a parameter serves both (`TimestampFields`).
-/

set_option autoImplicit false

namespace PgRoles.Core

open PgRoles.Lib

/-! ## The form of a timestamp -/

/-- The fields between the separators. -/
structure TimestampFields where
  year : List Char
  month : List Char
  day : List Char
  hour : List Char
  minute : List Char
  second : List Char

/-- The text up to the separator of date and time. -/
def TimestampFields.dateText (f : TimestampFields) : List Char :=
  f.year ++ '-' :: (f.month ++ '-' :: (f.day ++ ['T']))

/-- The text of a timestamp with these fields. -/
def TimestampFields.text (f : TimestampFields) : List Char :=
  f.dateText ++ (f.hour ++ ':' :: (f.minute ++ ':' :: (f.second ++ ['Z'])))

/-- A field of a width reads as a number within bounds. -/
def FieldReads (reads : List Char → Nat → Prop) (width low high : Nat) (field : List Char) : Prop :=
  field.length = width ∧ ∃ n, reads field n ∧ low ≤ n ∧ n ≤ high

/-- The fields of the date read as numbers in their ranges. -/
structure TimestampFields.DateReads (reads : List Char → Nat → Prop) (f : TimestampFields) :
    Prop where
  year : FieldReads reads 4 1970 9999 f.year
  month : FieldReads reads 2 1 12 f.month
  day : FieldReads reads 2 1 31 f.day

/-- The fields of the time of day read as numbers in their ranges. -/
structure TimestampFields.TimeReads (reads : List Char → Nat → Prop) (f : TimestampFields) :
    Prop where
  hour : FieldReads reads 2 0 23 f.hour
  minute : FieldReads reads 2 0 59 f.minute
  second : FieldReads reads 2 0 59 f.second

/-- The text is a timestamp whose fields are read so. -/
def HasTimestampForm (reads : List Char → Nat → Prop) (value : String) : Prop :=
  ∃ f : TimestampFields, value.toList = f.text ∧ f.DateReads reads ∧ f.TimeReads reads

/-- A number written with decimal digits alone. -/
def ReadsDecimal (field : List Char) (n : Nat) : Prop :=
  field.all isAsciiDigit = true ∧ n = field.foldl (fun n c => 10 * n + (c.toNat - '0'.toNat)) 0

/-- A number as the standard library parses it. -/
def ReadsUnsigned (field : List Char) (n : Nat) : Prop := parseUnsigned field = some n

/-- The documented form `YYYY-MM-DDTHH:MM:SSZ`. -/
def IsUtcTimestamp (value : String) : Prop := HasTimestampForm ReadsDecimal value

/-- The text has the form except for a plus sign that a field starts with. -/
def HasSignedField (value : String) : Prop :=
  '+' ∈ value.toList ∧ HasTimestampForm ReadsUnsigned value

/-- Twenty bytes with an accepted date and the separators of a time, ending in a character of
several bytes. -/
structure SplitsLastCharacter (value : String) : Prop where
  length : (textBytes value.toList).length = 20
  date : ∃ (f : TimestampFields) (rest : List Char),
    value.toList = f.dateText ++ rest ∧ f.DateReads ReadsUnsigned
  hour_separator : (textBytes value.toList)[13]? = some (asciiByte ':')
  minute_separator : (textBytes value.toList)[16]? = some (asciiByte ':')
  last : ∃ (start : List Char) (c : Char), value.toList = start ++ [c] ∧ 0x80 ≤ c.toNat

/-! ## Reading of fields -/

theorem ascii_of_isAsciiDigit {c : Char} (h : isAsciiDigit c = true) : c.toNat < 0x80 := by
  simp only [isAsciiDigit, Bool.and_eq_true, decide_eq_true_eq] at h
  have hle : c.toNat ≤ '9'.toNat := h.2
  have hnine : '9'.toNat = 57 := rfl
  omega

theorem ne_plus_of_isAsciiDigit {c : Char} (h : isAsciiDigit c = true) : c ≠ '+' := by
  rintro rfl
  exact absurd h (by decide)

/-- Digits alone parse as their value. -/
theorem readsUnsigned_of_readsDecimal {field : List Char} {n : Nat} (hne : field ≠ [])
    (h : ReadsDecimal field n) : ReadsUnsigned field n := by
  obtain ⟨hall, rfl⟩ := h
  have hhead : field.head? ≠ some '+' := by
    intro hplus
    have hmem := List.mem_of_head? hplus
    exact ne_plus_of_isAsciiDigit (List.all_eq_true.1 hall _ hmem) rfl
  simp [ReadsUnsigned, parseUnsigned, hhead, hne, hall]

/-- A parsed field is digits after at most one plus sign. -/
theorem of_readsUnsigned {field : List Char} {n : Nat} (h : ReadsUnsigned field n) :
    ReadsDecimal field n ∨ ∃ digits, field = '+' :: digits ∧ ReadsDecimal digits n := by
  unfold ReadsUnsigned parseUnsigned at h
  by_cases hhead : field.head? = some '+'
  · right
    cases field with
    | nil => cases hhead
    | cons c digits =>
        obtain rfl := Option.some.inj hhead
        simp only [List.head?_cons, beq_self_eq_true, if_true, List.tail_cons] at h
        split_ifs at h with hbad
        simp only [Bool.or_eq_true, Bool.not_eq_true', not_or, Bool.not_eq_false] at hbad
        exact ⟨digits, rfl, hbad.2, (Option.some.inj h).symm⟩
  · left
    have hfalse : (field.head? == some '+') = false := by simpa using hhead
    simp only [hfalse, if_false, Bool.false_eq_true] at h
    split_ifs at h with hbad
    simp only [Bool.or_eq_true, Bool.not_eq_true', not_or, Bool.not_eq_false] at hbad
    exact ⟨hbad.2, (Option.some.inj h).symm⟩

/-- The characters of a parsed field are ASCII. -/
theorem ascii_of_readsUnsigned {field : List Char} {n : Nat} (h : ReadsUnsigned field n) :
    ∀ c ∈ field, c.toNat < 0x80 := by
  intro c hc
  rcases of_readsUnsigned h with hdec | ⟨digits, rfl, hdec⟩
  · exact ascii_of_isAsciiDigit (List.all_eq_true.1 hdec.1 c hc)
  · rcases List.mem_cons.1 hc with rfl | hc
    · decide
    · exact ascii_of_isAsciiDigit (List.all_eq_true.1 hdec.1 c hc)

theorem readsDecimal_of_not_signed {field : List Char} {n : Nat} (h : ReadsUnsigned field n)
    (hplus : '+' ∉ field) : ReadsDecimal field n := by
  rcases of_readsUnsigned h with hdec | ⟨digits, rfl, -⟩
  · exact hdec
  · exact absurd List.mem_cons_self hplus

theorem FieldReads.length_textBytes {width low high : Nat} {field : List Char}
    (h : FieldReads ReadsUnsigned width low high field) : (textBytes field).length = width := by
  obtain ⟨hlen, n, hn, -, -⟩ := h
  rw [length_textBytes_of_ascii (ascii_of_readsUnsigned hn), hlen]

theorem FieldReads.unsigned {width low high : Nat} {field : List Char} (hwidth : 0 < width)
    (h : FieldReads ReadsDecimal width low high field) :
    FieldReads ReadsUnsigned width low high field := by
  obtain ⟨hlen, n, hn, hbounds⟩ := h
  have hne : field ≠ [] := List.ne_nil_of_length_pos (by omega)
  exact ⟨hlen, n, readsUnsigned_of_readsDecimal hne hn, hbounds⟩

theorem FieldReads.decimal {width low high : Nat} {field : List Char}
    (h : FieldReads ReadsUnsigned width low high field) (hplus : '+' ∉ field) :
    FieldReads ReadsDecimal width low high field := by
  obtain ⟨hlen, n, hn, hbounds⟩ := h
  exact ⟨hlen, n, readsDecimal_of_not_signed hn hplus, hbounds⟩

theorem FieldReads.plus_not_mem {width low high : Nat} {field : List Char}
    (h : FieldReads ReadsDecimal width low high field) : '+' ∉ field := by
  obtain ⟨-, n, hn, -⟩ := h
  intro hmem
  exact ne_plus_of_isAsciiDigit (List.all_eq_true.1 hn.1 _ hmem) rfl

/-! ### Bounds -/

/-- Decimal digits denote less than ten to their number, so no numeric type of the source overflows
on a field. -/
theorem foldl_digits_lt {field : List Char} (h : field.all isAsciiDigit = true) (acc : Nat) :
    field.foldl (fun n c => 10 * n + (c.toNat - '0'.toNat)) acc < (acc + 1) * 10 ^ field.length := by
  induction field generalizing acc with
  | nil => simp
  | cons c field ih =>
      obtain ⟨hc, hrest⟩ := (Bool.and_eq_true _ _).mp h
      have hdigit : c.toNat - '0'.toNat ≤ 9 := by
        simp only [isAsciiDigit, Bool.and_eq_true, decide_eq_true_eq] at hc
        have hle : c.toNat ≤ '9'.toNat := hc.2
        have hnine : '9'.toNat = 57 := rfl
        have hzero : '0'.toNat = 48 := rfl
        omega
      calc (c :: field).foldl (fun n c => 10 * n + (c.toNat - '0'.toNat)) acc
          < (10 * acc + (c.toNat - '0'.toNat) + 1) * 10 ^ field.length := ih hrest _
        _ ≤ (10 * (acc + 1)) * 10 ^ field.length := Nat.mul_le_mul_right _ (by omega)
        _ = (acc + 1) * 10 ^ (c :: field).length := by
          rw [List.length_cons, Nat.pow_succ]
          ring

theorem lt_of_readsUnsigned {field : List Char} {n : Nat} (h : ReadsUnsigned field n) :
    n < 10 ^ field.length := by
  rcases of_readsUnsigned h with ⟨hall, rfl⟩ | ⟨digits, rfl, hall, rfl⟩
  · simpa using foldl_digits_lt hall 0
  · refine (foldl_digits_lt hall 0).trans_le ?_
    rw [Nat.zero_add, Nat.one_mul, List.length_cons]
    exact Nat.pow_le_pow_right (by decide) (Nat.le_succ _)

/-- A parsed field of some bytes has as many characters. -/
theorem length_of_readsUnsigned {field : List Char} {width n : Nat}
    (hlen : (textBytes field).length = width) (h : ReadsUnsigned field n) :
    field.length = width := by
  rw [← hlen, length_textBytes_of_ascii (ascii_of_readsUnsigned h)]

/-- A field passes its test exactly when it reads as a number within the test's bounds. -/
theorem any_parseUnsigned_iff {field : List Char} {width : Nat} {test : Nat → Bool}
    (low high : Nat) (hlen : ∀ n, ReadsUnsigned field n → field.length = width)
    (htest : ∀ n, n < 10 ^ width → (test n = true ↔ low ≤ n ∧ n ≤ high)) :
    (parseUnsigned field).any test = true ↔ FieldReads ReadsUnsigned width low high field := by
  constructor
  · intro hany
    obtain ⟨n, hn, hpass⟩ := (Option.any_eq_true _ _).mp hany
    refine ⟨hlen n hn, n, hn, (htest n ?_).1 hpass⟩
    rw [← hlen n hn]
    exact lt_of_readsUnsigned hn
  · intro hreads
    obtain ⟨hwidth, n, hn, hbounds⟩ := hreads
    have hlt := lt_of_readsUnsigned hn
    rw [hwidth] at hlt
    exact (Option.any_eq_true _ _).mpr ⟨n, hn, (htest n hlt).2 hbounds⟩

/-- What the parsers of a date and of a time read, for fields of the widths. -/
theorem dateFieldsValid_iff {f : TimestampFields}
    (hy : ∀ n, ReadsUnsigned f.year n → f.year.length = 4)
    (hm : ∀ n, ReadsUnsigned f.month n → f.month.length = 2)
    (hd : ∀ n, ReadsUnsigned f.day n → f.day.length = 2) :
    dateFieldsValid f.year f.month f.day = true ↔ f.DateReads ReadsUnsigned := by
  rw [dateFieldsValid, Bool.and_eq_true, Bool.and_eq_true,
    any_parseUnsigned_iff 1970 9999 hy (by simp; omega),
    any_parseUnsigned_iff 1 12 hm (by simp), any_parseUnsigned_iff 1 31 hd (by simp)]
  constructor
  · intro h
    exact ⟨h.1.1, h.1.2, h.2⟩
  · intro h
    exact ⟨⟨h.year, h.month⟩, h.day⟩

theorem timeFieldsValid_iff {f : TimestampFields}
    (hh : ∀ n, ReadsUnsigned f.hour n → f.hour.length = 2)
    (hm : ∀ n, ReadsUnsigned f.minute n → f.minute.length = 2)
    (hs : ∀ n, ReadsUnsigned f.second n → f.second.length = 2) :
    timeFieldsValid f.hour f.minute f.second = true ↔ f.TimeReads ReadsUnsigned := by
  rw [timeFieldsValid, Bool.and_eq_true, Bool.and_eq_true,
    any_parseUnsigned_iff 0 23 hh (by simp), any_parseUnsigned_iff 0 59 hm (by simp),
    any_parseUnsigned_iff 0 59 hs (by simp)]
  constructor
  · intro h
    exact ⟨h.1.1, h.1.2, h.2⟩
  · intro h
    exact ⟨⟨h.hour, h.minute⟩, h.second⟩

/-! ## The shape behind the byte tests -/

/-- The next ASCII byte after a whole character is a whole character too. -/
theorem exists_split_after {a b : List Char} {c d : Char} {n k : Nat} (hc : c.toNat < 0x80)
    (hd : d.toNat < 0x80) (ha : (textBytes a).length = n)
    (h : (textBytes (a ++ c :: b))[n + 1 + k]? = some (asciiByte d)) :
    ∃ a' b', b = a' ++ d :: b' ∧ (textBytes a').length = k := by
  apply exists_split_of_ascii hd
  rw [textBytes_append, textBytes_cons, utf8EncodeChar_of_ascii hc, List.singleton_append,
    List.getElem?_append_right (by omega), ha] at h
  rwa [show n + 1 + k - n = k + 1 by omega, List.getElem?_cons_succ] at h

/-- The date separators cut the text at whole characters. -/
theorem exists_date_split {chars : List Char} (h4 : (textBytes chars)[4]? = some (asciiByte '-'))
    (h7 : (textBytes chars)[7]? = some (asciiByte '-'))
    (h10 : (textBytes chars)[10]? = some (asciiByte 'T')) :
    ∃ year month day rest : List Char,
      chars = year ++ '-' :: (month ++ '-' :: (day ++ 'T' :: rest)) ∧
        (textBytes year).length = 4 ∧ (textBytes month).length = 2 ∧
          (textBytes day).length = 2 := by
  obtain ⟨year, rest₁, rfl, hy⟩ := exists_split_of_ascii (by decide) h4
  obtain ⟨month, rest₂, rfl, hm⟩ :=
    exists_split_after (k := 2) (by decide) (by decide) hy h7
  -- Up to the second separator there are seven bytes.
  have hym : (textBytes (year ++ '-' :: month)).length = 7 := by
    rw [textBytes_append, textBytes_cons, List.length_append, List.length_append, hy, hm]
    rfl
  obtain ⟨day, rest, rfl, hd⟩ := exists_split_after (a := year ++ '-' :: month) (b := rest₂)
    (c := '-') (d := 'T') (n := 7) (k := 2) (by decide) (by decide) hym (by simpa using h10)
  exact ⟨year, month, day, rest, rfl, hy, hm, hd⟩

/-- The separators of the time cut the rest at whole characters. -/
theorem exists_time_split {f : TimestampFields} {rest : List Char}
    (hdate : (textBytes f.dateText).length = 11)
    (h13 : (textBytes (f.dateText ++ rest))[13]? = some (asciiByte ':'))
    (h16 : (textBytes (f.dateText ++ rest))[16]? = some (asciiByte ':')) :
    ∃ hour minute tail : List Char, rest = hour ++ ':' :: (minute ++ ':' :: tail) ∧
      (textBytes hour).length = 2 ∧ (textBytes minute).length = 2 := by
  have hafter : ∀ k, (textBytes (f.dateText ++ rest))[11 + k]? = (textBytes rest)[k]? := by
    intro k
    rw [textBytes_append, List.getElem?_append_right (by omega), hdate, Nat.add_sub_cancel_left]
  rw [hafter 2] at h13
  rw [hafter 5] at h16
  obtain ⟨hour, rest', rfl, hh⟩ := exists_split_of_ascii (by decide) h13
  obtain ⟨minute, tail, rfl, hm⟩ := exists_split_after (k := 2) (by decide) (by decide) hh h16
  exact ⟨hour, minute, tail, rfl, hh, hm⟩

/-! ## The check on a text of the shape -/

section Shape

variable {value : String} {f : TimestampFields} {rest : List Char}
  (hvalue : value.toList = f.dateText ++ rest) (hy : (textBytes f.year).length = 4)
  (hm : (textBytes f.month).length = 2) (hd : (textBytes f.day).length = 2)

include hy hm hd

theorem length_dateText : (textBytes f.dateText).length = 11 := by
  simp only [TimestampFields.dateText, textBytes_append, textBytes_cons, textBytes_nil,
    List.length_append, hy, hm, hd]
  rfl

theorem sliceBytes_date :
    sliceBytes (f.dateText ++ rest) 0 4 = some f.year ∧
      sliceBytes (f.dateText ++ rest) 5 7 = some f.month ∧
        sliceBytes (f.dateText ++ rest) 8 10 = some f.day := by
  have hmonth : (textBytes (f.year ++ ['-'])).length = 5 := by
    rw [textBytes_append, List.length_append, hy]
    rfl
  have hday : (textBytes (f.year ++ '-' :: (f.month ++ ['-']))).length = 8 := by
    rw [textBytes_append, textBytes_cons, textBytes_append, List.length_append, List.length_append,
      List.length_append, hy, hm]
    rfl
  have hslices : sliceBytes ([] ++ (f.year ++ '-' :: (f.month ++ '-' :: (f.day ++ 'T' :: rest)))) 0
        4 = some f.year ∧
      sliceBytes ((f.year ++ ['-']) ++ (f.month ++ '-' :: (f.day ++ 'T' :: rest))) 5 7 =
        some f.month ∧
      sliceBytes ((f.year ++ '-' :: (f.month ++ ['-'])) ++ (f.day ++ 'T' :: rest)) 8 10 =
        some f.day :=
    ⟨sliceBytes_append rfl (by rw [hy]), sliceBytes_append hmonth (by rw [hm]),
      sliceBytes_append hday (by rw [hd])⟩
  simpa [TimestampFields.dateText] using hslices

include hvalue

/-- The check of a text of twenty bytes with the date separators. -/
theorem isValidIso8601TimestampBytes_eq (hlen : (textBytes value.toList).length = 20) :
    isValidIso8601TimestampBytes value =
      if dateFieldsValid f.year f.month f.day = false then some false
      else if (textBytes value.toList)[13]? ≠ some (asciiByte ':') ∨
          (textBytes value.toList)[16]? ≠ some (asciiByte ':') then some false
      else do
        let hour ← sliceBytes value.toList 11 13
        let minute ← sliceBytes value.toList 14 16
        let second ← sliceBytes value.toList 17 19
        if timeFieldsValid hour minute second = false then return false
        let zone ← sliceBytes value.toList 19 20
        return zone == ['Z'] := by
  have hym : (textBytes (f.year ++ '-' :: f.month)).length = 7 := by
    rw [textBytes_append, textBytes_cons, List.length_append, List.length_append, hy, hm]
    rfl
  have hymd : (textBytes (f.year ++ '-' :: (f.month ++ '-' :: f.day))).length = 10 := by
    rw [textBytes_append, textBytes_cons, textBytes_append, textBytes_cons, List.length_append,
      List.length_append, List.length_append, List.length_append, hy, hm, hd]
    rfl
  have h4 : (textBytes value.toList)[4]? = some (asciiByte '-') := by
    rw [hvalue]
    simpa [TimestampFields.dateText, asciiByte] using
      getElem?_textBytes_append (b := f.month ++ '-' :: (f.day ++ 'T' :: rest)) (d := '-')
        (by decide) hy
  have h7 : (textBytes value.toList)[7]? = some (asciiByte '-') := by
    rw [hvalue]
    simpa [TimestampFields.dateText, asciiByte] using
      getElem?_textBytes_append (b := f.day ++ 'T' :: rest) (d := '-') (by decide) hym
  have h10 : (textBytes value.toList)[10]? = some (asciiByte 'T') := by
    rw [hvalue]
    simpa [TimestampFields.dateText, asciiByte] using
      getElem?_textBytes_append (b := rest) (d := 'T') (by decide) hymd
  obtain ⟨hyear, hmonth, hday⟩ := @sliceBytes_date f rest hy hm hd
  rw [← hvalue] at hyear hmonth hday
  simp only [isValidIso8601TimestampBytes, hlen, h4, h7, h10, hyear, hmonth, hday, ne_eq,
    not_true_eq_false, or_self, if_false, Option.bind_eq_bind, Option.bind_some]
  rfl

end Shape

/-- The text has twenty bytes, an accepted date and the separators of a time; `tail` is what the
seconds and the zone are cut from. -/
structure HasTail (value : String) (f : TimestampFields) (tail : List Char) : Prop where
  text : value.toList = f.dateText ++ (f.hour ++ ':' :: (f.minute ++ ':' :: tail))
  date : f.DateReads ReadsUnsigned
  hour : (textBytes f.hour).length = 2
  minute : (textBytes f.minute).length = 2
  tail : (textBytes tail).length = 3

namespace HasTail

variable {value : String} {f : TimestampFields} {tail : List Char} (h : HasTail value f tail)

include h

theorem length_dateText : (textBytes f.dateText).length = 11 :=
  PgRoles.Core.length_dateText h.date.year.length_textBytes h.date.month.length_textBytes
    h.date.day.length_textBytes

theorem length_value : (textBytes value.toList).length = 20 := by
  rw [h.text]
  simp only [textBytes_append, textBytes_cons, List.length_append, h.length_dateText, h.hour,
    h.minute, h.tail]
  rfl

/-- On such a text the check depends on the cut of the tail alone. -/
theorem isValid_eq :
    isValidIso8601TimestampBytes value =
      (splitAtByte tail 2).map fun halves =>
        timeFieldsValid f.hour f.minute halves.1 && halves.2 == ['Z'] := by
  have hdate := h.length_dateText
  have hhour : (textBytes (f.dateText ++ f.hour)).length = 13 := by
    rw [textBytes_append, List.length_append, hdate, h.hour]
  have hmin : (textBytes (f.dateText ++ (f.hour ++ [':']))).length = 14 := by
    rw [textBytes_append, textBytes_append, List.length_append, List.length_append, hdate, h.hour]
    rfl
  have hsep : (textBytes (f.dateText ++ (f.hour ++ ':' :: f.minute))).length = 16 := by
    rw [textBytes_append, textBytes_append, textBytes_cons, List.length_append, List.length_append,
      List.length_append, hdate, h.hour, h.minute]
    rfl
  have hsec : (textBytes (f.dateText ++ (f.hour ++ ':' :: (f.minute ++ [':'])))).length = 17 := by
    rw [textBytes_append, textBytes_append, textBytes_cons, textBytes_append, List.length_append,
      List.length_append, List.length_append, List.length_append, hdate, h.hour, h.minute]
    rfl
  have h13 : (textBytes value.toList)[13]? = some (asciiByte ':') := by
    rw [h.text]
    simpa [asciiByte] using
      getElem?_textBytes_append (b := f.minute ++ ':' :: tail) (d := ':') (by decide) hhour
  have h16 : (textBytes value.toList)[16]? = some (asciiByte ':') := by
    rw [h.text]
    simpa [asciiByte] using getElem?_textBytes_append (b := tail) (d := ':') (by decide) hsep
  have hslices : sliceBytes (f.dateText ++ (f.hour ++ (':' :: (f.minute ++ ':' :: tail)))) 11 13 =
        some f.hour ∧
      sliceBytes ((f.dateText ++ (f.hour ++ [':'])) ++ (f.minute ++ (':' :: tail))) 14 16 =
        some f.minute ∧
      sliceBytes ((f.dateText ++ (f.hour ++ ':' :: (f.minute ++ [':']))) ++ tail) 17 19 =
        (splitAtByte tail 2).map Prod.fst :=
    ⟨sliceBytes_append hdate (by rw [h.hour]), sliceBytes_append hmin (by rw [h.minute]),
      sliceBytes_after hsec⟩
  have htext : ∀ l, f.dateText ++ (f.hour ++ ':' :: (f.minute ++ ':' :: l)) =
      (f.dateText ++ (f.hour ++ ':' :: (f.minute ++ [':']))) ++ l := fun l => by simp
  obtain ⟨hs₁, hs₂, hs₃⟩ := hslices
  have hassoc : (f.dateText ++ (f.hour ++ [':'])) ++ (f.minute ++ (':' :: tail)) =
      f.dateText ++ (f.hour ++ ':' :: (f.minute ++ ':' :: tail)) := by simp
  rw [← h.text] at hs₁
  rw [hassoc, ← h.text] at hs₂
  rw [← htext, ← h.text] at hs₃
  have hvalid := (dateFieldsValid_iff (fun _ _ => h.date.year.1) (fun _ _ => h.date.month.1)
    fun _ _ => h.date.day.1).2 h.date
  rw [isValidIso8601TimestampBytes_eq h.text h.date.year.length_textBytes
    h.date.month.length_textBytes h.date.day.length_textBytes h.length_value, hvalid,
    if_neg (by decide), if_neg (by simp [h13, h16]), hs₁, hs₂, hs₃]
  cases hcut : splitAtByte tail 2 with
  | none => rfl
  | some halves =>
      obtain ⟨second, zone⟩ := halves
      obtain ⟨rfl, hsecond⟩ := of_splitAtByte hcut
      -- What the cut leaves of the tail is the last byte.
      have hend : (textBytes (f.dateText ++ (f.hour ++ ':' :: (f.minute ++ ':' :: second)))).length
          = 19 := by
        rw [htext, textBytes_append, List.length_append, hsec, hsecond]
      have hzone : sliceBytes value.toList 19 20 = some zone := by
        have hone : (textBytes zone).length = 1 := by
          have htail := h.tail
          rw [textBytes_append, List.length_append, hsecond] at htail
          omega
        have hslice : sliceBytes ((f.dateText ++ (f.hour ++ ':' :: (f.minute ++ ':' :: second))) ++
            (zone ++ [])) 19 20 = some zone := sliceBytes_append hend (by rw [hone])
        rw [h.text]
        simpa using hslice
      cases htime : timeFieldsValid f.hour f.minute second <;> simp [hzone, htime]

end HasTail

/-- A check that does not end with a refusal got as far as the tail. -/
theorem exists_hasTail_of_ne_false {value : String}
    (h : isValidIso8601TimestampBytes value ≠ some false) : ∃ f tail, HasTail value f tail := by
  have hguards : (textBytes value.toList).length = 20 ∧
      (textBytes value.toList)[4]? = some (asciiByte '-') ∧
        (textBytes value.toList)[7]? = some (asciiByte '-') ∧
          (textBytes value.toList)[10]? = some (asciiByte 'T') := by
    by_contra hno
    apply h
    simp only [isValidIso8601TimestampBytes]
    by_cases hlen : (textBytes value.toList).length = 20
    · rw [if_neg (by simpa using hlen), if_pos]
      simp only [hlen, true_and, not_and_or] at hno
      exact hno
    · rw [if_pos hlen]
  obtain ⟨hlen, h4, h7, h10⟩ := hguards
  obtain ⟨year, month, day, rest, hvalue, hy, hm, hd⟩ := exists_date_split h4 h7 h10
  let f : TimestampFields := ⟨year, month, day, [], [], []⟩
  have htext : value.toList = f.dateText ++ rest := by
    rw [hvalue]
    simp [TimestampFields.dateText, f]
  have heq := isValidIso8601TimestampBytes_eq (f := f) htext hy hm hd hlen
  have hvalid : dateFieldsValid f.year f.month f.day = true := by
    by_contra hbad
    rw [heq, if_pos (by simpa using hbad)] at h
    exact h rfl
  have hseps : (textBytes value.toList)[13]? = some (asciiByte ':') ∧
      (textBytes value.toList)[16]? = some (asciiByte ':') := by
    by_contra hbad
    rw [heq, if_neg (by simp [hvalid]), if_pos (by tauto)] at h
    exact h rfl
  have hdate : (textBytes f.dateText).length = 11 := length_dateText hy hm hd
  rw [htext] at hseps
  obtain ⟨hour, minute, tail, rfl, hhour, hmin⟩ := exists_time_split hdate hseps.1 hseps.2
  refine ⟨{ f with hour := hour, minute := minute }, tail, htext, ?_, hhour, hmin, ?_⟩
  · exact (dateFieldsValid_iff (f := { f with hour := hour, minute := minute })
      (fun _ => length_of_readsUnsigned hy) (fun _ => length_of_readsUnsigned hm)
      fun _ => length_of_readsUnsigned hd).1 hvalid
  · rw [htext] at hlen
    simp only [textBytes_append, textBytes_cons, List.length_append, hdate, hhour, hmin] at hlen
    have hcolon : (String.utf8EncodeChar ':').length = 1 := rfl
    omega

/-! ## What the check accepts, and where it fails -/

variable {value : String}

/-- The check accepts the texts of the form whose fields parse. -/
theorem isValid_eq_true_iff :
    isValidIso8601TimestampBytes value = some true ↔ HasTimestampForm ReadsUnsigned value := by
  constructor
  · intro h
    obtain ⟨f, tail, htail⟩ := @exists_hasTail_of_ne_false value (by rw [h]; decide)
    rw [htail.isValid_eq] at h
    obtain ⟨⟨second, zone⟩, hcut, hboth⟩ := Option.map_eq_some_iff.1 h
    obtain ⟨htime, hzone⟩ := (Bool.and_eq_true _ _).mp hboth
    obtain ⟨rfl, hsecond⟩ := of_splitAtByte hcut
    obtain rfl := eq_of_beq hzone
    refine ⟨{ f with second := second }, htail.text,
      ⟨htail.date.year, htail.date.month, htail.date.day⟩, ?_⟩
    exact (timeFieldsValid_iff (f := { f with second := second })
      (fun _ => length_of_readsUnsigned htail.hour) (fun _ => length_of_readsUnsigned htail.minute)
      fun _ => length_of_readsUnsigned hsecond).1 htime
  · intro h
    obtain ⟨f, htext, hdate, htime⟩ := h
    have hsecond := htime.second.length_textBytes
    have htail : HasTail value f (f.second ++ ['Z']) := by
      refine ⟨htext, hdate, htime.hour.length_textBytes, htime.minute.length_textBytes, ?_⟩
      rw [textBytes_append, List.length_append, hsecond]
      rfl
    rw [htail.isValid_eq, splitAtByte_append hsecond, Option.map_some,
      (timeFieldsValid_iff (fun _ _ => htime.hour.1) (fun _ _ => htime.minute.1)
        fun _ _ => htime.second.1).2 htime]
    rfl

/-- The check stops with a panic at a slice that splits the last character, and only there. -/
theorem isValid_eq_none_iff :
    isValidIso8601TimestampBytes value = none ↔ SplitsLastCharacter value := by
  constructor
  · intro h
    obtain ⟨f, tail, htail⟩ := @exists_hasTail_of_ne_false value (by rw [h]; simp)
    rw [htail.isValid_eq, Option.map_eq_none_iff, splitAtByte_eq_none_iff htail.tail] at h
    obtain ⟨start, c, rfl, hc⟩ := h
    have hdate := htail.length_dateText
    refine ⟨htail.length_value, ⟨f, _, htail.text, htail.date⟩, ?_, ?_, ?_⟩
    · have hlen : (textBytes (f.dateText ++ f.hour)).length = 13 := by
        rw [textBytes_append, List.length_append, hdate, htail.hour]
      rw [htail.text]
      simpa [asciiByte] using getElem?_textBytes_append (b := f.minute ++ ':' :: (start ++ [c]))
        (d := ':') (by decide) hlen
    · have hlen : (textBytes (f.dateText ++ (f.hour ++ ':' :: f.minute))).length = 16 := by
        rw [textBytes_append, textBytes_append, textBytes_cons, List.length_append,
          List.length_append, List.length_append, hdate, htail.hour, htail.minute]
        rfl
      rw [htail.text]
      simpa [asciiByte] using getElem?_textBytes_append (b := start ++ [c]) (d := ':')
        (by decide) hlen
    · refine ⟨f.dateText ++ (f.hour ++ ':' :: (f.minute ++ ':' :: start)), c, ?_, hc⟩
      rw [htail.text]
      simp
  · intro h
    obtain ⟨f, rest, hvalue, hreads⟩ := h.date
    have hdate : (textBytes f.dateText).length = 11 :=
      length_dateText hreads.year.length_textBytes hreads.month.length_textBytes
        hreads.day.length_textBytes
    obtain ⟨hour, minute, tail, rfl, hhour, hmin⟩ := exists_time_split hdate
      (hvalue ▸ h.hour_separator) (hvalue ▸ h.minute_separator)
    have htail : HasTail value { f with hour := hour, minute := minute } tail := by
      refine ⟨hvalue, ⟨hreads.year, hreads.month, hreads.day⟩, hhour, hmin, ?_⟩
      have hlen := h.length
      have hcolon : (String.utf8EncodeChar ':').length = 1 := rfl
      rw [hvalue] at hlen
      simp only [textBytes_append, textBytes_cons, List.length_append, hdate, hhour, hmin] at hlen
      omega
    rw [htail.isValid_eq, Option.map_eq_none_iff, splitAtByte_eq_none_iff htail.tail]
    obtain ⟨start, c, hlast, hc⟩ := h.last
    -- The tail is not empty, so its last character is the last one of the text.
    have hne : tail ≠ [] := by
      intro hnil
      have hthree := htail.tail
      rw [hnil] at hthree
      cases hthree
    obtain ⟨front, d, rfl⟩ := (List.eq_nil_or_concat tail).resolve_left hne
    rw [List.concat_eq_append] at hvalue ⊢
    refine ⟨front, d, rfl, ?_⟩
    have hend : start ++ [c] =
        f.dateText ++ (hour ++ ':' :: (minute ++ ':' :: front)) ++ [d] := by
      rw [← hlast, hvalue]
      simp
    rwa [← List.singleton_inj.1 (List.append_inj_right' hend rfl)]

/-! ## Where the check does what is documented -/

theorem hasTimestampForm_of_isUtcTimestamp (h : IsUtcTimestamp value) :
    HasTimestampForm ReadsUnsigned value := by
  obtain ⟨f, htext, hdate, htime⟩ := h
  exact ⟨f, htext,
    ⟨hdate.year.unsigned (by decide), hdate.month.unsigned (by decide),
      hdate.day.unsigned (by decide)⟩,
    ⟨htime.hour.unsigned (by decide), htime.minute.unsigned (by decide),
      htime.second.unsigned (by decide)⟩⟩

theorem plus_not_mem_of_isUtcTimestamp (h : IsUtcTimestamp value) : '+' ∉ value.toList := by
  obtain ⟨f, htext, hdate, htime⟩ := h
  have hy := hdate.year.plus_not_mem
  have hm := hdate.month.plus_not_mem
  have hd := hdate.day.plus_not_mem
  have hh := htime.hour.plus_not_mem
  have hmin := htime.minute.plus_not_mem
  have hs := htime.second.plus_not_mem
  rw [htext]
  simp [TimestampFields.text, TimestampFields.dateText, hy, hm, hd, hh, hmin, hs]

/-- Without a plus sign every parsed field is decimal. -/
theorem isUtcTimestamp_of_form (h : HasTimestampForm ReadsUnsigned value)
    (hplus : '+' ∉ value.toList) : IsUtcTimestamp value := by
  obtain ⟨f, htext, hdate, htime⟩ := h
  rw [htext] at hplus
  simp only [TimestampFields.text, TimestampFields.dateText, List.mem_append, List.mem_cons,
    not_or] at hplus
  obtain ⟨⟨hy, -, hm, -, hd, -⟩, hh, -, hmin, -, hs, -⟩ := hplus
  exact ⟨f, htext, ⟨hdate.year.decimal hy, hdate.month.decimal hm, hdate.day.decimal hd⟩,
    ⟨htime.hour.decimal hh, htime.minute.decimal hmin, htime.second.decimal hs⟩⟩

/-- The check ends, and accepts exactly the documented form, unless the text splits at its last
character or is signed. -/
theorem timestampCheck_documented_iff (value : String) :
    (∃ accepted, isValidIso8601TimestampBytes value = some accepted ∧
        (accepted = true ↔ IsUtcTimestamp value)) ↔
      ¬ SplitsLastCharacter value ∧ ¬ HasSignedField value := by
  rw [← isValid_eq_none_iff]
  constructor
  · intro h
    obtain ⟨accepted, hcheck, hiff⟩ := h
    refine ⟨by rw [hcheck]; simp, fun hsigned => ?_⟩
    obtain ⟨hplus, hform⟩ := hsigned
    rw [← isValid_eq_true_iff, hcheck] at hform
    exact plus_not_mem_of_isUtcTimestamp (hiff.1 (Option.some.inj hform)) hplus
  · intro h
    obtain ⟨hends, hunsigned⟩ := h
    obtain ⟨accepted, hcheck⟩ := Option.ne_none_iff_exists'.1 hends
    refine ⟨accepted, hcheck, fun haccepted => ?_, fun hutc => ?_⟩
    · rw [haccepted, isValid_eq_true_iff] at hcheck
      by_contra hno
      apply hunsigned
      refine ⟨?_, hcheck⟩
      by_contra hplus
      exact hno (isUtcTimestamp_of_form hcheck hplus)
    · have htrue := isValid_eq_true_iff.2 (hasTimestampForm_of_isUtcTimestamp hutc)
      rw [hcheck] at htrue
      exact Option.some.inj htrue

/-- A two-byte character at the end of twenty bytes is split by the slice of the seconds, and the
parsers of month, day and time take a plus sign for a digit. -/
theorem timestampCheck_undocumented :
    (¬ ∃ accepted, isValidIso8601TimestampBytes "2025-12-31T00:00:0é" = some accepted ∧
        (accepted = true ↔ IsUtcTimestamp "2025-12-31T00:00:0é")) ∧
      isValidIso8601TimestampBytes "2025-+1-+1T+0:+0:+0Z" = some true ∧
        ¬ IsUtcTimestamp "2025-+1-+1T+0:+0:+0Z" := by
  refine ⟨fun h => ?_, by decide +kernel, fun hutc => ?_⟩
  · obtain ⟨accepted, hcheck, -⟩ := h
    have hpanic : isValidIso8601TimestampBytes "2025-12-31T00:00:0é" = none := by decide +kernel
    rw [hpanic] at hcheck
    cases hcheck
  · exact plus_not_mem_of_isUtcTimestamp hutc (by decide)

end PgRoles.Core

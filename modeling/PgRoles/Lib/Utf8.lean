import Mathlib

/-!
# Texts as bytes

A text is its characters; some programs read it byte by byte and cut it at byte positions, where a
cut inside a character is an error. An ASCII byte read at a position is a whole character there, so
it is a safe place to cut at (`exists_split_of_ascii`).
-/

set_option autoImplicit false

namespace PgRoles.Lib

/-- The bytes of a text, in UTF-8. -/
def textBytes (chars : List Char) : List UInt8 := chars.flatMap String.utf8EncodeChar

/-- The text before and from a byte position; there is none inside a character or past the end. -/
def splitAtByte : List Char → Nat → Option (List Char × List Char)
  | chars, 0 => some ([], chars)
  | [], _ + 1 => none
  | c :: chars, n + 1 =>
      if c.utf8Size ≤ n + 1 then
        (splitAtByte chars (n + 1 - c.utf8Size)).map fun halves => (c :: halves.1, halves.2)
      else none

/-- The text between two byte positions. -/
def sliceBytes (chars : List Char) (start stop : Nat) : Option (List Char) := do
  let (_, rest) ← splitAtByte chars start
  let (slice, _) ← splitAtByte rest (stop - start)
  return slice

/-! ## Bytes of characters -/

@[simp] theorem textBytes_nil : textBytes [] = [] := rfl

@[simp] theorem textBytes_cons (c : Char) (chars : List Char) :
    textBytes (c :: chars) = String.utf8EncodeChar c ++ textBytes chars := rfl

@[simp] theorem textBytes_append (a b : List Char) :
    textBytes (a ++ b) = textBytes a ++ textBytes b := List.flatMap_append

/-- An ASCII character is its own byte. -/
theorem utf8EncodeChar_of_ascii {c : Char} (h : c.toNat < 0x80) :
    String.utf8EncodeChar c = [UInt8.ofNat c.toNat] := by
  have hle : c.val.toNat ≤ 0x7f := by
    rw [← Char.toNat]
    omega
  unfold String.utf8EncodeChar
  simp only [hle, if_true]
  rfl

/-- Every byte of another character lies above ASCII. -/
theorem le_of_mem_utf8EncodeChar {c : Char} (h : 0x80 ≤ c.toNat) {b : UInt8}
    (hb : b ∈ String.utf8EncodeChar c) : 0x80 ≤ b.toNat := by
  have hgt : ¬ c.val.toNat ≤ 0x7f := by
    rw [← Char.toNat]
    omega
  unfold String.utf8EncodeChar at hb
  simp only [hgt, if_false] at hb
  -- Each form of encoding sets the top bit of each of its bytes.
  split_ifs at hb <;>
  · simp only [List.mem_cons, List.not_mem_nil, or_false] at hb
    rcases hb with rfl | rfl | rfl | rfl <;> simp only [UInt8.toNat_ofNat'] <;> omega

/-- The size of a string counts the bytes of its characters. -/
theorem length_textBytes_toList (s : String) : (textBytes s.toList).length = s.utf8ByteSize := by
  conv_rhs => rw [← String.ofList_toList (s := s)]
  rw [← String.size_toByteArray, String.toByteArray_ofList, List.utf8Encode, List.size_toByteArray]
  rfl

theorem utf8Size_eq_one_iff {c : Char} : c.utf8Size = 1 ↔ c.toNat < 0x80 := by
  rw [Char.utf8Size_eq_one_iff, UInt32.le_iff_toNat_le]
  exact Nat.lt_succ_iff.symm

/-- A text of ASCII characters has as many bytes as characters. -/
theorem length_textBytes_of_ascii {chars : List Char} (h : ∀ c ∈ chars, c.toNat < 0x80) :
    (textBytes chars).length = chars.length := by
  induction chars with
  | nil => rfl
  | cons c chars ih =>
      rw [textBytes_cons, List.length_append, ih fun d hd => h d (List.mem_cons_of_mem _ hd),
        utf8EncodeChar_of_ascii (h c List.mem_cons_self), List.length_singleton, List.length_cons]
      omega

theorem length_le_length_textBytes (chars : List Char) :
    chars.length ≤ (textBytes chars).length := by
  induction chars with
  | nil => exact Nat.le_refl _
  | cons c chars ih =>
      have hpos := c.utf8Size_pos
      rw [textBytes_cons, List.length_append, String.length_utf8EncodeChar, List.length_cons]
      omega

/-! ## Cuts -/

@[simp] theorem splitAtByte_zero (chars : List Char) : splitAtByte chars 0 = some ([], chars) := by
  cases chars <;> rfl

/-- A cut at the end of a part gives that part. -/
theorem splitAtByte_append {a b : List Char} {n : Nat} (h : (textBytes a).length = n) :
    splitAtByte (a ++ b) n = some (a, b) := by
  induction a generalizing n with
  | nil =>
      rw [← h]
      exact splitAtByte_zero b
  | cons c a ih =>
      rw [textBytes_cons, List.length_append, String.length_utf8EncodeChar] at h
      have hpos := c.utf8Size_pos
      obtain ⟨m, rfl⟩ : ∃ m, n = m + 1 := ⟨n - 1, by omega⟩
      rw [List.cons_append, splitAtByte, if_pos (by omega), ih (by omega), Option.map_some]

/-- A cut that succeeds gives two parts of the text, the first as long as the position. -/
theorem of_splitAtByte {chars a b : List Char} {n : Nat} (h : splitAtByte chars n = some (a, b)) :
    chars = a ++ b ∧ (textBytes a).length = n := by
  induction chars generalizing n a with
  | nil =>
      cases n with
      | zero =>
          obtain ⟨rfl, rfl⟩ := Prod.mk.inj (Option.some.inj h)
          exact ⟨rfl, rfl⟩
      | succ n => cases h
  | cons c chars ih =>
      cases n with
      | zero =>
          obtain ⟨rfl, rfl⟩ := Prod.mk.inj (Option.some.inj h)
          exact ⟨rfl, rfl⟩
      | succ n =>
          rw [splitAtByte] at h
          split_ifs at h with hle
          obtain ⟨⟨a', b'⟩, hsplit, heq⟩ := Option.map_eq_some_iff.1 h
          obtain ⟨rfl, rfl⟩ := Prod.mk.inj heq
          obtain ⟨rfl, hlen⟩ := ih hsplit
          refine ⟨rfl, ?_⟩
          rw [textBytes_cons, List.length_append, String.length_utf8EncodeChar, hlen]
          omega

/-- A slice that starts at the end of a part is a cut of the rest. -/
theorem sliceBytes_after {a b : List Char} {start stop : Nat} (ha : (textBytes a).length = start) :
    sliceBytes (a ++ b) start stop = (splitAtByte b (stop - start)).map Prod.fst := by
  simp only [sliceBytes, splitAtByte_append ha, Option.bind_eq_bind, Option.bind_some]
  cases splitAtByte b (stop - start) <;> rfl

/-- A slice between two cuts that lie at the ends of parts. -/
theorem sliceBytes_append {a b c : List Char} {start stop : Nat}
    (ha : (textBytes a).length = start) (hb : start + (textBytes b).length = stop) :
    sliceBytes (a ++ (b ++ c)) start stop = some b := by
  rw [sliceBytes_after ha, splitAtByte_append (by omega), Option.map_some]

/-- An ASCII byte at a position is a whole character there. -/
theorem exists_split_of_ascii {chars : List Char} {n : Nat} {d : Char} (hd : d.toNat < 0x80)
    (h : (textBytes chars)[n]? = some (UInt8.ofNat d.toNat)) :
    ∃ a b, chars = a ++ d :: b ∧ (textBytes a).length = n := by
  have hsmall : (UInt8.ofNat d.toNat).toNat < 0x80 := by
    rw [UInt8.toNat_ofNat']
    omega
  induction chars generalizing n with
  | nil => cases h
  | cons c chars ih =>
      rw [textBytes_cons] at h
      by_cases hascii : c.toNat < 0x80
      · rw [utf8EncodeChar_of_ascii hascii, List.singleton_append] at h
        cases n with
        | zero =>
            have hval : c.toNat = d.toNat := by
              have hbyte := congrArg UInt8.toNat (Option.some.inj h)
              simp only [UInt8.toNat_ofNat'] at hbyte
              omega
            refine ⟨[], chars, ?_, rfl⟩
            rw [List.nil_append, Char.toNat_inj.1 hval]
        | succ n =>
            rw [List.getElem?_cons_succ] at h
            obtain ⟨a, b, rfl, hlen⟩ := ih h
            refine ⟨c :: a, b, rfl, ?_⟩
            rw [textBytes_cons, utf8EncodeChar_of_ascii hascii, List.singleton_append,
              List.length_cons, hlen]
      · -- Inside a character of several bytes no byte is ASCII, so the position lies after it.
        have hafter : c.utf8Size ≤ n := by
          by_contra hlt
          rw [← String.length_utf8EncodeChar, not_le] at hlt
          rw [List.getElem?_append_left hlt] at h
          have hbyte := le_of_mem_utf8EncodeChar (by omega) (List.mem_of_getElem? h)
          omega
        rw [List.getElem?_append_right (by rwa [String.length_utf8EncodeChar]),
          String.length_utf8EncodeChar] at h
        obtain ⟨a, b, rfl, hlen⟩ := ih h
        refine ⟨c :: a, b, rfl, ?_⟩
        rw [textBytes_cons, List.length_append, String.length_utf8EncodeChar, hlen]
        omega

/-- A cut before the last byte falls inside the last character exactly when that has several. -/
theorem splitAtByte_eq_none_iff {chars : List Char} {n : Nat}
    (h : (textBytes chars).length = n + 1) :
    splitAtByte chars n = none ↔ ∃ a c, chars = a ++ [c] ∧ 0x80 ≤ c.toNat := by
  constructor
  · intro hnone
    have hne : chars ≠ [] := by
      intro hnil
      rw [hnil] at h
      cases h
    obtain ⟨a, c, rfl⟩ := (List.eq_nil_or_concat chars).resolve_left hne
    refine ⟨a, c, by rw [List.concat_eq_append], ?_⟩
    rw [List.concat_eq_append] at h hnone
    by_contra hascii
    rw [textBytes_append, textBytes_cons, utf8EncodeChar_of_ascii (not_le.1 hascii),
      List.length_append] at h
    rw [splitAtByte_append (by simpa using h)] at hnone
    cases hnone
  · intro hlast
    obtain ⟨a, c, rfl, hc⟩ := hlast
    by_contra hsome
    obtain ⟨⟨front, rest⟩, hsplit⟩ := Option.ne_none_iff_exists'.1 hsome
    obtain ⟨heq, hlen⟩ := of_splitAtByte hsplit
    have hone : (textBytes rest).length = 1 := by
      rw [heq, textBytes_append, List.length_append] at h
      omega
    -- The rest is one character of one byte, and it is the last one.
    match rest, hone with
    | [d], hone =>
        have hcd : c = d := by
          have hlasts := congrArg List.getLast? heq
          simpa using hlasts
        rw [textBytes_cons, textBytes_nil, List.append_nil, String.length_utf8EncodeChar,
          utf8Size_eq_one_iff, ← hcd] at hone
        omega
    | d :: e :: rest, hone =>
        have hle := length_le_length_textBytes (d :: e :: rest)
        rw [hone] at hle
        simp at hle

/-- The byte after a part is the character there, when that is ASCII. -/
theorem getElem?_textBytes_append {a b : List Char} {d : Char} {n : Nat} (hd : d.toNat < 0x80)
    (h : (textBytes a).length = n) :
    (textBytes (a ++ d :: b))[n]? = some (UInt8.ofNat d.toNat) := by
  rw [textBytes_append, textBytes_cons, utf8EncodeChar_of_ascii hd, List.singleton_append,
    List.getElem?_append_right (by omega), h, Nat.sub_self, List.getElem?_cons_zero]

end PgRoles.Lib

import PgRoles.Lib.Utf8

/-!
# The byte order of UTF-8 texts

Texts are compared by the bytes of their UTF-8 encodings: at the first byte that differs, or by
length. That is the order of the texts by their characters (`compareBytes_textBytes_lt_iff`), because
two characters' encodings differ at a byte where the smaller character has the smaller byte
(`compareBytes_encode_lt`).
-/

set_option autoImplicit false

namespace PgRoles.Lib

/-- The difference at the first place where two byte sequences differ, else of their lengths. -/
def compareBytes : List UInt8 → List UInt8 → Int
  | a :: as, b :: bs => if a ≠ b then (a.toNat : Int) - b.toNat else compareBytes as bs
  | as, bs => (as.length : Int) - bs.length

@[simp] theorem compareBytes_cons (a b : UInt8) (as bs : List UInt8) :
    compareBytes (a :: as) (b :: bs) =
      if a ≠ b then (a.toNat : Int) - b.toNat else compareBytes as bs := rfl

theorem compareBytes_append_left (common as bs : List UInt8) :
    compareBytes (common ++ as) (common ++ bs) = compareBytes as bs := by
  induction common with
  | nil => rfl
  | cons b common ih =>
      rw [List.cons_append, List.cons_append, compareBytes_cons, if_neg (not_not.2 rfl), ih]

theorem compareBytes_swap (as bs : List UInt8) : compareBytes bs as = -compareBytes as bs := by
  induction as generalizing bs with
  | nil => cases bs <;> simp [compareBytes]
  | cons a as ih =>
      cases bs with
      | nil => simp [compareBytes]
      | cons b bs =>
          rw [compareBytes_cons, compareBytes_cons, ih]
          by_cases hab : a = b
          · simp [hab]
          · rw [if_pos hab, if_pos (Ne.symm hab)]
            omega

/-! ## Encodings of characters -/

theorem toNat_lt_limit (c : Char) : c.toNat < 0x110000 := by
  rcases c.valid with h | h
  · exact lt_trans h (by decide)
  · exact h.2

theorem utf8EncodeChar_eq (c : Char) :
    (c.toNat ≤ 0x7f ∧ String.utf8EncodeChar c = [UInt8.ofNat c.toNat]) ∨
    (0x7f < c.toNat ∧ c.toNat ≤ 0x7ff ∧ String.utf8EncodeChar c =
      [UInt8.ofNat (c.toNat / 64 % 32 + 192), UInt8.ofNat (c.toNat % 64 + 128)]) ∨
    (0x7ff < c.toNat ∧ c.toNat ≤ 0xffff ∧ String.utf8EncodeChar c =
      [UInt8.ofNat (c.toNat / 4096 % 16 + 224), UInt8.ofNat (c.toNat / 64 % 64 + 128),
        UInt8.ofNat (c.toNat % 64 + 128)]) ∨
    (0xffff < c.toNat ∧ c.toNat < 0x110000 ∧ String.utf8EncodeChar c =
      [UInt8.ofNat (c.toNat / 262144 % 8 + 240), UInt8.ofNat (c.toNat / 4096 % 64 + 128),
        UInt8.ofNat (c.toNat / 64 % 64 + 128), UInt8.ofNat (c.toNat % 64 + 128)]) := by
  unfold String.utf8EncodeChar
  simp only [show c.val.toNat = c.toNat from rfl]
  split_ifs with h1 h2 h3
  · exact .inl ⟨h1, rfl⟩
  · exact .inr (.inl ⟨by omega, h2, rfl⟩)
  · exact .inr (.inr (.inl ⟨by omega, h3, rfl⟩))
  · exact .inr (.inr (.inr ⟨by omega, toNat_lt_limit c, rfl⟩))

theorem compareBytes_ofNat_lt {a b : Nat} (ha : a < 256) (hb : b < 256) {as bs : List UInt8} :
    compareBytes (UInt8.ofNat a :: as) (UInt8.ofNat b :: bs) < 0 ↔
      a < b ∨ a = b ∧ compareBytes as bs < 0 := by
  have ha' : (UInt8.ofNat a).toNat = a := by rw [UInt8.toNat_ofNat']; omega
  have hb' : (UInt8.ofNat b).toNat = b := by rw [UInt8.toNat_ofNat']; omega
  have heq : UInt8.ofNat a = UInt8.ofNat b ↔ a = b := by
    rw [← UInt8.toNat_inj, ha', hb']
  rw [compareBytes_cons]
  by_cases hab : a = b
  · rw [if_neg (not_not.2 (heq.2 hab))]
    simp [hab]
  · rw [if_pos fun h => hab (heq.1 h), ha', hb']
    omega

/-- The smaller number has the smaller quotient, or the smaller remainder. -/
theorem div_lt_or_mod_lt {m n : Nat} (k : Nat) (h : m < n) :
    m / k < n / k ∨ m / k = n / k ∧ m % k < n % k := by
  rcases (Nat.div_le_div_right (c := k) h.le).lt_or_eq with hlt | heq
  · exact .inl hlt
  · refine .inr ⟨heq, ?_⟩
    have hm := Nat.div_add_mod m k
    have hn := Nat.div_add_mod n k
    rw [heq] at hm
    omega

/-- Two characters differ first at a byte where the smaller one has the smaller byte. -/
theorem compareBytes_encode_lt {c d : Char} (h : c.toNat < d.toNat) (s t : List UInt8) :
    compareBytes (String.utf8EncodeChar c ++ s) (String.utf8EncodeChar d ++ t) < 0 := by
  have hlow : c.toNat / 64 < d.toNat / 64 ∨
      c.toNat / 64 = d.toNat / 64 ∧ c.toNat % 64 < d.toNat % 64 := div_lt_or_mod_lt 64 h
  have hmiddle : c.toNat / 64 < d.toNat / 64 → c.toNat / 4096 < d.toNat / 4096 ∨
      c.toNat / 4096 = d.toNat / 4096 ∧ c.toNat / 64 % 64 < d.toNat / 64 % 64 := by
    intro hlt
    have hdigit := div_lt_or_mod_lt 64 hlt
    rwa [Nat.div_div_eq_div_mul, Nat.div_div_eq_div_mul] at hdigit
  have hhigh : c.toNat / 4096 < d.toNat / 4096 → c.toNat / 262144 < d.toNat / 262144 ∨
      c.toNat / 262144 = d.toNat / 262144 ∧ c.toNat / 4096 % 64 < d.toNat / 4096 % 64 := by
    intro hlt
    have hdigit := div_lt_or_mod_lt 64 hlt
    rwa [Nat.div_div_eq_div_mul, Nat.div_div_eq_div_mul] at hdigit
  have htop : ∀ e : Char, e.toNat / 262144 % 8 = e.toNat / 262144 := by
    intro e
    have hlimit := toNat_lt_limit e
    exact Nat.mod_eq_of_lt (by omega)
  -- a longer encoding starts with a larger byte; one of the same length is compared digit by digit
  rcases utf8EncodeChar_eq c with ⟨hc, he⟩ | ⟨hc, hc', he⟩ | ⟨hc, hc', he⟩ | ⟨hc, hc', he⟩ <;>
  rcases utf8EncodeChar_eq d with ⟨hd, hf⟩ | ⟨hd, hd', hf⟩ | ⟨hd, hd', hf⟩ | ⟨hd, hd', hf⟩ <;>
  · rw [he, hf]
    simp only [List.cons_append, List.nil_append, htop]
    repeat rw [compareBytes_ofNat_lt (by omega) (by omega)]
    omega

theorem compareBytes_textBytes_lt {l r : List Char} (h : l < r) :
    compareBytes (textBytes l) (textBytes r) < 0 := by
  induction h with
  | nil =>
      rename_i c r
      have hpos := c.utf8Size_pos
      rw [textBytes_nil, textBytes_cons]
      cases hbytes : String.utf8EncodeChar c ++ textBytes r with
      | nil =>
          have hlen := congrArg List.length hbytes
          rw [List.length_append, String.length_utf8EncodeChar, List.length_nil] at hlen
          omega
      | cons b bs =>
          rw [compareBytes, List.length_nil, List.length_cons]
          · omega
          · intro a as b bs h
            cases h
  | cons h ih =>
      rw [textBytes_cons, textBytes_cons, compareBytes_append_left]
      exact ih
  | rel h =>
      rw [textBytes_cons, textBytes_cons]
      exact compareBytes_encode_lt h _ _

theorem compareBytes_self (as : List UInt8) : compareBytes as as = 0 := by
  have h := compareBytes_swap as as
  omega

/-- Texts are in the same order by their bytes as by their characters. -/
theorem compareBytes_textBytes_lt_iff {l r : String} :
    compareBytes (textBytes l.toList) (textBytes r.toList) < 0 ↔ compare l r = .lt := by
  have hcompare : compare l r = .lt ↔ l.toList < r.toList := by
    refine (compareOfLessAndEq_eq_lt (x := l) (y := r)).trans ?_
    exact String.lt_iff
  rw [hcompare]
  refine ⟨fun h => ?_, compareBytes_textBytes_lt⟩
  rcases lt_trichotomy l.toList r.toList with hlt | heq | hgt
  · exact hlt
  · rw [heq, compareBytes_self] at h
    exact absurd h (lt_irrefl _)
  · have hback := compareBytes_textBytes_lt hgt
    rw [compareBytes_swap] at hback
    omega

end PgRoles.Lib

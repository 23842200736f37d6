import PgRoles.Lib.Text
import PgRoles.Lib.Words
import PgRoles.Operator.PolicySpec

/-!
# Kubernetes names as words and labels

A sanitized segment is the lowercased words of its input, letters and digits, joined by dashes
(`toList_sanitizeDnsLabelSegment`). A resource name is a list of labels joined by dots; cutting one,
extending the last label behind a dash and joining words all give names again. Label values are cut
and trimmed in one place, and the result is always valid (`isValidLabelValue_sanitize`).
-/

set_option autoImplicit false

namespace PgRoles.Operator

open PgRoles.Core PgRoles.Lib

/-! ## Characters -/

theorem isLowerAlnum_dash : isLowerAlnum '-' = false := by decide

theorem ne_dash_of_isLowerAlnum {c : Char} (h : isLowerAlnum c = true) : c ≠ '-' := by
  rintro rfl
  rw [isLowerAlnum_dash] at h
  cases h

theorem ne_dot_of_isLowerAlnum {c : Char} (h : isLowerAlnum c = true) : c ≠ '.' := by
  rintro rfl
  exact absurd h (by decide)

theorem utf8Size_of_isLowerAlnum {c : Char} (h : isLowerAlnum c = true) : c.utf8Size = 1 := by
  rw [Char.utf8Size_eq_one_iff]
  simp only [isLowerAlnum, isAsciiLower, isAsciiDigit, Bool.or_eq_true, Bool.and_eq_true,
    decide_eq_true_eq, Char.le_def] at h
  rcases h with h | h
  · exact UInt32.le_trans h.2 (by decide)
  · exact UInt32.le_trans h.2 (by decide)

/-- The characters of a resource name. -/
def isNameChar (c : Char) : Bool := isLowerAlnum c || c == '-' || c == '.'

theorem utf8Size_of_isNameChar {c : Char} (h : isNameChar c = true) : c.utf8Size = 1 := by
  simp only [isNameChar, Bool.or_eq_true, beq_iff_eq] at h
  rcases h with (h | rfl) | rfl
  · exact utf8Size_of_isLowerAlnum h
  · decide
  · decide

/-- Bytes count as characters in an ASCII text. -/
theorem takeBytes_of_utf8Size {text : List Char} (h : ∀ c ∈ text, c.utf8Size = 1) (n : Nat) :
    takeBytes n text = text.take n := by
  induction text generalizing n with
  | nil => simp [takeBytes]
  | cons c text ih =>
    rw [takeBytes, h c List.mem_cons_self]
    have htail := ih fun c hc => h c (List.mem_cons_of_mem _ hc)
    cases n with
    | zero => simp
    | succ n => rw [if_pos (by omega), htail, Nat.add_sub_cancel, List.take_succ_cons]

/-- A text of one-byte characters has as many bytes as characters. -/
theorem utf8ByteSize_of_utf8Size {text : List Char} (h : ∀ c ∈ text, c.utf8Size = 1) :
    (String.ofList text).utf8ByteSize = text.length := by
  induction text with
  | nil => rfl
  | cons c text ih =>
    have htail := ih fun c hc => h c (List.mem_cons_of_mem _ hc)
    rw [String.ofList_cons, String.utf8ByteSize_append, String.utf8ByteSize_singleton, htail,
      h c List.mem_cons_self, List.length_cons]
    omega

/-! ## Segments are words -/

/-- What a character contributes to a word: letters and digits, lowercased. -/
def normalizedAlnum (c : Char) : Option Char :=
  let lowered := if isAsciiUpper c then c.toLower else c
  if isLowerAlnum lowered then some lowered else none

theorem isLowerAlnum_of_normalizedAlnum {b a : Char} (h : normalizedAlnum b = some a) :
    isLowerAlnum a = true := by
  simp only [normalizedAlnum, Option.ite_none_right_eq_some, Option.some.injEq] at h
  rw [← h.2]
  exact h.1

/-- The words of a segment; the fallback is the word of an input that has none. -/
def segmentWords (input fallback : String) : List (List Char) :=
  let ws := words normalizedAlnum input.toList
  if ws.isEmpty then [fallback.toList] else ws

/-- Words of lowercase letters and digits. -/
abbrev AlnumWords (ws : List (List Char)) : Prop := WordsOver (isLowerAlnum · = true) ws

/-- The words of a segment are alphanumeric. -/
theorem alnumWords_segmentWords (input : String) {fallback : String}
    (h : AlnumWords [fallback.toList]) : AlnumWords (segmentWords input fallback) := by
  unfold segmentWords
  dsimp only
  split_ifs
  · exact h
  · exact wordsOver_words (fun _ _ => isLowerAlnum_of_normalizedAlnum) _

theorem segmentWords_ne_nil (input fallback : String) : segmentWords input fallback ≠ [] := by
  unfold segmentWords
  dsimp only
  split_ifs with hempty
  · exact List.cons_ne_nil _ _
  · exact fun h => hempty (by rw [h]; rfl)

theorem pushSanitized_eq : pushSanitized = collapseStep '-' normalizedAlnum := by
  funext acc c
  unfold pushSanitized collapseStep normalizedAlnum
  dsimp only
  split_ifs <;> simp_all

theorem ne_dash_of_normalizedAlnum (b a : Char) (h : normalizedAlnum b = some a) : a ≠ '-' :=
  ne_dash_of_isLowerAlnum (isLowerAlnum_of_normalizedAlnum h)

/-- A sanitized segment is its words joined by dashes. -/
theorem toList_sanitizeDnsLabelSegment (input fallback : String) :
    (sanitizeDnsLabelSegment input fallback).toList =
      ['-'].intercalate (segmentWords input fallback) := by
  have hjoin := rdropWhile_foldl_collapse ne_dash_of_normalizedAlnum input.toList
  have hnil : ['-'].intercalate (words normalizedAlnum input.toList) = [] ↔ _ :=
    intercalate_eq_nil (wordsOver_words ne_dash_of_normalizedAlnum input.toList)
  unfold sanitizeDnsLabelSegment segmentWords
  rw [pushSanitized_eq, hjoin]
  dsimp only
  by_cases hwords : words normalizedAlnum input.toList = []
  · rw [hwords]
    simp
  · have hne := fun h => hwords (hnil.1 h)
    rw [if_neg (by simpa using hne), if_neg (by simpa using hwords), String.toList_ofList]

/-! ## Labels and names -/

/-- A label: letters, digits and dashes, with a letter or digit at both ends. -/
theorem isDns1123Label_iff {label : List Char} :
    isDns1123Label label = true ↔
      (∃ c cs, label = c :: cs ∧ isLowerAlnum c = true) ∧
      (∃ cs c, label = cs ++ [c] ∧ isLowerAlnum c = true) ∧
      ∀ c ∈ label, isLowerAlnum c = true ∨ c = '-' := by
  unfold isDns1123Label
  rw [Bool.and_eq_true, Bool.and_eq_true, Option.any_eq_true, Option.any_eq_true, List.all_eq_true,
    and_assoc]
  refine and_congr ?_ (and_congr ?_ ?_)
  · constructor
    · rintro ⟨c, hhead, hc⟩
      obtain ⟨cs, rfl⟩ := List.head?_eq_some_iff.1 hhead
      exact ⟨c, cs, rfl, hc⟩
    · rintro ⟨c, cs, rfl, hc⟩
      exact ⟨c, rfl, hc⟩
  · constructor
    · rintro ⟨c, hlast, hc⟩
      obtain ⟨cs, rfl⟩ := List.getLast?_eq_some_iff.1 hlast
      exact ⟨cs, c, rfl, hc⟩
    · rintro ⟨cs, c, rfl, hc⟩
      exact ⟨c, List.getLast?_concat, hc⟩
  · simp only [Bool.or_eq_true, beq_iff_eq]

/-- Words joined by dashes are a label. -/
theorem isDns1123Label_intercalate {ws : List (List Char)} (h : AlnumWords ws) (hne : ws ≠ []) :
    isDns1123Label (['-'].intercalate ws) = true := by
  refine isDns1123Label_iff.2 ⟨?_, ?_, ?_⟩
  · cases ws with
    | nil => exact absurd rfl hne
    | cons w ws =>
      obtain ⟨⟨hw, hchars⟩, -⟩ := wordsOver_cons.1 h
      obtain ⟨c, cs, rfl⟩ := List.exists_cons_of_ne_nil hw
      cases ws with
      | nil => exact ⟨c, cs, List.intercalate_singleton, hchars c List.mem_cons_self⟩
      | cons v ws => exact ⟨c, _, List.intercalate_cons_cons, hchars c List.mem_cons_self⟩
  · cases hrev : ws.reverse with
    | nil => exact absurd (List.reverse_eq_nil_iff.1 hrev) hne
    | cons w rest =>
      rw [List.reverse_eq_cons_iff.1 hrev] at h ⊢
      obtain ⟨hw, hchars⟩ := (wordsOver_cons.1 (wordsOver_append.1 h).2).1
      obtain ⟨cs, c, rfl⟩ := (List.eq_nil_or_concat' w).resolve_left hw
      have hlast := hchars c (List.mem_append_right _ List.mem_cons_self)
      rw [intercalate_concat, ← List.append_assoc]
      exact ⟨_, c, rfl, hlast⟩
  · intro c hc
    rcases exists_of_mem_intercalate hc with hsep | ⟨w, hw, hcw⟩
    · exact Or.inr (List.mem_singleton.1 hsep)
    · exact Or.inl ((h w hw).2 c hcw)

/-- Labels joined by dots. -/
def DnsName (name : List Char) : Prop :=
  ∃ labels : List (List Char), labels ≠ [] ∧ (∀ label ∈ labels, isDns1123Label label = true) ∧
    name = ['.'].intercalate labels

theorem not_mem_dot_of_isDns1123Label {label : List Char} (h : isDns1123Label label = true) :
    '.' ∉ label := by
  intro hdot
  rcases (isDns1123Label_iff.1 h).2.2 '.' hdot with hc | hc
  · exact ne_dot_of_isLowerAlnum hc rfl
  · exact absurd hc (by decide)

/-- A name is one when all its labels are. -/
theorem dnsName_iff {name : List Char} :
    DnsName name ↔ ∀ label ∈ name.splitOn '.', isDns1123Label label = true := by
  constructor
  · rintro ⟨labels, hne, hlabels, rfl⟩
    rw [List.splitOn_intercalate '.'
      (fun label hlabel => not_mem_dot_of_isDns1123Label (hlabels label hlabel)) hne]
    exact hlabels
  · intro h
    refine ⟨name.splitOn '.', ?_, h, (List.intercalate_splitOn '.').symm⟩
    simp

/-- The characters of a name. -/
theorem isNameChar_of_dnsName {name : List Char} (h : DnsName name) :
    ∀ c ∈ name, isNameChar c = true := by
  obtain ⟨labels, -, hlabels, rfl⟩ := h
  intro c hc
  rcases exists_of_mem_intercalate hc with hsep | ⟨label, hlabel, hcl⟩
  · rw [List.mem_singleton.1 hsep]
    decide
  · rcases (isDns1123Label_iff.1 (hlabels label hlabel)).2.2 c hcl with hc | hc
    · simp [isNameChar, hc]
    · simp [isNameChar, hc]

theorem DnsName.ne_nil {name : List Char} (h : DnsName name) : name ≠ [] := by
  rintro rfl
  have hlabel := dnsName_iff.1 h [] (by simp)
  exact absurd hlabel (by decide)

/-- A resource name is a name of at most 253 characters. -/
theorem isValidResourceName_iff {value : String} :
    isValidResourceName value = true ↔
      DnsName value.toList ∧ value.toList.length ≤ maxResourceNameLength := by
  have hsize : DnsName value.toList → value.utf8ByteSize = value.toList.length := fun h => by
    conv_lhs => rw [← String.ofList_toList (s := value)]
    exact utf8ByteSize_of_utf8Size fun c hc =>
      utf8Size_of_isNameChar (isNameChar_of_dnsName h c hc)
  unfold isValidResourceName
  rw [Bool.and_eq_true, Bool.and_eq_true, decide_eq_true_eq, List.all_eq_true, ← dnsName_iff]
  constructor
  · rintro ⟨⟨-, hle⟩, hname⟩
    exact ⟨hname, hsize hname ▸ hle⟩
  · rintro ⟨hname, hle⟩
    refine ⟨⟨?_, (hsize hname).symm ▸ hle⟩, hname⟩
    have hne : value ≠ "" := fun heq => hname.ne_nil (by rw [heq]; rfl)
    simpa using hne

/-- The last label of a name extends behind a dash. -/
theorem DnsName.append_dash {name rest : List Char} (h : DnsName name)
    (hchars : ∀ c ∈ rest, isLowerAlnum c = true ∨ c = '-')
    (hlast : ∃ cs c, rest = cs ++ [c] ∧ isLowerAlnum c = true) : DnsName (name ++ '-' :: rest) := by
  obtain ⟨labels, hne, hlabels, rfl⟩ := h
  obtain ⟨front, label, rfl⟩ := (List.eq_nil_or_concat' labels).resolve_left hne
  have hlabel := hlabels label (List.mem_append_right _ List.mem_cons_self)
  obtain ⟨⟨c, cs, hhead, hc⟩, -, hin⟩ := isDns1123Label_iff.1 hlabel
  refine ⟨front ++ [label ++ '-' :: rest], by simp, ?_, ?_⟩
  · intro l hl
    rcases List.mem_append.1 hl with hl | hl
    · exact hlabels l (List.mem_append_left _ hl)
    · rw [List.mem_singleton.1 hl]
      refine isDns1123Label_iff.2 ⟨⟨c, cs ++ '-' :: rest, by rw [hhead]; rfl, hc⟩, ?_, ?_⟩
      · obtain ⟨front', d, rfl, hd⟩ := hlast
        exact ⟨label ++ '-' :: front', d, by simp, hd⟩
      · intro d hd
        rcases List.mem_append.1 hd with hd | hd
        · exact hin d hd
        · rcases List.mem_cons.1 hd with rfl | hd
          · exact Or.inr rfl
          · exact hchars d hd
  · rw [intercalate_concat, intercalate_concat, List.append_assoc]

/-- What a cut of a name trims from its end. -/
def isTrimmed (c : Char) : Bool := c == '.' || c == '-'

/-- A label cut short is a label again, once the dashes at its end are gone. -/
theorem isDns1123Label_rdropWhile_take {label : List Char} (h : isDns1123Label label = true)
    {n : Nat} (hn : 0 < n) : isDns1123Label ((label.take n).rdropWhile isTrimmed) = true := by
  obtain ⟨⟨c, cs, rfl, hc⟩, -, hin⟩ := isDns1123Label_iff.1 h
  obtain ⟨m, rfl⟩ := Nat.exists_eq_add_of_lt hn
  rw [Nat.zero_add, List.take_succ_cons]
  have hkeep : isTrimmed c = false := by
    simp [isTrimmed, ne_dot_of_isLowerAlnum hc, ne_dash_of_isLowerAlnum hc]
  have hkept : (c :: cs.take m).rdropWhile isTrimmed <+: c :: cs.take m := List.rdropWhile_prefix _ _
  have hne : (c :: cs.take m).rdropWhile isTrimmed ≠ [] := by
    intro hnil
    have hall := List.rdropWhile_eq_nil_iff.1 hnil c List.mem_cons_self
    rw [hkeep] at hall
    cases hall
  have hchars : ∀ d ∈ (c :: cs.take m).rdropWhile isTrimmed, isLowerAlnum d = true ∨ d = '-' := by
    intro d hd
    rcases List.mem_cons.1 (hkept.subset hd) with rfl | hd
    · exact Or.inl hc
    · exact hin d (List.mem_cons_of_mem _ (List.mem_of_mem_take hd))
  refine isDns1123Label_iff.2 ⟨?_, ?_, hchars⟩
  · obtain ⟨d, ds, hcons⟩ := List.exists_cons_of_ne_nil hne
    rw [hcons] at hkept
    exact ⟨d, ds, hcons, (List.cons_prefix_cons.1 hkept).1 ▸ hc⟩
  · have hlast := List.rdropWhile_last_not isTrimmed (c :: cs.take m) hne
    obtain ⟨front, d, hconcat⟩ := (List.eq_nil_or_concat' _).resolve_left hne
    refine ⟨front, d, hconcat, ?_⟩
    have hd := hchars d (by rw [hconcat]; exact List.mem_append_right _ List.mem_cons_self)
    simp only [hconcat, List.getLast_append_singleton] at hlast
    exact hd.resolve_right fun heq => hlast (by rw [heq]; decide)

/-- A name cut short, without the dots and dashes the cut leaves, is a name. -/
theorem DnsName.truncate {name : List Char} (h : DnsName name) {n : Nat} (hn : 0 < n) :
    DnsName ((name.take n).rdropWhile isTrimmed) := by
  obtain ⟨labels, hne, hlabels, rfl⟩ := h
  induction labels generalizing n with
  | nil => exact absurd rfl hne
  | cons label labels ih =>
    have hlabel := hlabels label List.mem_cons_self
    have hcut := isDns1123Label_rdropWhile_take hlabel hn
    have hone : ∀ l, isDns1123Label l = true → DnsName l := fun l hl =>
      ⟨[l], List.cons_ne_nil _ _, by simpa using hl, List.intercalate_singleton.symm⟩
    cases labels with
    | nil =>
      rw [List.intercalate_singleton]
      exact hone _ hcut
    | cons next labels =>
      rw [List.intercalate_cons_of_ne_nil (List.cons_ne_nil next labels), List.append_assoc,
        List.singleton_append]
      by_cases hfits : n ≤ label.length
      · rw [List.take_append_of_le_length hfits]
        exact hone _ hcut
      · -- the first label stays whole, and the rest is cut behind its dot
        obtain ⟨m, rfl⟩ : ∃ m, n = label.length + (m + 1) := ⟨n - label.length - 1, by omega⟩
        rw [List.take_length_add_append, List.take_succ_cons]
        have hwhole : label.rdropWhile isTrimmed = label := by
          obtain ⟨-, ⟨front, c, rfl, hc⟩, -⟩ := isDns1123Label_iff.1 hlabel
          rw [List.rdropWhile_concat_neg]
          simp [isTrimmed, ne_dot_of_isLowerAlnum hc, ne_dash_of_isLowerAlnum hc]
        rw [rdropWhile_append_cons hwhole (by decide)]
        split_ifs with hrest
        · exact hone _ hlabel
        · have hpos : 0 < m := by
            rcases Nat.eq_zero_or_pos m with rfl | hpos
            · exact absurd (by simp) hrest
            · exact hpos
          obtain ⟨rest, hrestne, hrests, heq⟩ := ih hpos (List.cons_ne_nil _ _)
            fun l hl => hlabels l (List.mem_cons_of_mem _ hl)
          refine ⟨label :: rest, List.cons_ne_nil _ _, List.forall_mem_cons.2 ⟨hlabel, hrests⟩, ?_⟩
          rw [heq, List.intercalate_cons_of_ne_nil hrestne, List.append_assoc,
            List.singleton_append]

/-- A truncated name ends where a name may end. -/
theorem toList_truncateNamePrefix {name : String} (h : ∀ c ∈ name.toList, isNameChar c = true)
    (n : Nat) : (truncateNamePrefix name n).toList = (name.toList.take n).rdropWhile isTrimmed := by
  unfold truncateNamePrefix
  rw [String.toList_ofList, takeBytes_of_utf8Size fun c hc => utf8Size_of_isNameChar (h c hc)]
  rfl

/-! ## Label values -/

/-- The length that the value of a label may have. -/
def maxLabelValueLength : Nat := 63

/-- May the character stand in the value of a label? -/
def isLabelChar (c : Char) : Bool := isAsciiAlnum c || c == '.' || c == '-' || c == '_'

/-- A label value; the empty one is valid. -/
def isValidLabelValue (value : String) : Bool :=
  value.isEmpty || (decide (value.utf8ByteSize ≤ maxLabelValueLength) &&
    value.toList.head?.any isAsciiAlnum && value.toList.getLast?.any isAsciiAlnum &&
    value.toList.all isLabelChar)

/-- Derive a label value: separators at the start go before the cut, and those that the cut leaves
at the end go after it. -/
def LabelValue.sanitize (value : String) : String :=
  let kept := value.toList.dropWhile fun c => !isAsciiAlnum c
  let mapped := kept.map fun c => if isLabelChar c then c else '_'
  String.ofList ((mapped.take maxLabelValueLength).rdropWhile fun c => !isAsciiAlnum c)

theorem utf8Size_of_isAsciiAlnum {c : Char} (h : isAsciiAlnum c = true) : c.utf8Size = 1 := by
  rw [Char.utf8Size_eq_one_iff]
  simp only [isAsciiAlnum, isAsciiLower, isAsciiUpper, isAsciiDigit, Bool.or_eq_true,
    Bool.and_eq_true, decide_eq_true_eq, Char.le_def] at h
  rcases h with (h | h) | h
  · exact UInt32.le_trans h.2 (by decide)
  · exact UInt32.le_trans h.2 (by decide)
  · exact UInt32.le_trans h.2 (by decide)

theorem utf8Size_of_isLabelChar {c : Char} (h : isLabelChar c = true) : c.utf8Size = 1 := by
  simp only [isLabelChar, Bool.or_eq_true, beq_iff_eq] at h
  rcases h with ((h | rfl) | rfl) | rfl
  · exact utf8Size_of_isAsciiAlnum h
  · decide
  · decide
  · decide

theorem isLabelChar_of_isAsciiAlnum {c : Char} (h : isAsciiAlnum c = true) :
    isLabelChar c = true := by
  simp [isLabelChar, h]

/-- A nonempty label value: at most 63 characters, with a letter or digit at both ends. -/
theorem isValidLabelValue_iff {value : String} :
    isValidLabelValue value = true ↔ value = "" ∨
      value.toList.length ≤ maxLabelValueLength ∧
      (∃ c cs, value.toList = c :: cs ∧ isAsciiAlnum c = true) ∧
      (∃ cs c, value.toList = cs ++ [c] ∧ isAsciiAlnum c = true) ∧
      ∀ c ∈ value.toList, isLabelChar c = true := by
  unfold isValidLabelValue
  rw [Bool.or_eq_true, Bool.and_eq_true, Bool.and_eq_true, Bool.and_eq_true, decide_eq_true_eq,
    Option.any_eq_true, Option.any_eq_true, List.all_eq_true, String.isEmpty_iff, and_assoc,
    and_assoc]
  refine or_congr_right ?_
  have hsize : (∀ c ∈ value.toList, isLabelChar c = true) →
      value.utf8ByteSize = value.toList.length := fun h => by
    conv_lhs => rw [← String.ofList_toList (s := value)]
    exact utf8ByteSize_of_utf8Size fun c hc => utf8Size_of_isLabelChar (h c hc)
  constructor
  · rintro ⟨hle, ⟨c, hhead, hc⟩, ⟨d, hlast, hd⟩, hall⟩
    obtain ⟨cs, hcs⟩ := List.head?_eq_some_iff.1 hhead
    obtain ⟨ds, hds⟩ := List.getLast?_eq_some_iff.1 hlast
    exact ⟨hsize hall ▸ hle, ⟨c, cs, hcs, hc⟩, ⟨ds, d, hds, hd⟩, hall⟩
  · rintro ⟨hle, ⟨c, cs, hcs, hc⟩, ⟨ds, d, hds, hd⟩, hall⟩
    refine ⟨(hsize hall).symm ▸ hle, ⟨c, by rw [hcs]; rfl, hc⟩, ⟨d, ?_, hd⟩, hall⟩
    rw [hds, List.getLast?_concat]

/-- Sanitizing gives a valid value, whatever the input. -/
theorem isValidLabelValue_sanitize (value : String) :
    isValidLabelValue (LabelValue.sanitize value) = true := by
  rw [isValidLabelValue_iff]
  unfold LabelValue.sanitize
  dsimp only
  rw [String.toList_ofList]
  cases hkept : value.toList.dropWhile fun c => !isAsciiAlnum c with
  | nil => exact Or.inl rfl
  | cons c cs =>
    have hc : isAsciiAlnum c = true := by
      have hhead := List.head?_dropWhile_not (fun c => !isAsciiAlnum c) value.toList
      rw [hkept] at hhead
      simpa using hhead
    have hmap : (if isLabelChar c then c else '_') = c :=
      if_pos (isLabelChar_of_isAsciiAlnum hc)
    rw [List.map_cons, hmap, maxLabelValueLength, List.take_succ_cons]
    generalize hmapped : (cs.map fun c => if isLabelChar c then c else '_').take 62 = mapped
    have hall : ∀ d ∈ c :: mapped, isLabelChar d = true := by
      intro d hd
      rcases List.mem_cons.1 hd with rfl | hd
      · exact isLabelChar_of_isAsciiAlnum hc
      · rw [← hmapped] at hd
        obtain ⟨e, -, rfl⟩ := List.mem_map.1 (List.mem_of_mem_take hd)
        split_ifs with he
        · exact he
        · decide
    have hlength : (c :: mapped).length ≤ 63 := by
      rw [← hmapped, List.length_cons, List.length_take]
      omega
    have hkept : (c :: mapped).rdropWhile (fun c => !isAsciiAlnum c) <+: c :: mapped :=
      List.rdropWhile_prefix _ _
    have hne : (c :: mapped).rdropWhile (fun c => !isAsciiAlnum c) ≠ [] := by
      intro hnil
      have hdrop := List.rdropWhile_eq_nil_iff.1 hnil c List.mem_cons_self
      rw [hc] at hdrop
      cases hdrop
    refine Or.inr ⟨hkept.length_le.trans hlength, ?_, ?_, fun d hd => hall d (hkept.subset hd)⟩
    · obtain ⟨d, ds, hcons⟩ := List.exists_cons_of_ne_nil hne
      rw [hcons] at hkept ⊢
      exact ⟨d, ds, rfl, (List.cons_prefix_cons.1 hkept).1 ▸ hc⟩
    · have hlast := List.rdropWhile_last_not (fun c => !isAsciiAlnum c) (c :: mapped) hne
      obtain ⟨front, d, hconcat⟩ := (List.eq_nil_or_concat' _).resolve_left hne
      refine ⟨front, d, hconcat, ?_⟩
      simp only [hconcat, List.getLast_append_singleton] at hlast
      simpa using hlast

/-- Sanitizing leaves a valid value as it is. -/
theorem sanitize_of_isValidLabelValue {value : String} (h : isValidLabelValue value = true) :
    LabelValue.sanitize value = value := by
  rcases isValidLabelValue_iff.1 h with rfl | ⟨hle, ⟨c, cs, hcs, hc⟩, ⟨ds, d, hds, hd⟩, hall⟩
  · rfl
  · unfold LabelValue.sanitize
    dsimp only
    have hdrop : (value.toList.dropWhile fun c => !isAsciiAlnum c) = value.toList := by
      rw [hcs, List.dropWhile_cons_of_neg (by simp [hc])]
    have hmap : value.toList.map (fun c => if isLabelChar c then c else '_') = value.toList := by
      conv_rhs => rw [← List.map_id value.toList]
      exact List.map_congr_left fun e he => if_pos (hall e he)
    rw [hdrop, hmap, List.take_of_length_le hle, hds, List.rdropWhile_concat_neg _ _ _ (by simp [hd]),
      ← hds, String.ofList_toList]

end PgRoles.Operator

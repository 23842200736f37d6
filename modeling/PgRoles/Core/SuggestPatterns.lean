import PgRoles.Core.Suggest

/-!
# Names under a pattern

A role whose name has a pattern, with a schema and a profile name, is the role that the pattern
expands to for them (`substitute_of_matchPattern`). The schema goes in first, so a schema that
contains the profile's placeholder would be rewritten with it; such schemas are left out.
-/

set_option autoImplicit false

namespace PgRoles.Core.Suggest

open Std PgRoles.Lib

/-! ## Replacement -/

/-- Replacement copies a text in which no occurrence starts. -/
theorem replaceChars_append {needle new cs rest : List Char}
    (h : ∀ t, t ≠ [] → t <:+ cs → ¬ needle <+: t ++ rest) :
    replaceChars needle new 0 (cs ++ rest) = cs ++ replaceChars needle new 0 rest := by
  induction cs with
  | nil => rfl
  | cons c cs ih =>
      have hhead : ¬ needle.isPrefixOf (c :: (cs ++ rest)) = true := by
        rw [List.isPrefixOf_iff_prefix]
        exact h (c :: cs) (List.cons_ne_nil c cs) (List.suffix_refl _)
      have hstep : replaceChars needle new 0 (c :: (cs ++ rest)) =
          c :: replaceChars needle new 0 (cs ++ rest) := by
        rw [replaceChars, if_neg hhead]
      rw [List.cons_append, hstep, ih]
      · rfl
      · exact fun t hne hsuffix => h t hne (hsuffix.trans (List.suffix_cons c cs))

theorem replaceChars_skip (needle new : List Char) (n : Nat) (cs : List Char) :
    replaceChars needle new n cs = replaceChars needle new 0 (cs.drop n) := by
  induction n generalizing cs with
  | zero => rfl
  | succ n ih =>
      cases cs with
      | nil => rfl
      | cons c cs => exact ih cs

/-- An occurrence at the front is replaced. -/
theorem replaceChars_occurrence {needle : List Char} (new rest : List Char) (hne : needle ≠ []) :
    replaceChars needle new 0 (needle ++ rest) = new ++ replaceChars needle new 0 rest := by
  obtain ⟨c, cs, rfl⟩ := List.exists_cons_of_ne_nil hne
  have hfront : (c :: cs).isPrefixOf (c :: (cs ++ rest)) = true :=
    List.isPrefixOf_iff_prefix.2 (List.prefix_append (c :: cs) rest)
  rw [List.cons_append, replaceChars, if_pos hfront, replaceChars_skip]
  simp

/-- An occurrence does not run over a character that is not in it. -/
theorem not_prefix_append {needle t rest : List Char} {separator : Char}
    (hseparator : separator ∉ needle) (ht : ¬ needle <+: t) :
    ¬ needle <+: t ++ separator :: rest := by
  intro h
  obtain ⟨s, hs⟩ := h
  rcases List.append_eq_append_iff.1 hs with ⟨a, hneedle, -⟩ | ⟨a, hneedle, hrest⟩
  · exact ht ⟨a, hneedle.symm⟩
  · cases a with
    | nil =>
        rw [List.append_nil] at hneedle
        exact ht (by rw [hneedle])
    | cons c a =>
        obtain ⟨rfl, -⟩ := List.cons.inj hrest
        exact hseparator (by rw [hneedle]; simp)

theorem not_prefix_of_containsText {text needle : String} (h : containsText text needle = false)
    {t : List Char} (ht : t <:+ text.toList) : ¬ needle.toList <+: t := by
  have hall := List.any_eq_false.1 h t ((List.mem_tails t text.toList).2 ht)
  rwa [List.isPrefixOf_iff_prefix] at hall

/-- No occurrence of the needle starts in the front before the rest. -/
def NoneStarts (needle front rest : List Char) : Prop :=
  ∀ t ∈ front.tails, t ≠ [] → ¬ needle <+: t ++ rest

instance (needle front rest : List Char) : Decidable (NoneStarts needle front rest) :=
  inferInstanceAs (Decidable (∀ t ∈ front.tails, t ≠ [] → ¬ needle <+: t ++ rest))

theorem NoneStarts.replaceChars_append {needle new front rest : List Char}
    (h : NoneStarts needle front rest) :
    replaceChars needle new 0 (front ++ rest) = front ++ replaceChars needle new 0 rest :=
  Suggest.replaceChars_append fun t hne ht => h t ((List.mem_tails t front).2 ht) hne

section Substitution

variable {schema profile : String} {separator : Char}

/-- A plain schema, a separator outside the placeholder, and anything: no placeholder starts in the
schema. -/
theorem noneStarts_schema (hseparator : separator ∉ profilePlaceholder.toList)
    (hplain : containsText schema profilePlaceholder = false) (rest : List Char) :
    NoneStarts profilePlaceholder.toList schema.toList (separator :: rest) :=
  fun t ht _ => not_prefix_append hseparator
    (not_prefix_of_containsText hplain ((List.mem_tails t _).1 ht))

/-- The schema comes first. -/
theorem substitute_schema_first {pattern : String}
    (hpattern : pattern.toList =
      schemaPlaceholder.toList ++ separator :: profilePlaceholder.toList)
    (hafter : NoneStarts schemaPlaceholder.toList (separator :: profilePlaceholder.toList) [])
    (hseparator : separator ∉ profilePlaceholder.toList)
    (hplain : containsText schema profilePlaceholder = false) :
    (substitutePlaceholders pattern schema profile).toList =
      schema.toList ++ separator :: profile.toList := by
  have hschema : replaceChars schemaPlaceholder.toList schema.toList 0 pattern.toList =
      schema.toList ++ separator :: profilePlaceholder.toList := by
    have hcopy := @NoneStarts.replaceChars_append _ schema.toList _ _ hafter
    rw [List.append_nil] at hcopy
    rw [hpattern, replaceChars_occurrence _ _ (by decide), hcopy]
    exact congrArg (schema.toList ++ ·) (List.append_nil _)
  have hprofile : replaceChars profilePlaceholder.toList profile.toList 0
      (separator :: profilePlaceholder.toList) = separator :: profile.toList := by
    have hone : NoneStarts profilePlaceholder.toList [separator] profilePlaceholder.toList := by
      intro t ht hne
      obtain rfl : t = [separator] := by
        rcases List.suffix_cons_iff.1 ((List.mem_tails t _).1 ht) with rfl | ht
        · rfl
        · exact absurd (List.suffix_nil.1 ht) hne
      exact @not_prefix_append _ [] _ _ hseparator (by decide)
    have hcopy := @NoneStarts.replaceChars_append _ profile.toList _ _ hone
    have hlast := @replaceChars_occurrence profilePlaceholder.toList profile.toList [] (by decide)
    rw [List.append_nil] at hlast
    rw [hlast] at hcopy
    rw [show separator :: profilePlaceholder.toList = [separator] ++ profilePlaceholder.toList from
      rfl, hcopy]
    exact congrArg (List.cons separator) (List.append_nil _)
  rw [substitutePlaceholders, replaceText, replaceText, String.toList_ofList, String.toList_ofList,
    hschema, (noneStarts_schema hseparator hplain _).replaceChars_append, hprofile]

/-- The profile comes first. -/
theorem substitute_profile_first {pattern : String}
    (hpattern : pattern.toList =
      (profilePlaceholder.toList ++ [separator]) ++ schemaPlaceholder.toList)
    (hbefore : NoneStarts schemaPlaceholder.toList (profilePlaceholder.toList ++ [separator])
      schemaPlaceholder.toList)
    (hseparator : separator ∉ profilePlaceholder.toList)
    (hplain : containsText schema profilePlaceholder = false) :
    (substitutePlaceholders pattern schema profile).toList =
      profile.toList ++ separator :: schema.toList := by
  have hschema : replaceChars schemaPlaceholder.toList schema.toList 0 pattern.toList =
      profilePlaceholder.toList ++ separator :: schema.toList := by
    have hlast := @replaceChars_occurrence schemaPlaceholder.toList schema.toList [] (by decide)
    rw [List.append_nil] at hlast
    rw [hpattern, hbefore.replaceChars_append, hlast, List.append_assoc]
    exact congrArg (profilePlaceholder.toList ++ separator :: ·) (List.append_nil _)
  have hprofile : replaceChars profilePlaceholder.toList profile.toList 0
      (separator :: schema.toList) = separator :: schema.toList := by
    have hnone : NoneStarts profilePlaceholder.toList (separator :: schema.toList) [] := by
      intro t ht _
      rw [List.append_nil]
      rcases List.suffix_cons_iff.1 ((List.mem_tails t _).1 ht) with rfl | ht
      · exact @not_prefix_append _ [] _ _ hseparator (by decide)
      · exact not_prefix_of_containsText hplain ht
    have hcopy := @NoneStarts.replaceChars_append _ profile.toList _ _ hnone
    rw [List.append_nil] at hcopy
    rw [hcopy]
    exact List.append_nil _
  rw [substitutePlaceholders, replaceText, replaceText, String.toList_ofList, String.toList_ofList,
    hschema, replaceChars_occurrence _ _ (by decide), hprofile]

end Substitution

/-! ## Matching -/

theorem stripPrefixText_eq_some {text start rest : String}
    (h : stripPrefixText text start = some rest) :
    text.toList = start.toList ++ rest.toList := by
  unfold stripPrefixText at h
  split at h
  · next hstart =>
      obtain rfl := Option.some.inj h
      obtain ⟨tail, htail⟩ := List.isPrefixOf_iff_prefix.1 hstart
      rw [String.toList_ofList, ← htail, List.drop_left]
  · cases h

theorem stripSuffixText_eq_some {text tail rest : String}
    (h : stripSuffixText text tail = some rest) :
    text.toList = rest.toList ++ tail.toList := by
  unfold stripSuffixText at h
  split at h
  · next htail =>
      obtain rfl := Option.some.inj h
      obtain ⟨front, hfront⟩ := List.isSuffixOf_iff_suffix.1 htail
      rw [String.toList_ofList, ← hfront, List.length_append, Nat.add_sub_cancel, List.take_left]
  · cases h

theorem nonEmpty?_eq_some {text rest : String} (h : nonEmpty? text = some rest) : text = rest := by
  unfold nonEmpty? at h
  split at h
  · cases h
  · exact Option.some.inj h

section Matching

variable {roleName schema profile : String}

theorem of_strip_schema_first {separator : Char}
    (h : ((stripPrefixText roleName schema).bind
      (stripPrefixText · (String.singleton separator))).bind nonEmpty? = some profile) :
    roleName.toList = schema.toList ++ separator :: profile.toList := by
  obtain ⟨rest, hrest, hname⟩ := Option.bind_eq_some_iff.1 h
  obtain ⟨middle, hmiddle, hseparator⟩ := Option.bind_eq_some_iff.1 hrest
  rw [stripPrefixText_eq_some hmiddle, stripPrefixText_eq_some hseparator, nonEmpty?_eq_some hname]
  simp

theorem of_strip_profile_first {separator : Char}
    (h : ((stripSuffixText roleName schema).bind
      (stripSuffixText · (String.singleton separator))).bind nonEmpty? = some profile) :
    roleName.toList = profile.toList ++ separator :: schema.toList := by
  obtain ⟨rest, hrest, hname⟩ := Option.bind_eq_some_iff.1 h
  obtain ⟨middle, hmiddle, hseparator⟩ := Option.bind_eq_some_iff.1 hrest
  rw [stripSuffixText_eq_some hmiddle, stripSuffixText_eq_some hseparator, nonEmpty?_eq_some hname]
  simp

/-- The patterns, by what comes first and what stands between. -/
theorem mem_patternPriority {pattern : String} (h : pattern ∈ patternPriority) :
    ∃ separator : Char, (separator = '-' ∨ separator = '_') ∧
      (pattern = schemaPlaceholder ++ String.singleton separator ++ profilePlaceholder ∨
        pattern = profilePlaceholder ++ String.singleton separator ++ schemaPlaceholder) := by
  rcases List.mem_cons.1 h with h | h
  · exact ⟨'-', Or.inl rfl, Or.inl h⟩
  rcases List.mem_cons.1 h with h | h
  · exact ⟨'_', Or.inr rfl, Or.inl h⟩
  rcases List.mem_cons.1 h with h | h
  · exact ⟨'-', Or.inl rfl, Or.inr h⟩
  rcases List.mem_cons.1 h with h | h
  · exact ⟨'_', Or.inr rfl, Or.inr h⟩
  · exact absurd h List.not_mem_nil

theorem matchPattern_schema_first {separator : Char} (h : separator = '-' ∨ separator = '_') :
    matchPattern (schemaPlaceholder ++ String.singleton separator ++ profilePlaceholder)
        roleName schema =
      ((stripPrefixText roleName schema).bind
        (stripPrefixText · (String.singleton separator))).bind nonEmpty? := by
  unfold matchPattern
  rcases h with rfl | rfl
  · rw [if_pos (by decide)]
    rfl
  · rw [if_neg (by decide), if_pos (by decide)]
    rfl

theorem matchPattern_profile_first {separator : Char} (h : separator = '-' ∨ separator = '_') :
    matchPattern (profilePlaceholder ++ String.singleton separator ++ schemaPlaceholder)
        roleName schema =
      ((stripSuffixText roleName schema).bind
        (stripSuffixText · (String.singleton separator))).bind nonEmpty? := by
  unfold matchPattern
  rcases h with rfl | rfl
  · rw [if_neg (by decide), if_neg (by decide), if_pos (by decide)]
    rfl
  · rw [if_neg (by decide), if_neg (by decide), if_neg (by decide), if_pos (by decide)]
    rfl

/-- A name that has a pattern is what the pattern expands to. -/
theorem substitute_of_matchPattern {pattern : String} (hpattern : pattern ∈ patternPriority)
    (hplain : containsText schema profilePlaceholder = false)
    (h : matchPattern pattern roleName schema = some profile) :
    substitutePlaceholders pattern schema profile = roleName := by
  refine String.toList_inj.1 ?_
  obtain ⟨separator, hseparator, rfl | rfl⟩ := mem_patternPriority hpattern
  · rw [matchPattern_schema_first hseparator] at h
    rw [of_strip_schema_first h]
    refine substitute_schema_first (by simp) ?_ ?_ hplain
    · rcases hseparator with rfl | rfl <;> decide
    · rcases hseparator with rfl | rfl <;> decide
  · rw [matchPattern_profile_first hseparator] at h
    rw [of_strip_profile_first h]
    refine substitute_profile_first (by simp) ?_ ?_ hplain
    · rcases hseparator with rfl | rfl <;> decide
    · rcases hseparator with rfl | rfl <;> decide

end Matching

end PgRoles.Core.Suggest

import Mathlib

/-!
# Words joined by a separator

A text is read as words: `f` gives what a character contributes to a word, and everything it gives
nothing for separates words (`words`). Two operations on texts are operations on words.

- Replacing every run of separating characters by one separator, with none at the ends, joins the
  words (`rdropWhile_foldl_collapse`).
- Cutting joined words to a length and trimming the separators the cut leaves keeps the words that
  fit, the last of them cut short (`rdropWhile_take_intercalate`).

Words without separators are determined by the text they join to (`intercalate_words_inj`).
-/

set_option autoImplicit false

namespace PgRoles.Lib

universe u v

section Words

variable {α : Type u} {β : Type v}

/-! ## Words of a text -/

/-- Read one character: the complete words, and the word being read. -/
def wordStep (f : β → Option α) (read : List (List α) × List α) (b : β) :
    List (List α) × List α :=
  match f b with
  | some a => (read.1, read.2 ++ [a])
  | none => if read.2.isEmpty then read else (read.1 ++ [read.2], [])

/-- The words read when the text ends. -/
def wordsRead (read : List (List α) × List α) : List (List α) :=
  if read.2.isEmpty then read.1 else read.1 ++ [read.2]

/-- The words of a text. -/
def words (f : β → Option α) (text : List β) : List (List α) :=
  wordsRead (text.foldl (wordStep f) ([], []))

/-- Nonempty words whose characters all satisfy `p`. -/
def WordsOver (p : α → Prop) (ws : List (List α)) : Prop := ∀ w ∈ ws, w ≠ [] ∧ ∀ a ∈ w, p a

theorem wordsOver_nil (p : α → Prop) : WordsOver p ([] : List (List α)) := fun _ h => nomatch h

theorem wordsOver_cons {p : α → Prop} {w : List α} {ws : List (List α)} :
    WordsOver p (w :: ws) ↔ (w ≠ [] ∧ ∀ a ∈ w, p a) ∧ WordsOver p ws :=
  List.forall_mem_cons

theorem wordsOver_append {p : α → Prop} {ws ws' : List (List α)} :
    WordsOver p (ws ++ ws') ↔ WordsOver p ws ∧ WordsOver p ws' :=
  List.forall_mem_append

theorem wordsOver_wordStep {p : α → Prop} {f : β → Option α} (hf : ∀ b a, f b = some a → p a)
    {read : List (List α) × List α} (h : WordsOver p read.1 ∧ ∀ a ∈ read.2, p a) (b : β) :
    WordsOver p (wordStep f read b).1 ∧ ∀ a ∈ (wordStep f read b).2, p a := by
  unfold wordStep
  cases hb : f b with
  | some a =>
    refine ⟨h.1, fun x hx => ?_⟩
    rcases List.mem_append.1 hx with hx | hx
    · exact h.2 x hx
    · rw [List.mem_singleton.1 hx]
      exact hf b a hb
  | none =>
    dsimp only
    split_ifs with hempty
    · exact h
    · have hne : read.2 ≠ [] := fun heq => hempty (List.isEmpty_iff.2 heq)
      refine ⟨wordsOver_append.2 ⟨h.1, ?_⟩, nofun⟩
      exact wordsOver_cons.2 ⟨⟨hne, h.2⟩, wordsOver_nil p⟩

/-- Every word is nonempty and has only characters that `f` gives. -/
theorem wordsOver_words {p : α → Prop} {f : β → Option α} (hf : ∀ b a, f b = some a → p a)
    (text : List β) : WordsOver p (words f text) := by
  have hrun : ∀ (text : List β) (read : List (List α) × List α),
      (WordsOver p read.1 ∧ ∀ a ∈ read.2, p a) →
      WordsOver p (text.foldl (wordStep f) read).1 ∧
        ∀ a ∈ (text.foldl (wordStep f) read).2, p a := by
    intro text
    induction text with
    | nil => exact fun read h => h
    | cons b text ih => exact fun read h => ih _ (wordsOver_wordStep hf h b)
  have h := hrun text ([], []) ⟨wordsOver_nil p, nofun⟩
  unfold words wordsRead
  split_ifs with hempty
  · exact h.1
  · refine wordsOver_append.2 ⟨h.1, wordsOver_cons.2 ⟨⟨?_, h.2⟩, wordsOver_nil p⟩⟩
    exact fun heq => hempty (List.isEmpty_iff.2 heq)

/-! ## Joined words -/

theorem intercalate_concat (sep : α) (ws : List (List α)) (w : List α) :
    [sep].intercalate (ws ++ [w]) = (ws.flatMap fun w => w ++ [sep]) ++ w := by
  induction ws with
  | nil => simp
  | cons v ws ih =>
    rw [List.cons_append, List.intercalate_cons_of_ne_nil (by simp), ih]
    simp

theorem intercalate_eq_nil {sep : α} {p : α → Prop} {ws : List (List α)} (h : WordsOver p ws) :
    [sep].intercalate ws = [] ↔ ws = [] := by
  cases ws with
  | nil => simp
  | cons w ws =>
    have hne : w ≠ [] := (h w List.mem_cons_self).1
    cases ws with
    | nil => simp [hne]
    | cons v ws => simp

/-- Words without separators are determined by the text they join to. -/
theorem intercalate_words_inj [BEq α] [LawfulBEq α] {sep : α} {ws ws' : List (List α)}
    (h : WordsOver (· ≠ sep) ws) (h' : WordsOver (· ≠ sep) ws')
    (heq : [sep].intercalate ws = [sep].intercalate ws') : ws = ws' := by
  by_cases hnil : ws = []
  · subst hnil
    exact ((intercalate_eq_nil h').1 heq.symm).symm
  · have hnil' : ws' ≠ [] := fun hn => hnil ((intercalate_eq_nil h).1 (by rw [heq, hn]; rfl))
    rw [← List.splitOn_intercalate sep (fun w hw hs => (h w hw).2 sep hs rfl) hnil,
      ← List.splitOn_intercalate sep (fun w hw hs => (h' w hw).2 sep hs rfl) hnil', heq]

theorem intercalate_append {sep : α} {ws ws' : List (List α)} (h : ws ≠ []) (h' : ws' ≠ []) :
    [sep].intercalate (ws ++ ws') = [sep].intercalate ws ++ sep :: [sep].intercalate ws' := by
  induction ws with
  | nil => exact absurd rfl h
  | cons w ws ih =>
    cases ws with
    | nil => simp [List.intercalate_cons_of_ne_nil h']
    | cons v ws =>
      have hcons : v :: ws ++ ws' ≠ [] := List.append_ne_nil_of_left_ne_nil (List.cons_ne_nil v ws) ws'
      rw [List.cons_append, List.intercalate_cons_of_ne_nil hcons, ih (List.cons_ne_nil v ws),
        List.intercalate_cons_of_ne_nil (List.cons_ne_nil v ws), List.append_assoc, List.append_assoc,
        List.append_assoc]

/-! ## Collapsing separators -/

section Collapse

variable [BEq α] [LawfulBEq α]

/-- Copy one character; what gives nothing becomes a separator, except at the start and after
another one. -/
def collapseStep (sep : α) (f : β → Option α) (acc : List α) (b : β) : List α :=
  match f b with
  | some a => acc ++ [a]
  | none => if acc.isEmpty || acc.getLast? == some sep then acc else acc ++ [sep]

/-- The text copied when these words are complete and this one is being read. -/
def copied (sep : α) (read : List (List α) × List α) : List α :=
  (read.1.flatMap fun w => w ++ [sep]) ++ read.2

theorem collapseStep_copied {sep : α} {f : β → Option α} {read : List (List α) × List α}
    (h : ∀ a ∈ read.2, a ≠ sep) (b : β) :
    collapseStep sep f (copied sep read) b = copied sep (wordStep f read b) := by
  obtain ⟨done, word⟩ := read
  unfold collapseStep wordStep
  cases f b with
  | some a => simp [copied]
  | none =>
    dsimp only
    cases hword : word.reverse with
    | nil =>
      -- between words: the text is empty or ends with a separator
      have hnil : word = [] := List.reverse_eq_nil_iff.1 hword
      subst hnil
      rw [if_pos List.isEmpty_nil]
      cases hdone : done.reverse with
      | nil =>
        rw [List.reverse_eq_nil_iff.1 hdone]
        simp [copied]
      | cons w ws =>
        rw [List.reverse_eq_cons_iff.1 hdone]
        simp [copied]
    | cons a as =>
      have hlast : word = as.reverse ++ [a] := List.reverse_eq_cons_iff.1 hword
      have hne : a ≠ sep := h a (by rw [hlast]; exact List.mem_append_right _ List.mem_cons_self)
      have hempty : word.isEmpty = false := by
        rw [hlast]
        simp
      have hcopied : ((copied sep (done, word)).isEmpty ||
          (copied sep (done, word)).getLast? == some sep) = false := by
        rw [hlast, copied, ← List.append_assoc, List.getLast?_concat]
        simp [hne]
      rw [hcopied, hempty]
      simp [copied]

theorem foldl_collapseStep {sep : α} {f : β → Option α} (hf : ∀ b a, f b = some a → a ≠ sep)
    (text : List β) : ∀ read : List (List α) × List α,
      (WordsOver (· ≠ sep) read.1 ∧ ∀ a ∈ read.2, a ≠ sep) →
      text.foldl (collapseStep sep f) (copied sep read) =
        copied sep (text.foldl (wordStep f) read) := by
  induction text with
  | nil => exact fun _ _ => rfl
  | cons b text ih =>
    intro read h
    rw [List.foldl_cons, List.foldl_cons, collapseStep_copied h.2]
    exact ih _ (wordsOver_wordStep hf h b)

/-- Collapsing the separating characters, and dropping the separator at the end, joins the
words. -/
theorem rdropWhile_foldl_collapse {sep : α} {f : β → Option α}
    (hf : ∀ b a, f b = some a → a ≠ sep) (text : List β) :
    (text.foldl (collapseStep sep f) []).rdropWhile (· == sep) =
      [sep].intercalate (words f text) := by
  have hstart : WordsOver (· ≠ sep) ([] : List (List α)) ∧ ∀ a ∈ ([] : List α), a ≠ sep :=
    ⟨wordsOver_nil _, nofun⟩
  have hcopied := foldl_collapseStep hf text ([], []) hstart
  have hwords := wordsOver_words hf text
  rw [show copied sep (([], []) : List (List α) × List α) = [] from rfl] at hcopied
  rw [hcopied]
  unfold words wordsRead at hwords ⊢
  generalize text.foldl (wordStep f) ([], []) = read at hwords ⊢
  obtain ⟨done, word⟩ := read
  split_ifs at hwords ⊢ with hempty
  · -- the text ends between words
    have hnil : word = [] := List.isEmpty_iff.1 hempty
    subst hnil
    cases hdone : done.reverse with
    | nil =>
      rw [List.reverse_eq_nil_iff.1 hdone]
      rfl
    | cons w ws =>
      have hsplit := List.reverse_eq_cons_iff.1 hdone
      dsimp only at hwords ⊢
      rw [hsplit] at hwords ⊢
      have hlast := (wordsOver_cons.1 (wordsOver_append.1 hwords).2).1
      rw [intercalate_concat]
      simp only [copied, List.flatMap_append, List.flatMap_cons, List.flatMap_nil,
        List.append_nil]
      rw [← List.append_assoc, List.rdropWhile_concat_pos _ _ _ (by simp)]
      rw [List.rdropWhile_eq_self_iff]
      intro hne
      rw [List.getLast_append_of_ne_nil hne hlast.1]
      simpa using hlast.2 _ (List.getLast_mem hlast.1)
  · -- the last word is open
    have hlast := (wordsOver_cons.1 (wordsOver_append.1 hwords).2).1
    rw [intercalate_concat]
    show (copied sep (done, word)).rdropWhile _ = copied sep (done, word)
    rw [List.rdropWhile_eq_self_iff]
    intro hne
    unfold copied at hne ⊢
    rw [List.getLast_append_of_ne_nil hne hlast.1]
    simpa using hlast.2 _ (List.getLast_mem hlast.1)

end Collapse

/-! ## Cutting joined words -/

/-- The words whose joined text fits into the length, the last of them cut short. -/
def fitWords : Nat → List (List α) → List (List α)
  | _, [] => []
  | n, w :: ws =>
      if n = 0 then []
      else if n ≤ w.length then [w.take n]
      else w :: fitWords (n - w.length - 1) ws

theorem wordsOver_fitWords {p : α → Prop} {ws : List (List α)} (h : WordsOver p ws) (n : Nat) :
    WordsOver p (fitWords n ws) := by
  induction ws generalizing n with
  | nil => exact wordsOver_nil p
  | cons w ws ih =>
    obtain ⟨⟨hne, hw⟩, hws⟩ := wordsOver_cons.1 h
    unfold fitWords
    split_ifs with hzero hcut
    · exact wordsOver_nil p
    · refine wordsOver_cons.2 ⟨⟨?_, fun a ha => hw a (List.mem_of_mem_take ha)⟩, wordsOver_nil p⟩
      rw [ne_eq, List.take_eq_nil_iff]
      exact fun hor => hor.elim hzero hne
    · exact wordsOver_cons.2 ⟨⟨hne, hw⟩, ih hws _⟩

theorem rdropWhile_of_forall {p : α → Bool} {l : List α} (h : ∀ a ∈ l, p a = false) :
    l.rdropWhile p = l := by
  rw [List.rdropWhile_eq_self_iff]
  intro hlast
  rw [h _ (List.getLast_mem hlast)]
  exact Bool.false_ne_true

/-- Dropping from the right of two texts of which the first ends in a character to keep. -/
theorem rdropWhile_append_cons {p : α → Bool} {w : List α} (hw : w.rdropWhile p = w) {sep : α}
    (hsep : p sep = true) (rest : List α) :
    (w ++ sep :: rest).rdropWhile p =
      if rest.rdropWhile p = [] then w else w ++ sep :: rest.rdropWhile p := by
  induction rest using List.reverseRecOn with
  | nil =>
    rw [List.rdropWhile_concat_pos _ _ _ hsep, List.rdropWhile_nil, if_pos rfl, hw]
  | append_singleton rest a ih =>
    rw [← List.cons_append, ← List.append_assoc]
    cases ha : p a with
    | true =>
      rw [List.rdropWhile_concat_pos _ _ _ ha, List.rdropWhile_concat_pos _ _ _ ha]
      exact ih
    | false =>
      have hkeep : ¬ p a = true := by
        rw [ha]
        exact Bool.false_ne_true
      rw [List.rdropWhile_concat_neg _ _ _ hkeep, List.rdropWhile_concat_neg _ _ _ hkeep]
      rw [if_neg (by simp), List.append_assoc, List.cons_append]

/-- Cutting joined words to a length, and trimming what the cut leaves, keeps the words that fit. -/
theorem rdropWhile_take_intercalate {p : α → Bool} {sep : α} (hsep : p sep = true)
    {ws : List (List α)} (h : WordsOver (p · = false) ws) (n : Nat) :
    (([sep].intercalate ws).take n).rdropWhile p = [sep].intercalate (fitWords n ws) := by
  induction ws generalizing n with
  | nil => simp [fitWords]
  | cons w ws ih =>
    obtain ⟨⟨hne, hw⟩, hws⟩ := wordsOver_cons.1 h
    have hkeep : ∀ m, (w.take m).rdropWhile p = w.take m := fun m =>
      rdropWhile_of_forall fun a ha => hw a (List.mem_of_mem_take ha)
    unfold fitWords
    split_ifs with hzero hcut
    · rw [hzero]
      rfl
    · -- the cut falls into the first word
      rw [List.intercalate_singleton]
      cases ws with
      | nil => rw [List.intercalate_singleton, hkeep]
      | cons v ws =>
        rw [List.intercalate_cons_cons, List.append_assoc, List.take_append_of_le_length hcut, hkeep]
    · cases ws with
      | nil =>
        rw [List.intercalate_singleton, hkeep, List.take_of_length_le (by omega)]
        simp [fitWords]
      | cons v ws =>
        have htake : (w ++ sep :: [sep].intercalate (v :: ws)).take n =
            w ++ sep :: ([sep].intercalate (v :: ws)).take (n - w.length - 1) := by
          obtain ⟨m, rfl⟩ : ∃ m, n = w.length + (m + 1) := ⟨n - w.length - 1, by omega⟩
          rw [List.take_length_add_append, List.take_succ_cons]
          congr 3
          omega
        rw [List.intercalate_cons_of_ne_nil (List.cons_ne_nil v ws), List.append_assoc,
          List.singleton_append, htake,
          rdropWhile_append_cons (rdropWhile_of_forall hw) hsep, ih hws]
        have hnil : [sep].intercalate (fitWords (n - w.length - 1) (v :: ws)) = [] ↔ _ :=
          intercalate_eq_nil (wordsOver_fitWords hws (n - w.length - 1))
        split_ifs with hrest
        · rw [hnil.1 hrest, List.intercalate_singleton]
        · rw [List.intercalate_cons_of_ne_nil fun h => hrest (hnil.2 h), List.append_assoc,
            List.singleton_append]

end Words

end PgRoles.Lib

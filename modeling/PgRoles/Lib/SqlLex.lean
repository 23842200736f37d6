import Mathlib.Data.List.Basic
import Mathlib.Data.Finset.Basic

/-!
# SQL texts

PostgreSQL's lexical rules with `standard_conforming_strings` on, as a machine that reads one
character at a time: quoted identifiers and literals in which the quote is doubled, dollar-quoted
bodies, words and symbols. The machine emits a token when the character after it is read, so the
reading of a text is the reading of its parts one after the other (`run_append`). What a comment or
a prefixed constant (`E'…'`, `U&"…"`) could hide is not read at all: such a text has no tokens.

A text is put together from pieces: fixed text of plain characters, numbers, and quoted names and
values. If every quoted piece stands between plain text (`wellSpaced`), the machine reads each one
back as one token, whatever its characters are (`run_pieces`).
-/

set_option autoImplicit false

namespace PgRoles.Lib

/-! ## Tokens and states -/

/-- A token; numbers are words. -/
inductive SqlToken where
  | word (text : List Char)
  | ident (name : List Char)
  | literal (value : List Char)
  | dollar (body : List Char)
  | sym (c : Char)
  deriving DecidableEq

/-- The token is a quoted name, value or body. -/
def SqlToken.isQuoted : SqlToken → Bool
  | .ident _ | .literal _ | .dollar _ => true
  | _ => false

/-- Where the machine stands; characters are collected in reverse. A quote inside of a name or a
value may be its end, which the next character tells. -/
inductive SqlState where
  | between
  | word (acc : List Char)
  | ident (acc : List Char)
  | identQuote (acc : List Char)
  | literal (acc : List Char)
  | literalQuote (acc : List Char)
  | dollarTag (acc : List Char)
  | dollar (tag acc : List Char)
  | sym (c : Char)
  deriving DecidableEq

/-- Is it white space of SQL? -/
def isSqlSpace (c : Char) : Bool :=
  c == ' ' || c == '\n' || c == '\t' || c == '\r' || c.toNat == 11 || c.toNat == 12

/-- Characters of words; every character outside of ASCII is one. -/
def isSqlWord (c : Char) : Bool :=
  c.isAlphanum || c == '_' || 128 ≤ c.toNat

/-- The token that the end of the text completes. -/
def flush : SqlState → Option (List SqlToken)
  | .between => some []
  | .word acc => some [.word acc.reverse]
  | .identQuote acc => some [.ident acc.reverse]
  | .literalQuote acc => some [.literal acc.reverse]
  | .sym c => some [.sym c]
  | _ => none

/-- Start at a character between tokens. -/
def startToken (c : Char) : SqlState :=
  if isSqlSpace c then .between
  else if c = '"' then .ident []
  else if c = '\'' then .literal []
  else if c = '$' then .dollarTag []
  else if isSqlWord c then .word [c]
  else .sym c

/-- The closing delimiter of a dollar quote, in reverse. -/
def closingTag (tag : List Char) : List Char := '$' :: (tag.reverse ++ ['$'])

/-- Two symbols that would start a comment or a prefixed identifier. -/
def opensHidden (c d : Char) : Bool :=
  (c == '-' && d == '-') || (c == '/' && d == '*') || (c == '&' && (d == '"' || d == '\''))

/-- Read one character: the next state and the tokens it completes. -/
def lexStep : SqlState → Char → Option (SqlState × List SqlToken)
  | .between, c => some (startToken c, [])
  | .word acc, c =>
      if isSqlWord c ∨ c = '$' then some (.word (c :: acc), [])
      else if c = '\'' then none
      else some (startToken c, [.word acc.reverse])
  | .ident acc, c => some (if c = '"' then .identQuote acc else .ident (c :: acc), [])
  | .identQuote acc, c =>
      if c = '"' then some (.ident ('"' :: acc), [])
      else some (startToken c, [.ident acc.reverse])
  | .literal acc, c => some (if c = '\'' then .literalQuote acc else .literal (c :: acc), [])
  | .literalQuote acc, c =>
      if c = '\'' then some (.literal ('\'' :: acc), [])
      else some (startToken c, [.literal acc.reverse])
  | .dollarTag acc, c =>
      if c = '$' then some (.dollar acc.reverse [], [])
      else if isSqlWord c ∧ ¬ (acc = [] ∧ c.isDigit) then some (.dollarTag (c :: acc), [])
      else none
  | .dollar tag acc, c =>
      if (closingTag tag).isPrefixOf (c :: acc) then
        some (.between, [.dollar ((c :: acc).drop (tag.length + 2)).reverse])
      else some (.dollar tag (c :: acc), [])
  | .sym d, c => if opensHidden d c then none else some (startToken c, [.sym d])

/-- Read a text from a state. -/
def lexRun (s : SqlState) : List Char → Option (SqlState × List SqlToken)
  | [] => some (s, [])
  | c :: cs =>
      (lexStep s c).bind fun r => (lexRun r.1 cs).map fun r' => (r'.1, r.2 ++ r'.2)

/-- The tokens of a text. -/
def sqlTokens (text : List Char) : Option (List SqlToken) :=
  (lexRun .between text).bind fun r => (flush r.1).map fun last => r.2 ++ last

/-- The parts of a text are read one after the other. -/
theorem lexRun_append (s : SqlState) (a b : List Char) :
    lexRun s (a ++ b) =
      (lexRun s a).bind fun r => (lexRun r.1 b).map fun r' => (r'.1, r.2 ++ r'.2) := by
  induction a generalizing s with
  | nil =>
      rw [List.nil_append]
      change lexRun s b = (lexRun s b).map fun r' => (r'.1, [] ++ r'.2)
      cases lexRun s b <;> rfl
  | cons c a ih =>
      rw [List.cons_append, lexRun, lexRun]
      cases hstep : lexStep s c with
      | none => rfl
      | some r =>
          simp only [Option.bind_some, ih]
          cases lexRun r.1 a with
          | none => rfl
          | some r' =>
              simp only [Option.map_some, Option.bind_some, Option.map_map]
              cases lexRun r'.1 b with
              | none => rfl
              | some r'' => simp

theorem lexRun_append_eq {s s' s'' : SqlState} {a b : List Char} {t t' : List SqlToken}
    (ha : lexRun s a = some (s', t)) (hb : lexRun s' b = some (s'', t')) :
    lexRun s (a ++ b) = some (s'', t ++ t') := by
  rw [lexRun_append, ha, Option.bind_some, hb, Option.map_some]

theorem lexRun_cons_eq {s s' s'' : SqlState} {c : Char} {cs : List Char} {t t' : List SqlToken}
    (hc : lexStep s c = some (s', t)) (hcs : lexRun s' cs = some (s'', t')) :
    lexRun s (c :: cs) = some (s'', t ++ t') := by
  rw [lexRun, hc, Option.bind_some, hcs, Option.map_some]

theorem lexRun_singleton {s s' : SqlState} {c : Char} {t : List SqlToken}
    (h : lexStep s c = some (s', t)) : lexRun s [c] = some (s', t) := by
  rw [lexRun_cons_eq h rfl, List.append_nil]

/-! ## Quoted names and values -/

/-- A text in quotes, the quote inside of it doubled. -/
def inQuotes (q : Char) (cs : List Char) : List Char :=
  q :: (cs.flatMap (fun c => if c = q then [q, q] else [c]) ++ [q])

/-- The characters of an identifier, with their quotes doubled, stay inside it. -/
theorem lexRun_identChars (acc cs : List Char) :
    lexRun (.ident acc) (cs.flatMap fun c => if c = '"' then ['"', '"'] else [c]) =
      some (.ident (cs.reverse ++ acc), []) := by
  induction cs generalizing acc with
  | nil => rfl
  | cons c cs ih =>
      rw [List.flatMap_cons, lexRun_append]
      have hone : lexRun (.ident acc) (if c = '"' then ['"', '"'] else [c]) =
          some (.ident (c :: acc), []) := by
        split_ifs with hc
        · subst hc
          rfl
        · apply lexRun_singleton
          rw [lexStep, if_neg hc]
      rw [hone, Option.bind_some, ih]
      simp

/-- The characters of a literal, with their quotes doubled, stay inside it. -/
theorem lexRun_literalChars (acc cs : List Char) :
    lexRun (.literal acc) (cs.flatMap fun c => if c = '\'' then ['\'', '\''] else [c]) =
      some (.literal (cs.reverse ++ acc), []) := by
  induction cs generalizing acc with
  | nil => rfl
  | cons c cs ih =>
      rw [List.flatMap_cons, lexRun_append]
      have hone : lexRun (.literal acc) (if c = '\'' then ['\'', '\''] else [c]) =
          some (.literal (c :: acc), []) := by
        split_ifs with hc
        · subst hc
          rfl
        · apply lexRun_singleton
          rw [lexStep, if_neg hc]
      rw [hone, Option.bind_some, ih]
      simp

theorem inQuotes_ident (cs : List Char) (s : SqlState) (t : List SqlToken)
    (h : lexStep s '"' = some (.ident [], t)) :
    lexRun s (inQuotes '"' cs) = some (.identQuote cs.reverse, t) := by
  have hchars := lexRun_append_eq (lexRun_identChars [] cs)
    (lexRun_singleton (s := .ident (cs.reverse ++ [])) (c := '"') rfl)
  have hrun := lexRun_cons_eq h hchars
  rwa [List.append_nil, List.append_nil, List.append_nil] at hrun

/-- A literal is read up to its closing quote. -/
theorem inQuotes_literal (cs : List Char) (s : SqlState) (t : List SqlToken)
    (h : lexStep s '\'' = some (.literal [], t)) :
    lexRun s (inQuotes '\'' cs) = some (.literalQuote cs.reverse, t) := by
  have hchars := lexRun_append_eq (lexRun_literalChars [] cs)
    (lexRun_singleton (s := .literal (cs.reverse ++ [])) (c := '\'') rfl)
  have hrun := lexRun_cons_eq h hchars
  rwa [List.append_nil, List.append_nil, List.append_nil] at hrun

/-! ## Reading plain text and quoted pieces -/

/-- Characters of fixed text: no quote, no dollar, and no symbol that could open a comment. -/
def isPlain (c : Char) : Bool :=
  isSqlSpace c || isSqlWord c || [',', '.', '(', ')', '=', '<', '>', ';', ':'].contains c

/-- The machine stands outside of quotes; where it is ready, the next character starts a token. -/
def Settled (ready : Bool) : SqlState → Prop
  | .between => True
  | .sym c => isPlain c = true
  | .word _ | .identQuote _ | .literalQuote _ => ready = false
  | _ => False

/-- The quoted token that the next character completes. -/
def pendingQuoted : SqlState → List SqlToken
  | .identQuote acc => [.ident acc.reverse]
  | .literalQuote acc => [.literal acc.reverse]
  | _ => []

theorem Settled.weaken {ready : Bool} {s : SqlState} (h : Settled ready s) : Settled false s := by
  cases s with
  | word acc | identQuote acc | literalQuote acc => rfl
  | between => trivial
  | sym c => exact h
  | _ => cases h

/-- From the settled states a text is read to settled states: it completes what was pending and the
quoted tokens given. Where `clean` holds it has no semicolon of its own. -/
def Reads (ready ready' : Bool) (cs : List Char) (quoted : List SqlToken) (clean : Prop) : Prop :=
  ∀ s, Settled ready s → ∃ s' t, lexRun s cs = some (s', t) ∧ Settled ready' s' ∧
    t.filter SqlToken.isQuoted ++ pendingQuoted s' = pendingQuoted s ++ quoted ∧
    (clean → s ≠ .sym ';' → s' ≠ .sym ';' ∧ .sym ';' ∉ t)

theorem Reads.nil (ready : Bool) : Reads ready ready [] [] True := by
  intro s hs
  exact ⟨s, [], rfl, hs, by simp, fun _ hne => ⟨hne, List.not_mem_nil⟩⟩

/-- What is read of two parts in a row. -/
theorem Reads.append {r r' r'' : Bool} {a b : List Char} {q q' : List SqlToken} {c c' : Prop}
    (h : Reads r r' a q c) (h' : Reads r' r'' b q' c') :
    Reads r r'' (a ++ b) (q ++ q') (c ∧ c') := by
  intro s hs
  obtain ⟨s', t, hrun, hs', hquoted, hclean⟩ := h s hs
  obtain ⟨s'', t', hrun', hs'', hquoted', hclean'⟩ := h' s' hs'
  refine ⟨s'', t ++ t', lexRun_append_eq hrun hrun', hs'', ?_, ?_⟩
  · rw [List.filter_append, List.append_assoc, hquoted', ← List.append_assoc, hquoted,
      List.append_assoc]
  · intro hc hne
    obtain ⟨hne', hnot⟩ := hclean hc.1 hne
    obtain ⟨hne'', hnot'⟩ := hclean' hc.2 hne'
    refine ⟨hne'', ?_⟩
    rw [List.mem_append, not_or]
    exact ⟨hnot, hnot'⟩

theorem Reads.weaken {r r' : Bool} {a : List Char} {q : List SqlToken} {c : Prop}
    (h : Reads r r' a q c) : Reads r false a q c := by
  intro s hs
  obtain ⟨s', t, hrun, hs', hrest⟩ := h s hs
  exact ⟨s', t, hrun, hs'.weaken, hrest⟩

theorem Reads.of_unready {r r' : Bool} {a : List Char} {q : List SqlToken} {c : Prop}
    (h : Reads false r' a q c) : Reads r r' a q c :=
  fun s hs => h s hs.weaken

/-- Where a plain character leaves the machine. -/
theorem startToken_plain {c : Char} (hc : isPlain c = true) :
    Settled (!isSqlWord c) (startToken c) ∧ pendingQuoted (startToken c) = [] ∧
      (c ≠ ';' → startToken c ≠ .sym ';') := by
  unfold startToken
  split_ifs with hspace hident hliteral hdollar hword
  · exact ⟨trivial, rfl, fun _ => by simp⟩
  · subst hident
    exact absurd hc (by decide)
  · subst hliteral
    exact absurd hc (by decide)
  · subst hdollar
    exact absurd hc (by decide)
  · refine ⟨?_, rfl, fun _ => by simp⟩
    change (!isSqlWord c) = false
    rw [hword]
    rfl
  · exact ⟨hc, rfl, fun hne h => hne (SqlState.sym.inj h)⟩

theorem ne_quote_of_plain {c : Char} (hc : isPlain c = true) : c ≠ '"' ∧ c ≠ '\'' ∧ c ≠ '$' := by
  refine ⟨?_, ?_, ?_⟩ <;>
  · rintro rfl
    revert hc
    decide

theorem opensHidden_of_plain {c d : Char} (hc : isPlain c = true) : opensHidden c d = false := by
  have hdash : c ≠ '-' := by rintro rfl; revert hc; decide
  have hslash : c ≠ '/' := by rintro rfl; revert hc; decide
  have hamp : c ≠ '&' := by rintro rfl; revert hc; decide
  simp [opensHidden, hdash, hslash, hamp]

/-- A plain character ends what was pending and starts at most a word. -/
theorem reads_plain {c : Char} (hc : isPlain c = true) :
    Reads false (!isSqlWord c) [c] [] (c ≠ ';') := by
  obtain ⟨hident, hliteral, hdollar⟩ := ne_quote_of_plain hc
  obtain ⟨hsettled, hpending, hsemi⟩ := startToken_plain hc
  intro s hs
  cases s with
  | between =>
      refine ⟨startToken c, [], lexRun_singleton rfl, hsettled, by rw [hpending]; rfl,
        fun hne _ => ⟨hsemi hne, List.not_mem_nil⟩⟩
  | word acc =>
      cases hword : isSqlWord c with
      | true =>
          refine ⟨.word (c :: acc), [], lexRun_singleton ?_, rfl, rfl,
            fun _ _ => ⟨by simp, List.not_mem_nil⟩⟩
          rw [lexStep, if_pos (Or.inl hword)]
      | false =>
          rw [hword] at hsettled
          refine ⟨startToken c, [.word acc.reverse], lexRun_singleton ?_, hsettled,
            by rw [hpending]; rfl,
            fun hne _ => ⟨hsemi hne, by simp⟩⟩
          rw [lexStep, if_neg (by simp [hword, hdollar]), if_neg hliteral]
  | identQuote acc =>
      refine ⟨startToken c, [.ident acc.reverse], lexRun_singleton ?_, hsettled,
        by rw [hpending]; rfl, fun hne _ => ⟨hsemi hne, by simp⟩⟩
      rw [lexStep, if_neg hident]
  | literalQuote acc =>
      refine ⟨startToken c, [.literal acc.reverse], lexRun_singleton ?_, hsettled,
        by rw [hpending]; rfl, fun hne _ => ⟨hsemi hne, by simp⟩⟩
      rw [lexStep, if_neg hliteral]
  | sym d =>
      refine ⟨startToken c, [.sym d], lexRun_singleton ?_, hsettled,
        by rw [hpending]; rfl, fun hne hd => ⟨hsemi hne, ?_⟩⟩
      · rw [lexStep, opensHidden_of_plain hs]
        rfl
      · rw [List.mem_singleton]
        intro heq
        exact hd (by rw [SqlToken.sym.inj heq])
  | _ => cases hs

/-- Where the machine is ready, any character starts a token of its own. -/
theorem lexStep_of_ready {s : SqlState} (hs : Settled true s) (c : Char) :
    ∃ t, lexStep s c = some (startToken c, t) ∧ t.filter SqlToken.isQuoted = [] ∧
      pendingQuoted s = [] ∧ (s ≠ .sym ';' → .sym ';' ∉ t) := by
  cases s with
  | between => exact ⟨[], rfl, rfl, rfl, fun _ => List.not_mem_nil⟩
  | sym d =>
      refine ⟨[.sym d], ?_, rfl, rfl, fun hne hmem => ?_⟩
      · rw [lexStep, opensHidden_of_plain hs]
        rfl
      · exact hne (by rw [SqlToken.sym.inj (List.mem_singleton.1 hmem)])
  | _ => cases hs

theorem reads_ident (name : List Char) :
    Reads true false (inQuotes '"' name) [.ident name] True := by
  intro s hs
  obtain ⟨t, hstep, hquoted, hpending, hsemi⟩ := lexStep_of_ready hs '"'
  refine ⟨.identQuote name.reverse, t, inQuotes_ident name s t hstep, rfl, ?_,
    fun _ hne => ⟨by simp, hsemi hne⟩⟩
  rw [hquoted, hpending, pendingQuoted, List.reverse_reverse]

theorem reads_literal (value : List Char) :
    Reads true false (inQuotes '\'' value) [.literal value] True := by
  intro s hs
  obtain ⟨t, hstep, hquoted, hpending, hsemi⟩ := lexStep_of_ready hs '\''
  refine ⟨.literalQuote value.reverse, t, inQuotes_literal value s t hstep, rfl, ?_,
    fun _ hne => ⟨by simp, hsemi hne⟩⟩
  rw [hquoted, hpending, pendingQuoted, List.reverse_reverse]

/-- Plain text is read as no quoted token. -/
theorem reads_text (t : List Char) (ht : ∀ c ∈ t, isPlain c = true) :
    Reads false false t [] (';' ∉ t) := by
  induction t with
  | nil =>
      intro s hs
      exact ⟨s, [], rfl, hs, by simp, fun _ hne => ⟨hne, List.not_mem_nil⟩⟩
  | cons c t ih =>
      have hc := (reads_plain (ht c List.mem_cons_self)).weaken
      have hrun := hc.append (ih fun d hd => ht d (List.mem_cons_of_mem c hd))
      intro s hs
      obtain ⟨s', toks, heq, hs', hquoted, hclean⟩ := hrun s hs
      refine ⟨s', toks, heq, hs', hquoted, fun hnot hne => hclean ⟨?_, ?_⟩ hne⟩
      · rintro rfl
        exact hnot List.mem_cons_self
      · exact fun h => hnot (List.mem_cons_of_mem c h)

/-- After plain text that ends in a space or a symbol the machine is ready. -/
theorem reads_text_ready (t : List Char) (c : Char) (ht : ∀ d ∈ t ++ [c], isPlain d = true)
    (hc : isSqlWord c = false) : Reads false true (t ++ [c]) [] (';' ∉ t ++ [c]) := by
  have hstart := reads_text t fun d hd => ht d (List.mem_append_left _ hd)
  have hlast := reads_plain (ht c (List.mem_append_right _ List.mem_cons_self))
  rw [hc] at hlast
  intro s hs
  obtain ⟨s', toks, heq, hs', hquoted, hclean⟩ := (hstart.append hlast) s hs
  refine ⟨s', toks, heq, hs', hquoted, fun hnot hne => hclean ⟨?_, ?_⟩ hne⟩
  · exact fun h => hnot (List.mem_append_left _ h)
  · rintro rfl
    exact hnot (List.mem_append_right _ List.mem_cons_self)

theorem isPlain_of_isDigit {c : Char} (h : c.isDigit = true) : isPlain c = true := by
  simp [isPlain, isSqlWord, Char.isAlphanum, h]

theorem isDigit_ne_semicolon {c : Char} (h : c.isDigit = true) : c ≠ ';' := by
  rintro rfl
  exact absurd h (by decide)

theorem reads_digits (ds : List Char) (hds : ∀ c ∈ ds, c.isDigit = true) :
    Reads false false ds [] True := by
  intro s hs
  obtain ⟨s', t, heq, hs', hquoted, hclean⟩ :=
    reads_text ds (fun c hc => isPlain_of_isDigit (hds c hc)) s hs
  exact ⟨s', t, heq, hs', hquoted,
    fun _ => hclean fun hmem => isDigit_ne_semicolon (hds _ hmem) rfl⟩

theorem isDigit_of_mem_toString (n : Nat) : ∀ c ∈ (toString n).toList, c.isDigit = true := by
  intro c hc
  change c ∈ n.repr.toList at hc
  rw [Nat.toList_repr] at hc
  exact Nat.isDigit_of_mem_toDigits (by decide) (by decide) hc

/-- A number; its sign is a symbol of its own. -/
theorem reads_int (n : Int) : Reads true false (toString n).toList [] True := by
  cases n with
  | ofNat m => exact (reads_digits _ (isDigit_of_mem_toString m)).of_unready
  | negSucc m =>
      have hsign : (toString (Int.negSucc m)).toList = '-' :: (toString (m + 1)).toList := by
        change ("-" ++ (m + 1).repr).toList = '-' :: (m + 1).repr.toList
        rw [String.toList_append]
        rfl
      have hne : (toString (m + 1)).toList ≠ [] := by
        change (m + 1).repr.toList ≠ []
        rw [Nat.toList_repr]
        exact Nat.toDigits_ne_nil
      obtain ⟨d, ds, hcons⟩ := List.exists_cons_of_ne_nil hne
      have hdigits := isDigit_of_mem_toString (m + 1)
      rw [hcons] at hdigits
      obtain ⟨hd, hds⟩ := List.forall_mem_cons.1 hdigits
      -- The sign is pending until the first digit, which it does not hide.
      have hsigned : lexStep (.sym '-') d = some (startToken d, [.sym '-']) := by
        have hdash : d ≠ '-' := by rintro rfl; exact absurd hd (by decide)
        rw [lexStep, if_neg]
        simp [opensHidden, hdash]
      obtain ⟨hsettled, hstart, hsemi'⟩ := startToken_plain (isPlain_of_isDigit hd)
      intro s hs
      obtain ⟨t, hstep, hquoted, hpending, hsemi⟩ := lexStep_of_ready hs '-'
      have hminus : startToken '-' = .sym '-' := by decide
      rw [hminus] at hstep
      obtain ⟨s', t', heq, hs', hquoted', hclean⟩ := reads_digits ds hds _ hsettled.weaken
      refine ⟨s', t ++ ([.sym '-'] ++ t'), ?_, hs', ?_, fun _ hne => ?_⟩
      · rw [hsign, hcons]
        exact lexRun_cons_eq hstep (lexRun_cons_eq hsigned heq)
      · rw [hstart] at hquoted'
        rw [List.filter_append, List.filter_append, hquoted, hpending, List.append_assoc,
          List.append_assoc, hquoted']
        rfl
      · obtain ⟨hne', hnot⟩ := hclean trivial (hsemi' (isDigit_ne_semicolon hd))
        refine ⟨hne', ?_⟩
        simp only [List.mem_append, List.mem_singleton, not_or]
        exact ⟨hsemi hne, by simp, hnot⟩

/-! ## Texts of pieces -/

/-- A part of a text. -/
inductive SqlPiece where
  | text (t : List Char)
  | int (n : Int)
  | ident (name : List Char)
  | literal (value : List Char)

/-- How the piece is written. -/
def SqlPiece.chars : SqlPiece → List Char
  | .text t => t
  | .int n => (toString n).toList
  | .ident name => inQuotes '"' name
  | .literal value => inQuotes '\'' value

/-- The quoted token of the piece. -/
def SqlPiece.quoted : SqlPiece → List SqlToken
  | .ident name => [.ident name]
  | .literal value => [.literal value]
  | _ => []

/-- A token can start after the piece without running into it. -/
def readyAfter (ready : Bool) : SqlPiece → Bool
  | .text t =>
      match t.getLast? with
      | some c => !isSqlWord c
      | none => ready
  | _ => false

/-- The piece may stand where the machine is ready or not. -/
def fits (ready : Bool) : SqlPiece → Bool
  | .text t => t.all isPlain
  | _ => ready

/-- Fixed text is plain, and everything else starts after a space or a symbol. -/
def wellSpaced : Bool → List SqlPiece → Bool
  | _, [] => true
  | ready, p :: ps => fits ready p && wellSpaced (readyAfter ready p) ps

/-- Where the last of the pieces leaves the machine. -/
def readyAfterAll (ready : Bool) (ps : List SqlPiece) : Bool := ps.foldl readyAfter ready

/-- The piece has no semicolon of its own. -/
def SqlPiece.clean : SqlPiece → Bool
  | .text t => !t.contains ';'
  | _ => true

/-- A piece that fits is read as what it quotes. -/
theorem reads_piece {ready : Bool} {p : SqlPiece} (h : fits ready p = true) :
    Reads ready (readyAfter ready p) p.chars p.quoted (p.clean = true) := by
  cases p with
  | text t =>
      have hplain : ∀ c ∈ t, isPlain c = true := List.all_eq_true.1 h
      have hclean : (SqlPiece.text t).clean = true ↔ ';' ∉ t := by simp [SqlPiece.clean]
      rw [propext hclean]
      rcases List.eq_nil_or_concat t with rfl | ⟨l, c, rfl⟩
      · intro s hs
        exact ⟨s, [], rfl, hs, by simp [SqlPiece.quoted], fun _ hne => ⟨hne, List.not_mem_nil⟩⟩
      · rw [List.concat_eq_append] at hplain ⊢
        have hready : readyAfter ready (.text (l ++ [c])) = !isSqlWord c := by
          simp [readyAfter]
        rw [hready]
        cases hc : isSqlWord c with
        | true => exact (reads_text _ hplain).of_unready
        | false => exact (reads_text_ready l c hplain hc).of_unready
  | int n =>
      obtain rfl : ready = true := h
      intro s hs
      obtain ⟨s', t, heq, hs', hquoted, hclean⟩ := reads_int n s hs
      exact ⟨s', t, heq, hs', hquoted, fun _ => hclean trivial⟩
  | ident name =>
      obtain rfl : ready = true := h
      intro s hs
      obtain ⟨s', t, heq, hs', hquoted, hclean⟩ := reads_ident name s hs
      exact ⟨s', t, heq, hs', hquoted, fun _ => hclean trivial⟩
  | literal value =>
      obtain rfl : ready = true := h
      intro s hs
      obtain ⟨s', t, heq, hs', hquoted, hclean⟩ := reads_literal value s hs
      exact ⟨s', t, heq, hs', hquoted, fun _ => hclean trivial⟩

/-- Well-spaced pieces are read one by one: the quoted tokens of the text are the pieces', and a
semicolon between tokens is one of the fixed text. -/
theorem reads_pieces {ready : Bool} {ps : List SqlPiece} (h : wellSpaced ready ps = true) :
    Reads ready (readyAfterAll ready ps) (ps.flatMap SqlPiece.chars)
      (ps.flatMap SqlPiece.quoted) (ps.all SqlPiece.clean = true) := by
  induction ps generalizing ready with
  | nil =>
      intro s hs
      exact ⟨s, [], rfl, hs, by simp, fun _ hne => ⟨hne, List.not_mem_nil⟩⟩
  | cons p ps ih =>
      rw [wellSpaced, Bool.and_eq_true] at h
      have hrun := (reads_piece h.1).append (ih h.2)
      intro s hs
      obtain ⟨s', t, heq, hs', hquoted, hclean⟩ := hrun s hs
      refine ⟨s', t, heq, hs', hquoted, fun hall => hclean ?_⟩
      rwa [List.all_cons, Bool.and_eq_true] at hall

/-! ## Statements -/

/-- The quoted tokens that a token stands for: a dollar-quoted body is read as a text of its own. -/
def SqlToken.unfold : SqlToken → Option (List SqlToken)
  | .dollar body => (sqlTokens body).map (·.filter SqlToken.isQuoted)
  | t => some [t]

/-- The names and values of a text, in order, those inside of dollar-quoted bodies included. -/
def decodeQuoted (tokens : List SqlToken) : Option (List SqlToken) :=
  ((tokens.filter SqlToken.isQuoted).mapM SqlToken.unfold).map List.flatten

/-- The text is one statement with the names and values given: its only semicolon between tokens is
its last character. -/
def IsStatement (sql : List Char) (quoted : List SqlToken) : Prop :=
  ∃ tokens, sqlTokens sql = some (tokens ++ [.sym ';']) ∧ .sym ';' ∉ tokens ∧
    decodeQuoted tokens = some quoted

/-- Tokens without dollar quotes decode to their quoted ones. -/
theorem decodeQuoted_of_filter {tokens quoted : List SqlToken}
    (h : tokens.filter SqlToken.isQuoted = quoted) (hplain : ∀ body, .dollar body ∉ quoted) :
    decodeQuoted tokens = some quoted := by
  have hmap : ∀ l : List SqlToken, (∀ body, .dollar body ∉ l) →
      l.mapM SqlToken.unfold = some (l.map fun t => [t]) := by
    intro l hl
    induction l with
    | nil => rfl
    | cons t l ih =>
        have ht : t.unfold = some [t] := by
          cases t with
          | dollar body => exact absurd List.mem_cons_self (hl body)
          | _ => rfl
        rw [List.mapM_cons, ht, ih fun body hmem => hl body (List.mem_cons_of_mem t hmem)]
        rfl
  rw [decodeQuoted, h, hmap quoted hplain, Option.map_some, ← List.flatMap_def,
    List.flatMap_singleton']

theorem dollar_not_mem_quoted (ps : List SqlPiece) (body : List Char) :
    .dollar body ∉ ps.flatMap SqlPiece.quoted := by
  intro hmem
  obtain ⟨p, -, hp⟩ := List.mem_flatMap.1 hmem
  cases p <;> simp [SqlPiece.quoted] at hp

/-- A parenthesis or a semicolon ends what is pending. -/
theorem lexStep_symbol {s : SqlState} (hs : Settled false s) {c : Char} (hc : c = '(' ∨ c = ';') :
    ∃ t, lexStep s c = some (.sym c, t) ∧ t.filter SqlToken.isQuoted = pendingQuoted s ∧
      (s ≠ .sym ';' → .sym ';' ∉ t) := by
  cases s with
  | between => exact ⟨[], by rcases hc with rfl | rfl <;> rfl, rfl, fun _ => List.not_mem_nil⟩
  | word acc =>
      exact ⟨[.word acc.reverse], by rcases hc with rfl | rfl <;> rfl, rfl, fun _ => by simp⟩
  | identQuote acc =>
      exact ⟨[.ident acc.reverse], by rcases hc with rfl | rfl <;> rfl, rfl, fun _ => by simp⟩
  | literalQuote acc =>
      exact ⟨[.literal acc.reverse], by rcases hc with rfl | rfl <;> rfl, rfl, fun _ => by simp⟩
  | sym d =>
      refine ⟨[.sym d], ?_, rfl, ?_⟩
      · rw [lexStep, opensHidden_of_plain hs]
        rcases hc with rfl | rfl <;> rfl
      · intro hne hmem
        exact hne (by rw [SqlToken.sym.inj (List.mem_singleton.1 hmem)])
  | _ => cases hs

/-- A semicolon ends what is pending. -/
theorem exists_sqlTokens_semicolon {s : SqlState} {cs : List Char} {t : List SqlToken}
    (hrun : lexRun .between cs = some (s, t)) (hs : Settled false s) :
    ∃ last, sqlTokens (cs ++ [';']) = some ((t ++ last) ++ [.sym ';']) ∧
      last.filter SqlToken.isQuoted = pendingQuoted s ∧ (s ≠ .sym ';' → .sym ';' ∉ last) := by
  obtain ⟨last, hlast, hrest⟩ := lexStep_symbol hs (.inr rfl)
  refine ⟨last, ?_, hrest⟩
  rw [sqlTokens, lexRun_append_eq hrun (lexRun_singleton hlast)]
  rfl

/-- A statement is read with its closing semicolon. -/
theorem sqlTokens_semicolon {s : SqlState} {cs : List Char} {t : List SqlToken}
    (hrun : lexRun .between cs = some (s, t)) (hs : Settled false s) (hsemi : s ≠ .sym ';')
    (ht : .sym ';' ∉ t) :
    ∃ tokens, sqlTokens (cs ++ [';']) = some (tokens ++ [.sym ';']) ∧ .sym ';' ∉ tokens ∧
      tokens.filter SqlToken.isQuoted = t.filter SqlToken.isQuoted ++ pendingQuoted s := by
  obtain ⟨last, htokens, hpending, hnot⟩ := exists_sqlTokens_semicolon hrun hs
  refine ⟨t ++ last, htokens, ?_, ?_⟩
  · rw [List.mem_append, not_or]
    exact ⟨ht, hnot hsemi⟩
  · rw [List.filter_append, hpending]

/-- A statement has one reading. -/
theorem IsStatement.unique {sql : List Char} {q q' : List SqlToken} (h : IsStatement sql q)
    (h' : IsStatement sql q') : q = q' := by
  obtain ⟨tokens, htokens, -, hdecode⟩ := h
  obtain ⟨tokens', htokens', -, hdecode'⟩ := h'
  rw [htokens] at htokens'
  have heq : tokens = tokens' := List.append_cancel_right (Option.some.inj htokens')
  rw [heq, hdecode'] at hdecode
  exact (Option.some.inj hdecode).symm

/-- Well-spaced pieces without a semicolon, and one at the end, are one statement with the names
and values of the pieces. -/
theorem isStatement_of_pieces {ps : List SqlPiece} (h : wellSpaced true ps = true)
    (hclean : ps.all SqlPiece.clean = true) :
    IsStatement (ps.flatMap SqlPiece.chars ++ [';']) (ps.flatMap SqlPiece.quoted) := by
  obtain ⟨s, t, hrun, hs, hquoted, hsemi⟩ := reads_pieces h .between trivial
  obtain ⟨hs', ht⟩ := hsemi hclean (by simp)
  obtain ⟨tokens, htokens, hnot, hfilter⟩ := sqlTokens_semicolon hrun hs.weaken hs' ht
  refine ⟨tokens, htokens, hnot, decodeQuoted_of_filter ?_ (dollar_not_mem_quoted ps)⟩
  rw [hfilter, hquoted]
  rfl

theorem wellSpaced_append (ready : Bool) (ps qs : List SqlPiece) :
    wellSpaced ready (ps ++ qs) = (wellSpaced ready ps && wellSpaced (readyAfterAll ready ps) qs) := by
  induction ps generalizing ready with
  | nil => rfl
  | cons p ps ih =>
      rw [List.cons_append, wellSpaced, wellSpaced, ih, Bool.and_assoc]
      rfl

/-! ## Lists of pieces -/

/-- Groups of pieces with a separator between them. -/
def joinPieces (sep : List Char) : List (List SqlPiece) → List SqlPiece
  | [] => []
  | [g] => g
  | g :: g' :: gs => g ++ .text sep :: joinPieces sep (g' :: gs)

/-- The text of some pieces. -/
def piecesText (ps : List SqlPiece) : List Char := ps.flatMap SqlPiece.chars

/-- Joined pieces spell the joined texts. -/
theorem piecesText_joinPieces (sep : List Char) (gs : List (List SqlPiece)) :
    piecesText (joinPieces sep gs) = sep.intercalate (gs.map piecesText) := by
  induction gs with
  | nil => rfl
  | cons g gs ih =>
      cases gs with
      | nil => simp [joinPieces]
      | cons g' gs =>
          rw [joinPieces, List.map_cons, List.map_cons, List.intercalate_cons_cons,
            ← List.map_cons, ← ih]
          simp [piecesText, SqlPiece.chars]

theorem quoted_joinPieces (sep : List Char) (gs : List (List SqlPiece)) :
    (joinPieces sep gs).flatMap SqlPiece.quoted = gs.flatMap (·.flatMap SqlPiece.quoted) := by
  induction gs with
  | nil => rfl
  | cons g gs ih =>
      cases gs with
      | nil => simp [joinPieces]
      | cons g' gs =>
          rw [joinPieces, List.flatMap_append, List.flatMap_cons, ih]
          rfl

/-- Joined pieces have no semicolon where the parts have none. -/
theorem clean_joinPieces {sep : List Char} (hsep : ';' ∉ sep) {gs : List (List SqlPiece)}
    (h : ∀ g ∈ gs, g.all SqlPiece.clean = true) : (joinPieces sep gs).all SqlPiece.clean = true := by
  induction gs with
  | nil => rfl
  | cons g gs ih =>
      cases gs with
      | nil => exact h g List.mem_cons_self
      | cons g' gs =>
          have hclean : (SqlPiece.text sep).clean = true := by simp [SqlPiece.clean, hsep]
          rw [joinPieces, List.all_append, List.all_cons, h g List.mem_cons_self, hclean,
            ih fun g hg => h g (List.mem_cons_of_mem _ hg)]
          rfl

/-- Text after which a token can start after a word leaves it so after everything else. -/
theorem readyAfter_text {t : List Char} (h : readyAfter false (.text t) = true) (ready : Bool) :
    readyAfter ready (.text t) = true := by
  cases ready with
  | false => exact h
  | true =>
      simp only [readyAfter] at h ⊢
      cases hlast : t.getLast? with
      | none => rfl
      | some c => rwa [hlast] at h

/-- A separator of plain text that ends in a space or a symbol lets every group start afresh. -/
theorem wellSpaced_joinPieces {sep : List Char} (hplain : sep.all isPlain = true)
    (hready : readyAfter false (.text sep) = true) {gs : List (List SqlPiece)}
    (h : ∀ g ∈ gs, wellSpaced true g = true) : wellSpaced true (joinPieces sep gs) = true := by
  induction gs with
  | nil => rfl
  | cons g gs ih =>
      cases gs with
      | nil => exact h g List.mem_cons_self
      | cons g' gs =>
          rw [joinPieces, wellSpaced_append, h g List.mem_cons_self, wellSpaced,
            readyAfter_text hready, ih fun g hg => h g (List.mem_cons_of_mem _ hg)]
          simp [fits, hplain]

end PgRoles.Lib

import PgRoles.Lib.SqlLex

/-!
# Dollar-quoted bodies

A dollar quote ends at the first occurrence of its delimiter, whatever stands around it. In a body
of plain text and literals an occurrence can only lie inside of a literal, and there the cut leaves
the literal open. So a statement that is one dollar-quoted body has the body's names and values
exactly when no literal of it has the delimiter (`isStatement_dollar_iff`).
-/

set_option autoImplicit false

namespace PgRoles.Lib

/-- The delimiter of a dollar quote. -/
def delimiter (tag : List Char) : List Char := '$' :: (tag ++ ['$'])

theorem reverse_closingTag (tag : List Char) : (closingTag tag).reverse = delimiter tag := by
  simp [closingTag, delimiter]

theorem reverse_delimiter (tag : List Char) : (delimiter tag).reverse = closingTag tag := by
  rw [← reverse_closingTag, List.reverse_reverse]

/-! ## The first delimiter -/

/-- The machine in a body that has met no delimiter yet ends the body at the first one. -/
theorem lexRun_dollar {tag acc cs : List Char}
    (hnone : ∀ pre, ¬ pre ++ delimiter tag <+: acc.reverse)
    (hocc : delimiter tag <:+: acc.reverse ++ cs) :
    ∃ body rest, acc.reverse ++ cs = body ++ delimiter tag ++ rest ∧
      (∀ pre, ¬ pre ++ delimiter tag <+: body) ∧
      lexRun (.dollar tag acc) cs =
        (lexRun .between rest).map fun r => (r.1, .dollar body :: r.2) := by
  induction cs generalizing acc with
  | nil =>
      obtain ⟨pre, post, h⟩ := hocc
      rw [List.append_nil] at h
      exact absurd ⟨post, h⟩ (hnone pre)
  | cons c cs ih =>
      by_cases hclose : (closingTag tag).isPrefixOf (c :: acc) = true
      · obtain ⟨r, hr⟩ := List.isPrefixOf_iff_prefix.1 hclose
        have hlast : acc.reverse ++ [c] = r.reverse ++ delimiter tag := by
          rw [← reverse_closingTag, ← List.reverse_append, hr, List.reverse_cons]
        have hdrop : (c :: acc).drop (tag.length + 2) = r := by
          have hlength : (closingTag tag).length = tag.length + 2 := by simp [closingTag]
          rw [← hr, ← hlength, List.drop_left]
        refine ⟨r.reverse, cs, ?_, ?_, ?_⟩
        · rw [← hlast]
          simp
        · intro pre hpre
          -- the body ends before the last character read
          apply hnone pre
          apply hpre.trans
          have hsplit : acc.reverse ++ [c] = (r.reverse ++ '$' :: tag) ++ ['$'] := by
            rw [hlast, delimiter]
            simp
          have hacc : acc.reverse = r.reverse ++ '$' :: tag := List.append_inj_left' hsplit rfl
          rw [hacc]
          exact List.prefix_append _ _
        · rw [lexRun, lexStep, if_pos hclose, hdrop]
          rfl
      · have hstep : lexRun (.dollar tag acc) (c :: cs) = lexRun (.dollar tag (c :: acc)) cs := by
          rw [lexRun, lexStep, if_neg hclose, Option.bind_some]
          cases lexRun (.dollar tag (c :: acc)) cs <;> rfl
        have htext : (c :: acc).reverse ++ cs = acc.reverse ++ c :: cs := by simp
        rw [hstep, ← htext]
        apply ih
        · intro pre hpre
          rw [List.reverse_cons, List.prefix_concat_iff] at hpre
          rcases hpre with hpre | hpre
          · apply hclose
            have hrev := congrArg List.reverse hpre
            rw [List.reverse_append, reverse_delimiter] at hrev
            rw [List.isPrefixOf_iff_prefix]
            refine ⟨pre.reverse, ?_⟩
            rw [hrev]
            simp
          · exact hnone pre hpre
        · rw [htext]
          exact hocc

/-! ## Where a delimiter can stand -/

/-- The characters of a quoted text. -/
def doubleQuotes (q : Char) (cs : List Char) : List Char :=
  cs.flatMap fun c => if c = q then [q, q] else [c]

theorem inQuotes_eq (q : Char) (cs : List Char) :
    inQuotes q cs = q :: (doubleQuotes q cs ++ [q]) := rfl

theorem doubleQuotes_cons (q c : Char) (cs : List Char) :
    doubleQuotes q (c :: cs) = (if c = q then [q, q] else [c]) ++ doubleQuotes q cs :=
  List.flatMap_cons

theorem doubleQuotes_append (q : Char) (as bs : List Char) :
    doubleQuotes q (as ++ bs) = doubleQuotes q as ++ doubleQuotes q bs :=
  List.flatMap_append

theorem doubleQuotes_of_not_mem {q : Char} {cs : List Char} (h : q ∉ cs) :
    doubleQuotes q cs = cs := by
  induction cs with
  | nil => rfl
  | cons c cs ih =>
      have hc : c ≠ q := by
        rintro rfl
        exact h List.mem_cons_self
      rw [doubleQuotes_cons, if_neg hc, ih fun hmem => h (List.mem_cons_of_mem c hmem)]
      rfl

/-- A text without the quote that starts the characters of a quoted text starts the text. -/
theorem prefix_of_prefix_doubleQuotes {q : Char} {d v rest : List Char} (hq : q ∉ d)
    (h : d <+: doubleQuotes q v ++ q :: rest) : d <+: v := by
  induction v generalizing d with
  | nil =>
      cases d with
      | nil => exact List.nil_prefix
      | cons c d =>
          obtain ⟨hc, -⟩ := List.cons_prefix_cons.1 h
          exact absurd (hc ▸ List.mem_cons_self) hq
  | cons c v ih =>
      cases d with
      | nil => exact List.nil_prefix
      | cons c' d =>
          rw [doubleQuotes_cons] at h
          split_ifs at h with hc
          · obtain ⟨hc', -⟩ := List.cons_prefix_cons.1 h
            exact absurd (hc' ▸ List.mem_cons_self) hq
          · obtain ⟨hc', htail⟩ := List.cons_prefix_cons.1 h
            rw [List.cons_prefix_cons]
            exact ⟨hc', ih (fun hmem => hq (List.mem_cons_of_mem c' hmem)) htail⟩

/-- A text without the quote that occurs in a quoted text or after it: either it occurs in the text
itself, or after the closing quote. -/
theorem occurs_in_quotes {q e : Char} {d v rest pre : List Char} (hq : q ∉ e :: d)
    (h : pre ++ e :: d <+: doubleQuotes q v ++ q :: rest) :
    (∃ a b, v = a ++ e :: d ++ b ∧ pre = doubleQuotes q a) ∨
      ∃ pre', pre = doubleQuotes q v ++ q :: pre' ∧ pre' ++ e :: d <+: rest := by
  have he : e ≠ q := by
    rintro rfl
    exact hq List.mem_cons_self
  induction v generalizing pre with
  | nil =>
      cases pre with
      | nil => exact absurd (List.cons_prefix_cons.1 h).1 he
      | cons x pre =>
          obtain ⟨rfl, hrest⟩ := List.cons_prefix_cons.1 h
          exact .inr ⟨pre, rfl, hrest⟩
  | cons c v ih =>
      by_cases hc : c = q
      · subst hc
        rw [doubleQuotes_cons, if_pos rfl] at h ⊢
        -- the text cannot start at either of the doubled quotes
        cases pre with
        | nil => exact absurd (List.cons_prefix_cons.1 h).1 he
        | cons x pre =>
            obtain ⟨rfl, h⟩ := List.cons_prefix_cons.1 h
            cases pre with
            | nil => exact absurd (List.cons_prefix_cons.1 h).1 he
            | cons y pre =>
                obtain ⟨rfl, htail⟩ := List.cons_prefix_cons.1 h
                rcases ih htail with ⟨a, b, rfl, rfl⟩ | ⟨pre', rfl, hpre⟩
                · refine .inl ⟨y :: a, b, rfl, ?_⟩
                  rw [doubleQuotes_cons, if_pos rfl]
                  rfl
                · exact .inr ⟨pre', rfl, hpre⟩
      · cases pre with
        | nil =>
            obtain ⟨b, hb⟩ := prefix_of_prefix_doubleQuotes hq h
            exact .inl ⟨[], b, hb.symm, rfl⟩
        | cons x pre =>
            rw [doubleQuotes_cons, if_neg hc] at h ⊢
            obtain ⟨rfl, htail⟩ := List.cons_prefix_cons.1 h
            rcases ih htail with ⟨a, b, rfl, rfl⟩ | ⟨pre', rfl, hpre⟩
            · refine .inl ⟨x :: a, b, rfl, ?_⟩
              rw [doubleQuotes_cons, if_neg hc]
              rfl
            · exact .inr ⟨pre', rfl, hpre⟩

/-! ## Bodies of text and literals -/

/-- A piece of fixed text or a literal. -/
def SqlPiece.isBodyPiece : SqlPiece → Bool
  | .text _ | .literal _ => true
  | _ => false

theorem dollar_not_mem_of_fits {ready : Bool} {t : List Char} (h : fits ready (.text t) = true) :
    '$' ∉ t := by
  intro hmem
  exact absurd (List.all_eq_true.1 h '$' hmem) (by decide)

/-- A delimiter that occurs in a body of text and literals, or after it: either inside of one of the
literals or after the body. -/
theorem occurs_in_pieces {d tail pre : List Char} (hq : '\'' ∉ d) {ready : Bool}
    {ps : List SqlPiece} (hspaced : wellSpaced ready ps = true)
    (hbody : ps.all SqlPiece.isBodyPiece = true) (h : pre ++ '$' :: d <+: piecesText ps ++ tail) :
    (∃ ps₁ value ps₂ a b, ps = ps₁ ++ .literal value :: ps₂ ∧ value = a ++ '$' :: d ++ b ∧
        pre = piecesText ps₁ ++ '\'' :: doubleQuotes '\'' a) ∨
      ∃ pre', pre = piecesText ps ++ pre' ∧ pre' ++ '$' :: d <+: tail := by
  have hq' : '\'' ∉ '$' :: d := by
    rw [List.mem_cons, not_or]
    exact ⟨by decide, hq⟩
  induction ps generalizing pre ready with
  | nil => exact .inr ⟨pre, rfl, h⟩
  | cons p ps ih =>
      rw [wellSpaced, Bool.and_eq_true] at hspaced
      rw [List.all_cons, Bool.and_eq_true] at hbody
      have hchars : piecesText (p :: ps) ++ tail = p.chars ++ (piecesText ps ++ tail) := by
        simp [piecesText]
      rw [hchars] at h
      -- once the piece is passed, the rest decides
      have hafter : ∀ {pre'}, pre' ++ '$' :: d <+: piecesText ps ++ tail →
          (∃ ps₁ value ps₂ a b, p :: ps = ps₁ ++ .literal value :: ps₂ ∧
            value = a ++ '$' :: d ++ b ∧
            p.chars ++ pre' = piecesText ps₁ ++ '\'' :: doubleQuotes '\'' a) ∨
          ∃ pre'', p.chars ++ pre' = piecesText (p :: ps) ++ pre'' ∧ pre'' ++ '$' :: d <+: tail := by
        intro pre' hpre'
        rcases ih hspaced.2 hbody.2 hpre' with ⟨ps₁, value, ps₂, a, b, rfl, hvalue, rfl⟩ |
          ⟨pre'', rfl, hpre''⟩
        · exact .inl ⟨p :: ps₁, value, ps₂, a, b, rfl, hvalue, by simp [piecesText]⟩
        · exact .inr ⟨pre'', by simp [piecesText], hpre''⟩
      cases p with
      | text t =>
          have hdollar := dollar_not_mem_of_fits hspaced.1
          -- the text has no dollar, so the occurrence starts after it
          have hlength : t.length ≤ pre.length := by
            by_contra hlt
            apply hdollar
            have hle : pre ++ ['$'] <+: t ++ (piecesText ps ++ tail) := by
              refine List.IsPrefix.trans ?_ h
              exact ⟨d, by simp⟩
            have hpre : pre ++ ['$'] <+: t :=
              List.prefix_of_prefix_length_le hle (List.prefix_append _ _) (by simp; omega)
            exact hpre.subset (by simp)
          have ht : t <+: pre :=
            List.prefix_of_prefix_length_le (List.prefix_append t (piecesText ps ++ tail))
              ((List.prefix_append pre ('$' :: d)).trans h) hlength
          obtain ⟨pre', rfl⟩ := ht
          rw [List.append_assoc] at h
          exact hafter ((List.prefix_append_right_inj t).1 h)
      | literal value =>
          cases pre with
          | nil => exact absurd (List.cons_prefix_cons.1 h).1 (by decide)
          | cons x pre =>
              have hquotes : SqlPiece.chars (.literal value) ++ (piecesText ps ++ tail) =
                  '\'' :: (doubleQuotes '\'' value ++ '\'' :: (piecesText ps ++ tail)) := by
                rw [SqlPiece.chars, inQuotes_eq]
                simp
              rw [hquotes] at h
              obtain ⟨rfl, htail⟩ := List.cons_prefix_cons.1 h
              rcases occurs_in_quotes hq' htail with ⟨a, b, hvalue, rfl⟩ | ⟨pre', rfl, hpre'⟩
              · exact .inl ⟨[], value, ps, a, b, rfl, hvalue, rfl⟩
              · have hchars' : SqlPiece.chars (.literal value) ++ pre' =
                    '\'' :: (doubleQuotes '\'' value ++ '\'' :: pre') := by
                  rw [SqlPiece.chars, inQuotes_eq]
                  simp
                have hrest := hafter hpre'
                rwa [hchars'] at hrest
      | int n => exact absurd hbody.1 Bool.false_ne_true
      | ident name => exact absurd hbody.1 Bool.false_ne_true

/-- A body is read as a text of its own. -/
theorem sqlTokens_of_pieces {ps : List SqlPiece} (h : wellSpaced true ps = true) :
    ∃ tokens, sqlTokens (piecesText ps) = some tokens ∧
      tokens.filter SqlToken.isQuoted = ps.flatMap SqlPiece.quoted := by
  obtain ⟨s, t, hrun, hs, hquoted, -⟩ := reads_pieces h .between trivial
  have hflush : ∃ last, flush s = some last ∧ last.filter SqlToken.isQuoted = pendingQuoted s := by
    cases s with
    | between => exact ⟨[], rfl, rfl⟩
    | word acc => exact ⟨[.word acc.reverse], rfl, rfl⟩
    | identQuote acc => exact ⟨[.ident acc.reverse], rfl, rfl⟩
    | literalQuote acc => exact ⟨[.literal acc.reverse], rfl, rfl⟩
    | sym c => exact ⟨[.sym c], rfl, rfl⟩
    | _ => cases readyAfterAll true ps <;> exact absurd hs id
  obtain ⟨last, hlast, hpending⟩ := hflush
  refine ⟨t ++ last, ?_, ?_⟩
  · rw [sqlTokens, piecesText, hrun, Option.bind_some, hlast]
    rfl
  · rw [List.filter_append, hpending, hquoted]
    rfl

/-- A body that is cut inside of a literal has no tokens. -/
theorem sqlTokens_cut {ps₁ ps₂ : List SqlPiece} {value : List Char}
    (h : wellSpaced true (ps₁ ++ .literal value :: ps₂) = true) (a : List Char) :
    sqlTokens (piecesText ps₁ ++ '\'' :: doubleQuotes '\'' a) = none := by
  rw [wellSpaced_append, wellSpaced, Bool.and_eq_true, Bool.and_eq_true] at h
  obtain ⟨s, t, hrun, hs, -, -⟩ := reads_pieces h.1 .between trivial
  have hready : readyAfterAll true ps₁ = true := h.2.1
  rw [hready] at hs
  obtain ⟨t', hstep, -⟩ := lexStep_of_ready hs '\''
  have hopen : lexRun s ('\'' :: doubleQuotes '\'' a) =
      some (.literal (a.reverse ++ []), t' ++ []) :=
    lexRun_cons_eq hstep (lexRun_literalChars [] a)
  rw [sqlTokens, piecesText, lexRun_append_eq hrun hopen]
  rfl

/-! ## Statements with a body -/

/-- A token list with a body that has no tokens has no names and values. -/
theorem decodeQuoted_eq_none {tokens : List SqlToken} {body : List Char}
    (hmem : .dollar body ∈ tokens) (hbody : sqlTokens body = none) :
    decodeQuoted tokens = none := by
  have hquoted : .dollar body ∈ tokens.filter SqlToken.isQuoted :=
    List.mem_filter.2 ⟨hmem, rfl⟩
  have hnone : ∀ l : List SqlToken, .dollar body ∈ l → l.mapM SqlToken.unfold = none := by
    intro l hl
    induction l with
    | nil => exact absurd hl List.not_mem_nil
    | cons t l ih =>
        rw [List.mapM_cons]
        rcases List.mem_cons.1 hl with rfl | hl
        · rw [SqlToken.unfold, hbody]
          rfl
        · rw [ih hl]
          cases t.unfold <;> rfl
  rw [decodeQuoted, hnone _ hquoted]
  rfl

/-- Before the semicolon there is no second delimiter. -/
theorem eq_nil_of_delimiter_prefix {tag pre : List Char}
    (h : pre ++ delimiter tag <+: delimiter tag ++ [';']) : pre = [] := by
  obtain ⟨post, hpost⟩ := h
  have hlength := congrArg List.length hpost
  simp only [List.length_append, List.length_singleton] at hlength
  rcases List.eq_nil_or_concat post with rfl | ⟨l, c, rfl⟩
  · -- the texts would end in different characters
    rw [List.append_nil, delimiter, ← List.cons_append, ← List.append_assoc] at hpost
    have hlast := (List.append_inj' hpost rfl).2
    exact absurd hlast (by decide)
  · simp only [List.concat_eq_append, List.length_append, List.length_singleton] at hlength
    exact List.length_eq_zero_iff.1 (by omega)

section Statement

variable {tag lead : List Char} {t : List SqlToken} {ps : List SqlPiece}

/-- The body of a statement ends at its first delimiter. -/
theorem sqlTokens_dollar (hlead : lexRun .between lead = some (.dollar tag [], t))
    (text : List Char) :
    ∃ body rest, text ++ (delimiter tag ++ [';']) = body ++ delimiter tag ++ rest ∧
      (∀ pre, ¬ pre ++ delimiter tag <+: body) ∧
      sqlTokens (lead ++ (text ++ (delimiter tag ++ [';']))) =
        (sqlTokens rest).map fun tokens => t ++ .dollar body :: tokens := by
  have hstart : ∀ pre, ¬ pre ++ delimiter tag <+: ([] : List Char).reverse := by
    intro pre h
    have hnil := List.prefix_nil.1 h
    simp [delimiter] at hnil
  have hocc : delimiter tag <:+: ([] : List Char).reverse ++ (text ++ (delimiter tag ++ [';'])) :=
    ⟨text, [';'], by simp⟩
  obtain ⟨body, rest, htext, hfirst, hrun⟩ := lexRun_dollar hstart hocc
  refine ⟨body, rest, htext, hfirst, ?_⟩
  rw [sqlTokens, sqlTokens, lexRun_append, hlead, Option.bind_some, hrun]
  cases lexRun .between rest with
  | none => rfl
  | some r => cases hflush : flush r.1 <;> simp [hflush]

/-- Where a literal of the body has the delimiter, the body ends inside of a literal, and what is
left is no statement. -/
theorem not_isStatement_dollar (hlead : lexRun .between lead = some (.dollar tag [], t))
    (htag : '\'' ∉ tag) (hspaced : wellSpaced true ps = true)
    (hbody : ps.all SqlPiece.isBodyPiece = true) {value : List Char}
    (hvalue : .literal value ∈ ps) (hocc : delimiter tag <:+: value) (quoted : List SqlToken) :
    ¬ IsStatement (lead ++ (piecesText ps ++ (delimiter tag ++ [';']))) quoted := by
  intro hstatement
  obtain ⟨tokens, htokens, -, hdecode⟩ := hstatement
  obtain ⟨body, rest, htext, hfirst, hall⟩ := sqlTokens_dollar hlead (piecesText ps)
  have htag' : '\'' ∉ tag ++ ['$'] := by simp [htag]
  have hcut : body ++ '$' :: (tag ++ ['$']) <+: piecesText ps ++ (delimiter tag ++ [';']) :=
    ⟨rest, htext.symm⟩
  have hinside : sqlTokens body = none := by
    rcases occurs_in_pieces htag' hspaced hbody hcut with
      ⟨ps₁, v, ps₂, a, b, rfl, -, rfl⟩ | ⟨pre', rfl, -⟩
    · exact sqlTokens_cut hspaced a
    · -- all of the pieces before the first delimiter: but one of them has it
      obtain ⟨ps₁, ps₂, rfl⟩ := List.append_of_mem hvalue
      obtain ⟨a, b, hab⟩ := hocc
      have hdelimiter : doubleQuotes '\'' (delimiter tag) = delimiter tag :=
        doubleQuotes_of_not_mem (by simp [delimiter, htag])
      exfalso
      apply hfirst (piecesText ps₁ ++ '\'' :: doubleQuotes '\'' a)
      refine ⟨doubleQuotes '\'' b ++ '\'' :: piecesText ps₂ ++ pre', ?_⟩
      rw [← hab]
      simp [piecesText, SqlPiece.chars, inQuotes_eq, doubleQuotes_append, hdelimiter]
  rw [hall] at htokens
  obtain ⟨last, -, hlast⟩ := Option.map_eq_some_iff.1 htokens
  have hmem : .dollar body ∈ tokens ++ [.sym ';'] := by
    rw [← hlast]
    simp
  have hmem' : .dollar body ∈ tokens := by simpa using hmem
  rw [decodeQuoted_eq_none hmem' hinside] at hdecode
  cases hdecode

/-- A statement that is one dollar-quoted body of text and literals has the names and values of the
body exactly when no literal of it has the delimiter. -/
theorem isStatement_dollar_iff (hlead : lexRun .between lead = some (.dollar tag [], t))
    (hquoted : t.filter SqlToken.isQuoted = []) (hsemi : .sym ';' ∉ t) (htag : '\'' ∉ tag)
    (hspaced : wellSpaced true ps = true) (hbody : ps.all SqlPiece.isBodyPiece = true) :
    IsStatement (lead ++ (piecesText ps ++ (delimiter tag ++ [';'])))
        (ps.flatMap SqlPiece.quoted) ↔
      ∀ value, .literal value ∈ ps → ¬ delimiter tag <:+: value := by
  constructor
  · intro hstatement value hvalue hocc
    exact not_isStatement_dollar hlead htag hspaced hbody hvalue hocc _ hstatement
  · intro hclean
    obtain ⟨body, rest, htext, hfirst, hall⟩ := sqlTokens_dollar hlead (piecesText ps)
    have htag' : '\'' ∉ tag ++ ['$'] := by simp [htag]
    have hcut : body ++ '$' :: (tag ++ ['$']) <+: piecesText ps ++ (delimiter tag ++ [';']) :=
      ⟨rest, htext.symm⟩
    -- no literal has a delimiter, so the body is all of it
    have hbody' : body = piecesText ps ∧ rest = [';'] := by
      rcases occurs_in_pieces htag' hspaced hbody hcut with
        ⟨ps₁, v, ps₂, a, b, rfl, rfl, -⟩ | ⟨pre', rfl, hpre'⟩
      · exact absurd ⟨a, b, rfl⟩ (hclean _ (List.mem_append_right _ List.mem_cons_self))
      · obtain rfl := eq_nil_of_delimiter_prefix hpre'
        rw [List.append_nil] at htext ⊢
        refine ⟨rfl, ?_⟩
        rw [List.append_assoc] at htext
        exact (List.append_cancel_left (List.append_cancel_left htext)).symm
    obtain ⟨rfl, rfl⟩ := hbody'
    obtain ⟨tokens, htokens, hfilter⟩ := sqlTokens_of_pieces hspaced
    refine ⟨t ++ [.dollar (piecesText ps)], ?_, ?_, ?_⟩
    · rw [hall]
      simp [sqlTokens, lexRun, lexStep, startToken, flush, isSqlSpace, isSqlWord]
    · simp [hsemi]
    · have honly : [SqlToken.dollar (piecesText ps)].filter SqlToken.isQuoted =
          [.dollar (piecesText ps)] := rfl
      rw [decodeQuoted, List.filter_append, hquoted, honly, List.nil_append, List.mapM_cons,
        SqlToken.unfold, htokens, Option.map_some, hfilter, List.mapM_nil]
      simp

end Statement

end PgRoles.Lib

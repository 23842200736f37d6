import PgRoles.Lib.SqlLex

/-!
# Verbatim text in parentheses

A text in parentheses that is written into a statement as it is. The statement around it is read as
written exactly when the text can be read by itself and has no semicolon between its tokens
(`isStatement_arguments_iff`).
-/

set_option autoImplicit false

namespace PgRoles.Lib

/-- The text in parentheses has tokens of its own, and no semicolon between them. -/
def ReadableArguments (args : List Char) : Prop :=
  ∃ tokens, sqlTokens args = some tokens ∧ .sym ';' ∉ tokens ∧ (decodeQuoted tokens).isSome = true

/-- The names and values of a text in parentheses. -/
def argumentNames (args : List Char) : Option (List SqlToken) :=
  (sqlTokens args).bind decodeQuoted

theorem decodeQuoted_append (a b : List SqlToken) :
    decodeQuoted (a ++ b) =
      (decodeQuoted a).bind fun x => (decodeQuoted b).map fun y => x ++ y := by
  unfold decodeQuoted
  rw [List.filter_append, List.mapM_append]
  cases (a.filter SqlToken.isQuoted).mapM SqlToken.unfold with
  | none => rfl
  | some x =>
      cases (b.filter SqlToken.isQuoted).mapM SqlToken.unfold with
      | none => rfl
      | some y => simp

/-- A closing parenthesis is a token of its own unless a quote is open. -/
theorem lexStep_close {s s' : SqlState} {t : List SqlToken} (h : lexStep s ')' = some (s', t))
    (hflush : (flush s').isSome = true) : s' = .sym ')' := by
  cases s with
  | between => cases h; rfl
  | word acc => cases h; rfl
  | identQuote acc => cases h; rfl
  | literalQuote acc => cases h; rfl
  | sym d =>
      have hopens : opensHidden d ')' = false := by simp [opensHidden]
      rw [lexStep, hopens] at h
      cases h
      rfl
  | ident acc => cases h; cases hflush
  | literal acc => cases h; cases hflush
  | dollarTag acc => cases h
  | dollar tag acc =>
      rw [lexStep, if_neg (by simp [closingTag])] at h
      cases h
      cases hflush

/-- Where a readable text in parentheses leaves the machine. -/
theorem lexRun_arguments {args : List Char} {tokens : List SqlToken}
    (hclose : args.getLast? = some ')') (h : sqlTokens args = some tokens) :
    ∃ t, lexRun .between args = some (.sym ')', t) ∧ tokens = t ++ [.sym ')'] := by
  obtain ⟨l, rfl⟩ := List.getLast?_eq_some_iff.1 hclose
  rw [sqlTokens] at h
  cases hrun : lexRun .between (l ++ [')']) with
  | none => rw [hrun] at h; cases h
  | some r =>
      rw [hrun, Option.bind_some, Option.map_eq_some_iff] at h
      obtain ⟨last, hlast, rfl⟩ := h
      rw [lexRun_append] at hrun
      obtain ⟨r₁, hr₁, hr₂⟩ := Option.bind_eq_some_iff.1 hrun
      obtain ⟨r₂, hstep, rfl⟩ := Option.map_eq_some_iff.1 hr₂
      have hone : lexStep r₁.1 ')' = some r₂ := by
        rw [lexRun] at hstep
        obtain ⟨r₃, hr₃, hr₄⟩ := Option.bind_eq_some_iff.1 hstep
        rw [hr₃, ← Option.some.inj hr₄]
        simp
      have hsym : r₂.1 = .sym ')' := lexStep_close hone (by rw [hlast]; rfl)
      refine ⟨_, by rw [hsym], ?_⟩
      rw [hsym] at hlast
      rw [← Option.some.inj hlast]

/-- An opening parenthesis ends what is pending; from there on the text is read by itself. -/
theorem lexRun_open {s : SqlState} (hs : Settled false s) :
    ∃ t, (∀ cs, lexRun s ('(' :: cs) =
        (lexRun .between ('(' :: cs)).map fun r => (r.1, t ++ r.2)) ∧
      t.filter SqlToken.isQuoted = pendingQuoted s ∧ (s ≠ .sym ';' → .sym ';' ∉ t) := by
  obtain ⟨t, hstep, hrest⟩ := lexStep_symbol hs (.inl rfl)
  refine ⟨t, ?_, hrest⟩
  intro cs
  have hbetween : lexStep .between '(' = some (.sym '(', []) := rfl
  rw [lexRun, lexRun, hstep, hbetween, Option.bind_some, Option.bind_some, Option.map_map]
  rfl

/-- After a closing parenthesis the rest is read by itself. -/
theorem sqlTokens_after_close {a : List Char} {t : List SqlToken}
    (ha : lexRun .between a = some (.sym ')', t)) (c : Char) (cs : List Char) :
    sqlTokens (a ++ c :: cs) = (sqlTokens (c :: cs)).map fun x => t ++ .sym ')' :: x := by
  have hopens : opensHidden ')' c = false := rfl
  have hstep : lexStep (.sym ')') c = some (startToken c, [.sym ')']) := by
    rw [lexStep, hopens]
    rfl
  have hbetween : lexStep .between c = some (startToken c, []) := rfl
  rw [sqlTokens, sqlTokens, lexRun_append, ha, Option.bind_some, lexRun, lexRun, hstep, hbetween,
    Option.bind_some, Option.bind_some]
  cases lexRun (startToken c) cs with
  | none => rfl
  | some r => cases hflush : flush r.1 <;> simp [hflush]

theorem decodeQuoted_pieces {tokens : List SqlToken} {ps : List SqlPiece}
    (h : tokens.filter SqlToken.isQuoted = ps.flatMap SqlPiece.quoted) :
    decodeQuoted tokens = some (ps.flatMap SqlPiece.quoted) :=
  decodeQuoted_of_filter h (dollar_not_mem_quoted ps)

/-- The tokens of pieces that end in a semicolon. -/
theorem sqlTokens_pieces_semicolon {ps : List SqlPiece} (hspaced : wellSpaced true ps = true)
    (hclean : ps.all SqlPiece.clean = true) :
    ∃ tokens, sqlTokens (piecesText ps ++ [';']) = some (tokens ++ [.sym ';']) ∧
      .sym ';' ∉ tokens ∧ tokens.filter SqlToken.isQuoted = ps.flatMap SqlPiece.quoted := by
  obtain ⟨s, t, hrun, hs, hquoted, hsemi⟩ := reads_pieces hspaced .between trivial
  obtain ⟨hne, hnot⟩ := hsemi hclean (by simp)
  obtain ⟨tokens, htokens, hnot', hfilter⟩ := sqlTokens_semicolon hrun hs.weaken hne hnot
  refine ⟨tokens, htokens, hnot', ?_⟩
  rw [hfilter, hquoted]
  rfl

/-- The tokens of a statement with a readable text in parentheses are those of its parts. -/
theorem sqlTokens_arguments {ps₁ ps₂ : List SqlPiece} {args : List Char} {tokens : List SqlToken}
    (hspaced₁ : wellSpaced true ps₁ = true) (hclean₁ : ps₁.all SqlPiece.clean = true)
    (hopen : args.head? = some '(') (hclose : args.getLast? = some ')')
    (hspaced₂ : wellSpaced true ps₂ = true) (hclean₂ : ps₂.all SqlPiece.clean = true)
    (hargs : sqlTokens args = some tokens) :
    ∃ before after,
      sqlTokens (piecesText ps₁ ++ (args ++ (piecesText ps₂ ++ [';']))) =
        some (before ++ (tokens ++ (after ++ [.sym ';']))) ∧
      before.filter SqlToken.isQuoted = ps₁.flatMap SqlPiece.quoted ∧ .sym ';' ∉ before ∧
      after.filter SqlToken.isQuoted = ps₂.flatMap SqlPiece.quoted ∧ .sym ';' ∉ after := by
  obtain ⟨s₁, t₁, hrun₁, hs₁, hquoted₁, hsemi₁⟩ := reads_pieces hspaced₁ .between trivial
  obtain ⟨hne₁, hnot₁⟩ := hsemi₁ hclean₁ (by simp)
  obtain ⟨t, hopened, hfilter, hnot⟩ := lexRun_open hs₁.weaken
  obtain ⟨targs, hruna, rfl⟩ := lexRun_arguments hclose hargs
  have hruna' : lexRun s₁ args = some (.sym ')', t ++ targs) := by
    cases args with
    | nil => cases hopen
    | cons c rest =>
        obtain rfl : c = '(' := Option.some.inj hopen
        rw [hopened, hruna]
        rfl
  obtain ⟨after, htokens₂, hnot₂, hquoted₂⟩ := sqlTokens_pieces_semicolon hspaced₂ hclean₂
  refine ⟨t₁ ++ t, after, ?_, ?_, ?_, hquoted₂, hnot₂⟩
  · have hstart := lexRun_append_eq hrun₁ hruna'
    obtain ⟨c, cs, hcs⟩ : ∃ c cs, piecesText ps₂ ++ [';'] = c :: cs :=
      List.exists_cons_of_ne_nil (by simp)
    rw [hcs] at htokens₂ ⊢
    rw [← List.append_assoc]
    change sqlTokens (ps₁.flatMap SqlPiece.chars ++ args ++ c :: cs) = _
    rw [sqlTokens_after_close hstart, htokens₂]
    simp
  · rw [List.filter_append, hfilter, hquoted₁]
    rfl
  · rw [List.mem_append, not_or]
    exact ⟨hnot₁, hnot hne₁⟩

/-- Between two texts of pieces, a text in parentheses is read as it is by itself. -/
theorem isStatement_arguments_iff {ps₁ ps₂ : List SqlPiece} {args : List Char}
    (hspaced₁ : wellSpaced true ps₁ = true) (hclean₁ : ps₁.all SqlPiece.clean = true)
    (hopen : args.head? = some '(') (hclose : args.getLast? = some ')')
    (hspaced₂ : wellSpaced true ps₂ = true) (hclean₂ : ps₂.all SqlPiece.clean = true) :
    (∃ names, argumentNames args = some names ∧
      IsStatement (piecesText ps₁ ++ (args ++ (piecesText ps₂ ++ [';'])))
        (ps₁.flatMap SqlPiece.quoted ++ (names ++ ps₂.flatMap SqlPiece.quoted))) ↔
      ReadableArguments args := by
  have hparts := fun {tokens} (h : sqlTokens args = some tokens) =>
    sqlTokens_arguments hspaced₁ hclean₁ hopen hclose hspaced₂ hclean₂ h
  constructor
  · intro h
    obtain ⟨names, hnames, statement, hstatement, hsemi, -⟩ := h
    obtain ⟨tokens, hargs, hdecode⟩ := Option.bind_eq_some_iff.1 hnames
    obtain ⟨before, after, hall, -⟩ := hparts hargs
    refine ⟨tokens, hargs, ?_, by rw [hdecode]; rfl⟩
    rw [hall, Option.some.injEq, ← List.append_assoc, ← List.append_assoc] at hstatement
    rw [← List.append_cancel_right hstatement] at hsemi
    exact fun hmem => hsemi (List.mem_append_left _ (List.mem_append_right _ hmem))
  · intro h
    obtain ⟨tokens, hargs, hnot, hdecodes⟩ := h
    obtain ⟨names, hdecode⟩ := Option.isSome_iff_exists.1 hdecodes
    obtain ⟨before, after, hall, hbefore, hnotb, hafter, hnota⟩ := hparts hargs
    refine ⟨names, Option.bind_eq_some_iff.2 ⟨tokens, hargs, hdecode⟩,
      before ++ (tokens ++ after), ?_, ?_, ?_⟩
    · rw [hall]
      simp
    · simp only [List.mem_append, not_or]
      exact ⟨hnotb, hnot, hnota⟩
    · rw [decodeQuoted_append, decodeQuoted_append, decodeQuoted_pieces hbefore, hdecode,
        decodeQuoted_pieces hafter]
      rfl

end PgRoles.Lib

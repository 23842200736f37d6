import Mathlib

/-!
# Texts with quotes

A text is cut at a separator, which counts outside of double quotes only; in quotes a backslash
escapes the character after it. What a part of the text does to the scan is the state it leaves it in
(`quoteState`): a part that ends outside of quotes and has no separator there is one piece, whatever
stands after it (`splitUnquoted_append`).
-/

set_option autoImplicit false

namespace PgRoles.Lib

/-! ## Cutting -/

/-- Put a text in front of the first piece. -/
def prependText (text : List Char) : List (List Char) → List (List Char)
  | [] => [text]
  | piece :: pieces => (text ++ piece) :: pieces

/-- The pieces between the separators outside of quotes; the flag is set in quotes. -/
def splitUnquoted (sep : Char) : Bool → List Char → List (List Char)
  | _, [] => [[]]
  | true, '\\' :: c :: rest => prependText ['\\', c] (splitUnquoted sep true rest)
  | quoted, c :: rest =>
      if c = '"' then prependText [c] (splitUnquoted sep (!quoted) rest)
      else if c = sep ∧ quoted = false then [] :: splitUnquoted sep false rest
      else prependText [c] (splitUnquoted sep quoted rest)

/-- The state that a text leaves the scan in; none when it has a separator outside of quotes, or
ends in the middle of an escape. -/
def quoteState (sep : Char) : Bool → List Char → Option Bool
  | quoted, [] => some quoted
  | true, '\\' :: _ :: rest => quoteState sep true rest
  | quoted, c :: rest =>
      if c = '"' then quoteState sep (!quoted) rest
      else if c = sep ∧ quoted = false then none
      else if c = '\\' ∧ quoted = true then none
      else quoteState sep quoted rest

theorem prependText_ne_nil (text : List Char) (pieces : List (List Char)) :
    prependText text pieces ≠ [] := by
  cases pieces <;> simp [prependText]

theorem prependText_nil {pieces : List (List Char)} (h : pieces ≠ []) :
    prependText [] pieces = pieces := by
  cases pieces with
  | nil => exact absurd rfl h
  | cons piece pieces => rfl

theorem prependText_append (a b : List Char) (pieces : List (List Char)) :
    prependText (a ++ b) pieces = prependText a (prependText b pieces) := by
  cases pieces <;> simp [prependText]

theorem splitUnquoted_ne_nil (sep : Char) (quoted : Bool) (text : List Char) :
    splitUnquoted sep quoted text ≠ [] := by
  fun_cases splitUnquoted sep quoted text
  all_goals first
    | exact List.cons_ne_nil _ _
    | exact prependText_ne_nil _ _

/-- A text without a cut goes to the first piece of what comes after it. -/
theorem splitUnquoted_append {sep : Char} {quoted quoted' : Bool} {text : List Char}
    (h : quoteState sep quoted text = some quoted') (rest : List Char) :
    splitUnquoted sep quoted (text ++ rest) = prependText text (splitUnquoted sep quoted' rest) := by
  fun_induction quoteState sep quoted text with
  | case1 quoted =>
      cases h
      exact (prependText_nil (splitUnquoted_ne_nil sep _ rest)).symm
  | case2 c text ih =>
      rw [List.cons_append, List.cons_append, splitUnquoted, ih h]
      exact (prependText_append ['\\', c] text _).symm
  | case3 quoted text hescape ih =>
      rw [List.cons_append, splitUnquoted, if_pos rfl, ih h]
      · exact (prependText_append ['"'] text _).symm
      · exact fun _ _ _ hslash => absurd hslash (by decide)
  | case4 => cases h
  | case5 => cases h
  | case6 quoted c text hescape hquote hsep hslash ih =>
      rw [List.cons_append, splitUnquoted, if_neg hquote, if_neg hsep, ih h]
      · exact (prependText_append [c] text _).symm
      · exact fun _ _ hquoted hc => absurd ⟨hc, hquoted⟩ hslash

/-- The state that two texts leave the scan in, one after the other. -/
theorem quoteState_append {sep : Char} {quoted quoted' : Bool} {text : List Char}
    (h : quoteState sep quoted text = some quoted') (rest : List Char) :
    quoteState sep quoted (text ++ rest) = quoteState sep quoted' rest := by
  fun_induction quoteState sep quoted text with
  | case1 quoted =>
      cases h
      rfl
  | case2 c text ih => exact ih h
  | case3 quoted text hescape ih =>
      rw [List.cons_append, quoteState, if_pos rfl, ih h]
      exact fun _ _ _ hslash => absurd hslash (by decide)
  | case4 => cases h
  | case5 => cases h
  | case6 quoted c text hescape hquote hsep hslash ih =>
      rw [List.cons_append, quoteState, if_neg hquote, if_neg hsep, if_neg hslash, ih h]
      exact fun _ _ hquoted hc => absurd ⟨hc, hquoted⟩ hslash

/-- A text that ends outside of quotes is a piece when a separator follows. -/
theorem splitUnquoted_sep {sep : Char} (hsep : sep ≠ '"') {text : List Char}
    (h : quoteState sep false text = some false) (rest : List Char) :
    splitUnquoted sep false (text ++ sep :: rest) = text :: splitUnquoted sep false rest := by
  rw [splitUnquoted_append h, splitUnquoted, if_neg hsep, if_pos ⟨rfl, rfl⟩]
  · rw [prependText, List.append_nil]
  · exact fun _ _ hquoted => absurd hquoted (by decide)

/-- A text without quotes and separators cuts nothing. -/
theorem quoteState_plain {sep : Char} {text : List Char} (h : ∀ c ∈ text, c ≠ '"' ∧ c ≠ sep) :
    quoteState sep false text = some false := by
  induction text with
  | nil => rfl
  | cons c text ih =>
      obtain ⟨⟨hquote, hsep⟩, htext⟩ := List.forall_mem_cons.1 h
      rw [quoteState, if_neg hquote, if_neg fun hc => hsep hc.1, if_neg (by simp), ih htext]
      exact fun _ _ hquoted => absurd hquoted (by decide)

/-! ## Quoted texts -/

/-- A text between quotes: its quotes and backslashes are escaped. -/
inductive QuotedBody : List Char → Prop where
  | nil : QuotedBody []
  | plain {c : Char} {rest : List Char} (hslash : c ≠ '\\') (hquote : c ≠ '"')
      (h : QuotedBody rest) : QuotedBody (c :: rest)
  | escaped (c : Char) {rest : List Char} (h : QuotedBody rest) : QuotedBody ('\\' :: c :: rest)

theorem QuotedBody.append {a b : List Char} (ha : QuotedBody a) (hb : QuotedBody b) :
    QuotedBody (a ++ b) := by
  induction ha with
  | nil => exact hb
  | plain hslash hquote _ ih => exact .plain hslash hquote ih
  | escaped c _ ih => exact .escaped c ih

/-- What is written out piece by piece can stand between quotes when its pieces can. -/
theorem quotedBody_flatMap {α : Type} {f : α → List Char} (h : ∀ a, QuotedBody (f a)) (l : List α) :
    QuotedBody (l.flatMap f) := by
  induction l with
  | nil => exact .nil
  | cons a l ih => exact (h a).append ih

/-- Between quotes no character cuts the text or ends the quotes. -/
theorem QuotedBody.quoteState {sep : Char} {body : List Char} (h : QuotedBody body) :
    quoteState sep true body = some true := by
  induction h with
  | nil => rfl
  | plain hslash hquote _ ih =>
      rw [Lib.quoteState, if_neg hquote, if_neg (by simp), if_neg fun hc => hslash hc.1, ih]
      exact fun _ _ _ hc => absurd hc hslash
  | escaped c _ ih => exact ih

/-- Reads a quoted text up to its closing quote, with what comes after it. -/
def quotedToken : List Char → List Char × List Char
  | '\\' :: c :: rest => ('\\' :: c :: (quotedToken rest).1, (quotedToken rest).2)
  | '"' :: rest => ([], rest)
  | c :: rest => (c :: (quotedToken rest).1, (quotedToken rest).2)
  | [] => ([], [])

theorem QuotedBody.quotedToken {body : List Char} (h : QuotedBody body) (rest : List Char) :
    quotedToken (body ++ '"' :: rest) = (body, rest) := by
  induction h with
  | nil => rfl
  | plain hslash hquote _ ih =>
      rw [List.cons_append, Lib.quotedToken, ih]
      · exact fun _ _ hc => absurd hc hslash
      · exact fun hc => absurd hc hquote
  | escaped c _ ih =>
      rw [List.cons_append, List.cons_append, Lib.quotedToken, ih]

end PgRoles.Lib

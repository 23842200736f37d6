import PgRoles.Sql.Render

/-!
# Statements as pieces

A rendered statement is fixed text with quoted names and values between, so the machine that reads
SQL gives the names and values back (`WrittenFrom.isStatement`). Each render function has its
pieces here.
-/

set_option autoImplicit false

namespace PgRoles.Sql

open Std PgRoles.Lib PgRoles.Core

/-! ## Written statements -/

/-- A piece of plain text. -/
def textPiece (t : String) : SqlPiece := .text t.toList

/-- A quoted identifier. -/
def identPiece (name : String) : SqlPiece := .ident name.toList

/-- A string literal. -/
def literalPiece (value : String) : SqlPiece := .literal value.toList

/-- A name as a token. -/
def nameToken (name : String) : SqlToken := .ident name.toList

/-- A value as a token. -/
def valueToken (value : String) : SqlToken := .literal value.toList

/-- The statement is written from the pieces, which a reader keeps apart. -/
structure WrittenFrom (sql : String) (ps : List SqlPiece) : Prop where
  text : sql.toList = piecesText ps ++ [';']
  spaced : wellSpaced true ps = true
  clean : ps.all SqlPiece.clean = true

/-- A text written from pieces is one statement, with what the pieces quote. -/
theorem WrittenFrom.isStatement {sql : String} {ps : List SqlPiece} (h : WrittenFrom sql ps) :
    IsStatement sql.toList (ps.flatMap SqlPiece.quoted) := by
  rw [h.text]
  exact isStatement_of_pieces h.spaced h.clean

theorem piecesText_cons (p : SqlPiece) (ps : List SqlPiece) :
    piecesText (p :: ps) = p.chars ++ piecesText ps :=
  List.flatMap_cons

/-- Pieces in a row spell their texts in a row. -/
theorem piecesText_append (ps qs : List SqlPiece) :
    piecesText (ps ++ qs) = piecesText ps ++ piecesText qs :=
  List.flatMap_append

@[simp] theorem chars_textPiece (t : String) : (textPiece t).chars = t.toList := rfl

@[simp] theorem chars_identPiece (name : String) :
    (identPiece name).chars = (quoteIdent name).toList :=
  (toList_quoteIdent name).symm

@[simp] theorem chars_literalPiece (value : String) :
    (literalPiece value).chars = (quoteLiteral value).toList :=
  (toList_quoteLiteral value).symm

@[simp] theorem chars_intPiece (n : Int) : (SqlPiece.int n).chars = (toString n).toList := rfl

/-! ## Settings -/

/-- The literals of a setting. -/
def settingValues (parameter value : String) : List String :=
  if isListQuoteParameter parameter then
    match splitGucList value with
    | some (e :: es) => e :: es
    | _ => [""]
  else [value]

/-- The values of a parameter, with commas between them. -/
def settingPieces (values : List String) : List SqlPiece :=
  joinPieces ", ".toList (values.map fun value => [literalPiece value])

/-- The statement that sets a parameter, piece by piece. -/
def setConfigPieces (name parameter value : String) : List SqlPiece :=
  [textPiece "ALTER ROLE ", identPiece name, textPiece " SET ", identPiece parameter,
    textPiece " = "] ++ settingPieces (settingValues parameter value)

/-- The pieces of a list of values spell it. -/
theorem piecesText_settingPieces (values : List String) :
    piecesText (settingPieces values) = (", ".intercalate (values.map quoteLiteral)).toList := by
  rw [settingPieces, piecesText_joinPieces, String.toList_intercalate, List.map_map, List.map_map]
  congr 1
  apply List.map_congr_left
  intro value _
  simp [piecesText]

/-- The values are what they quote. -/
theorem quoted_settingPieces (values : List String) :
    (settingPieces values).flatMap SqlPiece.quoted = values.map valueToken := by
  rw [settingPieces, quoted_joinPieces, List.flatMap_map, List.map_eq_flatMap]
  rfl

theorem quoted_setConfigPieces (name parameter value : String) :
    (setConfigPieces name parameter value).flatMap SqlPiece.quoted =
      nameToken name :: nameToken parameter :: (settingValues parameter value).map valueToken := by
  rw [setConfigPieces, List.flatMap_append, quoted_settingPieces]
  rfl

theorem wellSpaced_settingPieces (values : List String) :
    wellSpaced true (settingPieces values) = true := by
  apply wellSpaced_joinPieces (by decide) (by decide)
  intro g hg
  obtain ⟨value, -, rfl⟩ := List.mem_map.1 hg
  rfl

theorem clean_settingPieces (values : List String) :
    (settingPieces values).all SqlPiece.clean = true := by
  apply clean_joinPieces (by decide)
  intro g hg
  obtain ⟨value, -, rfl⟩ := List.mem_map.1 hg
  rfl

/-- The statement that sets a parameter is written from its pieces. -/
theorem written_renderSetConfig (name parameter value : String) :
    WrittenFrom (renderSetConfig name parameter value) (setConfigPieces name parameter value) where
  text := by
    have hvalue : (if isListQuoteParameter parameter then renderListValue value
          else quoteLiteral value) =
        ", ".intercalate ((settingValues parameter value).map quoteLiteral) := by
      unfold settingValues renderListValue
      split
      · cases splitGucList value with
        | none => rfl
        | some es =>
            cases es with
            | nil => rfl
            | cons e es => rfl
      · rfl
    rw [renderSetConfig, hvalue, setConfigPieces, piecesText_append, piecesText_settingPieces]
    simp [piecesText]
  spaced := by
    rw [setConfigPieces, wellSpaced_append, Bool.and_eq_true]
    exact ⟨rfl, wellSpaced_settingPieces _⟩
  clean := by
    rw [setConfigPieces, List.all_append, clean_settingPieces]
    rfl

end PgRoles.Sql

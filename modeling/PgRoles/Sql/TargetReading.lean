import PgRoles.Sql.StatementNames

/-!
# Privilege statements are read as written

The statements of a grant or a revoke are those of its targets. A named target and all objects of a
schema are pieces, which are always read as written. A routine's signature carries its argument list
as it is, so that list has to be readable by itself, and a block ends at the first occurrence of its
delimiter, so none of its names may have it (`readsAs_privileges_iff`).
-/

set_option autoImplicit false

namespace PgRoles.Sql

open Std PgRoles.Lib PgRoles.Core

/-! ## Plain text -/

/-- Fixed text of a statement. -/
def plainText (t : String) : Bool := t.toList.all fun c => isPlain c && c != ';'

theorem isPlain_of_plainText {t : String} (h : plainText t = true) :
    t.toList.all isPlain = true := by
  rw [plainText, List.all_eq_true] at h
  rw [List.all_eq_true]
  intro c hc
  exact (Bool.and_eq_true_iff.1 (h c hc)).1

theorem clean_of_plainText {t : String} (h : plainText t = true) :
    (textPiece t).clean = true := by
  rw [plainText, List.all_eq_true] at h
  simp only [textPiece, SqlPiece.clean, List.contains_eq_mem, Bool.not_eq_eq_eq_not, Bool.not_true,
    decide_eq_false_iff_not]
  intro hmem
  exact absurd (h ';' hmem) (by decide)

/-- The display texts of privileges are plain, and so are lists of them. -/
theorem plainText_formatPrivileges (privileges : Finset Privilege) :
    plainText (formatPrivileges privileges) = true := by
  rw [plainText, List.all_eq_true, formatPrivileges, String.toList_intercalate]
  intro c hc
  rcases exists_of_mem_intercalate hc with hsep | ⟨text, htext, hc⟩
  · have hcomma : plainText ", " = true := by decide
    exact List.all_eq_true.1 hcomma c hsep
  · rw [List.map_map] at htext
    obtain ⟨p, -, rfl⟩ := List.mem_map.1 htext
    have hall : ∀ p : Privilege, plainText p.display = true := by
      intro p
      cases p <;> decide
    exact List.all_eq_true.1 (hall p) c hc

theorem plainText_keyword (objectType : ObjectType) :
    plainText (sqlObjectTypeKeyword objectType) = true := by
  cases objectType <;> decide

/-! ## Statements of pieces -/

/-- A statement of pieces is read as the names and values of the pieces. -/
theorem WrittenFrom.readsAs_iff {sql : String} {ps : List SqlPiece} (h : WrittenFrom sql ps)
    (names : Option (List SqlToken)) :
    ReadsAs sql names ↔ names = some (ps.flatMap SqlPiece.quoted) := by
  constructor
  · intro hreads
    obtain ⟨quoted, hnames, hstatement⟩ := hreads
    rw [hnames, hstatement.unique h.isStatement]
  · intro hnames
    exact ⟨_, hnames, h.isStatement⟩

theorem WrittenFrom.readsAs {sql : String} {ps : List SqlPiece} (h : WrittenFrom sql ps)
    {names : List SqlToken} (hnames : ps.flatMap SqlPiece.quoted = names) :
    ReadsAs sql (some names) := by
  rw [h.readsAs_iff, hnames]

/-! ## Targets -/

/-- The pieces of a grantee. -/
def granteePieces : Grantee → List SqlPiece
  | .publicRole => [textPiece publicRoleName]
  | .role name => [identPiece name]

/-- A privilege statement up to its target. -/
def leadPieces (action privilegeList : String) (target : List SqlPiece) : List SqlPiece :=
  textPiece action :: textPiece " " :: textPiece privilegeList :: textPiece " ON " :: target

/-- A privilege statement after its target. -/
def trailPieces (subjectPreposition : String) (role : Grantee) : List SqlPiece :=
  textPiece " " :: textPiece subjectPreposition :: textPiece " " :: granteePieces role

/-- Pieces that stand after a space, and text after them. -/
structure Standing (target : String) (ps : List SqlPiece) : Prop where
  text : target.toList = piecesText ps
  spaced : wellSpaced true ps = true
  clean : ps.all SqlPiece.clean = true

theorem piecesText_granteePieces (role : Grantee) :
    piecesText (granteePieces role) = (renderGrantee role).toList := by
  cases role with
  | publicRole => rfl
  | role name => simp [granteePieces, piecesText, renderGrantee]

theorem fits_textPiece {t : String} (h : plainText t = true) (ready : Bool) :
    fits ready (textPiece t) = true :=
  isPlain_of_plainText h

theorem wellSpaced_text {t : String} (h : plainText t = true) (ready : Bool) :
    wellSpaced ready [textPiece t] = true := by
  rw [wellSpaced, fits_textPiece h]
  rfl

theorem clean_text {t : String} (h : plainText t = true) :
    [textPiece t].all SqlPiece.clean = true := by
  rw [List.all_cons, clean_of_plainText h]
  rfl

/-- A text that ends in a space lets the next token start. -/
theorem readyAfter_textPiece {t : String} (h : readyAfter false (textPiece t) = true)
    (ready : Bool) : readyAfter ready (textPiece t) = true :=
  readyAfter_text h ready

/-- The front of a statement stands where its target does. -/
theorem standing_lead {action privilegeList target : String} {ps : List SqlPiece}
    (haction : plainText action = true) (hlist : plainText privilegeList = true)
    (htarget : Standing target ps) :
    Standing (action ++ " " ++ privilegeList ++ " ON " ++ target)
      (leadPieces action privilegeList ps) where
  text := by
    simp only [leadPieces, piecesText_cons, ← htarget.text, chars_textPiece, String.toList_append,
      List.append_assoc]
  spaced := by
    have hon : ∀ ready, fits ready (textPiece " ON ") = true := by decide
    have hspace : ∀ ready, fits ready (textPiece " ") = true := by decide
    simp only [leadPieces, wellSpaced, Bool.and_eq_true, fits_textPiece haction,
      fits_textPiece hlist, hon, hspace, readyAfter_textPiece (t := " ON ") (by decide),
      htarget.spaced, and_self]
  clean := by
    have hspace : (textPiece " ").clean = true := by decide
    have hon : (textPiece " ON ").clean = true := by decide
    simp only [leadPieces, List.all_cons, Bool.and_eq_true, clean_of_plainText haction,
      clean_of_plainText hlist, hspace, hon, htarget.clean, and_self]

section Trail

variable {subjectPreposition : String} (role : Grantee)

theorem piecesText_trail : piecesText (trailPieces subjectPreposition role) =
    (" " ++ subjectPreposition ++ " " ++ renderGrantee role).toList := by
  simp only [trailPieces, piecesText_cons, piecesText_granteePieces, chars_textPiece,
    String.toList_append, List.append_assoc]

theorem wellSpaced_trail (hprep : plainText subjectPreposition = true) (ready : Bool) :
    wellSpaced ready (trailPieces subjectPreposition role) = true := by
  have hspace : ∀ ready, fits ready (textPiece " ") = true := by decide
  have hgrantee : wellSpaced true (granteePieces role) = true := by
    cases role with
    | publicRole => decide
    | role name => rfl
  simp only [trailPieces, wellSpaced, Bool.and_eq_true, fits_textPiece hprep, hspace,
    readyAfter_textPiece (t := " ") (by decide), hgrantee, and_self]

theorem clean_trail (hprep : plainText subjectPreposition = true) :
    (trailPieces subjectPreposition role).all SqlPiece.clean = true := by
  have hspace : (textPiece " ").clean = true := by decide
  have hgrantee : (granteePieces role).all SqlPiece.clean = true := by
    cases role with
    | publicRole => decide
    | role name => rfl
  simp only [trailPieces, List.all_cons, Bool.and_eq_true, clean_of_plainText hprep, hspace,
    hgrantee, and_self]

theorem quoted_trail : (trailPieces subjectPreposition role).flatMap SqlPiece.quoted =
    (granteeRole role).toList.map nameToken := by
  cases role <;> rfl

end Trail

theorem quoted_lead (action privilegeList : String) (target : List SqlPiece) :
    (leadPieces action privilegeList target).flatMap SqlPiece.quoted =
      target.flatMap SqlPiece.quoted := rfl

/-- A privilege statement is written from its pieces. -/
theorem written_privilegeStatement {action privilegeList subjectPreposition target : String}
    {ps : List SqlPiece} (role : Grantee) (haction : plainText action = true)
    (hlist : plainText privilegeList = true) (hprep : plainText subjectPreposition = true)
    (htarget : Standing target ps) :
    WrittenFrom (privilegeStatement action privilegeList target subjectPreposition role)
      (leadPieces action privilegeList ps ++ trailPieces subjectPreposition role) where
  text := by
    rw [piecesText_append, piecesText_trail, ← (standing_lead haction hlist htarget).text]
    simp [privilegeStatement, String.append_assoc]
  spaced := by
    rw [wellSpaced_append, (standing_lead haction hlist htarget).spaced,
      wellSpaced_trail role hprep]
    rfl
  clean := by
    rw [List.all_append, (standing_lead haction hlist htarget).clean, clean_trail role hprep]
    rfl

/-- How a target is written; a block is a statement of its own. -/
def WrittenTarget.text : WrittenTarget → String
  | .named objectType container object =>
      sqlObjectTypeKeyword objectType ++ " " ++ quoteIdent container ++
        object.elim "" fun name => "." ++ quoteIdent name
  | .all objectType schemaName =>
      "ALL " ++ sqlObjectTypePlural objectType ++ " IN SCHEMA " ++ quoteIdent schemaName
  | .routine schemaName functionName => formatFunctionTarget (some schemaName) functionName
  | .block .. => ""

/-- The statement about a target. -/
def renderTarget (action privilegeList subjectPreposition : String) (skipOwned : Bool)
    (role : Grantee) : WrittenTarget → String
  | .block objectType schemaName =>
      wildcardBlock action subjectPreposition role privilegeList objectType schemaName skipOwned
  | target => privilegeStatement action privilegeList target.text subjectPreposition role

/-- A wildcard name is spelled as all objects of the schema. -/
theorem formatSchemaObject_some (keyword plural schemaName name : String) :
    formatSchemaObject keyword plural schemaName (some name) =
      if name = wildcardName then "ALL " ++ plural ++ " IN SCHEMA " ++ quoteIdent schemaName
      else keyword ++ " " ++ quoteIdent schemaName ++ "." ++ quoteIdent name := rfl

/-- The target as written is the formatted one. -/
theorem text_singleTarget (objectType : ObjectType) (schema name : Option String) :
    (singleTarget objectType schema name).text = formatObjectTarget objectType schema name := by
  cases objectType with
  | schema => simp [singleTarget, formatObjectTarget, WrittenTarget.text]
  | database => simp [singleTarget, formatObjectTarget, WrittenTarget.text]
  | function =>
      cases name with
      | none => simp [singleTarget, formatObjectTarget, WrittenTarget.text]
      | some functionName =>
          by_cases hwild : functionName = wildcardName
          · simp [singleTarget, formatObjectTarget, WrittenTarget.text, hwild, sqlObjectTypePlural]
          · simp [singleTarget, formatObjectTarget, WrittenTarget.text, hwild, formatFunctionTarget]
  | _ =>
      cases name with
      | none => simp [singleTarget, formatObjectTarget, WrittenTarget.text, formatSchemaObject]
      | some objectName =>
          by_cases hwild : objectName = wildcardName
          · simp [singleTarget, formatObjectTarget, WrittenTarget.text, hwild,
              formatSchemaObject_some]
          · simp [singleTarget, formatObjectTarget, WrittenTarget.text, hwild,
              formatSchemaObject_some, String.append_assoc]

/-- A single target gives one privilege statement. -/
theorem renderTarget_singleTarget (action privilegeList subjectPreposition : String)
    (skipOwned : Bool) (role : Grantee) (objectType : ObjectType) (schema name : Option String) :
    renderTarget action privilegeList subjectPreposition skipOwned role
        (singleTarget objectType schema name) =
      privilegeStatement action privilegeList (formatObjectTarget objectType schema name)
        subjectPreposition role := by
  have hplain : ∀ target : WrittenTarget, (∀ t s, target ≠ .block t s) →
      renderTarget action privilegeList subjectPreposition skipOwned role target =
        privilegeStatement action privilegeList target.text subjectPreposition role := by
    intro target hne
    cases target with
    | block t s => exact absurd rfl (hne t s)
    | _ => rfl
  rw [← text_singleTarget, hplain]
  intro t s
  unfold singleTarget
  split
  · nofun
  · nofun
  · split
    · split <;> nofun
    · nofun
  · split
    · split <;> nofun
    · nofun

/-- The statements of a wildcard are those of its targets. -/
theorem renderWildcardExpanded_eq (action subjectPreposition : String) (role : Grantee)
    (privilegeList : String) {objectType : ObjectType} (h : expandsInSql objectType = true)
    (schema : Option String) (ctx : SqlContext) :
    renderWildcardExpanded action subjectPreposition role privilegeList objectType schema ctx =
      (wildcardTargets (action == "REVOKE") role objectType (schema.getD "public") ctx).map
        (renderTarget action privilegeList subjectPreposition (action == "REVOKE") role) := by
  have hall : privilegeStatement action privilegeList
        (formatObjectTarget objectType schema (some wildcardName)) subjectPreposition role =
      renderTarget action privilegeList subjectPreposition (action == "REVOKE") role
        (.all objectType (schema.getD "public")) := by
    have htext : (WrittenTarget.all objectType (schema.getD "public")).text =
        formatObjectTarget objectType schema (some wildcardName) := by
      rw [← text_singleTarget]
      cases objectType <;> first | rfl | exact absurd h (by decide)
    rw [← htext]
    rfl
  unfold renderWildcardExpanded wildcardTargets
  simp only
  split
  · rw [hall]
    rfl
  · cases ctx.objectInventory[(objectType, schema.getD "public")]? with
    | some objectNames =>
        simp only [List.map_map]
        apply List.map_congr_left
        intro objectName _
        by_cases hfunction : objectType = .function
        · simp [hfunction, inventoryTarget, renderTarget, WrittenTarget.text]
        · simp [hfunction, inventoryTarget, renderTarget, WrittenTarget.text, String.append_assoc]
    | none =>
        simp only
        split
        · next hfunction =>
          subst hfunction
          rw [hall]
          rfl
        · rfl

/-- The statements of a grant or a revoke are those of its targets. -/
theorem renderPrivilegeStatements_eq (action : String) (role : Grantee) (privilegeList : String)
    (objectType : ObjectType) (schema name : Option String) (ctx : SqlContext) :
    renderPrivilegeStatements action role privilegeList objectType schema name ctx =
      (privilegeTargets (action == "REVOKE") role objectType schema name ctx).map
        (renderTarget action privilegeList (if action = "GRANT" then "TO" else "FROM")
          (action == "REVOKE") role) := by
  unfold renderPrivilegeStatements privilegeTargets
  generalize (if action = "GRANT" then "TO" else "FROM") = subjectPreposition
  simp only
  split
  · next hexpands =>
    exact renderWildcardExpanded_eq action subjectPreposition role privilegeList
      (Bool.and_eq_true_iff.1 hexpands).1 schema ctx
  · rw [List.map_singleton, renderTarget_singleTarget]

/-! ## Reading a target -/

/-- A named target stands as its keyword and its quoted names. -/
theorem standing_named (objectType : ObjectType) (container : String) (object : Option String) :
    Standing (WrittenTarget.named objectType container object).text
      (textPiece (sqlObjectTypeKeyword objectType) :: textPiece " " :: identPiece container ::
        object.elim [] fun name => [textPiece ".", identPiece name]) where
  text := by
    cases object <;> simp [WrittenTarget.text, piecesText, List.append_assoc]
  spaced := by
    cases objectType <;> cases object <;> rfl
  clean := by
    cases objectType <;> cases object <;> rfl

/-- All objects of a schema stand as keywords and the quoted schema. -/
theorem standing_all (objectType : ObjectType) (schemaName : String) :
    Standing (WrittenTarget.all objectType schemaName).text
      [textPiece "ALL ", textPiece (sqlObjectTypePlural objectType), textPiece " IN SCHEMA ",
        identPiece schemaName] where
  text := by simp [WrittenTarget.text, piecesText, List.append_assoc]
  spaced := by cases objectType <;> rfl
  clean := by cases objectType <;> rfl

/-! ### Routines -/

/-- An argument list is in parentheses. -/
theorem exists_of_scanSignature {depth : Nat} {quoted : Bool} {cs args pre out : List Char}
    (h : scanSignature depth quoted cs args = some (pre, out)) :
    ∃ mid, out = '(' :: (mid ++ args) := by
  induction cs generalizing depth quoted args with
  | nil => cases h
  | cons c cs ih =>
      unfold scanSignature at h
      split_ifs at h with hquote hclose hopen
      · obtain ⟨mid, rfl⟩ := ih h
        exact ⟨mid ++ [c], by simp⟩
      · obtain ⟨mid, rfl⟩ := ih h
        exact ⟨mid ++ [c], by simp⟩
      · match depth with
        | 0 => cases h
        | 1 =>
            obtain ⟨-, rfl⟩ := Prod.mk.inj (Option.some.inj h)
            exact ⟨[], by rw [hopen.1]; rfl⟩
        | depth + 2 =>
            obtain ⟨mid, rfl⟩ := ih h
            exact ⟨mid ++ [c], by simp⟩
      · obtain ⟨mid, rfl⟩ := ih h
        exact ⟨mid ++ [c], by simp⟩

/-- The arguments of a signature are in parentheses. -/
theorem parentheses_of_functionSignature {signature baseName args : String}
    (h : functionSignature signature = some (baseName, args)) :
    args.toList.head? = some '(' ∧ args.toList.getLast? = some ')' := by
  unfold functionSignature at h
  split_ifs at h with hlast
  obtain ⟨⟨pre, out⟩, hscan, heq⟩ := Option.map_eq_some_iff.1 h
  obtain ⟨-, rfl⟩ := Prod.mk.inj heq
  obtain ⟨start, hstart⟩ := List.getLast?_eq_some_iff.1 hlast
  rw [hstart, List.reverse_append] at hscan
  -- the scan starts at the closing parenthesis
  have hfirst : scanSignature 0 false ([')'].reverse ++ start.reverse) [] =
      scanSignature 1 false start.reverse [')'] := rfl
  rw [hfirst] at hscan
  obtain ⟨mid, rfl⟩ := exists_of_scanSignature hscan
  rw [String.toList_ofList]
  exact ⟨rfl, List.getLast?_eq_some_iff.2 ⟨'(' :: mid, rfl⟩⟩

/-- A privilege statement on a routine is read as written if the argument list of its signature can
be read by itself. -/
theorem readsAs_routine_iff {action privilegeList subjectPreposition : String} (skipOwned : Bool)
    (role : Grantee) (haction : plainText action = true) (hlist : plainText privilegeList = true)
    (hprep : plainText subjectPreposition = true) (schemaName functionName : String) :
    ReadsAs (renderTarget action privilegeList subjectPreposition skipOwned role
          (.routine schemaName functionName))
        (targetNames action privilegeList subjectPreposition skipOwned role
          (.routine schemaName functionName)) ↔
      (WrittenTarget.routine schemaName functionName).Readable role := by
  cases hsignature : functionSignature functionName with
  | none =>
      have hstanding : Standing (WrittenTarget.routine schemaName functionName).text
          [textPiece "ROUTINE ", identPiece schemaName, textPiece ".", identPiece functionName] := {
        text := by
          simp [WrittenTarget.text, formatFunctionTarget, qualifiedFunctionName, hsignature,
            piecesText]
        spaced := rfl
        clean := rfl }
      refine iff_of_true ?_ ?_
      · have hnames : targetNames action privilegeList subjectPreposition skipOwned role
            (.routine schemaName functionName) = some ([nameToken schemaName,
              nameToken functionName] ++ (granteeRole role).toList.map nameToken) := by
          simp [targetNames, routineNames, hsignature]
        rw [hnames]
        apply (written_privilegeStatement role haction hlist hprep hstanding).readsAs
        rw [List.flatMap_append, quoted_lead, quoted_trail]
        rfl
      · intro baseName args hsome
        rw [hsignature] at hsome
        cases hsome
  | some parts =>
      obtain ⟨baseName, args⟩ := parts
      obtain ⟨hopen, hclose⟩ := parentheses_of_functionSignature hsignature
      have hreadable : (WrittenTarget.routine schemaName functionName).Readable role ↔
          ReadableArguments args.toList := by
        constructor
        · exact fun h => h baseName args hsignature
        · intro h baseName' args' hsome
          rw [hsignature] at hsome
          cases hsome
          exact h
      have htarget : Standing ("ROUTINE " ++ quoteIdent schemaName ++ "." ++ quoteIdent baseName)
          [textPiece "ROUTINE ", identPiece schemaName, textPiece ".", identPiece baseName] := {
        text := by simp [piecesText]
        spaced := rfl
        clean := rfl }
      have hlead := standing_lead haction hlist htarget
      have htext : (renderTarget action privilegeList subjectPreposition skipOwned role
            (.routine schemaName functionName)).toList =
          piecesText (leadPieces action privilegeList [textPiece "ROUTINE ",
            identPiece schemaName, textPiece ".", identPiece baseName]) ++
          (args.toList ++ (piecesText (trailPieces subjectPreposition role) ++ [';'])) := by
        rw [← hlead.text, piecesText_trail]
        simp [renderTarget, privilegeStatement, WrittenTarget.text, formatFunctionTarget,
          qualifiedFunctionName, hsignature]
      have hread := isStatement_arguments_iff hlead.spaced hlead.clean hopen hclose
        (wellSpaced_trail role hprep true) (clean_trail role hprep)
      rw [hreadable, ← hread, ReadsAs, htext, quoted_lead, quoted_trail]
      simp only [targetNames, routineNames, hsignature]
      cases argumentNames args.toList with
      | none => simp
      | some names => simp [SqlPiece.quoted, textPiece, identPiece, nameToken]

/-! ### Blocks -/

/-- The pieces before the owner filter of a block. -/
def blockStart (objectType : ObjectType) (schemaName : String) : List SqlPiece :=
  [textPiece "\nDECLARE obj record;\nBEGIN\n  FOR obj IN\n",
    textPiece "    SELECT n.nspname AS schema_name, c.relname AS object_name\n    FROM pg_class c\n",
    textPiece "    JOIN pg_namespace n ON n.oid = c.relnamespace\n    WHERE c.relkind IN ("] ++
  settingPieces (relationRelkinds objectType) ++
  [textPiece ")\n      AND n.nspname = ", literalPiece schemaName, textPiece "\n      "]

/-- The pieces of the owner filter. -/
def filterPieces (skipOwned : Bool) (role : Grantee) : List SqlPiece :=
  if skipOwned then
    (granteeRole role).toList.flatMap fun name =>
      [textPiece "AND pg_get_userbyid(c.relowner) <> ", literalPiece name]
  else []

/-- The pieces of the call that formats the statement. -/
def formatPieces (format : String) (role : Grantee) : List SqlPiece :=
  [textPiece "\n    ORDER BY c.relname\n  LOOP\n    EXECUTE format(", literalPiece format,
    textPiece ", obj.schema_name, obj.object_name"] ++
  ((granteeRole role).toList.flatMap fun name => [textPiece ", ", literalPiece name]) ++
  [textPiece ");\n  END LOOP;\nEND\n"]

/-- The body of a block. -/
def blockPieces (action privilegeList subjectPreposition : String) (skipOwned : Bool)
    (role : Grantee) (objectType : ObjectType) (schemaName : String) : List SqlPiece :=
  blockStart objectType schemaName ++ (filterPieces skipOwned role ++
    formatPieces (blockFormat action privilegeList objectType subjectPreposition role) role)

theorem relationRelkindsSql_eq (objectType : ObjectType) :
    relationRelkindsSql objectType =
      ", ".intercalate ((relationRelkinds objectType).map quoteLiteral) := by
  cases objectType <;> decide

/-- A text without a quote is a literal as it is. -/
theorem quoteLiteral_of_not_mem {text : String} (h : '\'' ∉ text.toList) :
    quoteLiteral text = "'" ++ text ++ "'" := by
  apply String.toList_injective
  rw [toList_quoteLiteral, inQuotes_eq, doubleQuotes_of_not_mem h]
  simp

section Block

variable {action privilegeList subjectPreposition : String} (skipOwned : Bool) (role : Grantee)
  (objectType : ObjectType) (schemaName : String)

/-- The format text has neither a quote nor a dollar. -/
theorem not_mem_blockFormat {c : Char} (hc : c = '\'' ∨ c = '$')
    (haction : plainText action = true) (hlist : plainText privilegeList = true)
    (hprep : plainText subjectPreposition = true) :
    c ∉ (blockFormat action privilegeList objectType subjectPreposition role).toList := by
  have hplain : ∀ t : String, plainText t = true → c ∉ t.toList := by
    intro t ht hmem
    have hall := List.all_eq_true.1 ht c hmem
    rcases hc with rfl | rfl <;> exact absurd hall (by decide)
  have hfixed : ∀ t ∈ [" ", " ON ", " %I.%I ", ";"], c ∉ t.toList := by
    rcases hc with rfl | rfl <;> decide
  have hgrantee : c ∉ ((granteeFormat role).1).toList := by
    cases role with
    | publicRole => rcases hc with rfl | rfl <;> decide
    | role name =>
        have hplaceholder : c ∉ "%I".toList := by rcases hc with rfl | rfl <;> decide
        exact hplaceholder
  simp only [blockFormat, String.toList_append, List.mem_append, not_or]
  exact ⟨⟨⟨⟨⟨⟨⟨⟨⟨hplain _ haction, hfixed " " (by decide)⟩, hplain _ hlist⟩,
    hfixed " ON " (by decide)⟩, hplain _ (plainText_keyword objectType)⟩,
    hfixed " %I.%I " (by decide)⟩, hplain _ hprep⟩, hfixed " " (by decide)⟩, hgrantee⟩,
    hfixed ";" (by decide)⟩

/-- The pieces of a block spell the block. -/
theorem piecesText_blockPieces (haction : plainText action = true)
    (hlist : plainText privilegeList = true) (hprep : plainText subjectPreposition = true) :
    (wildcardBlock action subjectPreposition role privilegeList objectType schemaName
        skipOwned).toList =
      "DO $pgroles$".toList ++ (piecesText (blockPieces action privilegeList subjectPreposition
        skipOwned role objectType schemaName) ++ (delimiter blockTag.toList ++ [';'])) := by
  have hformat := quoteLiteral_of_not_mem
    (not_mem_blockFormat role objectType (.inl rfl) haction hlist hprep)
  have hstart : "DO $pgroles$\nDECLARE obj record;\nBEGIN\n  FOR obj IN\n" =
      "DO $pgroles$" ++ "\nDECLARE obj record;\nBEGIN\n  FOR obj IN\n" := by decide
  have hcall : "\n    ORDER BY c.relname\n  LOOP\n    EXECUTE format('" =
      "\n    ORDER BY c.relname\n  LOOP\n    EXECUTE format(" ++ "'" := by decide
  have hargs : ";', obj.schema_name, obj.object_name" =
      ";" ++ ("'" ++ ", obj.schema_name, obj.object_name") := by decide
  have hend : ");\n  END LOOP;\nEND\n$pgroles$;" =
      ");\n  END LOOP;\nEND\n" ++ String.ofList (delimiter blockTag.toList ++ [';']) := by decide
  have hfilter : piecesText (filterPieces skipOwned role) =
      (ownerFilter skipOwned role).toList := by
    cases role with
    | publicRole => cases skipOwned <;> rfl
    | role name =>
        cases skipOwned with
        | false => rfl
        | true => simp [filterPieces, granteeRole, piecesText, ownerFilter]
  have hargument : piecesText ((granteeRole role).toList.flatMap fun name =>
      [textPiece ", ", literalPiece name]) = ((granteeFormat role).2).toList := by
    cases role with
    | publicRole => rfl
    | role name => simp [granteeRole, piecesText, granteeFormat]
  have hend' : (String.ofList (delimiter blockTag.toList ++ [';'])).toList =
      delimiter blockTag.toList ++ [';'] := String.toList_ofList
  unfold wildcardBlock blockPieces blockStart formatPieces
  rw [hstart, hcall, hargs, hend, relationRelkindsSql_eq]
  have hnil : piecesText [] = [] := rfl
  simp only [piecesText_append, piecesText_cons, chars_textPiece, chars_literalPiece, hfilter,
    hargument, piecesText_settingPieces, hformat, hnil, String.toList_append, hend',
    List.append_assoc, List.nil_append]
  simp only [blockFormat, String.toList_append, List.append_assoc]

theorem wellSpaced_blockStart : wellSpaced true (blockStart objectType schemaName) = true := by
  have hschema : ∀ ready, wellSpaced ready [textPiece ")\n      AND n.nspname = ",
      literalPiece schemaName, textPiece "\n      "] = true := by
    intro ready
    cases ready <;> rfl
  unfold blockStart
  rw [wellSpaced_append, wellSpaced_append, hschema, Bool.and_true, Bool.and_eq_true]
  exact ⟨by decide, wellSpaced_settingPieces _⟩

theorem wellSpaced_filterPieces (ready : Bool) :
    wellSpaced ready (filterPieces skipOwned role) = true := by
  cases role <;> cases skipOwned <;> cases ready <;> rfl

theorem wellSpaced_formatPieces (format : String) (ready : Bool) :
    wellSpaced ready (formatPieces format role) = true := by
  cases role <;> cases ready <;> rfl

theorem wellSpaced_blockPieces :
    wellSpaced true (blockPieces action privilegeList subjectPreposition skipOwned role objectType
      schemaName) = true := by
  unfold blockPieces
  rw [wellSpaced_append, wellSpaced_append, wellSpaced_blockStart,
    wellSpaced_filterPieces, wellSpaced_formatPieces]
  rfl

theorem isBodyPiece_blockPieces :
    (blockPieces action privilegeList subjectPreposition skipOwned role objectType
      schemaName).all SqlPiece.isBodyPiece = true := by
  cases role <;> cases skipOwned <;> cases objectType <;> rfl

/-- A block quotes the names of its target and the grantee. -/
theorem quoted_blockPieces :
    some ((blockPieces action privilegeList subjectPreposition skipOwned role objectType
        schemaName).flatMap SqlPiece.quoted) =
      targetNames action privilegeList subjectPreposition skipOwned role
        (.block objectType schemaName) := by
  unfold blockPieces blockStart formatPieces filterPieces targetNames
  simp only [List.flatMap_append, quoted_settingPieces]
  cases role <;> cases skipOwned <;>
    simp [SqlPiece.quoted, textPiece, literalPiece, valueToken, granteeRole]

theorem literal_mem_quoted_iff {ps : List SqlPiece} {value : List Char} :
    .literal value ∈ ps ↔ SqlToken.literal value ∈ ps.flatMap SqlPiece.quoted := by
  rw [List.mem_flatMap]
  constructor
  · exact fun h => ⟨_, h, List.mem_singleton_self _⟩
  · intro h
    obtain ⟨p, hp, hmem⟩ := h
    cases p with
    | literal value' =>
        rw [SqlToken.literal.inj (List.mem_singleton.1 hmem)]
        exact hp
    | ident name => cases List.mem_singleton.1 hmem
    | text t => exact absurd hmem List.not_mem_nil
    | int n => exact absurd hmem List.not_mem_nil

/-- Among the values of a block only the schema and the grantee can spell its delimiter. -/
theorem delimiter_blockPieces_iff (haction : plainText action = true)
    (hlist : plainText privilegeList = true) (hprep : plainText subjectPreposition = true) :
    (∀ value, .literal value ∈ blockPieces action privilegeList subjectPreposition skipOwned role
        objectType schemaName → ¬ delimiter blockTag.toList <:+: value) ↔
      (WrittenTarget.block objectType schemaName).Readable role := by
  have hformat : ¬ SpellsDelimiter
      (blockFormat action privilegeList objectType subjectPreposition role) := by
    intro hspells
    apply not_mem_blockFormat role objectType (.inr rfl) haction hlist hprep
    exact hspells.subset (by decide)
  have hrelkinds : ∀ kind ∈ relationRelkinds objectType, ¬ SpellsDelimiter kind := by
    cases objectType <;> decide
  have hnames : (blockPieces action privilegeList subjectPreposition skipOwned role objectType
        schemaName).flatMap SqlPiece.quoted =
      (relationRelkinds objectType ++ schemaName ::
        (if skipOwned then (granteeRole role).toList else []) ++
        blockFormat action privilegeList objectType subjectPreposition role ::
        (granteeRole role).toList).map valueToken := by
    apply Option.some.inj
    rw [quoted_blockPieces]
    cases skipOwned <;> simp [targetNames]
  have hvalues : ∀ l : List String,
      (∀ value, SqlToken.literal value ∈ l.map valueToken →
        ¬ delimiter blockTag.toList <:+: value) ↔ ∀ text ∈ l, ¬ SpellsDelimiter text := by
    intro l
    constructor
    · exact fun h text htext => h text.toList (List.mem_map_of_mem htext)
    · intro h value hvalue
      obtain ⟨text, htext, heq⟩ := List.mem_map.1 hvalue
      rw [← SqlToken.literal.inj heq]
      exact h text htext
  simp only [literal_mem_quoted_iff]
  rw [hnames, hvalues]
  simp only [List.mem_append, List.mem_cons, Option.mem_toList]
  constructor
  · exact fun h => ⟨h schemaName (.inl (.inr (.inl rfl))),
      fun name hname => h name (.inr (.inr hname))⟩
  · rintro ⟨hschema, hrole⟩ text ((hkind | rfl | howner) | rfl | hgrantee)
    · exact hrelkinds text hkind
    · exact hschema
    · cases skipOwned with
      | false => exact absurd howner List.not_mem_nil
      | true => exact hrole text (Option.mem_toList.1 howner)
    · exact hformat
    · exact hrole text hgrantee

theorem lexRun_blockLead : lexRun .between "DO $pgroles$".toList =
    some (.dollar blockTag.toList [], [.word "DO".toList]) := by
  decide

/-- A block of a schema that spells the delimiter is no statement. -/
theorem not_isStatement_block (haction : plainText action = true)
    (hlist : plainText privilegeList = true) (hprep : plainText subjectPreposition = true)
    (hschema : SpellsDelimiter schemaName) (quoted : List SqlToken) :
    ¬ IsStatement (wildcardBlock action subjectPreposition role privilegeList objectType schemaName
      skipOwned).toList quoted := by
  rw [piecesText_blockPieces skipOwned role objectType schemaName haction hlist hprep]
  have hmem : .literal schemaName.toList ∈ blockPieces action privilegeList subjectPreposition
      skipOwned role objectType schemaName := by
    simp [blockPieces, blockStart, literalPiece]
  exact not_isStatement_dollar lexRun_blockLead (by decide)
    (wellSpaced_blockPieces skipOwned role objectType schemaName)
    (isBodyPiece_blockPieces skipOwned role objectType schemaName) hmem hschema quoted

/-- A block is read as written unless one of its names spells its delimiter. -/
theorem readsAs_block_iff (haction : plainText action = true)
    (hlist : plainText privilegeList = true) (hprep : plainText subjectPreposition = true) :
    ReadsAs (renderTarget action privilegeList subjectPreposition skipOwned role
          (.block objectType schemaName))
        (targetNames action privilegeList subjectPreposition skipOwned role
          (.block objectType schemaName)) ↔
      (WrittenTarget.block objectType schemaName).Readable role := by
  rw [← delimiter_blockPieces_iff skipOwned role objectType schemaName haction hlist hprep,
    ← isStatement_dollar_iff lexRun_blockLead rfl (by decide) (by decide)
      (wellSpaced_blockPieces skipOwned role objectType schemaName)
      (isBodyPiece_blockPieces skipOwned role objectType schemaName),
    ← piecesText_blockPieces skipOwned role objectType schemaName haction hlist hprep,
    ← quoted_blockPieces]
  constructor
  · intro h
    obtain ⟨quoted, hquoted, hstatement⟩ := h
    rw [Option.some.inj hquoted]
    exact hstatement
  · intro h
    exact ⟨_, rfl, h⟩

end Block

/-! ### All targets -/

/-- The statement about a target is read as written exactly when the target is readable. -/
theorem readsAs_target_iff {action privilegeList subjectPreposition : String} (skipOwned : Bool)
    (role : Grantee) (haction : plainText action = true) (hlist : plainText privilegeList = true)
    (hprep : plainText subjectPreposition = true) (target : WrittenTarget) :
    ReadsAs (renderTarget action privilegeList subjectPreposition skipOwned role target)
        (targetNames action privilegeList subjectPreposition skipOwned role target) ↔
      target.Readable role := by
  cases target with
  | named objectType container object =>
      refine iff_of_true ?_ trivial
      apply (written_privilegeStatement role haction hlist hprep
        (standing_named objectType container object)).readsAs
      rw [List.flatMap_append, quoted_lead, quoted_trail]
      cases object <;> rfl
  | all objectType schemaName =>
      refine iff_of_true ?_ trivial
      apply (written_privilegeStatement role haction hlist hprep
        (standing_all objectType schemaName)).readsAs
      rw [List.flatMap_append, quoted_lead, quoted_trail]
      rfl
  | routine schemaName functionName =>
      exact readsAs_routine_iff skipOwned role haction hlist hprep schemaName functionName
  | block objectType schemaName =>
      exact readsAs_block_iff skipOwned role objectType schemaName haction hlist hprep

/-- The statements of a grant or a revoke are read as written exactly when all its targets are
readable. -/
theorem readsAs_privileges_iff {action : String} (haction : plainText action = true)
    (key : GrantKey) (privileges : Finset Privilege) (ctx : SqlContext) :
    List.Forall₂ ReadsAs
        (renderPrivilegeStatements action key.role (formatPrivileges privileges) key.objectType
          key.schema key.name ctx)
        (privilegeNames action key privileges ctx) ↔
      ∀ target ∈ privilegeTargets (action == "REVOKE") key.role key.objectType key.schema key.name
        ctx, target.Readable key.role := by
  have hprep : plainText (if action = "GRANT" then "TO" else "FROM") = true := by
    split <;> decide
  rw [renderPrivilegeStatements_eq, privilegeNames, List.forall₂_map_left_iff,
    List.forall₂_map_right_iff, List.forall₂_same]
  constructor
  · exact fun h target htarget => (readsAs_target_iff _ _ haction
      (plainText_formatPrivileges privileges) hprep target).1 (h target htarget)
  · exact fun h target htarget => (readsAs_target_iff _ _ haction
      (plainText_formatPrivileges privileges) hprep target).2 (h target htarget)

end PgRoles.Sql

import PgRoles.Lib.Text
import PgRoles.Core.Types

/-!
# Grant targets in SQL

How the target of a grant is written in a statement. Views are tables to GRANT, and an object
without a schema is one of the schema `public`, so several keys can have one text. What two keys with
one text have in common is read back from its start: the kind of target and the schema or the
database it names (`formatObjectTarget_inj`).
-/

set_option autoImplicit false

namespace PgRoles.Sql

open PgRoles.Core PgRoles.Lib

/-! ## Identifiers -/

/-- A quote inside of an identifier is doubled. -/
def quoteChar (c : Char) : List Char := if c = '"' then ['"', '"'] else [c]

/-- A quoted identifier: quotes in it are doubled. -/
def quoteIdent (identifier : String) : String :=
  String.ofList ('"' :: (identifier.toList.flatMap quoteChar ++ ['"']))

/-- The start of the argument list of a signature, found from its end: the parts before and after
it. Parentheses in quotes do not count. -/
def scanSignature : Nat → Bool → List Char → List Char → Option (List Char × List Char)
  | _, _, [], _ => none
  | depth, quoted, c :: cs, args =>
      if c = '"' then scanSignature depth (!quoted) cs (c :: args)
      else if c = ')' ∧ quoted = false then scanSignature (depth + 1) quoted cs (c :: args)
      else if c = '(' ∧ quoted = false then
        match depth with
        | 0 => none
        | 1 => some (cs.reverse, c :: args)
        | depth + 2 => scanSignature (depth + 1) quoted cs (c :: args)
      else scanSignature depth quoted cs (c :: args)

/-- The name and the argument list of a function signature. -/
def functionSignature (signature : String) : Option (String × String) :=
  if signature.toList.getLast? = some ')' then
    (scanSignature 0 false signature.toList.reverse []).map fun parts =>
      (String.ofList parts.1, String.ofList parts.2)
  else none

/-- A routine with its schema; the argument types of its signature stay as they are. -/
def qualifiedFunctionName (schemaName functionName : String) : String :=
  match functionSignature functionName with
  | some (baseName, args) => quoteIdent schemaName ++ "." ++ quoteIdent baseName ++ args
  | none => quoteIdent schemaName ++ "." ++ quoteIdent functionName

/-! ## Targets -/

/-- The keyword of GRANT and REVOKE; views are granted as tables. -/
def sqlObjectTypeKeyword : ObjectType → String
  | .table | .view | .materializedView => "TABLE"
  | .sequence => "SEQUENCE"
  | .function => "ROUTINE"
  | .schema => "SCHEMA"
  | .database => "DATABASE"
  | .type => "TYPE"

/-- The keyword of `ALL … IN SCHEMA`; types have none of their own. -/
def sqlObjectTypePlural : ObjectType → String
  | .sequence => "SEQUENCES"
  | .function => "ROUTINES"
  | _ => "TABLES"

/-- An object of a schema, all objects of it, or the schema alone where no name is given. -/
def formatSchemaObject (keyword plural schemaName : String) : Option String → String
  | some objectName =>
      if objectName = wildcardName then
        "ALL " ++ plural ++ " IN SCHEMA " ++ quoteIdent schemaName
      else keyword ++ " " ++ quoteIdent schemaName ++ "." ++ quoteIdent objectName
  | none => keyword ++ " " ++ quoteIdent schemaName

/-- The target of a privilege statement. -/
def formatObjectTarget (objectType : ObjectType) (schema name : Option String) : String :=
  match objectType with
  | .schema => sqlObjectTypeKeyword .schema ++ " " ++ quoteIdent (name.getD "public")
  | .database => sqlObjectTypeKeyword .database ++ " " ++ quoteIdent (name.getD "postgres")
  | .function =>
      match name with
      | some functionName =>
          if functionName = wildcardName then
            "ALL ROUTINES IN SCHEMA " ++ quoteIdent (schema.getD "public")
          else "ROUTINE " ++ qualifiedFunctionName (schema.getD "public") functionName
      | none => sqlObjectTypeKeyword .function ++ " " ++ quoteIdent (schema.getD "public")
  | objectType =>
      formatSchemaObject (sqlObjectTypeKeyword objectType) (sqlObjectTypePlural objectType)
        (schema.getD "public") name

/-! ## Reading back -/

/-- The characters of an identifier up to its closing quote. -/
theorem flatMap_quoteChar_inj {cs ds rest rest' : List Char} (hrest : rest.head? ≠ some '"')
    (hrest' : rest'.head? ≠ some '"')
    (h : cs.flatMap quoteChar ++ '"' :: rest = ds.flatMap quoteChar ++ '"' :: rest') :
    cs = ds ∧ rest = rest' := by
  -- A closing quote is never followed by a quote, an inner one always is.
  have hclose : ∀ {c : Char} {tail r : List Char}, r.head? ≠ some '"' →
      '"' :: r ≠ quoteChar c ++ tail := by
    intro c tail r hr heq
    unfold quoteChar at heq
    split at heq
    · have hr' : r = '"' :: tail := (List.cons.inj heq).2
      rw [hr'] at hr
      exact hr rfl
    · next hne => exact hne (List.cons.inj heq).1.symm
  induction cs generalizing ds with
  | nil =>
      cases ds with
      | nil => exact ⟨rfl, (List.cons.inj h).2⟩
      | cons d ds =>
          rw [List.flatMap_cons, List.append_assoc] at h
          exact absurd h (hclose hrest)
  | cons c cs ih =>
      cases ds with
      | nil =>
          rw [List.flatMap_cons, List.append_assoc] at h
          exact absurd h.symm (hclose hrest')
      | cons d ds =>
          rw [List.flatMap_cons, List.flatMap_cons, List.append_assoc, List.append_assoc] at h
          have hcd : c = d ∧ cs.flatMap quoteChar ++ '"' :: rest =
              ds.flatMap quoteChar ++ '"' :: rest' := by
            unfold quoteChar at h
            by_cases hc : c = '"'
            · by_cases hd : d = '"'
              · rw [if_pos hc, if_pos hd] at h
                exact ⟨hc.trans hd.symm, List.append_cancel_left h⟩
              · rw [if_pos hc, if_neg hd] at h
                exact absurd (List.cons.inj h).1.symm hd
            · by_cases hd : d = '"'
              · rw [if_neg hc, if_pos hd] at h
                exact absurd (List.cons.inj h).1 hc
              · rw [if_neg hc, if_neg hd] at h
                exact List.cons.inj h
          obtain ⟨hds, hrests⟩ := ih hcd.2
          exact ⟨by rw [hcd.1, hds], hrests⟩

/-- An identifier is read back from the start of a text. -/
theorem quoteIdent_append_inj {s t : String} {rest rest' : List Char}
    (hrest : rest.head? ≠ some '"') (hrest' : rest'.head? ≠ some '"')
    (h : (quoteIdent s).toList ++ rest = (quoteIdent t).toList ++ rest') : s = t := by
  unfold quoteIdent at h
  simp only [String.toList_ofList, List.cons_append, List.append_assoc, List.cons.injEq,
    true_and, List.nil_append] at h
  exact String.toList_injective (flatMap_quoteChar_inj hrest hrest' h).1

/-- The schema or the database a target lies in. -/
def targetContainer : ObjectType → Option String → Option String → String
  | .schema, _, name => name.getD "public"
  | .database, _, name => name.getD "postgres"
  | _, schema, _ => schema.getD "public"

/-- A text starts with a keyword, which tells databases apart, and an identifier. -/
def StartsWith (text : String) (isDatabase : Prop) (container : String) : Prop :=
  ∃ keyword rest : List Char, text.toList = keyword ++ ((quoteIdent container).toList ++ rest) ∧
    '"' ∉ keyword ∧ rest.head? ≠ some '"' ∧ (keyword = "DATABASE ".toList ↔ isDatabase)

theorem startsWith_formatSchemaObject {keyword plural schemaName : String} {name : Option String}
    (hkeyword : '"' ∉ (keyword ++ " ").toList) (hdatabase : keyword ++ " " ≠ "DATABASE ")
    (hplural : '"' ∉ ("ALL " ++ plural ++ " IN SCHEMA ").toList) :
    StartsWith (formatSchemaObject keyword plural schemaName name) False schemaName := by
  have hne : (keyword ++ " ").toList ≠ "DATABASE ".toList := fun h =>
    hdatabase (String.toList_injective h)
  cases name with
  | none =>
      exact ⟨(keyword ++ " ").toList, [], by simp [formatSchemaObject], hkeyword, by simp,
        iff_of_false hne id⟩
  | some objectName =>
      by_cases hwild : objectName = wildcardName
      · refine ⟨("ALL " ++ plural ++ " IN SCHEMA ").toList, [], by simp [formatSchemaObject, hwild],
          hplural, by simp, iff_of_false (fun h => ?_) id⟩
        exact absurd (congrArg List.head? h) (by simp)
      · exact ⟨(keyword ++ " ").toList, '.' :: (quoteIdent objectName).toList,
          by simp [formatSchemaObject, hwild], hkeyword, by simp, iff_of_false hne id⟩

theorem exists_qualifiedFunctionName (schemaName functionName : String) :
    ∃ rest : List Char, (qualifiedFunctionName schemaName functionName).toList =
      (quoteIdent schemaName).toList ++ '.' :: rest := by
  unfold qualifiedFunctionName
  split
  · next baseName args _ => exact ⟨(quoteIdent baseName).toList ++ args.toList, by simp⟩
  · exact ⟨(quoteIdent functionName).toList, by simp⟩

theorem startsWith_formatObjectTarget (objectType : ObjectType) (schema name : Option String) :
    StartsWith (formatObjectTarget objectType schema name) (objectType = .database)
      (targetContainer objectType schema name) := by
  cases objectType with
  | schema =>
      exact ⟨"SCHEMA ".toList, [], by simp [formatObjectTarget, sqlObjectTypeKeyword,
        targetContainer], by decide, by simp, by decide⟩
  | database =>
      exact ⟨"DATABASE ".toList, [], by simp [formatObjectTarget, sqlObjectTypeKeyword,
        targetContainer], by decide, by simp, by decide⟩
  | function =>
      cases name with
      | none =>
          exact ⟨"ROUTINE ".toList, [], by simp [formatObjectTarget, sqlObjectTypeKeyword,
            targetContainer], by decide, by simp, by decide⟩
      | some functionName =>
          by_cases hwild : functionName = wildcardName
          · exact ⟨"ALL ROUTINES IN SCHEMA ".toList, [], by simp [formatObjectTarget, hwild,
              targetContainer], by decide, by simp, by decide⟩
          · obtain ⟨rest, hrest⟩ :=
              exists_qualifiedFunctionName (schema.getD "public") functionName
            refine ⟨"ROUTINE ".toList, '.' :: rest, ?_, by decide, by simp, by decide⟩
            simp [formatObjectTarget, hwild, targetContainer, hrest]
  | _ =>
      simp only [reduceCtorEq]
      exact startsWith_formatSchemaObject (by decide) (by decide) (by decide)

/-- Targets with one text are both databases or neither, and lie in one container. -/
theorem formatObjectTarget_inj {t t' : ObjectType} {schema name schema' name' : Option String}
    (h : formatObjectTarget t schema name = formatObjectTarget t' schema' name') :
    (t = .database ↔ t' = .database) ∧
      targetContainer t schema name = targetContainer t' schema' name' := by
  obtain ⟨keyword, rest, htext, hquote, hrest, hdatabase⟩ :=
    startsWith_formatObjectTarget t schema name
  obtain ⟨keyword', rest', htext', hquote', hrest', hdatabase'⟩ :=
    startsWith_formatObjectTarget t' schema' name'
  have hlist : keyword ++ ((quoteIdent (targetContainer t schema name)).toList ++ rest) =
      keyword' ++ ((quoteIdent (targetContainer t' schema' name')).toList ++ rest') := by
    rw [← htext, ← htext', h]
  have hstart : ∀ (s : String) (r : List Char), ∃ tail, (quoteIdent s).toList ++ r = '"' :: tail :=
    fun s r => ⟨s.toList.flatMap quoteChar ++ ['"'] ++ r, by simp [quoteIdent]⟩
  -- The keyword ends at the first quote.
  have hkeyword : keyword = keyword' := by
    obtain ⟨tail, htail⟩ := hstart (targetContainer t schema name) rest
    obtain ⟨tail', htail'⟩ := hstart (targetContainer t' schema' name') rest'
    rw [htail, htail'] at hlist
    exact (append_cons_inj hquote hquote' hlist).1
  rw [hkeyword, List.append_right_inj] at hlist
  refine ⟨?_, quoteIdent_append_inj hrest hrest' hlist⟩
  rw [← hdatabase, ← hdatabase', hkeyword]

end PgRoles.Sql

import PgRoles.Sql.RoleSwitch
import PgRoles.Sql.TargetReading

/-!
# Rendered statements are read as written

Every statement that a change renders to is one statement, and a reader gets exactly the names and
values of the change back: quotes are doubled in every name and value, and everything around them is
fixed text. The exceptions are what `Readable` excludes (`renderStatements_readsAs_iff`): a block
whose names spell its own delimiter ends early, and a list setting with an unterminated quote is
rendered as an empty one. The argument list of a routine's signature is not quoted at all, so it
has to be readable by itself.
-/

set_option autoImplicit false

namespace PgRoles.Sql

open Std PgRoles.Lib PgRoles.Core

/-! ## Roles -/

/-- The pieces of an option. -/
def optionPieces : RoleAttribute → Option (List SqlPiece)
  | .login v => some [textPiece (boolOption "LOGIN" "NOLOGIN" v)]
  | .superuser v => some [textPiece (boolOption "SUPERUSER" "NOSUPERUSER" v)]
  | .createdb v => some [textPiece (boolOption "CREATEDB" "NOCREATEDB" v)]
  | .createrole v => some [textPiece (boolOption "CREATEROLE" "NOCREATEROLE" v)]
  | .inherit v => some [textPiece (boolOption "INHERIT" "NOINHERIT" v)]
  | .replication v => some [textPiece (boolOption "REPLICATION" "NOREPLICATION" v)]
  | .bypassrls v => some [textPiece (boolOption "BYPASSRLS" "NOBYPASSRLS" v)]
  | .connectionLimit v => some [textPiece "CONNECTION LIMIT ", .int v]
  | .validUntil (some ts) => some [textPiece "VALID UNTIL ", literalPiece ts]
  | .validUntil none => some [textPiece "VALID UNTIL ", literalPiece "infinity"]
  | .setConfig .. | .resetConfig .. => none

/-- An option is written from its pieces, with the values of its attribute. -/
theorem optionPieces_spec (a : RoleAttribute) :
    (attributeOption a).map String.toList = (optionPieces a).map piecesText ∧
      (∀ ps, optionPieces a = some ps → wellSpaced true ps = true ∧
        ps.all SqlPiece.clean = true) ∧
      ((optionPieces a).getD []).flatMap SqlPiece.quoted = attributeValues a := by
  cases a with
  | setConfig parameter value => exact ⟨rfl, fun ps h => (nomatch h), rfl⟩
  | resetConfig parameter => exact ⟨rfl, fun ps h => (nomatch h), rfl⟩
  | connectionLimit v =>
      refine ⟨?_, ?_, rfl⟩
      · simp [attributeOption, optionPieces, piecesText]
      · intro ps h
        cases h
        exact ⟨rfl, rfl⟩
  | validUntil ts =>
      cases ts with
      | none =>
          refine ⟨by decide, ?_, rfl⟩
          intro ps h
          cases h
          exact ⟨rfl, rfl⟩
      | some ts =>
          refine ⟨?_, ?_, rfl⟩
          · simp [attributeOption, optionPieces, piecesText]
          · intro ps h
            cases h
            exact ⟨rfl, rfl⟩
  | _ v =>
      cases v <;>
      · refine ⟨by decide, ?_, rfl⟩
        intro ps h
        cases h
        exact ⟨by decide, by decide⟩

/-- Options in a row. -/
theorem standing_options (attributes : List RoleAttribute) :
    Standing (" ".intercalate (attributes.filterMap attributeOption))
      (joinPieces " ".toList (attributes.filterMap optionPieces)) where
  text := by
    rw [piecesText_joinPieces, String.toList_intercalate, List.map_filterMap, List.map_filterMap]
    congr 1
    apply List.filterMap_congr
    intro a _
    exact (optionPieces_spec a).1
  spaced := by
    apply wellSpaced_joinPieces (by decide) (by decide)
    intro g hg
    obtain ⟨a, -, ha⟩ := List.mem_filterMap.1 hg
    exact ((optionPieces_spec a).2.1 g ha).1
  clean := by
    apply clean_joinPieces (by decide)
    intro g hg
    obtain ⟨a, -, ha⟩ := List.mem_filterMap.1 hg
    exact ((optionPieces_spec a).2.1 g ha).2

theorem quoted_options (attributes : List RoleAttribute) :
    (joinPieces " ".toList (attributes.filterMap optionPieces)).flatMap SqlPiece.quoted =
      attributes.flatMap attributeValues := by
  rw [quoted_joinPieces]
  induction attributes with
  | nil => rfl
  | cons a attributes ih =>
      rw [List.flatMap_cons, ← ih, ← (optionPieces_spec a).2.2, List.filterMap_cons]
      cases optionPieces a <;> rfl

/-- A statement of a verb, a role and its options. -/
theorem readsAs_options {verb : String} (hverb : plainText verb = true)
    (hready : readyAfter false (textPiece verb) = true) (name : String)
    (attributes : List RoleAttribute) :
    ReadsAs (verb ++ quoteIdent name ++ " " ++
        " ".intercalate (attributes.filterMap attributeOption) ++ ";")
      (some (nameToken name :: attributes.flatMap attributeValues)) := by
  have hoptions := standing_options attributes
  have hwritten : WrittenFrom (verb ++ quoteIdent name ++ " " ++
        " ".intercalate (attributes.filterMap attributeOption) ++ ";")
      ([textPiece verb, identPiece name, textPiece " "] ++
        joinPieces " ".toList (attributes.filterMap optionPieces)) := {
    text := by
      rw [piecesText_append, ← hoptions.text]
      simp [piecesText]
    spaced := by
      have hspace : ∀ ready, fits ready (textPiece " ") = true := by decide
      have hname : fits true (identPiece name) = true := rfl
      rw [wellSpaced_append, Bool.and_eq_true]
      constructor
      · simp [wellSpaced, fits_textPiece hverb, readyAfter_textPiece hready, hspace, hname]
      · exact hoptions.spaced
    clean := by
      have hspace : (textPiece " ").clean = true := by decide
      have hname : (identPiece name).clean = true := rfl
      rw [List.all_append, hoptions.clean]
      simp [clean_of_plainText hverb, hspace, hname] }
  apply hwritten.readsAs
  rw [List.flatMap_append, quoted_options]
  rfl

/-- The options of a created role, as attributes. -/
def createdAttributes (state : RoleState) : List RoleAttribute :=
  [.login state.login, .superuser state.superuser, .createdb state.createdb,
    .createrole state.createrole, .inherit state.inherit, .replication state.replication,
    .bypassrls state.bypassrls] ++
  (if state.connectionLimit = -1 then [] else [.connectionLimit state.connectionLimit]) ++
  (state.passwordValidUntil.toList.map fun ts => .validUntil (some ts))

theorem createRoleOptions_eq (state : RoleState) :
    createRoleOptions state = (createdAttributes state).filterMap attributeOption := by
  unfold createRoleOptions createdAttributes
  rw [List.filterMap_append, List.filterMap_append]
  congr 1
  · split <;> rfl
  · cases state.passwordValidUntil <;> rfl

theorem values_createdAttributes (state : RoleState) :
    (createdAttributes state).flatMap attributeValues =
      state.passwordValidUntil.toList.map valueToken := by
  unfold createdAttributes
  rw [List.flatMap_append, List.flatMap_append]
  cases state.passwordValidUntil <;> split <;> rfl

/-- A setting is read as written exactly where no list has an unterminated quote. -/
theorem readsAs_setConfig_iff (name parameter value : String) :
    ReadsAs (renderSetConfig name parameter value)
        (settingNames name (.setConfig parameter value)) ↔
      (isListQuoteParameter parameter = true → (splitGucList value).isSome = true) := by
  have hinj : Function.Injective valueToken := by
    intro a b h
    exact String.toList_injective (SqlToken.literal.inj h)
  rw [(written_renderSetConfig name parameter value).readsAs_iff, quoted_setConfigPieces,
    settingNames, Option.some.injEq, List.cons.injEq, List.cons.injEq]
  simp only [true_and]
  rw [(List.map_injective_iff.2 hinj).eq_iff]
  unfold settingElements settingValues
  by_cases hlist : isListQuoteParameter parameter = true
  · rw [if_pos hlist, if_pos hlist]
    cases hsplit : splitGucList value with
    | none =>
        refine iff_of_false ?_ (fun h => absurd (h hlist) Bool.false_ne_true)
        intro h
        -- the empty text has no unterminated quote
        rw [List.singleton_inj.1 h] at hsplit
        exact absurd hsplit (by decide)
    | some elements => cases elements <;> exact iff_of_true rfl fun _ => rfl
  · rw [if_neg hlist, if_neg hlist]
    exact iff_of_true rfl fun h => absurd h hlist

/-- The statements of the settings. -/
theorem readsAs_settings_iff (name : String) (attributes : List RoleAttribute) :
    List.Forall₂ ReadsAs (attributes.filterMap (attributeStatement name))
        (attributes.filterMap fun a => (settingNames name a).map some) ↔
      ∀ parameter value, .setConfig parameter value ∈ attributes →
        isListQuoteParameter parameter = true → (splitGucList value).isSome = true := by
  induction attributes with
  | nil => exact iff_of_true List.Forall₂.nil fun _ _ h => absurd h List.not_mem_nil
  | cons a attributes ih =>
      -- an attribute without a statement of its own changes neither side
      have hskip : (∀ parameter value, .setConfig parameter value ∈ a :: attributes →
            isListQuoteParameter parameter = true → (splitGucList value).isSome = true) ↔
          (∀ parameter value, a = .setConfig parameter value →
            isListQuoteParameter parameter = true → (splitGucList value).isSome = true) ∧
          ∀ parameter value, .setConfig parameter value ∈ attributes →
            isListQuoteParameter parameter = true → (splitGucList value).isSome = true := by
        simp only [List.mem_cons]
        constructor
        · exact fun h => ⟨fun p v heq => h p v (.inl heq.symm), fun p v hmem => h p v (.inr hmem)⟩
        · rintro ⟨hhead, htail⟩ p v (heq | hmem)
          · exact hhead p v heq.symm
          · exact htail p v hmem
      rw [hskip, ← ih]
      cases a with
      | setConfig parameter value =>
          change List.Forall₂ ReadsAs (renderSetConfig name parameter value :: _)
            (settingNames name (.setConfig parameter value) :: _) ↔ _
          rw [List.forall₂_cons, readsAs_setConfig_iff]
          apply and_congr_left'
          constructor
          · intro h p v heq
            obtain ⟨rfl, rfl⟩ := RoleAttribute.setConfig.inj heq
            exact h
          · exact fun h => h parameter value rfl
      | resetConfig parameter =>
          have hwritten : WrittenFrom
              ("ALTER ROLE " ++ quoteIdent name ++ " RESET " ++ quoteIdent parameter ++ ";")
              [textPiece "ALTER ROLE ", identPiece name, textPiece " RESET ",
                identPiece parameter] := {
            text := by simp [piecesText]
            spaced := rfl
            clean := rfl }
          change List.Forall₂ ReadsAs (_ :: _) (some [nameToken name, nameToken parameter] :: _) ↔ _
          rw [List.forall₂_cons]
          apply and_congr_left'
          exact iff_of_true (hwritten.readsAs rfl) fun p v heq => by cases heq
      | _ => exact (and_iff_right fun p v heq => by cases heq).symm

/-! ## Memberships and default privileges -/

theorem plainText_memberOptionsClause (inherit admin : Bool) (ctx : SqlContext) :
    plainText (memberOptionsClause inherit admin ctx) = true := by
  unfold memberOptionsClause
  cases ctx.supportsGrantWithOptions <;> cases inherit <;> cases admin <;> decide

theorem plainText_increasedOptions (inherit admin : Option Bool)
    (binding : Option MembershipOptionBinding) :
    plainText (", ".intercalate (increasedOptions inherit admin binding)) = true := by
  unfold increasedOptions
  have hall : ∀ (creates : Bool) (inherit admin : Option Bool), plainText (", ".intercalate
      ((if inherit = some true then ["INHERIT TRUE"] else []) ++
      (if admin = some true then ["ADMIN TRUE"] else []) ++
      (if creates then (if inherit.isNone then ["INHERIT FALSE"] else []) ++ ["SET FALSE"]
      else []))) = true := by decide
  exact hall (createsEdge binding) inherit admin

theorem readsAs_addMember (role member : String) {clause : String}
    (hclause : plainText clause = true) :
    ReadsAs ("GRANT " ++ quoteIdent role ++ " TO " ++ quoteIdent member ++ clause ++ ";")
      (some [nameToken role, nameToken member]) := by
  have hwritten : WrittenFrom
      ("GRANT " ++ quoteIdent role ++ " TO " ++ quoteIdent member ++ clause ++ ";")
      ([textPiece "GRANT ", identPiece role, textPiece " TO ", identPiece member] ++
        [textPiece clause]) := {
    text := by simp [piecesText]
    spaced := by
      rw [wellSpaced_append, wellSpaced_text hclause]
      rfl
    clean := by
      rw [List.all_append, clean_text hclause]
      rfl }
  exact hwritten.readsAs rfl

/-- Taking an option quotes the two roles and the grantor. -/
theorem readsAs_revokeOption (option role member grantor : String)
    (hoption : plainText option = true) :
    ReadsAs (revokeOptionSql option role member grantor)
      (some [nameToken role, nameToken member, nameToken grantor]) := by
  have hwritten : WrittenFrom (revokeOptionSql option role member grantor)
      ([textPiece "REVOKE "] ++ ([textPiece option] ++ [textPiece " OPTION FOR ", identPiece role,
        textPiece " FROM ", identPiece member, textPiece " GRANTED BY ", identPiece grantor,
        textPiece " RESTRICT"])) := {
    text := by simp [revokeOptionSql, piecesText]
    spaced := by
      have hrest : ∀ ready, wellSpaced ready [textPiece " OPTION FOR ", identPiece role,
          textPiece " FROM ", identPiece member, textPiece " GRANTED BY ", identPiece grantor,
          textPiece " RESTRICT"] = true := by
        intro ready
        cases ready <;> rfl
      rw [wellSpaced_append, wellSpaced_append, hrest, wellSpaced_text hoption]
      rfl
    clean := by
      rw [List.all_append, List.all_append, clean_text hoption]
      rfl }
  exact hwritten.readsAs rfl

/-- Giving options quotes the two roles and the grantor. -/
theorem readsAs_increase (role member grantor : String) {options : String}
    (hoptions : plainText options = true) :
    ReadsAs ("GRANT " ++ quoteIdent role ++ " TO " ++ quoteIdent member ++ " WITH " ++ options ++
        " GRANTED BY " ++ quoteIdent grantor ++ ";")
      (some [nameToken role, nameToken member, nameToken grantor]) := by
  have hwritten : WrittenFrom ("GRANT " ++ quoteIdent role ++ " TO " ++ quoteIdent member ++
        " WITH " ++ options ++ " GRANTED BY " ++ quoteIdent grantor ++ ";")
      ([textPiece "GRANT ", identPiece role, textPiece " TO ", identPiece member,
        textPiece " WITH "] ++ ([textPiece options] ++
        [textPiece " GRANTED BY ", identPiece grantor])) := {
    text := by simp [piecesText]
    spaced := by
      have hrest : ∀ ready, wellSpaced ready [textPiece " GRANTED BY ", identPiece grantor] =
          true := by
        intro ready
        cases ready <;> rfl
      rw [wellSpaced_append, wellSpaced_append, hrest, wellSpaced_text hoptions]
      rfl
    clean := by
      rw [List.all_append, List.all_append, clean_text hoptions]
      rfl }
  exact hwritten.readsAs rfl

/-- The pieces of a default privilege before its verb. -/
def defaultPieces (key : DefaultPrivKey) : List SqlPiece :=
  [textPiece "ALTER DEFAULT PRIVILEGES FOR ROLE ", identPiece key.owner] ++
    (key.scope.schema?.toList.flatMap fun schema =>
      [textPiece " IN SCHEMA ", identPiece schema]) ++ [textPiece " "]

theorem standing_default (key : DefaultPrivKey) :
    Standing ("ALTER DEFAULT PRIVILEGES FOR ROLE " ++ quoteIdent key.owner ++
      renderDefaultPrivilegeScopeClause key.scope ++ " ") (defaultPieces key) where
  text := by
    unfold defaultPieces
    cases key.scope <;>
      simp [piecesText, DefaultPrivilegeScope.schema?, renderDefaultPrivilegeScopeClause]
  spaced := by
    unfold defaultPieces
    cases key.scope <;> rfl
  clean := by
    unfold defaultPieces
    cases key.scope <;> rfl

theorem readyAfter_defaultPieces (key : DefaultPrivKey) :
    readyAfterAll true (defaultPieces key) = true := by
  unfold defaultPieces
  cases key.scope <;> rfl

theorem quoted_defaultPieces (key : DefaultPrivKey) :
    (defaultPieces key).flatMap SqlPiece.quoted =
      nameToken key.owner :: key.scope.schema?.toList.map nameToken := by
  unfold defaultPieces
  cases key.scope <;> rfl

/-- A default-privilege statement quotes the owner, the schema and the grantee. -/
theorem readsAs_defaultPrivilege {verb subjectPreposition typeKeyword : String}
    (hverb : plainText verb = true) (hprep : plainText subjectPreposition = true)
    (hkeyword : plainText typeKeyword = true) (key : DefaultPrivKey)
    (privileges : Finset Privilege) :
    ReadsAs ("ALTER DEFAULT PRIVILEGES FOR ROLE " ++ quoteIdent key.owner ++
        renderDefaultPrivilegeScopeClause key.scope ++ " " ++ verb ++ " " ++
        formatPrivileges privileges ++ " ON " ++ typeKeyword ++ " " ++ subjectPreposition ++ " " ++
        renderGrantee key.grantee ++ ";")
      (some (defaultPrivilegeNames key)) := by
  have hkeywordStanding : Standing typeKeyword [textPiece typeKeyword] :=
    ⟨by simp [piecesText], wellSpaced_text hkeyword true, clean_text hkeyword⟩
  have hlead := standing_lead hverb (plainText_formatPrivileges privileges) hkeywordStanding
  have hdefault := standing_default key
  have hwritten : WrittenFrom ("ALTER DEFAULT PRIVILEGES FOR ROLE " ++ quoteIdent key.owner ++
        renderDefaultPrivilegeScopeClause key.scope ++ " " ++ verb ++ " " ++
        formatPrivileges privileges ++ " ON " ++ typeKeyword ++ " " ++ subjectPreposition ++ " " ++
        renderGrantee key.grantee ++ ";")
      (defaultPieces key ++ (leadPieces verb (formatPrivileges privileges)
        [textPiece typeKeyword] ++ trailPieces subjectPreposition key.grantee)) := {
    text := by
      rw [piecesText_append, piecesText_append, piecesText_trail, ← hlead.text, ← hdefault.text]
      simp
    spaced := by
      rw [wellSpaced_append, wellSpaced_append, hdefault.spaced, readyAfter_defaultPieces,
        hlead.spaced, wellSpaced_trail key.grantee hprep]
      rfl
    clean := by
      rw [List.all_append, List.all_append, hdefault.clean, hlead.clean,
        clean_trail key.grantee hprep]
      rfl }
  apply hwritten.readsAs
  rw [List.flatMap_append, List.flatMap_append, quoted_lead, quoted_trail, quoted_defaultPieces]
  rfl

theorem readsAs_renderDefaultPrivilege {verb subjectPreposition : String}
    (hverb : plainText verb = true) (hprep : plainText subjectPreposition = true)
    {key : DefaultPrivKey} {privileges : Finset Privilege} {statements : List String}
    (h : renderDefaultPrivilege verb subjectPreposition key privileges = some statements) :
    List.Forall₂ ReadsAs statements [some (defaultPrivilegeNames key)] := by
  obtain ⟨typeKeyword, htype, rfl⟩ := Option.map_eq_some_iff.1 h
  have hkeyword : plainText typeKeyword = true := by
    cases htarget : key.onType <;> rw [htarget] at htype <;> cases htype <;> decide
  exact .cons (readsAs_defaultPrivilege hverb hprep hkeyword key privileges) .nil

/-! ## Changes -/

theorem readsAs_singleton {sql : String} {names : Option (List SqlToken)} (h : ReadsAs sql names) :
    List.Forall₂ ReadsAs [sql] [names] := .cons h .nil

/-- An optional statement. -/
theorem readsAs_ite {p : Prop} [Decidable p] {sql : String} {names : Option (List SqlToken)}
    (h : ReadsAs sql names) :
    List.Forall₂ ReadsAs (if p then [sql] else []) (if p then [names] else []) := by
  split
  · exact readsAs_singleton h
  · exact .nil

/-- The comment on a role quotes the role and the comment. -/
theorem readsAs_setComment (name : String) (comment : Option String) :
    List.Forall₂ ReadsAs (renderSetComment name comment)
      [some (nameToken name :: comment.toList.map valueToken)] := by
  cases comment with
  | none =>
      have hwritten : WrittenFrom ("COMMENT ON ROLE " ++ quoteIdent name ++ " IS NULL;")
          [textPiece "COMMENT ON ROLE ", identPiece name, textPiece " IS NULL"] := {
        text := by simp [piecesText]
        spaced := rfl
        clean := rfl }
      exact readsAs_singleton (hwritten.readsAs rfl)
  | some text =>
      have hwritten : WrittenFrom
          ("COMMENT ON ROLE " ++ quoteIdent name ++ " IS " ++ quoteLiteral text ++ ";")
          [textPiece "COMMENT ON ROLE ", identPiece name, textPiece " IS ", literalPiece text] := {
        text := by simp [piecesText]
        spaced := rfl
        clean := rfl }
      exact readsAs_singleton (hwritten.readsAs rfl)

theorem readsAs_createRole (name : String) (state : RoleState) :
    List.Forall₂ ReadsAs (renderCreateRole name state)
      (some (nameToken name :: state.passwordValidUntil.toList.map valueToken) ::
        state.comment.toList.map fun text => some [nameToken name, valueToken text]) := by
  rw [renderCreateRole, createRoleOptions_eq, ← values_createdAttributes]
  refine .cons (readsAs_options (by decide) (by decide) name (createdAttributes state)) ?_
  cases state.comment with
  | none => exact .nil
  | some text => exact readsAs_setComment name (some text)

/-- The creation of a schema quotes its name and its owner. -/
theorem readsAs_createSchema (name : String) (owner : Option String) :
    List.Forall₂ ReadsAs (renderCreateSchema name owner)
      [some (nameToken name :: owner.toList.map nameToken)] := by
  cases owner with
  | none =>
      have hwritten : WrittenFrom ("CREATE SCHEMA " ++ quoteIdent name ++ ";")
          [textPiece "CREATE SCHEMA ", identPiece name] := {
        text := by simp [piecesText]
        spaced := rfl
        clean := rfl }
      exact readsAs_singleton (hwritten.readsAs rfl)
  | some owner =>
      have hwritten : WrittenFrom
          ("CREATE SCHEMA " ++ quoteIdent name ++ " AUTHORIZATION " ++ quoteIdent owner ++ ";")
          [textPiece "CREATE SCHEMA ", identPiece name, textPiece " AUTHORIZATION ",
            identPiece owner] := {
        text := by simp [piecesText]
        spaced := rfl
        clean := rfl }
      exact readsAs_singleton (hwritten.readsAs rfl)

theorem readsAs_alterRole_iff (name : String) (attributes : List RoleAttribute)
    (ctx : SqlContext) :
    List.Forall₂ ReadsAs (renderAlterRole name attributes)
        (unscopedNames ctx (.alterRole name attributes)) ↔
      Readable ctx (.alterRole name attributes) := by
  have hsettings := readsAs_settings_iff name attributes
  rw [← List.map_filterMap] at hsettings
  rw [Readable, ← hsettings, renderAlterRole, unscopedNames]
  split
  · rfl
  · have hoptions := @readsAs_options "ALTER ROLE " (by decide) (by decide) name attributes
    rw [List.singleton_append, List.singleton_append, List.forall₂_cons]
    exact and_iff_right hoptions

/-- The removal of a member quotes the two roles and the grantor. -/
theorem readsAs_removeMember (role member : String) (grantor : Option String) (ctx : SqlContext) :
    List.Forall₂ ReadsAs (removeMemberSql role member grantor ctx)
      [some (nameToken role :: nameToken member ::
        if ctx.supportsGrantWithOptions then grantor.toList.map nameToken else [])] := by
  have hplain : WrittenFrom ("REVOKE " ++ quoteIdent role ++ " FROM " ++ quoteIdent member ++ ";")
      [textPiece "REVOKE ", identPiece role, textPiece " FROM ", identPiece member] := {
    text := by simp [piecesText]
    spaced := rfl
    clean := rfl }
  unfold removeMemberSql
  cases grantor with
  | none =>
      have hnone : (if ctx.supportsGrantWithOptions then
          (none : Option String).toList.map nameToken else []) = [] := by split <;> rfl
      rw [hnone]
      exact readsAs_singleton (hplain.readsAs rfl)
  | some grantor =>
      simp only
      split
      · have hwritten : WrittenFrom ("REVOKE " ++ quoteIdent role ++ " FROM " ++
              quoteIdent member ++ " GRANTED BY " ++ quoteIdent grantor ++ ";")
            [textPiece "REVOKE ", identPiece role, textPiece " FROM ", identPiece member,
              textPiece " GRANTED BY ", identPiece grantor] := {
          text := by simp [piecesText]
          spaced := rfl
          clean := rfl }
        exact readsAs_singleton (hwritten.readsAs rfl)
      · exact readsAs_singleton (hplain.readsAs rfl)

/-- The statements of a membership's options quote the two roles and the grantor. -/
theorem readsAs_updateMemberOptions (role member grantor : String) (inherit admin : Option Bool)
    (binding : Option MembershipOptionBinding) (ctx : SqlContext) :
    List.Forall₂ ReadsAs (updateMemberOptionsSql role member grantor inherit admin binding)
      (unscopedNames ctx (.updateMemberOptions role member grantor inherit admin binding)) := by
  unfold updateMemberOptionsSql unscopedNames
  refine List.rel_append (List.rel_append ?_ ?_) ?_
  · exact readsAs_ite (readsAs_revokeOption "INHERIT" role member grantor (by decide))
  · exact readsAs_ite (readsAs_revokeOption "ADMIN" role member grantor (by decide))
  · exact readsAs_ite (readsAs_increase role member grantor
      (plainText_increasedOptions inherit admin binding))

/-- The statements of a change are read as written exactly when it is readable. -/
theorem readsAs_unscoped_iff {ctx : SqlContext} {c : Change} {statements : List String}
    (h : renderUnscopedStatements ctx c = some statements) :
    List.Forall₂ ReadsAs statements (unscopedNames ctx c) ↔ Readable ctx c := by
  cases c <;> simp only [renderUnscopedStatements, Option.some.injEq] at h <;> try subst h
  case createRole name state => exact iff_of_true (readsAs_createRole name state) trivial
  case createSchema name owner => exact iff_of_true (readsAs_createSchema name owner) trivial
  case alterSchemaOwner name owner =>
    have hwritten : WrittenFrom
        ("ALTER SCHEMA " ++ quoteIdent name ++ " OWNER TO " ++ quoteIdent owner ++ ";")
        [textPiece "ALTER SCHEMA ", identPiece name, textPiece " OWNER TO ", identPiece owner] := {
      text := by simp [piecesText]
      spaced := rfl
      clean := rfl }
    exact iff_of_true (readsAs_singleton (hwritten.readsAs rfl)) trivial
  case ensureSchemaOwnerPrivileges name owner privileges =>
    refine iff_of_true ?_ trivial
    apply (readsAs_privileges_iff (by decide) (ownerKey name owner) privileges ctx).2
    intro target htarget
    rw [List.mem_singleton.1 htarget]
    trivial
  case alterRole name attributes => exact readsAs_alterRole_iff name attributes ctx
  case setComment name comment => exact iff_of_true (readsAs_setComment name comment) trivial
  case grant key privileges => exact readsAs_privileges_iff (by decide) key privileges ctx
  case revoke key privileges grantor => exact readsAs_privileges_iff (by decide) key privileges ctx
  case setDefaultPrivilege key privileges =>
    exact iff_of_true (readsAs_renderDefaultPrivilege (by decide) (by decide) h) trivial
  case revokeDefaultPrivilege key privileges =>
    exact iff_of_true (readsAs_renderDefaultPrivilege (by decide) (by decide) h) trivial
  case addMember role member inherit admin =>
    exact iff_of_true (readsAs_singleton (readsAs_addMember role member
      (plainText_memberOptionsClause inherit admin ctx))) trivial
  case updateMemberOptions role member grantor inherit admin binding =>
    exact iff_of_true (readsAs_updateMemberOptions role member grantor inherit admin binding ctx)
      trivial
  case removeMember role member grantor =>
    exact iff_of_true (readsAs_removeMember role member grantor ctx) trivial
  case reassignOwned fromRole toRole =>
    have hwritten : WrittenFrom
        ("REASSIGN OWNED BY " ++ quoteIdent fromRole ++ " TO " ++ quoteIdent toRole ++ ";")
        [textPiece "REASSIGN OWNED BY ", identPiece fromRole, textPiece " TO ",
          identPiece toRole] := {
      text := by simp [piecesText]
      spaced := rfl
      clean := rfl }
    exact iff_of_true (readsAs_singleton (hwritten.readsAs rfl)) trivial
  case dropOwned role =>
    have hwritten : WrittenFrom ("DROP OWNED BY " ++ quoteIdent role ++ ";")
        [textPiece "DROP OWNED BY ", identPiece role] := {
      text := by simp [piecesText]
      spaced := rfl
      clean := rfl }
    exact iff_of_true (readsAs_singleton (hwritten.readsAs rfl)) trivial
  case terminateSessions role =>
    have hwritten : WrittenFrom
        ("SELECT pg_terminate_backend(pid) FROM pg_stat_activity WHERE usename = " ++
          quoteLiteral role ++ " AND pid <> pg_backend_pid();")
        [textPiece "SELECT pg_terminate_backend(pid) FROM pg_stat_activity WHERE usename = ",
          literalPiece role, textPiece " AND pid <> pg_backend_pid()"] := {
      text := by simp [piecesText]
      spaced := rfl
      clean := rfl }
    exact iff_of_true (readsAs_singleton (hwritten.readsAs rfl)) trivial
  case setPassword name password =>
    have hwritten : WrittenFrom
        ("ALTER ROLE " ++ quoteIdent name ++ " PASSWORD " ++ quoteLiteral password ++ ";")
        [textPiece "ALTER ROLE ", identPiece name, textPiece " PASSWORD ",
          literalPiece password] := {
      text := by simp [piecesText]
      spaced := rfl
      clean := rfl }
    exact iff_of_true (readsAs_singleton (hwritten.readsAs rfl)) trivial
  case dropRole name =>
    have hwritten : WrittenFrom ("DROP ROLE IF EXISTS " ++ quoteIdent name ++ ";")
        [textPiece "DROP ROLE IF EXISTS ", identPiece name] := {
      text := by simp [piecesText]
      spaced := rfl
      clean := rfl }
    exact iff_of_true (readsAs_singleton (hwritten.readsAs rfl)) trivial

/-! ## Changes rendered by themselves -/

theorem readsAs_setRole (role : String) : ReadsAs (setRoleSql role) (some [nameToken role]) := by
  have hwritten : WrittenFrom (setRoleSql role) [textPiece "SET ROLE ", identPiece role] := {
    text := by simp [setRoleSql, piecesText]
    spaced := rfl
    clean := rfl }
  exact hwritten.readsAs rfl

theorem readsAs_restore (ctx : SqlContext) :
    ReadsAs (restoreSql ctx) (some (restoreNames ctx)) := by
  unfold restoreSql restoreNames
  cases ctx.executionRole with
  | none =>
      have hwritten : WrittenFrom resetRoleSql [textPiece "RESET ROLE"] := {
        text := by decide
        spaced := rfl
        clean := rfl }
      exact hwritten.readsAs rfl
  | some role => exact readsAs_setRole role

/-- The statements of a change rendered by itself stand between its role switches. -/
theorem statements_renderStatements {ctx : SqlContext} {c : Change} {statements : List String}
    (h : renderStatementsWithContext c ctx = .ok statements) :
    ∃ unscoped, renderUnscopedStatements ctx c = some unscoped ∧
      statements = if unscoped.isEmpty then [] else
        (switchStatements ctx none (actingGrantor c)).map (·.sql) ++ (unscoped ++
          (switchStatements ctx (actingGrantor c) none).map (·.sql)) := by
  rw [renderStatementsWithContext, renderBatchWithContext, not_replacesUnattributed_singleton,
    Bool.and_false, renderBatchFrom] at h
  cases hchange : renderChange ctx c with
  | error e =>
      rw [hchange] at h
      cases h
  | ok unscoped =>
      rw [hchange] at h
      refine ⟨unscoped, unscoped_of_renderChange hchange, ?_⟩
      cases unscoped with
      | nil =>
          have hnone : Except.ok [] = Except.ok statements := h
          exact (Except.ok.inj hnone).symm
      | cons sql unscoped =>
          have hsome : Except.ok (((switchStatements ctx none (actingGrantor c) ++
              (sql :: unscoped).map (redactedStatement c)) ++
                switchStatements ctx (actingGrantor c) none).map (·.sql)) =
            Except.ok statements := h
          rw [← Except.ok.inj hsome, List.map_append, List.map_append, sql_redactedStatement,
            List.append_assoc]
          rfl

/-- Statements between two others. -/
theorem readsAs_between_iff {first last : String} {names names' : List SqlToken}
    (hfirst : ReadsAs first (some names)) (hlast : ReadsAs last (some names'))
    (statements : List String) (inner : List (Option (List SqlToken))) :
    List.Forall₂ ReadsAs ([first] ++ (statements ++ [last]))
        (some names :: inner ++ [some names']) ↔
      List.Forall₂ ReadsAs statements inner := by
  rw [List.singleton_append, List.cons_append, List.forall₂_cons, and_iff_right hfirst]
  constructor
  · intro h
    have hlength : statements.length = inner.length := by
      have hall := h.length_eq
      simpa using hall
    have htake := List.forall₂_take_append _ _ _ h
    rwa [← hlength, List.take_left] at htake
  · exact fun h => List.rel_append h (readsAs_singleton hlast)

/-- Every statement that a change renders to is one statement, read as exactly the names and values
of the change, if and only if the change is readable: no name of a block spells the block's
delimiter, no list setting has an unterminated quote, and the argument list of a signature can be
read by itself. -/
theorem renderStatements_readsAs_iff {c : Change} {ctx : SqlContext} {statements : List String}
    (h : renderStatementsWithContext c ctx = .ok statements) :
    List.Forall₂ ReadsAs statements (statementNames ctx c) ↔ Readable ctx c := by
  obtain ⟨unscoped, hunscoped, rfl⟩ := statements_renderStatements h
  rw [← readsAs_unscoped_iff hunscoped]
  unfold statementNames
  cases hgrantor : actingGrantor c with
  | none =>
      have hsame : (if unscoped.isEmpty then [] else
          (switchStatements ctx none none).map (·.sql) ++ (unscoped ++
            (switchStatements ctx none none).map (·.sql))) = unscoped := by
        cases unscoped with
        | nil => rfl
        | cons sql unscoped => simp [switchStatements]
      rw [hsame]
  | some grantor =>
      simp only
      -- a change without statements switches nothing, and its names are none either
      by_cases hempty : unscoped = []
      · rw [hempty]
        cases unscopedNames ctx c with
        | nil => rfl
        | cons names inner => exact iff_of_false nofun nofun
      · have hswitch : (if unscoped.isEmpty then [] else
            (switchStatements ctx none (some grantor)).map (·.sql) ++ (unscoped ++
              (switchStatements ctx (some grantor) none).map (·.sql))) =
            [setRoleSql grantor] ++ (unscoped ++ [restoreSql ctx]) := by
          rw [if_neg (by simpa using hempty)]
          rfl
        rw [hswitch]
        cases hnames : unscopedNames ctx c with
        | nil =>
            refine iff_of_false nofun ?_
            intro hall
            exact hempty (List.forall₂_nil_right_iff.1 hall)
        | cons names inner =>
            exact readsAs_between_iff (readsAs_setRole grantor) (readsAs_restore ctx) unscoped
              (names :: inner)

/-! ### A schema with quotes, and one with the delimiter -/

/-- All tables of a schema without an inventory, revoked as `owner`. -/
def revokeAllTables (schemaName : String) : Change :=
  .revoke ⟨.role "o'reilly", .table, some schemaName, some "*"⟩ {.select} (some "owner")

theorem quotedSchema_readsAs :
    ∃ statements, renderStatementsWithContext (revokeAllTables "it's \"mine\"; $1") {} =
        .ok statements ∧ statements.length = 3 ∧
      List.Forall₂ ReadsAs statements
        (statementNames {} (revokeAllTables "it's \"mine\"; $1")) := by
  refine ⟨_, rfl, rfl, (renderStatements_readsAs_iff rfl).2 ?_⟩
  have htargets : ∀ target ∈ privilegeTargets true (.role "o'reilly") .table
      (some "it's \"mine\"; $1") (some "*") {},
      target = .block .table "it's \"mine\"; $1" := by
    intro target htarget
    exact List.mem_singleton.1 htarget
  intro target htarget
  rw [htargets target htarget]
  refine ⟨by decide, fun name hname => ?_⟩
  rw [← Option.some.inj hname]
  decide

/-- A schema whose name spells the delimiter of the block ends the block: what is rendered is no
statement at all. -/
theorem delimiterSchema_notStatement :
    ∃ statements, renderStatementsWithContext (revokeAllTables "a$pgroles$b") {} =
        .ok statements ∧
      ∃ sql ∈ statements, ∀ quoted, ¬ IsStatement sql.toList quoted := by
  refine ⟨_, rfl, _, List.mem_cons_of_mem _ List.mem_cons_self, ?_⟩
  exact not_isStatement_block true (.role "o'reilly") .table "a$pgroles$b" (by decide)
    (plainText_formatPrivileges _) (by decide) (by decide)

end PgRoles.Sql

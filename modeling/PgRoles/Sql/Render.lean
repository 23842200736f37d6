import PgRoles.Lib.SqlLex
import PgRoles.Core.Approval
import PgRoles.Core.Guc
import PgRoles.Sql.Membership
import PgRoles.Sql.Target

/-!
# Rendering changes to SQL

Each change renders to statements, and an ordered plan to one batch in which consecutive revokes of
one grantor share a role switch. The server's version decides the syntax of membership options, and
the inventory of a schema's objects how a wildcard is written; without an inventory a wildcard on
relations becomes a `DO` block that lists the relations itself.

Default privileges on a database reach an `unreachable!` of the source: such a change has no
statements here, and a batch with it fails.
-/

set_option autoImplicit false

namespace PgRoles.Sql

open Std PgRoles.Lib PgRoles.Core

/-- What rendering depends on besides the changes. -/
structure SqlContext where
  pgMajorVersion : Int := 16
  /-- Objects of each (type, schema), to expand wildcards with. -/
  objectInventory : BTreeMap (ObjectType × String) (List String) := ∅
  /-- Relations owned by each role; a wildcard revoke skips them. -/
  ownedRelations : BTreeSet (String × ObjectType × String × String) := ∅
  /-- The role the connection runs as, when it differs from the login role. -/
  executionRole : Option String := none

/-- Does the connected server read `GRANT … WITH INHERIT …`? -/
def SqlContext.supportsGrantWithOptions (ctx : SqlContext) : Bool :=
  Sql.supportsGrantWithOptions ctx.pgMajorVersion.toNat

/-- PUBLIC owns nothing. -/
def SqlContext.granteeOwnsRelation (ctx : SqlContext) (role : Grantee) (objectType : ObjectType)
    (schema name : String) : Bool :=
  match role with
  | .role roleName => ctx.ownedRelations.contains (roleName, objectType, schema, name)
  | .publicRole => false

/-! ## Parts of statements -/

/-- A string literal: single quotes around the text, and those in it doubled. -/
def quoteLiteral (value : String) : String := String.ofList (inQuotes '\'' value.toList)

/-- PUBLIC stays unquoted: in quotes it would name an ordinary role. -/
def renderGrantee : Grantee → String
  | .publicRole => publicRoleName
  | .role name => quoteIdent name

/-- One of the two keywords of a Boolean attribute. -/
def boolOption (positive negative : String) (value : Bool) : String :=
  if value then positive else negative

/-- The privileges of a set in display order. -/
def formatPrivileges (privileges : Finset Privilege) : String :=
  ", ".intercalate ((Privilege.inOrder.filter (· ∈ privileges)).map Privilege.display)

/-- The target of a privilege on one routine; without a schema it is in `public`. -/
def formatFunctionTarget (schema : Option String) (functionName : String) : String :=
  "ROUTINE " ++ qualifiedFunctionName (schema.getD "public") functionName

theorem toList_quoteIdent (identifier : String) :
    (quoteIdent identifier).toList = inQuotes '"' identifier.toList :=
  String.toList_ofList

theorem toList_quoteLiteral (value : String) :
    (quoteLiteral value).toList = inQuotes '\'' value.toList :=
  String.toList_ofList

/-! ## Schemas and roles -/

/-- The statement that creates a schema, for its owner where one is given. -/
def renderCreateSchema (name : String) : Option String → List String
  | some owner =>
      ["CREATE SCHEMA " ++ quoteIdent name ++ " AUTHORIZATION " ++ quoteIdent owner ++ ";"]
  | none => ["CREATE SCHEMA " ++ quoteIdent name ++ ";"]

/-- The statement that hands a schema to a new owner. -/
def renderAlterSchemaOwner (name owner : String) : List String :=
  ["ALTER SCHEMA " ++ quoteIdent name ++ " OWNER TO " ++ quoteIdent owner ++ ";"]

/-- The options of `CREATE ROLE`; an unlimited role and one that never expires have none for it. -/
def createRoleOptions (state : RoleState) : List String :=
  [boolOption "LOGIN" "NOLOGIN" state.login,
    boolOption "SUPERUSER" "NOSUPERUSER" state.superuser,
    boolOption "CREATEDB" "NOCREATEDB" state.createdb,
    boolOption "CREATEROLE" "NOCREATEROLE" state.createrole,
    boolOption "INHERIT" "NOINHERIT" state.inherit,
    boolOption "REPLICATION" "NOREPLICATION" state.replication,
    boolOption "BYPASSRLS" "NOBYPASSRLS" state.bypassrls] ++
  (if state.connectionLimit = -1 then []
    else ["CONNECTION LIMIT " ++ toString state.connectionLimit]) ++
  match state.passwordValidUntil with
  | some validUntil => ["VALID UNTIL " ++ quoteLiteral validUntil]
  | none => []

/-- The statement that sets a role's comment, or clears it. -/
def renderSetComment (name : String) : Option String → List String
  | some text => ["COMMENT ON ROLE " ++ quoteIdent name ++ " IS " ++ quoteLiteral text ++ ";"]
  | none => ["COMMENT ON ROLE " ++ quoteIdent name ++ " IS NULL;"]

/-- The settings of a created role are not rendered with it. -/
def renderCreateRole (name : String) (state : RoleState) : List String :=
  ("CREATE ROLE " ++ quoteIdent name ++ " " ++ " ".intercalate (createRoleOptions state) ++ ";") ::
    match state.comment with
    | some comment => renderSetComment name (some comment)
    | none => []

/-- The option of an attribute; settings are statements of their own. -/
def attributeOption : RoleAttribute → Option String
  | .login v => some (boolOption "LOGIN" "NOLOGIN" v)
  | .superuser v => some (boolOption "SUPERUSER" "NOSUPERUSER" v)
  | .createdb v => some (boolOption "CREATEDB" "NOCREATEDB" v)
  | .createrole v => some (boolOption "CREATEROLE" "NOCREATEROLE" v)
  | .inherit v => some (boolOption "INHERIT" "NOINHERIT" v)
  | .replication v => some (boolOption "REPLICATION" "NOREPLICATION" v)
  | .bypassrls v => some (boolOption "BYPASSRLS" "NOBYPASSRLS" v)
  | .connectionLimit v => some ("CONNECTION LIMIT " ++ toString v)
  | .validUntil (some ts) => some ("VALID UNTIL " ++ quoteLiteral ts)
  | .validUntil none => some "VALID UNTIL 'infinity'"
  | .setConfig .. | .resetConfig .. => none

/-- The elements of a list parameter as one literal each; no element, or a list whose quotes do not
match, is the empty literal. -/
def renderListValue (value : String) : String :=
  let elements := (splitGucList value).getD []
  if elements.isEmpty then quoteLiteral "" else ", ".intercalate (elements.map quoteLiteral)

/-- The statement that sets a role's default of a parameter; a list parameter is written element by
element. -/
def renderSetConfig (name parameter value : String) : String :=
  "ALTER ROLE " ++ quoteIdent name ++ " SET " ++ quoteIdent parameter ++ " = " ++
    (if isListQuoteParameter parameter then renderListValue value else quoteLiteral value) ++ ";"

/-- The statement of a setting. -/
def attributeStatement (name : String) : RoleAttribute → Option String
  | .setConfig parameter value => some (renderSetConfig name parameter value)
  | .resetConfig parameter =>
      some ("ALTER ROLE " ++ quoteIdent name ++ " RESET " ++ quoteIdent parameter ++ ";")
  | _ => none

/-- One statement of the options, then one for each setting. -/
def renderAlterRole (name : String) (attributes : List RoleAttribute) : List String :=
  let options := attributes.filterMap attributeOption
  (if options.isEmpty then []
    else ["ALTER ROLE " ++ quoteIdent name ++ " " ++ " ".intercalate options ++ ";"]) ++
  attributes.filterMap (attributeStatement name)

/-! ## Object privileges -/

/-- One privilege statement: `GRANT … ON … TO …;` or `REVOKE … ON … FROM …;`. -/
def privilegeStatement (action privilegeList target subjectPreposition : String) (role : Grantee) :
    String :=
  action ++ " " ++ privilegeList ++ " ON " ++ target ++ " " ++ subjectPreposition ++ " " ++
    renderGrantee role ++ ";"

/-- The relation kinds of a type; other types are not relations and never get here. -/
def relationRelkindsSql : ObjectType → String
  | .table => "'r', 'p'"
  | .view => "'v'"
  | .materializedView => "'m'"
  | .sequence => "'S'"
  | _ => ""

/-- The relations a revoke in the block skips: those of the grantee. -/
def ownerFilter (skipOwned : Bool) : Grantee → String
  | .role roleName =>
      if skipOwned then "AND pg_get_userbyid(c.relowner) <> " ++ quoteLiteral roleName else ""
  | .publicRole => ""

/-- How the grantee stands in the format text of the block, and the argument for it. PUBLIC is
written out: as an argument it would name an ordinary role. -/
def granteeFormat : Grantee → String × String
  | .publicRole => (publicRoleName, "")
  | .role name => ("%I", ", " ++ quoteLiteral name)

/-- The block that lists the relations of a schema and runs the statement for each. -/
def wildcardBlock (action subjectPreposition : String) (role : Grantee) (privilegeList : String)
    (objectType : ObjectType) (schemaName : String) (skipOwned : Bool) : String :=
  "DO $pgroles$\nDECLARE obj record;\nBEGIN\n  FOR obj IN\n" ++
  "    SELECT n.nspname AS schema_name, c.relname AS object_name\n    FROM pg_class c\n" ++
  "    JOIN pg_namespace n ON n.oid = c.relnamespace\n    WHERE c.relkind IN (" ++
  relationRelkindsSql objectType ++ ")\n      AND n.nspname = " ++ quoteLiteral schemaName ++
  "\n      " ++ ownerFilter skipOwned role ++
  "\n    ORDER BY c.relname\n  LOOP\n    EXECUTE format('" ++
  action ++ " " ++ privilegeList ++ " ON " ++ sqlObjectTypeKeyword objectType ++ " %I.%I " ++
  subjectPreposition ++ " " ++ (granteeFormat role).1 ++
  ";', obj.schema_name, obj.object_name" ++ (granteeFormat role).2 ++
  ");\n  END LOOP;\nEND\n$pgroles$;"

/-- The target of one object of the inventory. -/
def inventoryTarget (objectType : ObjectType) (schemaName objectName : String) : String :=
  if objectType = .function then formatFunctionTarget (some schemaName) objectName
  else
    sqlObjectTypeKeyword objectType ++ " " ++ quoteIdent schemaName ++ "." ++ quoteIdent objectName

/-- A wildcard: in the compact form where the owner does not matter or no inventory lists the
routines, object by object where an inventory lists them, and as a block otherwise. -/
def renderWildcardExpanded (action subjectPreposition : String) (role : Grantee)
    (privilegeList : String) (objectType : ObjectType) (schema : Option String)
    (ctx : SqlContext) : List String :=
  let schemaName := schema.getD "public"
  let skipOwned := action == "REVOKE"
  let compact := [privilegeStatement action privilegeList
    (formatObjectTarget objectType schema (some wildcardName)) subjectPreposition role]
  if !skipOwned && (objectType == .sequence || objectType == .function) then compact
  else
    match ctx.objectInventory[(objectType, schemaName)]? with
    | some objectNames =>
        (objectNames.filter fun objectName =>
          !skipOwned || !ctx.granteeOwnsRelation role objectType schemaName objectName).map
        fun objectName => privilegeStatement action privilegeList
          (inventoryTarget objectType schemaName objectName) subjectPreposition role
    | none =>
        if objectType = .function then compact
        else
          [wildcardBlock action subjectPreposition role privilegeList objectType schemaName
            skipOwned]

/-- The types whose wildcard is expanded. -/
def expandsInSql : ObjectType → Bool
  | .table | .view | .materializedView | .sequence | .function => true
  | _ => false

/-- The statements of a grant or a revoke. A wildcard that SQL has no spelling for is expanded over
the inventory. -/
def renderPrivilegeStatements (action : String) (role : Grantee) (privilegeList : String)
    (objectType : ObjectType) (schema name : Option String) (ctx : SqlContext) : List String :=
  let subjectPreposition := if action = "GRANT" then "TO" else "FROM"
  if expandsInSql objectType && name == some wildcardName then
    renderWildcardExpanded action subjectPreposition role privilegeList objectType schema ctx
  else
    [privilegeStatement action privilegeList (formatObjectTarget objectType schema name)
      subjectPreposition role]

/-- The statements that grant privileges on one target. -/
def renderGrant (key : GrantKey) (privileges : Finset Privilege) (ctx : SqlContext) :
    List String :=
  renderPrivilegeStatements "GRANT" key.role (formatPrivileges privileges) key.objectType
    key.schema key.name ctx

/-- The statements that revoke privileges on one target. -/
def renderRevoke (key : GrantKey) (privileges : Finset Privilege) (ctx : SqlContext) :
    List String :=
  renderPrivilegeStatements "REVOKE" key.role (formatPrivileges privileges) key.objectType
    key.schema key.name ctx

/-! ## Default privileges -/

/-- The keyword of `ALTER DEFAULT PRIVILEGES … ON`; there is none for databases. -/
def defaultPrivilegeObjectKeyword : ObjectType → Option String
  | .table | .view | .materializedView => some "TABLES"
  | .sequence => some "SEQUENCES"
  | .function => some "ROUTINES"
  | .type => some "TYPES"
  | .schema => some "SCHEMAS"
  | .database => none

/-- The clause that confines default privileges to a schema. -/
def renderDefaultPrivilegeScopeClause : DefaultPrivilegeScope → String
  | .global => ""
  | .schema schema => " IN SCHEMA " ++ quoteIdent schema

/-- Both directions differ in their verb and preposition. -/
def renderDefaultPrivilege (verb subjectPreposition : String) (key : DefaultPrivKey)
    (privileges : Finset Privilege) : Option (List String) :=
  (defaultPrivilegeObjectKeyword key.onType).map fun typeKeyword =>
    ["ALTER DEFAULT PRIVILEGES FOR ROLE " ++ quoteIdent key.owner ++
      renderDefaultPrivilegeScopeClause key.scope ++ " " ++ verb ++ " " ++
      formatPrivileges privileges ++ " ON " ++ typeKeyword ++ " " ++ subjectPreposition ++ " " ++
      renderGrantee key.grantee ++ ";"]

/-- The statement that grants default privileges. -/
def renderSetDefaultPrivilege : DefaultPrivKey → Finset Privilege → Option (List String) :=
  renderDefaultPrivilege "GRANT" "TO"

/-- The statement that revokes default privileges. -/
def renderRevokeDefaultPrivilege : DefaultPrivKey → Finset Privilege → Option (List String) :=
  renderDefaultPrivilege "REVOKE" "FROM"

/-! ## Memberships -/

/-- The clause of the options of a new membership, by version. -/
def memberOptionsClause (inherit admin : Bool) (ctx : SqlContext) : String :=
  if ctx.supportsGrantWithOptions then
    " WITH " ++ ", ".intercalate
      ((if inherit then "INHERIT TRUE" else "INHERIT FALSE") ::
        if admin then ["ADMIN TRUE"] else [])
  else if admin then " WITH ADMIN OPTION" else ""

/-- The statement that adds a member; before PostgreSQL 16 its options cannot be written out. -/
def addMemberSql (role member : String) (inherit admin : Bool) (ctx : SqlContext) : List String :=
  ["GRANT " ++ quoteIdent role ++ " TO " ++ quoteIdent member ++
    memberOptionsClause inherit admin ctx ++ ";"]

/-- The statement that removes a member, `GRANTED BY` its grantor where the server has that. -/
def removeMemberSql (role member : String) (grantor : Option String) (ctx : SqlContext) :
    List String :=
  let revoke := "REVOKE " ++ quoteIdent role ++ " FROM " ++ quoteIdent member
  match grantor with
  | some grantor =>
      if ctx.supportsGrantWithOptions then
        [revoke ++ " GRANTED BY " ++ quoteIdent grantor ++ ";"]
      else [revoke ++ ";"]
  | none => [revoke ++ ";"]

/-- The options one grant of increases names. A new edge contributes only the increases. -/
def increasedOptions (inherit admin : Option Bool) (binding : Option MembershipOptionBinding) :
    List String :=
  (if inherit = some true then ["INHERIT TRUE"] else []) ++
  (if admin = some true then ["ADMIN TRUE"] else []) ++
  (if createsEdge binding then
    (if inherit.isNone then ["INHERIT FALSE"] else []) ++ ["SET FALSE"]
  else [])

/-- Take one option away. -/
def revokeOptionSql (option role member grantor : String) : String :=
  "REVOKE " ++ option ++ " OPTION FOR " ++ quoteIdent role ++ " FROM " ++ quoteIdent member ++
    " GRANTED BY " ++ quoteIdent grantor ++ " RESTRICT;"

/-- Reductions first, then one grant of the increases. -/
def updateMemberOptionsSql (role member grantor : String) (inherit admin : Option Bool)
    (binding : Option MembershipOptionBinding) : List String :=
  (if inherit = some false then [revokeOptionSql "INHERIT" role member grantor] else []) ++
  (if admin = some false then [revokeOptionSql "ADMIN" role member grantor] else []) ++
  (if inherit = some true ∨ admin = some true then
    ["GRANT " ++ quoteIdent role ++ " TO " ++ quoteIdent member ++ " WITH " ++
      ", ".intercalate (increasedOptions inherit admin binding) ++ " GRANTED BY " ++
      quoteIdent grantor ++ ";"]
  else [])

/-! ## Changes -/

/-- The statements of a change, without role switches. -/
def renderUnscopedStatements (ctx : SqlContext) : Change → Option (List String)
  | .createRole name state => some (renderCreateRole name state)
  | .createSchema name owner => some (renderCreateSchema name owner)
  | .alterSchemaOwner name owner => some (renderAlterSchemaOwner name owner)
  | .ensureSchemaOwnerPrivileges name owner privileges =>
      some (renderGrant ⟨.role owner, .schema, none, some name⟩ privileges ctx)
  | .alterRole name attributes => some (renderAlterRole name attributes)
  | .setComment name comment => some (renderSetComment name comment)
  | .grant key privileges => some (renderGrant key privileges ctx)
  | .revoke key privileges _ => some (renderRevoke key privileges ctx)
  | .setDefaultPrivilege key privileges => renderSetDefaultPrivilege key privileges
  | .revokeDefaultPrivilege key privileges => renderRevokeDefaultPrivilege key privileges
  | .addMember role member inherit admin => some (addMemberSql role member inherit admin ctx)
  | .updateMemberOptions role member grantor inherit admin binding =>
      some (updateMemberOptionsSql role member grantor inherit admin binding)
  | .removeMember role member grantor => some (removeMemberSql role member grantor ctx)
  | .reassignOwned fromRole toRole =>
      some ["REASSIGN OWNED BY " ++ quoteIdent fromRole ++ " TO " ++ quoteIdent toRole ++ ";"]
  | .dropOwned role => some ["DROP OWNED BY " ++ quoteIdent role ++ ";"]
  | .terminateSessions role =>
      some ["SELECT pg_terminate_backend(pid) FROM pg_stat_activity WHERE usename = " ++
        quoteLiteral role ++ " AND pid <> pg_backend_pid();"]
  | .setPassword name password =>
      some ["ALTER ROLE " ++ quoteIdent name ++ " PASSWORD " ++ quoteLiteral password ++ ";"]
  | .dropRole name => some ["DROP ROLE IF EXISTS " ++ quoteIdent name ++ ";"]

/-- A statement to execute, and the same with passwords replaced, to show. -/
structure RenderedStatement where
  sql : String
  redactedSql : String
  deriving DecidableEq

/-- A statement without a password. -/
def RenderedStatement.plain (sql : String) : RenderedStatement := ⟨sql, sql⟩

/-- The display form of a statement of the change. -/
def redactedStatement (change : Change) (sql : String) : RenderedStatement :=
  match change with
  | .setPassword name _ =>
      ⟨sql, "ALTER ROLE " ++ quoteIdent name ++ " PASSWORD '[REDACTED]';"⟩
  | _ => .plain sql

/-- Why a batch has no statements: the renderer refuses a change, or runs into an `unreachable!`. -/
inductive RenderFailure where
  | refused (e : SqlRenderError)
  | unreachable
  deriving DecidableEq

/-- The role a change acts as: an object revoke acts on the current grantor's entry. -/
def actingGrantor : Change → Option String
  | .revoke _ _ grantor => grantor
  | _ => none

/-- The statement that assumes a role for what follows. -/
def setRoleSql (role : String) : String := "SET ROLE " ++ quoteIdent role ++ ";"

/-- The statement that returns to the session's own role. -/
def resetRoleSql : String := "RESET ROLE;"

/-- Return to the configured execution role, or to the login role. -/
def restoreSql (ctx : SqlContext) : String :=
  match ctx.executionRole with
  | some role => setRoleSql role
  | none => resetRoleSql

/-- The switches between two acting grantors. -/
def switchStatements (ctx : SqlContext) (active grantor : Option String) : List RenderedStatement :=
  if grantor = active then []
  else
    (if active.isSome then [.plain (restoreSql ctx)] else []) ++
      (grantor.toList.map fun role => .plain (setRoleSql role))

/-- The statements of one change, once it is validated. -/
def renderChange (ctx : SqlContext) (change : Change) : Except RenderFailure (List String) := do
  (validateMembershipOptions ctx.pgMajorVersion.toNat change).mapError .refused
  match renderUnscopedStatements ctx change with
  | some statements => .ok statements
  | none => .error .unreachable

/-- Render the changes from an acting grantor on. A change without statements switches nothing, and
the batch ends as it started. -/
def renderBatchFrom (ctx : SqlContext) :
    Option String → List Change → Except RenderFailure (List RenderedStatement)
  | active, [] => .ok (switchStatements ctx active none)
  | active, change :: rest => do
      let statements ← renderChange ctx change
      if statements.isEmpty then renderBatchFrom ctx active rest
      else
        let tail ← renderBatchFrom ctx (actingGrantor change) rest
        return switchStatements ctx active (actingGrantor change) ++
          statements.map (redactedStatement change) ++ tail

/-- Render an ordered plan. -/
def renderBatchWithContext (changes : List Change) (ctx : SqlContext) :
    Except RenderFailure (List RenderedStatement) := do
  rejectIf (ctx.supportsGrantWithOptions && replacesUnattributed changes)
    (.refused .unattributedMembershipReplacement)
  renderBatchFrom ctx none changes

/-- Render one change. -/
def renderStatementsWithContext (change : Change) (ctx : SqlContext) :
    Except RenderFailure (List String) :=
  (renderBatchWithContext [change] ctx).map (·.map (·.sql))

end PgRoles.Sql

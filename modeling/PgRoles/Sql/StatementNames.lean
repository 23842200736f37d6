import PgRoles.Lib.SqlArguments
import PgRoles.Lib.SqlDollar
import PgRoles.Sql.Pieces

/-!
# What a statement should be read as

The names and values that each statement of a change has, in order, taken from the change and the
context: the tokens a reader of the statement is to get back. A wildcard without an inventory is
written as a block, whose names and values stand in literals, next to the relation kinds and the
format text of the block. Where a change names a routine by its signature, the argument list is
written as it is, and its names and values are its own.

`Readable` is what the names and values of a change must keep for that.
-/

set_option autoImplicit false

namespace PgRoles.Sql

open Std PgRoles.Lib PgRoles.Core

/-- The statement is a single one, and its names and values are the ones given. -/
def ReadsAs (sql : String) (names : Option (List SqlToken)) : Prop :=
  ∃ quoted, names = some quoted ∧ IsStatement sql.toList quoted

/-! ## Targets of privileges -/

/-- What a privilege statement is about: a container or an object of it, all objects of a schema, a
routine, or the relations that a block lists. -/
inductive WrittenTarget where
  | named (objectType : ObjectType) (container : String) (object : Option String)
  | all (objectType : ObjectType) (schemaName : String)
  | routine (schemaName functionName : String)
  | block (objectType : ObjectType) (schemaName : String)

/-- The target of a statement that expands no wildcard. -/
def singleTarget (objectType : ObjectType) (schema name : Option String) : WrittenTarget :=
  match objectType with
  | .schema => .named .schema (name.getD "public") none
  | .database => .named .database (name.getD "postgres") none
  | .function =>
      match name with
      | some functionName =>
          if functionName = wildcardName then .all .function (schema.getD "public")
          else .routine (schema.getD "public") functionName
      | none => .named .function (schema.getD "public") none
  | objectType =>
      match name with
      | some objectName =>
          if objectName = wildcardName then .all objectType (schema.getD "public")
          else .named objectType (schema.getD "public") (some objectName)
      | none => .named objectType (schema.getD "public") none

/-- The targets of an expanded wildcard. -/
def wildcardTargets (skipOwned : Bool) (role : Grantee) (objectType : ObjectType)
    (schemaName : String) (ctx : SqlContext) : List WrittenTarget :=
  if !skipOwned && (objectType == .sequence || objectType == .function) then
    [.all objectType schemaName]
  else
    match ctx.objectInventory[(objectType, schemaName)]? with
    | some objectNames =>
        (objectNames.filter fun objectName =>
          !skipOwned || !ctx.granteeOwnsRelation role objectType schemaName objectName).map
        fun objectName =>
          if objectType = .function then .routine schemaName objectName
          else .named objectType schemaName (some objectName)
    | none =>
        if objectType = .function then [.all .function schemaName]
        else [.block objectType schemaName]

/-- The targets of a grant or a revoke. -/
def privilegeTargets (skipOwned : Bool) (role : Grantee) (objectType : ObjectType)
    (schema name : Option String) (ctx : SqlContext) : List WrittenTarget :=
  if expandsInSql objectType && name == some wildcardName then
    wildcardTargets skipOwned role objectType (schema.getD "public") ctx
  else [singleTarget objectType schema name]

/-- The relation kinds of a type. -/
def relationRelkinds : ObjectType → List String
  | .table => ["r", "p"]
  | .view => ["v"]
  | .materializedView => ["m"]
  | .sequence => ["S"]
  | _ => []

/-- The text the block formats a statement with. -/
def blockFormat (action privilegeList : String) (objectType : ObjectType)
    (subjectPreposition : String) (role : Grantee) : String :=
  action ++ " " ++ privilegeList ++ " ON " ++ sqlObjectTypeKeyword objectType ++ " %I.%I " ++
    subjectPreposition ++ " " ++ (granteeFormat role).1 ++ ";"

/-- The role of a grantee; PUBLIC is none. -/
def granteeRole : Grantee → Option String
  | .publicRole => none
  | .role name => some name

/-- The names of a routine. -/
def routineNames (schemaName functionName : String) : Option (List SqlToken) :=
  match functionSignature functionName with
  | some (baseName, args) =>
      (argumentNames args.toList).map fun names =>
        nameToken schemaName :: nameToken baseName :: names
  | none => some [nameToken schemaName, nameToken functionName]

/-- The names and values of a privilege statement. -/
def targetNames (action privilegeList subjectPreposition : String) (skipOwned : Bool)
    (role : Grantee) : WrittenTarget → Option (List SqlToken)
  | .named _ container object =>
      some (nameToken container :: object.toList.map nameToken ++
        (granteeRole role).toList.map nameToken)
  | .all _ schemaName =>
      some (nameToken schemaName :: (granteeRole role).toList.map nameToken)
  | .routine schemaName functionName =>
      (routineNames schemaName functionName).map fun names =>
        names ++ (granteeRole role).toList.map nameToken
  | .block objectType schemaName =>
      some ((relationRelkinds objectType).map valueToken ++ valueToken schemaName ::
        (if skipOwned then (granteeRole role).toList.map valueToken else []) ++
        valueToken (blockFormat action privilegeList objectType subjectPreposition role) ::
        (granteeRole role).toList.map valueToken)

/-- The body of a block ends where its delimiter stands. -/
def blockTag : String := "pgroles"

/-- The delimiter of the blocks occurs in the text. -/
def SpellsDelimiter (text : String) : Prop := delimiter blockTag.toList <:+: text.toList

instance (text : String) : Decidable (SpellsDelimiter text) :=
  inferInstanceAs (Decidable (delimiter blockTag.toList <:+: text.toList))

/-- The argument list of a signature is readable by itself, and a block has no name with its
delimiter. -/
def WrittenTarget.Readable (role : Grantee) : WrittenTarget → Prop
  | .routine _ functionName =>
      ∀ baseName args, functionSignature functionName = some (baseName, args) →
        ReadableArguments args.toList
  | .block _ schemaName =>
      ¬ SpellsDelimiter schemaName ∧ ∀ name, granteeRole role = some name → ¬ SpellsDelimiter name
  | _ => True

/-! ## Attributes -/

/-- The values among the options of a role. -/
def attributeValues : RoleAttribute → List SqlToken
  | .validUntil (some ts) => [valueToken ts]
  | .validUntil none => [valueToken "infinity"]
  | _ => []

/-- The elements of a setting; an empty list is written as the empty element, and a list with an
unterminated quote is one text. -/
def settingElements (parameter value : String) : List String :=
  if isListQuoteParameter parameter then
    match splitGucList value with
    | some [] => [""]
    | some elements => elements
    | none => [value]
  else [value]

/-- The names and values of the statement of a setting. -/
def settingNames (name : String) : RoleAttribute → Option (List SqlToken)
  | .setConfig parameter value =>
      some (nameToken name :: nameToken parameter ::
        (settingElements parameter value).map valueToken)
  | .resetConfig parameter => some [nameToken name, nameToken parameter]
  | _ => none

/-! ## Changes -/

/-- The names and values of a grant or a revoke. -/
def privilegeNames (action : String) (key : GrantKey) (privileges : Finset Privilege)
    (ctx : SqlContext) : List (Option (List SqlToken)) :=
  (privilegeTargets (action == "REVOKE") key.role key.objectType key.schema key.name ctx).map
    (targetNames action (formatPrivileges privileges) (if action = "GRANT" then "TO" else "FROM")
      (action == "REVOKE") key.role)

/-- The names of a default privilege. -/
def defaultPrivilegeNames (key : DefaultPrivKey) : List SqlToken :=
  nameToken key.owner :: key.scope.schema?.toList.map nameToken ++
    (granteeRole key.grantee).toList.map nameToken

/-- The key whose privileges belong to the owner of a schema. -/
def ownerKey (name owner : String) : GrantKey := ⟨.role owner, .schema, none, some name⟩

/-- The names and values of the statements of a change. -/
def unscopedNames (ctx : SqlContext) : Change → List (Option (List SqlToken))
  | .createRole name state =>
      some (nameToken name :: state.passwordValidUntil.toList.map valueToken) ::
        state.comment.toList.map fun text => some [nameToken name, valueToken text]
  | .createSchema name owner => [some (nameToken name :: owner.toList.map nameToken)]
  | .alterSchemaOwner name owner => [some [nameToken name, nameToken owner]]
  | .ensureSchemaOwnerPrivileges name owner privileges =>
      privilegeNames "GRANT" (ownerKey name owner) privileges ctx
  | .alterRole name attributes =>
      (if (attributes.filterMap attributeOption).isEmpty then []
        else [some (nameToken name :: attributes.flatMap attributeValues)]) ++
      (attributes.filterMap (settingNames name)).map some
  | .setComment name comment => [some (nameToken name :: comment.toList.map valueToken)]
  | .grant key privileges => privilegeNames "GRANT" key privileges ctx
  | .revoke key privileges _ => privilegeNames "REVOKE" key privileges ctx
  | .setDefaultPrivilege key _ => [some (defaultPrivilegeNames key)]
  | .revokeDefaultPrivilege key _ => [some (defaultPrivilegeNames key)]
  | .addMember role member _ _ => [some [nameToken role, nameToken member]]
  | .updateMemberOptions role member grantor inherit admin _ =>
      let names := some [nameToken role, nameToken member, nameToken grantor]
      (if inherit = some false then [names] else []) ++
        (if admin = some false then [names] else []) ++
        (if inherit = some true ∨ admin = some true then [names] else [])
  | .removeMember role member grantor =>
      [some (nameToken role :: nameToken member ::
        if ctx.supportsGrantWithOptions then grantor.toList.map nameToken else [])]
  | .reassignOwned fromRole toRole => [some [nameToken fromRole, nameToken toRole]]
  | .dropOwned role => [some [nameToken role]]
  | .terminateSessions role => [some [valueToken role]]
  | .setPassword name password => [some [nameToken name, valueToken password]]
  | .dropRole name => [some [nameToken name]]

/-- The names of the statement that leaves a grantor. -/
def restoreNames (ctx : SqlContext) : List SqlToken := ctx.executionRole.toList.map nameToken

/-- The names and values of the statements of a change rendered by itself, its role switches
included. -/
def statementNames (ctx : SqlContext) (change : Change) : List (Option (List SqlToken)) :=
  match actingGrantor change with
  | none => unscopedNames ctx change
  | some grantor =>
      if (unscopedNames ctx change).isEmpty then []
      else some [nameToken grantor] :: unscopedNames ctx change ++ [some (restoreNames ctx)]

/-- The targets of a change can be read back, and no list it sets has an unterminated quote. -/
def Readable (ctx : SqlContext) : Change → Prop
  | .grant key _ =>
      ∀ target ∈ privilegeTargets false key.role key.objectType key.schema key.name ctx,
        target.Readable key.role
  | .revoke key _ _ =>
      ∀ target ∈ privilegeTargets true key.role key.objectType key.schema key.name ctx,
        target.Readable key.role
  | .alterRole _ attributes =>
      ∀ parameter value, .setConfig parameter value ∈ attributes →
        isListQuoteParameter parameter = true → (splitGucList value).isSome = true
  | _ => True

end PgRoles.Sql

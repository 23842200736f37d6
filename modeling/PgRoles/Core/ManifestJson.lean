import PgRoles.Core.ManifestDecode
import PgRoles.Lib.DistinctKeys

/-!
# Serialised manifests

The values the declarations of a manifest are serialised to. Each record lists its fields as its
source type declares them: a field of `none` is skipped, `Json.nullable` writes null, and a list is
written even when it is empty. No object of a serialised manifest has a key twice
(`PolicyManifest.distinctKeys_toJson`).
-/

set_option autoImplicit false

namespace PgRoles.Core

open Std PgRoles.Lib

/-! ## Fields -/

/-- A text that may be missing; a missing one gives no member. -/
def textField (text : Option String) : Option Json := text.map .str

/-- A flag that may be missing; a missing one gives no member. -/
def flagField (flag : Option Bool) : Option Json := flag.map .bool

/-- A flag that is skipped unless it is set. -/
def setFlagField (flag : Bool) : Option Json := if flag then some (.bool true) else none

/-- Skipped when the privileges must be present. -/
def ensureField (ensure : Ensure) : Option Json :=
  if ensure = .present then none else some (.str ensure.text)

/-- Privileges as the manifest spells them, in the order of the list. -/
def privilegeListJson (privileges : List Privilege) : Json :=
  .arr (privileges.map fun p => .str p.display)

/-- A type of objects as the manifest spells it. -/
def objectTypeJson (objectType : ObjectType) : Json := .str objectType.display

/-- A map of configuration parameters. -/
def configMapJson (config : BTreeMap String String) : Json := .ofMap (config.map fun _ v => .str v)

/-- Skipped when it is empty. -/
def configField (config : BTreeMap String String) : Option Json :=
  if config.isEmpty then none else some (configMapJson config)

/-! ## Declarations -/

/-- What a profile's grant is on; its name is written even where it is null. -/
def ProfileObjectTarget.toJson (target : ProfileObjectTarget) : Json :=
  .record [("type", some (objectTypeJson target.objectType)),
    ("name", some (.nullable (textField target.name)))]

/-- A grant of a profile. -/
def ProfileGrant.toJson (grant : ProfileGrant) : Json :=
  .record [("privileges", some (privilegeListJson grant.privileges)),
    ("object", some grant.object.toJson), ("ensure", ensureField grant.ensure)]

/-- One grant of a default-privilege stanza. -/
def DefaultPrivilegeGrant.toJson (grant : DefaultPrivilegeGrant) : Json :=
  .record [("role", textField grant.role),
    ("privileges", some (privilegeListJson grant.privileges)),
    ("on_type", some (objectTypeJson grant.onType)), ("ensure", ensureField grant.ensure)]

/-- A profile; `defaultPrivilege` writes one of its default privileges. -/
def Profile.toJsonWith (defaultPrivilege : DefaultPrivilegeGrant → Json) (profile : Profile) :
    Json :=
  .record [("login", some (.nullable (flagField profile.login))),
    ("inherit", some (.nullable (flagField profile.inherit))),
    ("grants", some (.arr (profile.grants.map ProfileGrant.toJson))),
    ("default_privileges", some (.arr (profile.defaultPrivileges.map defaultPrivilege))),
    ("config", configField profile.config)]

/-- A profile as the manifest's own types write it. -/
def Profile.toJson (profile : Profile) : Json := profile.toJsonWith DefaultPrivilegeGrant.toJson

/-- A schema with the profiles bound to it; its owner is written even where it is null. -/
def SchemaBinding.toJson (binding : SchemaBinding) : Json :=
  .record [("name", some (.str binding.name)), ("profiles", some (.ofTexts binding.profiles)),
    ("role_pattern", textField binding.rolePattern),
    ("owner", some (.nullable (textField binding.owner)))]

/-- The environment variable that holds a password. -/
def PasswordSource.toJson (source : PasswordSource) : Json :=
  .record [("from_env", some (.str source.fromEnv))]

/-- A role with the attributes that the manifest sets. -/
def RoleDefinition.toJson (role : RoleDefinition) : Json :=
  .record [("name", some (.str role.name)), ("external", setFlagField role.external),
    ("preserve_undeclared_grants", setFlagField role.preserveUndeclaredGrants),
    ("login", flagField role.login), ("superuser", flagField role.superuser),
    ("createdb", flagField role.createdb), ("createrole", flagField role.createrole),
    ("inherit", flagField role.inherit), ("replication", flagField role.replication),
    ("bypassrls", flagField role.bypassrls), ("connection_limit", role.connectionLimit.map .int),
    ("comment", textField role.comment), ("password", role.password.map PasswordSource.toJson),
    ("password_valid_until", textField role.passwordValidUntil),
    ("config", configField role.config)]

/-- What a top-level grant is on. -/
def ObjectTarget.toJson (target : ObjectTarget) : Json :=
  .record [("type", some (objectTypeJson target.objectType)),
    ("schema", textField target.schema), ("name", textField target.name)]

/-- A top-level grant. -/
def Grant.toJson (grant : Grant) : Json :=
  .record [("role", some (.str grant.role)),
    ("privileges", some (privilegeListJson grant.privileges)),
    ("object", some grant.object.toJson), ("ensure", ensureField grant.ensure)]

/-- The scope of a default-privilege stanza, by its `type`. -/
def DefaultPrivilegeScopeSpec.toJson (scope : DefaultPrivilegeScopeSpec) : Json :=
  .record [("type", some (.str scope.scopeType.text)), ("schema", textField scope.schema)]

/-- A default-privilege stanza with its grants. -/
def DefaultPrivilege.toJson (d : DefaultPrivilege) : Json :=
  .record [("owner", textField d.owner), ("schema", textField d.schema),
    ("scope", d.scope.map DefaultPrivilegeScopeSpec.toJson),
    ("grant", some (.arr (d.grant.map DefaultPrivilegeGrant.toJson)))]

/-- A member with the options that the manifest sets. -/
def MemberSpec.toJson (member : MemberSpec) : Json :=
  .record [("name", some (.str member.name)), ("inherit", flagField member.inherit),
    ("admin", flagField member.admin)]

/-- The members of one role. -/
def Membership.toJson (membership : Membership) : Json :=
  .record [("role", some (.str membership.role)),
    ("members", some (.arr (membership.members.map MemberSpec.toJson))),
    ("exclusive", setFlagField membership.exclusive)]

/-- A role to retire; all four members are always written. -/
def RoleRetirement.toJson (retirement : RoleRetirement) : Json :=
  .record [("role", some (.str retirement.role)),
    ("reassign_owned_to", some (.nullable (textField retirement.reassignOwnedTo))),
    ("drop_owned", some (.bool retirement.dropOwned)),
    ("terminate_sessions", some (.bool retirement.terminateSessions))]

/-! ## Manifests -/

/-- A provider by its `type`, with every member of it written. -/
def AuthProvider.toJson : AuthProvider → Json
  | .cloudSqlIam project =>
      .record [("type", some (.str "cloud_sql_iam")),
        ("project", some (.nullable (textField project)))]
  | .alloyDbIam project cluster =>
      .record [("type", some (.str "alloydb_iam")),
        ("project", some (.nullable (textField project))),
        ("cluster", some (.nullable (textField cluster)))]
  | .rdsIam region =>
      .record [("type", some (.str "rds_iam")), ("region", some (.nullable (textField region)))]
  | .azureAd tenantId =>
      .record [("type", some (.str "azure_ad")),
        ("tenant_id", some (.nullable (textField tenantId)))]
  | .supabase projectRef =>
      .record [("type", some (.str "supabase")),
        ("project_ref", some (.nullable (textField projectRef)))]
  | .planetScale organization =>
      .record [("type", some (.str "planet_scale")),
        ("organization", some (.nullable (textField organization)))]

/-- A manifest with the providers it lists. -/
def PolicyManifest.toJson (providers : List AuthProvider) (m : PolicyManifest) : Json :=
  .record [("role_pattern", textField m.rolePattern), ("default_owner", textField m.defaultOwner),
    ("auth_providers", some (.arr (providers.map AuthProvider.toJson))),
    ("profiles", some (.ofMap (m.profiles.map fun _ profile => profile.toJson))),
    ("schemas", some (.arr (m.schemas.map SchemaBinding.toJson))),
    ("roles", some (.arr (m.roles.map RoleDefinition.toJson))),
    ("grants", some (.arr (m.grants.map Grant.toJson))),
    ("default_privileges", some (.arr (m.defaultPrivileges.map DefaultPrivilege.toJson))),
    ("memberships", some (.arr (m.memberships.map Membership.toJson))),
    ("retirements", some (.arr (m.retirements.map RoleRetirement.toJson)))]

/-! ## Distinct keys -/

@[simp] theorem all_distinctKeys_textField (text : Option String) :
    (textField text).all Json.distinctKeys = true := by
  cases text <;> rfl

@[simp] theorem all_distinctKeys_flagField (flag : Option Bool) :
    (flagField flag).all Json.distinctKeys = true := by
  cases flag <;> rfl

@[simp] theorem all_distinctKeys_setFlagField (flag : Bool) :
    (setFlagField flag).all Json.distinctKeys = true := by
  cases flag <;> rfl

@[simp] theorem all_distinctKeys_ensureField (ensure : Ensure) :
    (ensureField ensure).all Json.distinctKeys = true := by
  cases ensure <;> rfl

@[simp] theorem all_distinctKeys_configField (config : BTreeMap String String) :
    (configField config).all Json.distinctKeys = true := by
  rw [configField]
  split
  · rfl
  · exact Json.distinctKeys_ofMap_map Json.distinctKeys_str

@[simp] theorem distinctKeys_privilegeListJson (privileges : List Privilege) :
    (privilegeListJson privileges).distinctKeys = true :=
  Json.distinctKeys_map_arr fun _ => rfl

@[simp] theorem distinctKeys_objectTypeJson (objectType : ObjectType) :
    (objectTypeJson objectType).distinctKeys = true := rfl

@[simp] theorem distinctKeys_ofTexts (texts : List String) :
    (Json.ofTexts texts).distinctKeys = true :=
  Json.distinctKeys_map_arr Json.distinctKeys_str

@[simp] theorem ProfileObjectTarget.distinctKeys_toJson (target : ProfileObjectTarget) :
    target.toJson.distinctKeys = true :=
  Json.distinctKeys_record (by simp)

@[simp] theorem ProfileGrant.distinctKeys_toJson (grant : ProfileGrant) :
    grant.toJson.distinctKeys = true :=
  Json.distinctKeys_record (by simp)

@[simp] theorem DefaultPrivilegeGrant.distinctKeys_toJson (grant : DefaultPrivilegeGrant) :
    grant.toJson.distinctKeys = true :=
  Json.distinctKeys_record (by simp)

@[simp] theorem Profile.distinctKeys_toJson (profile : Profile) :
    profile.toJson.distinctKeys = true :=
  Json.distinctKeys_record (by simp)

@[simp] theorem SchemaBinding.distinctKeys_toJson (binding : SchemaBinding) :
    binding.toJson.distinctKeys = true :=
  Json.distinctKeys_record (by simp)

@[simp] theorem PasswordSource.distinctKeys_toJson (source : PasswordSource) :
    source.toJson.distinctKeys = true :=
  Json.distinctKeys_record (by simp)

@[simp] theorem RoleDefinition.distinctKeys_toJson (role : RoleDefinition) :
    role.toJson.distinctKeys = true :=
  Json.distinctKeys_record (by simp [Json.all_distinctKeys_map Json.distinctKeys_int])

@[simp] theorem ObjectTarget.distinctKeys_toJson (target : ObjectTarget) :
    target.toJson.distinctKeys = true :=
  Json.distinctKeys_record (by simp)

@[simp] theorem Grant.distinctKeys_toJson (grant : Grant) : grant.toJson.distinctKeys = true :=
  Json.distinctKeys_record (by simp)

@[simp] theorem DefaultPrivilegeScopeSpec.distinctKeys_toJson (scope : DefaultPrivilegeScopeSpec) :
    scope.toJson.distinctKeys = true :=
  Json.distinctKeys_record (by simp)

@[simp] theorem DefaultPrivilege.distinctKeys_toJson (d : DefaultPrivilege) :
    d.toJson.distinctKeys = true :=
  Json.distinctKeys_record (by simp)

@[simp] theorem MemberSpec.distinctKeys_toJson (member : MemberSpec) :
    member.toJson.distinctKeys = true :=
  Json.distinctKeys_record (by simp)

@[simp] theorem Membership.distinctKeys_toJson (membership : Membership) :
    membership.toJson.distinctKeys = true :=
  Json.distinctKeys_record (by simp)

@[simp] theorem RoleRetirement.distinctKeys_toJson (retirement : RoleRetirement) :
    retirement.toJson.distinctKeys = true :=
  Json.distinctKeys_record (by simp)

@[simp] theorem AuthProvider.distinctKeys_toJson (provider : AuthProvider) :
    provider.toJson.distinctKeys = true := by
  cases provider <;> exact Json.distinctKeys_record (by simp)

/-- No object of a serialised manifest has a key twice. -/
theorem PolicyManifest.distinctKeys_toJson (providers : List AuthProvider) (m : PolicyManifest) :
    (m.toJson providers).distinctKeys = true := by
  have hprofiles : (Json.ofMap (m.profiles.map fun _ profile => profile.toJson)).distinctKeys =
      true := Json.distinctKeys_ofMap_map Profile.distinctKeys_toJson
  exact Json.distinctKeys_record (by simp [hprofiles])

end PgRoles.Core

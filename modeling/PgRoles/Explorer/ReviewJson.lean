import PgRoles.Explorer.ReviewArtifact
import PgRoles.Lib.Codec

/-!
# The review artifact as JSON

How each type of the artifact is written and read: the names of the fields, which of them are left
out, and the tag fields of the enumerations. Records and the variants with fields are closed; the
bindings of membership options are shared with other formats and are not.
-/

set_option autoImplicit false

namespace PgRoles.Explorer

open Std PgRoles.Lib PgRoles.Core

/-! ## Provenance and context -/

/-- The policy by its content digest, and the commit where it is known. -/
def PolicyProvenance.codec : Codec PolicyProvenance :=
  .record true <| (Fields.required "content_digest" .text)
    |>.both (.optional "commit" .text Codec.text_ne_null)
    |>.imap (fun p => (p.contentDigest, p.commit)) (fun (digest, commit) => ⟨digest, commit⟩)
      fun _ => rfl

/-- Which tool wrote the artifact, when, for which policy and server. -/
def ReviewProvenance.codec : Codec ReviewProvenance :=
  .record true <| (Fields.required "tool_version" .text)
    |>.both (.required "captured_at" .text)
    |>.both (.required "policy" PolicyProvenance.codec)
    |>.both (.required "target_label" .text)
    |>.both (.required "pg_major_version" .int)
    |>.imap
      (fun p => ((((p.toolVersion, p.capturedAt), p.policy), p.targetLabel), p.pgMajorVersion))
      (fun ((((tool, captured), policy), label), major) => ⟨tool, captured, policy, label, major⟩)
      fun _ => rfl

/-- The parts of a schema that the policy manages. -/
def ReviewManagedSchema.codec : Codec ReviewManagedSchema :=
  .record true <| (Fields.required "name" .text)
    |>.both (.required "owner" .flag)
    |>.both (.required "bindings" .flag)
    |>.imap (fun s => ((s.name, s.owner), s.bindings))
      (fun ((name, owner), bindings) => ⟨name, owner, bindings⟩) fun _ => rfl

/-- The roles and schemas that the policy manages. -/
def ReviewManagedScope.codec : Codec ReviewManagedScope :=
  .record true <| (Fields.required "roles" (.list .text))
    |>.both (.required "schemas" (.list ReviewManagedSchema.codec))
    |>.imap (fun s => (s.roles, s.schemas)) (fun (roles, schemas) => ⟨roles, schemas⟩) fun _ => rfl

/-- A role, and whether it is a superuser where that was read. -/
def ReviewIdentity.codec : Codec ReviewIdentity :=
  .record true <| (Fields.required "role" .text)
    |>.both (.optional "superuser" .flag Codec.flag_ne_null)
    |>.imap (fun i => (i.role, i.superuser)) (fun (role, superuser) => ⟨role, superuser⟩)
      fun _ => rfl

/-- The text of a mode. -/
def ReviewMode.name : ReviewMode → String
  | .authoritative => "authoritative"
  | .additive => "additive"
  | .adopt => "adopt"

/-- A mode by its text. -/
def ReviewMode.codec : Codec ReviewMode :=
  .choice [.authoritative, .additive, .adopt] ReviewMode.name fun a => by cases a <;> rfl

/-- The mode, the scope and the roles that a review is about. -/
def ReviewContext.codec : Codec ReviewContext :=
  .record true <| (Fields.required "mode" ReviewMode.codec)
    |>.both (.optional "managed_scope" ReviewManagedScope.codec Codec.record_ne_null)
    |>.both (.required "inspector" ReviewIdentity.codec)
    |>.both (.required "intended_executor" ReviewIdentity.codec)
    |>.both (.required "authority_graph_complete" .flag)
    |>.imap
      (fun c => ((((c.mode, c.managedScope), c.inspector), c.intendedExecutor),
        c.authorityGraphComplete))
      (fun ((((mode, scope), inspector), executor), complete) =>
        ⟨mode, scope, inspector, executor, complete⟩)
      fun _ => rfl

/-! ## Preflight evidence -/

/-- The text of a check, in snake case. -/
def EvidenceCheck.name : EvidenceCheck → String
  | .defaultPrivilegeOwner => "default_privilege_owner"
  | .predefinedRoleMembership => "predefined_role_membership"
  | .grantorReachability => "grantor_reachability"
  | .revokeAclOwnership => "revoke_acl_ownership"
  | .planOrderAuthority => "plan_order_authority"
  | .dropRoleSafety => "drop_role_safety"
  | .schemaOwnerTransfer => "schema_owner_transfer"

/-- A check by its text. -/
def EvidenceCheck.codec : Codec EvidenceCheck :=
  .choice [.defaultPrivilegeOwner, .predefinedRoleMembership, .grantorReachability,
    .revokeAclOwnership, .planOrderAuthority, .dropRoleSafety, .schemaOwnerTransfer]
    EvidenceCheck.name fun a => by cases a <;> rfl

/-- The text of a kind of coverage. -/
def EvidenceCoverageKind.name : EvidenceCoverageKind → String
  | .complete => "complete"
  | .targeted => "targeted"

/-- A kind of coverage by its text. -/
def EvidenceCoverageKind.codec : Codec EvidenceCoverageKind :=
  .choice [.complete, .targeted] EvidenceCoverageKind.name fun a => by cases a <;> rfl

/-- Which checks were made, and on which changes. -/
def EvidenceCoverage.codec : Codec EvidenceCoverage :=
  .record true <| (Fields.required "kind" EvidenceCoverageKind.codec)
    |>.both (.required "checks_performed" (.list EvidenceCheck.codec))
    |>.both (.required "checked_change_indices" (.list .count))
    |>.both (.required "unchecked_change_indices" (.list .count))
    |>.imap
      (fun c => (((c.kind, c.checksPerformed), c.checkedChangeIndices), c.uncheckedChangeIndices))
      (fun (((kind, checks), checked), unchecked) => ⟨kind, checks, checked, unchecked⟩)
      fun _ => rfl

/-- An issue of a preflight with its code, its message and its role. -/
def PreflightFinding.codec : Codec PreflightFinding :=
  .record true <| (Fields.required "code" .text)
    |>.both (.required "message" .text)
    |>.both (.optional "role" .text Codec.text_ne_null)
    |>.imap (fun f => ((f.code, f.message), f.role))
      (fun ((code, message), role) => ⟨code, message, role⟩) fun _ => rfl

/-- The text of a preflight. -/
def PreflightCheck.name : PreflightCheck → String
  | .executorAuthority => "executor_authority"
  | .roleDropSafety => "role_drop_safety"
  | .serverCompatibility => "server_compatibility"
  | .schemaOwnerTransfer => "schema_owner_transfer"

/-- A preflight by its text. -/
def PreflightCheck.codec : Codec PreflightCheck :=
  .choice [.executorAuthority, .roleDropSafety, .serverCompatibility, .schemaOwnerTransfer]
    PreflightCheck.name fun a => by cases a <;> rfl

/-- The text of how a preflight ended. -/
def EvidenceStatus.name : EvidenceStatus → String
  | .passed => "passed"
  | .failed => "failed"
  | .notRun => "not_run"
  | .unknown => "unknown"

/-- How a preflight ended, by its text. -/
def EvidenceStatus.codec : Codec EvidenceStatus :=
  .choice [.passed, .failed, .notRun, .unknown] EvidenceStatus.name fun a => by cases a <;> rfl

/-- What a preflight found; an empty list of issues is left out. -/
def PreflightEvidence.codec : Codec PreflightEvidence :=
  .record true <| (Fields.required "check" PreflightCheck.codec)
    |>.both (.required "status" EvidenceStatus.codec)
    |>.both (.optional "actor_role" .text Codec.text_ne_null)
    |>.both (.required "issue_count" .count)
    |>.both (.listed "issues" PreflightFinding.codec)
    |>.both (.required "coverage" EvidenceCoverage.codec)
    |>.imap
      (fun e => (((((e.check, e.status), e.actorRole), e.issueCount), e.issues), e.coverage))
      (fun (((((check, status), actor), count), issues), coverage) =>
        ⟨check, status, actor, count, issues, coverage⟩)
      fun _ => rfl

/-! ## Recorded changes -/

/-- The text of the one reason to leave a value out. -/
def OmissionReason.name : OmissionReason → String
  | .sensitiveValue => "sensitive_value"

/-- A reason to leave a value out, by its text. -/
def OmissionReason.codec : Codec OmissionReason :=
  .choice [.sensitiveValue] OmissionReason.name fun a => by cases a; rfl

/-- A field that was left out, and why. -/
def ReviewOmission.codec : Codec ReviewOmission :=
  .record true <| (Fields.required "field" .text)
    |>.both (.required "reason" OmissionReason.codec)
    |>.imap (fun o => (o.field, o.reason)) (fun (field, reason) => ⟨field, reason⟩) fun _ => rfl

/-- A type of objects as it is displayed. -/
def objectTypeCodec : Codec ObjectType :=
  .choice [.table, .view, .materializedView, .sequence, .function, .schema, .database, .type]
    ObjectType.display fun a => by cases a <;> rfl

/-- A privilege as it is displayed. -/
def privilegeCodec : Codec Privilege :=
  .choice Privilege.inOrder Privilege.display fun a => by cases a <;> rfl

theorem toFinset_inOrder (privileges : Finset Privilege) :
    (Privilege.inOrder.filter (· ∈ privileges)).toFinset = privileges := by
  ext p
  rw [List.mem_toFinset, List.mem_filter, decide_eq_true_eq]
  exact and_iff_right (by cases p <;> decide)

/-- A privilege set is written in order. -/
def privilegesCodec : Codec (Finset Privilege) :=
  (Codec.list privilegeCodec).imap (fun privileges => Privilege.inOrder.filter (· ∈ privileges))
    List.toFinset toFinset_inOrder

/-- A facet of a schema as it is displayed. -/
def facetCodec : Codec SchemaBindingFacet :=
  .choice [.owner, .bindings] SchemaBindingFacet.display fun a => by cases a <;> rfl

/-- A scope by its `type`, with the schema of a narrow one. -/
def ReviewDefaultPrivilegeScope.codec : Codec ReviewDefaultPrivilegeScope :=
  .tagged "type"
    [{ name := "global", Payload := Unit, fields := .empty, closed := false
       make := fun _ => .global
       payload? := fun | .global => some () | _ => none },
     { name := "schema", Payload := String, fields := .required "schema" .text
       make := .schema
       payload? := fun | .schema s => some s | _ => none }]
    (by decide) (by decide) fun a => by cases a <;> rfl

/-- A managed key by its `kind`. -/
def ReviewManagedKey.codec : Codec ReviewManagedKey :=
  .tagged "kind"
    [{ name := "role", Payload := String, fields := .required "name" .text
       make := .role
       payload? := fun | .role name => some name | _ => none },
     { name := "schema_facet", Payload := String × SchemaBindingFacet
       fields := (Fields.required "schema" .text).both (.required "facet" facetCodec)
       make := fun (schema, facet) => .schemaFacet schema facet
       payload? := fun | .schemaFacet schema facet => some (schema, facet) | _ => none },
     { name := "grant", Payload := ((String × ObjectType) × Option String) × Option String
       fields := (Fields.required "role" .text)
         |>.both (.required "object_type" objectTypeCodec)
         |>.both (.nullable "schema" .text Codec.text_ne_null)
         |>.both (.nullable "name" .text Codec.text_ne_null)
       make := fun (((r, objectType), schema), name) => .grant r objectType schema name
       payload? := fun
         | .grant r objectType schema name => some (((r, objectType), schema), name)
         | _ => none },
     { name := "default_privilege"
       Payload := ((String × ReviewDefaultPrivilegeScope) × ObjectType) × String
       fields := (Fields.required "owner" .text)
         |>.both (.required "scope" ReviewDefaultPrivilegeScope.codec)
         |>.both (.required "on_type" objectTypeCodec)
         |>.both (.required "grantee" .text)
       make := fun (((owner, scope), onType), grantee) =>
         .defaultPrivilege owner scope onType grantee
       payload? := fun
         | .defaultPrivilege owner scope onType grantee => some (((owner, scope), onType), grantee)
         | _ => none },
     { name := "membership", Payload := String × String
       fields := (Fields.required "role" .text).both (.required "member" .text)
       make := fun (r, m) => .membership r m
       payload? := fun | .membership r m => some (r, m) | _ => none }]
    (by decide) (by decide) fun a => by cases a <;> rfl

/-- The document and the managed key that a change comes from. -/
def ReviewChangeSource.codec : Codec ReviewChangeSource :=
  .record true <| (Fields.required "document" .text)
    |>.both (.required "managed_key" ReviewManagedKey.codec)
    |>.imap (fun s => (s.document, s.managedKey)) (fun (document, key) => ⟨document, key⟩)
      fun _ => rfl

/-- The text of a priority; these are the capitalised names. -/
def ReviewPriority.name : ReviewPriority → String
  | .high => "High"
  | .review => "Review"
  | .informational => "Informational"

/-- A priority by its text. -/
def ReviewPriority.codec : Codec ReviewPriority :=
  .choice [.high, .review, .informational] ReviewPriority.name fun a => by cases a <;> rfl

/-- A role without its comment and the values of its settings. -/
def ReviewRoleState.codec : Codec ReviewRoleState :=
  .record true <| (Fields.required "login" .flag)
    |>.both (.required "superuser" .flag)
    |>.both (.required "createdb" .flag)
    |>.both (.required "createrole" .flag)
    |>.both (.required "inherit" .flag)
    |>.both (.required "replication" .flag)
    |>.both (.required "bypassrls" .flag)
    |>.both (.required "connection_limit" .int)
    |>.both (.required "comment_present" .flag)
    |>.both (.nullable "password_valid_until" .text Codec.text_ne_null)
    |>.both (.required "config_parameters" (.list .text))
    |>.imap
      (fun s => ((((((((((s.login, s.superuser), s.createdb), s.createrole), s.inherit),
        s.replication), s.bypassrls), s.connectionLimit), s.commentPresent),
        s.passwordValidUntil), s.configParameters))
      (fun ((((((((((login, superuser), createdb), createrole), inherit), replication), bypassrls),
          limit), comment), validUntil), config) =>
        ⟨login, superuser, createdb, createrole, inherit, replication, bypassrls, limit, comment,
          validUntil, config⟩)
      fun _ => rfl

/-- A role attribute by its `kind`; a setting shows its parameter alone. -/
def ReviewRoleAttribute.codec : Codec ReviewRoleAttribute :=
  .tagged "kind"
    [{ name := "login", Payload := Bool, fields := .required "value" .flag
       make := .login
       payload? := fun | .login value => some value | _ => none },
     { name := "superuser", Payload := Bool, fields := .required "value" .flag
       make := .superuser
       payload? := fun | .superuser value => some value | _ => none },
     { name := "createdb", Payload := Bool, fields := .required "value" .flag
       make := .createdb
       payload? := fun | .createdb value => some value | _ => none },
     { name := "createrole", Payload := Bool, fields := .required "value" .flag
       make := .createrole
       payload? := fun | .createrole value => some value | _ => none },
     { name := "inherit", Payload := Bool, fields := .required "value" .flag
       make := .inherit
       payload? := fun | .inherit value => some value | _ => none },
     { name := "replication", Payload := Bool, fields := .required "value" .flag
       make := .replication
       payload? := fun | .replication value => some value | _ => none },
     { name := "bypassrls", Payload := Bool, fields := .required "value" .flag
       make := .bypassrls
       payload? := fun | .bypassrls value => some value | _ => none },
     { name := "connection_limit", Payload := Int, fields := .required "value" .int
       make := .connectionLimit
       payload? := fun | .connectionLimit value => some value | _ => none },
     { name := "valid_until", Payload := Option String
       fields := .nullable "value" .text Codec.text_ne_null
       make := .validUntil
       payload? := fun | .validUntil value => some value | _ => none },
     { name := "set_config", Payload := String, fields := .required "parameter" .text
       make := .setConfig
       payload? := fun | .setConfig parameter => some parameter | _ => none },
     { name := "reset_config", Payload := String, fields := .required "parameter" .text
       make := .resetConfig
       payload? := fun | .resetConfig parameter => some parameter | _ => none }]
    (by decide) (by decide) fun a => by cases a <;> rfl

/-! ## Bindings of membership options -/

/-- The three options of a membership. -/
def membershipOptionsCodec : Codec MembershipOptions :=
  .record false <| (Fields.required "inherit" .flag)
    |>.both (.required "admin" .flag)
    |>.both (.required "set" .flag)
    |>.imap (fun o => ((o.inherit, o.admin), o.set))
      (fun ((inherit, admin), set) => ⟨inherit, admin, set⟩) fun _ => rfl

/-- The membership that an option change expects, by its `state`. -/
def expectedStateCodec : Codec MembershipExpectedState :=
  .tagged "state"
    [{ name := "absent", Payload := Unit, fields := .empty, closed := false
       make := fun _ => .absent
       payload? := fun | .absent => some () | _ => none },
     { name := "present", Payload := MembershipOptions, closed := false
       fields := .required "options" membershipOptionsCodec
       make := .present
       payload? := fun | .present options => some options | _ => none }]
    (by decide) (by decide) fun a => by cases a <;> rfl

/-- What an option change does to the SET option, by its text. -/
def setEffectCodec : Codec MembershipSetEffect :=
  .choice [.preserve, .createFalse] (fun | .preserve => "preserve" | .createFalse => "createFalse")
    fun a => by cases a <;> rfl

/-- The executor and the state that an option change is bound to. -/
def optionBindingCodec : Codec MembershipOptionBinding :=
  .record false <| (Fields.required "executor" .text)
    |>.both (.required "setEffect" setEffectCodec)
    |>.both (.required "expected" expectedStateCodec)
    |>.both (.required "expectedEdges" (.map membershipOptionsCodec))
    |>.imap (fun b => (((b.executor, b.setEffect), b.expected), b.expectedEdges))
      (fun (((executor, effect), expected), edges) => ⟨executor, effect, expected, edges⟩)
      fun _ => rfl

/-! ## Sanitized changes -/

/-- The fields of a grant or a revoke. -/
def grantCodecFields :
    Fields ((((String × Finset Privilege) × ObjectType) × Option String) × Option String) :=
  (Fields.required "role" .text)
    |>.both (.required "privileges" privilegesCodec)
    |>.both (.required "object_type" objectTypeCodec)
    |>.both (.nullable "schema" .text Codec.text_ne_null)
    |>.both (.nullable "name" .text Codec.text_ne_null)

/-- The fields that the two changes of default privileges share. -/
def defaultPrivilegeCodecFields :
    Fields ((((String × ReviewDefaultPrivilegeScope) × ObjectType) × String) ×
      Finset Privilege) :=
  (Fields.required "owner" .text)
    |>.both (.required "scope" ReviewDefaultPrivilegeScope.codec)
    |>.both (.required "on_type" objectTypeCodec)
    |>.both (.required "grantee" .text)
    |>.both (.required "privileges" privilegesCodec)

/-- A sanitized change by its `kind`, with the fields of that kind. -/
def ReviewChange.codec : Codec ReviewChange :=
  .tagged "kind"
    [{ name := "create_role", Payload := String × ReviewRoleState
       fields := (Fields.required "name" .text).both (.required "state" ReviewRoleState.codec)
       make := fun (name, state) => .createRole name state
       payload? := fun | .createRole name state => some (name, state) | _ => none },
     { name := "create_schema", Payload := String × Option String
       fields := (Fields.required "name" .text).both (.nullable "owner" .text Codec.text_ne_null)
       make := fun (name, owner) => .createSchema name owner
       payload? := fun | .createSchema name owner => some (name, owner) | _ => none },
     { name := "alter_schema_owner", Payload := String × String
       fields := (Fields.required "name" .text).both (.required "owner" .text)
       make := fun (name, owner) => .alterSchemaOwner name owner
       payload? := fun | .alterSchemaOwner name owner => some (name, owner) | _ => none },
     { name := "ensure_schema_owner_privileges", Payload := (String × String) × Finset Privilege
       fields := (Fields.required "name" .text)
         |>.both (.required "owner" .text)
         |>.both (.required "privileges" privilegesCodec)
       make := fun ((name, owner), privileges) => .ensureSchemaOwnerPrivileges name owner privileges
       payload? := fun
         | .ensureSchemaOwnerPrivileges name owner privileges => some ((name, owner), privileges)
         | _ => none },
     { name := "alter_role", Payload := String × List ReviewRoleAttribute
       fields := (Fields.required "name" .text)
         |>.both (.required "attributes" (.list ReviewRoleAttribute.codec))
       make := fun (name, attributes) => .alterRole name attributes
       payload? := fun | .alterRole name attributes => some (name, attributes) | _ => none },
     { name := "set_comment", Payload := String × Bool
       fields := (Fields.required "name" .text).both (.required "comment_present" .flag)
       make := fun (name, present) => .setComment name present
       payload? := fun | .setComment name present => some (name, present) | _ => none },
     { name := "grant", Payload := _, fields := grantCodecFields
       make := fun ((((role, privileges), objectType), schema), name) =>
         .grant role privileges objectType schema name
       payload? := fun
         | .grant role privileges objectType schema name =>
             some ((((role, privileges), objectType), schema), name)
         | _ => none },
     { name := "revoke", Payload := _
       fields := grantCodecFields.both (.nullable "grantor" .text Codec.text_ne_null)
       make := fun (((((role, privileges), objectType), schema), name), grantor) =>
         .revoke role privileges objectType schema name grantor
       payload? := fun
         | .revoke role privileges objectType schema name grantor =>
             some (((((role, privileges), objectType), schema), name), grantor)
         | _ => none },
     { name := "set_default_privilege", Payload := _, fields := defaultPrivilegeCodecFields
       make := fun ((((owner, scope), onType), grantee), privileges) =>
         .setDefaultPrivilege owner scope onType grantee privileges
       payload? := fun
         | .setDefaultPrivilege owner scope onType grantee privileges =>
             some ((((owner, scope), onType), grantee), privileges)
         | _ => none },
     { name := "revoke_default_privilege", Payload := _, fields := defaultPrivilegeCodecFields
       make := fun ((((owner, scope), onType), grantee), privileges) =>
         .revokeDefaultPrivilege owner scope onType grantee privileges
       payload? := fun
         | .revokeDefaultPrivilege owner scope onType grantee privileges =>
             some ((((owner, scope), onType), grantee), privileges)
         | _ => none },
     { name := "add_member", Payload := ((String × String) × Bool) × Bool
       fields := (Fields.required "role" .text)
         |>.both (.required "member" .text)
         |>.both (.required "inherit" .flag)
         |>.both (.required "admin" .flag)
       make := fun (((role, member), inherit), admin) => .addMember role member inherit admin
       payload? := fun
         | .addMember role member inherit admin => some (((role, member), inherit), admin)
         | _ => none },
     { name := "update_member_options"
       Payload := ((((String × String) × String) × Option Bool) × Option Bool) ×
         Option MembershipOptionBinding
       fields := (Fields.required "role" .text)
         |>.both (.required "member" .text)
         |>.both (.required "grantor" .text)
         |>.both (.nullable "inherit" .flag Codec.flag_ne_null)
         |>.both (.nullable "admin" .flag Codec.flag_ne_null)
         |>.both (.nullable "binding" optionBindingCodec Codec.record_ne_null)
       make := fun (((((role, member), grantor), inherit), admin), binding) =>
         .updateMemberOptions role member grantor inherit admin binding
       payload? := fun
         | .updateMemberOptions role member grantor inherit admin binding =>
             some (((((role, member), grantor), inherit), admin), binding)
         | _ => none },
     { name := "remove_member", Payload := (String × String) × Option String
       fields := (Fields.required "role" .text)
         |>.both (.required "member" .text)
         |>.both (.nullable "grantor" .text Codec.text_ne_null)
       make := fun ((role, member), grantor) => .removeMember role member grantor
       payload? := fun
         | .removeMember role member grantor => some ((role, member), grantor)
         | _ => none },
     { name := "reassign_owned", Payload := String × String
       fields := (Fields.required "from_role" .text).both (.required "to_role" .text)
       make := fun (fromRole, toRole) => .reassignOwned fromRole toRole
       payload? := fun | .reassignOwned fromRole toRole => some (fromRole, toRole) | _ => none },
     { name := "drop_owned", Payload := String, fields := .required "role" .text
       make := .dropOwned
       payload? := fun | .dropOwned role => some role | _ => none },
     { name := "terminate_sessions", Payload := String, fields := .required "role" .text
       make := .terminateSessions
       payload? := fun | .terminateSessions role => some role | _ => none },
     { name := "set_password", Payload := String, fields := .required "name" .text
       make := .setPassword
       payload? := fun | .setPassword name => some name | _ => none },
     { name := "drop_role", Payload := String, fields := .required "name" .text
       make := .dropRole
       payload? := fun | .dropRole name => some name | _ => none }]
    (by decide) (by decide) fun a => by cases a <;> rfl

/-- A change with its index, its priority and its source. -/
def RecordedChange.codec : Codec RecordedChange :=
  .record true <| (Fields.required "index" .count)
    |>.both (.required "priority" ReviewPriority.codec)
    |>.both (.optional "source" ReviewChangeSource.codec Codec.record_ne_null)
    |>.both (.required "change" ReviewChange.codec)
    |>.both (.listed "omissions" ReviewOmission.codec)
    |>.imap (fun c => ((((c.index, c.priority), c.source), c.change), c.omissions))
      (fun ((((index, priority), source), change), omissions) =>
        ⟨index, priority, source, change, omissions⟩)
      fun _ => rfl

/-! ## Recorded phases and findings -/

/-- The text of a status. -/
def ReviewReachabilityStatus.name : ReviewReachabilityStatus → String
  | .reachable => "reachable"
  | .unreachable => "unreachable"
  | .unknown => "unknown"

/-- A status by its text. -/
def ReviewReachabilityStatus.codec : Codec ReviewReachabilityStatus :=
  .choice [.reachable, .unreachable, .unknown] ReviewReachabilityStatus.name
    fun a => by cases a <;> rfl

/-- The status of one role. -/
def ReviewReachability.codec : Codec ReviewReachability :=
  .record true <| (Fields.required "role" .text)
    |>.both (.required "status" ReviewReachabilityStatus.codec)
    |>.imap (fun r => (r.role, r.status)) (fun (role, status) => ⟨role, status⟩) fun _ => rfl

/-- What a phase changes of the statuses. -/
def ReviewReachabilityDelta.codec : Codec ReviewReachabilityDelta :=
  .record true <| (Fields.required "changed" (.list ReviewReachability.codec))
    |>.both (.required "removed" (.list .text))
    |>.imap (fun d => (d.changed, d.removed)) (fun (changed, removed) => ⟨changed, removed⟩)
      fun _ => rfl

/-- The text of a phase, in snake case. -/
def ReviewPhase.name : ReviewPhase → String
  | .create => "create"
  | .alter => "alter"
  | .grant => "grant"
  | .membershipRemove => "membership_remove"
  | .membershipAdd => "membership_add"
  | .revoke => "revoke"
  | .defaultPrivilegeRevoke => "default_privilege_revoke"
  | .retire => "retire"

/-- A phase by its text. -/
def ReviewPhase.codec : Codec ReviewPhase :=
  .choice [.create, .alter, .grant, .membershipRemove, .membershipAdd, .revoke,
    .defaultPrivilegeRevoke, .retire] ReviewPhase.name fun a => by cases a <;> rfl

/-- A phase with its changes and its deltas. -/
def RecordedPhase.codec : Codec RecordedPhase :=
  .record true <| (Fields.required "phase" ReviewPhase.codec)
    |>.both (.required "change_indices" (.list .count))
    |>.both (.required "executor_reachability_delta" ReviewReachabilityDelta.codec)
    |>.both (.required "executor_usage_delta" ReviewReachabilityDelta.codec)
    |>.imap
      (fun p => (((p.phase, p.changeIndices), p.executorReachabilityDelta), p.executorUsageDelta))
      (fun (((phase, indices), reachability), usage) => ⟨phase, indices, reachability, usage⟩)
      fun _ => rfl

/-- The text of a kind of finding. -/
def ReviewFindingKind.name : ReviewFindingKind → String
  | .requiredRoleUnavailable => "required_role_unavailable"
  | .requiredRoleReachabilityUnknown => "required_role_reachability_unknown"
  | .executorLosesAccess => "executor_loses_access"
  | .membershipDisconnectsRole => "membership_disconnects_role"
  | .roleBecomesReachable => "role_becomes_reachable"
  | .databasePreflightRequired => "database_preflight_required"
  | .superuserRequired => "superuser_required"
  | .ownershipTransferChangesGrantor => "ownership_transfer_changes_grantor"

/-- A kind of finding by its text. -/
def ReviewFindingKind.codec : Codec ReviewFindingKind :=
  .choice [.requiredRoleUnavailable, .requiredRoleReachabilityUnknown, .executorLosesAccess,
    .membershipDisconnectsRole, .roleBecomesReachable, .databasePreflightRequired,
    .superuserRequired, .ownershipTransferChangesGrantor] ReviewFindingKind.name
    fun a => by cases a <;> rfl

/-- The text of a severity. -/
def ReviewFindingSeverity.name : ReviewFindingSeverity → String
  | .info => "info"
  | .warning => "warning"
  | .error => "error"

/-- A severity by its text. -/
def ReviewFindingSeverity.codec : Codec ReviewFindingSeverity :=
  .choice [.info, .warning, .error] ReviewFindingSeverity.name fun a => by cases a <;> rfl

/-- A finding with the changes it refers to; absent fields are left out. -/
def RecordedFinding.codec : Codec RecordedFinding :=
  .record true <| (Fields.required "kind" ReviewFindingKind.codec)
    |>.both (.required "severity" ReviewFindingSeverity.codec)
    |>.both (.optional "phase" ReviewPhase.codec Codec.choice_ne_null)
    |>.both (.optional "change_index" .count Codec.count_ne_null)
    |>.both (.listed "change_indices" .count)
    |>.both (.optional "role" .text Codec.text_ne_null)
    |>.both (.required "message" .text)
    |>.imap
      (fun f => ((((((f.kind, f.severity), f.phase), f.changeIndex), f.changeIndices), f.role),
        f.message))
      (fun ((((((kind, severity), phase), index), indices), role), message) =>
        ⟨kind, severity, phase, index, indices, role, message⟩)
      fun _ => rfl

/-! ## The recorded graph -/

/-- The text of where a graph comes from. -/
def ReviewVisualSource.name : ReviewVisualSource → String
  | .desired => "desired"
  | .current => "current"

/-- Where a graph comes from, by its text. -/
def ReviewVisualSource.codec : Codec ReviewVisualSource :=
  .choice [.desired, .current] ReviewVisualSource.name fun a => by cases a <;> rfl

/-- The counts of a graph and its managed scope. -/
def ReviewVisualMeta.codec : Codec ReviewVisualMeta :=
  .record true <| (Fields.required "source" ReviewVisualSource.codec)
    |>.both (.required "role_count" .count)
    |>.both (.required "grant_count" .count)
    |>.both (.required "default_privilege_count" .count)
    |>.both (.required "membership_count" .count)
    |>.both (.required "collapsed" .flag)
    |>.both (.optional "managed_scope" ReviewManagedScope.codec Codec.record_ne_null)
    |>.imap
      (fun m => ((((((m.source, m.roleCount), m.grantCount), m.defaultPrivilegeCount),
        m.membershipCount), m.collapsed), m.managedScope))
      (fun ((((((source, roles), grants), defaults), memberships), collapsed), scope) =>
        ⟨source, roles, grants, defaults, memberships, collapsed, scope⟩)
      fun _ => rfl

/-- The text of a kind of node. -/
def ReviewNodeKind.name : ReviewNodeKind → String
  | .role => "role"
  | .externalPrincipal => "external_principal"
  | .grantTarget => "grant_target"
  | .defaultPrivilegeTarget => "default_privilege_target"

/-- A kind of node by its text. -/
def ReviewNodeKind.codec : Codec ReviewNodeKind :=
  .choice [.role, .externalPrincipal, .grantTarget, .defaultPrivilegeTarget] ReviewNodeKind.name
    fun a => by cases a <;> rfl

/-- A node without its comment. -/
def ReviewVisualNode.codec : Codec ReviewVisualNode :=
  .record true <| (Fields.required "id" .text)
    |>.both (.required "label" .text)
    |>.both (.required "kind" ReviewNodeKind.codec)
    |>.both (.optional "managed" .flag Codec.flag_ne_null)
    |>.both (.optional "login" .flag Codec.flag_ne_null)
    |>.both (.listed "privileges" .text)
    |>.imap (fun n => (((((n.id, n.label), n.kind), n.managed), n.login), n.privileges))
      (fun (((((id, label), kind), managed), login), privileges) =>
        ⟨id, label, kind, managed, login, privileges⟩)
      fun _ => rfl

/-- The text of a kind of edge. -/
def ReviewEdgeKind.name : ReviewEdgeKind → String
  | .membership => "membership"
  | .grant => "grant"
  | .defaultPrivilege => "default_privilege"

/-- A kind of edge by its text. -/
def ReviewEdgeKind.codec : Codec ReviewEdgeKind :=
  .choice [.membership, .grant, .defaultPrivilege] ReviewEdgeKind.name fun a => by cases a <;> rfl

/-- An edge with its ends and its label. -/
def ReviewVisualEdge.codec : Codec ReviewVisualEdge :=
  .record true <| (Fields.required "source" .text)
    |>.both (.required "target" .text)
    |>.both (.required "kind" ReviewEdgeKind.codec)
    |>.both (.required "label" .text)
    |>.imap (fun e => (((e.source, e.target), e.kind), e.label))
      (fun (((source, target), kind), label) => ⟨source, target, kind, label⟩) fun _ => rfl

/-- The graph with its counts, its nodes and its edges. -/
def ReviewVisualGraph.codec : Codec ReviewVisualGraph :=
  .record true <| (Fields.required "schema_version" .text)
    |>.both (.required "meta" ReviewVisualMeta.codec)
    |>.both (.required "nodes" (.list ReviewVisualNode.codec))
    |>.both (.required "edges" (.list ReviewVisualEdge.codec))
    |>.imap (fun g => (((g.schemaVersion, g.info), g.nodes), g.edges))
      (fun (((version, info), nodes), edges) => ⟨version, info, nodes, edges⟩) fun _ => rfl

/-! ## The artifact -/

/-- Why the SQL is left out, by its text. -/
def SqlOmissionReason.codec : Codec SqlOmissionReason :=
  .choice [.sensitiveChanges] (fun | .sensitiveChanges => "sensitive_changes")
    fun a => by cases a; rfl

/-- The SQL of the plan, or why it is left out, by its `status`. -/
def SqlPreview.codec : Codec SqlPreview :=
  .tagged "status"
    [{ name := "available", Payload := String, fields := .required "sql" .text
       make := .available
       payload? := fun | .available sql => some sql | _ => none },
     { name := "omitted", Payload := SqlOmissionReason × List Nat
       fields := (Fields.required "reason" SqlOmissionReason.codec)
         |>.both (.required "sensitive_change_indices" (.list .count))
       make := fun (reason, indices) => .omitted reason indices
       payload? := fun | .omitted reason indices => some (reason, indices) | _ => none }]
    (by decide) (by decide) fun a => by cases a <;> rfl

/-- The text of why the exploration is left out. -/
def ExplorationOmissionReason.name : ExplorationOmissionReason → String
  | .recordedOnlyExport => "recorded_only_export"
  | .sensitiveInputsRemoved => "sensitive_inputs_removed"

/-- Why the exploration is left out, by its text. -/
def ExplorationOmissionReason.codec : Codec ExplorationOmissionReason :=
  .choice [.recordedOnlyExport, .sensitiveInputsRemoved] ExplorationOmissionReason.name
    fun a => by cases a <;> rfl

/-- The exploration section, which is always left out here. -/
def ReviewExploration.codec : Codec ReviewExploration :=
  .tagged "status"
    [{ name := "omitted", Payload := ExplorationOmissionReason
       fields := .required "reason" ExplorationOmissionReason.codec
       make := .omitted
       payload? := fun | .omitted reason => some reason }]
    (by decide) (by decide) fun a => by cases a; rfl

/-- Everything that is recorded; an empty list of omissions is left out. -/
def RecordedReview.codec : Codec RecordedReview :=
  .record true <| (Fields.required "changes" (.list RecordedChange.codec))
    |>.both (.required "phases" (.list RecordedPhase.codec))
    |>.both (.required "findings" (.list RecordedFinding.codec))
    |>.both (.required "visual" ReviewVisualGraph.codec)
    |>.both (.required "sql_preview" SqlPreview.codec)
    |>.both (.listed "omissions" ReviewOmission.codec)
    |>.both (.required "review_fingerprint" .text)
    |>.imap
      (fun r => ((((((r.changes, r.phases), r.findings), r.visual), r.sqlPreview), r.omissions),
        r.reviewFingerprint))
      (fun ((((((changes, phases), findings), visual), preview), omissions), fingerprint) =>
        ⟨changes, phases, findings, visual, preview, omissions, fingerprint⟩)
      fun _ => rfl

/-- The whole artifact. -/
def ReviewArtifact.codec : Codec ReviewArtifact :=
  .record true <| (Fields.required "schema_version" .text)
    |>.both (.required "provenance" ReviewProvenance.codec)
    |>.both (.required "context" ReviewContext.codec)
    |>.both (.required "preflight" (.list PreflightEvidence.codec))
    |>.both (.required "recorded" RecordedReview.codec)
    |>.both (.required "exploration" ReviewExploration.codec)
    |>.imap
      (fun a => (((((a.schemaVersion, a.provenance), a.context), a.preflight), a.recorded),
        a.exploration))
      (fun (((((version, provenance), context), preflight), recorded), exploration) =>
        ⟨version, provenance, context, preflight, recorded, exploration⟩)
      fun _ => rfl

end PgRoles.Explorer

import PgRoles.Lib.Check
import PgRoles.Lib.Json
import PgRoles.Core.Change

/-!
# The canonical approval-effect digest

What an approval binds: every typed change of a plan, in no particular order and with each
password replaced by the source it was derived from, the reconciliation mode, the target, both
halves of the target's identity and the managed scope. The digest hashes the bytes of one JSON
object that holds all of it.

`Change.toJson` is the serialisation of a change; `canonicalEffect` is the projection the digest
uses. The main result says that the bytes determine exactly what is bound
(`canonicalChangeSetBytes_eq_iff`).
-/

set_option autoImplicit false

namespace PgRoles.Core

open Std PgRoles.Lib

/-! ## Serialisation of changes -/

/-- The privileges in the order of their display text. -/
def Privilege.inOrder : List Privilege :=
  [.connect, .create, .delete, .execute, .insert, .references, .select, .temporary, .trigger,
    .truncate, .update, .usage]

/-- A privilege set is written in order. -/
def privilegesJson (privileges : Finset Privilege) : Json :=
  .ofTexts ((Privilege.inOrder.filter (· ∈ privileges)).map Privilege.display)

/-- Settings as an object, in the order of their names. -/
def configJson (config : BTreeMap String String) : Json :=
  .obj (config.toList.map fun entry => (entry.1, .str entry.2))

/-- An expiry and a configuration are written only when there is one. -/
def RoleState.toJson (state : RoleState) : Json :=
  .object ([("login", .bool state.login), ("superuser", .bool state.superuser),
    ("createdb", .bool state.createdb), ("createrole", .bool state.createrole),
    ("inherit", .bool state.inherit), ("replication", .bool state.replication),
    ("bypassrls", .bool state.bypassrls), ("connection_limit", .int state.connectionLimit),
    ("comment", .ofOption state.comment)]
    ++ optionalField "password_valid_until" (state.passwordValidUntil.map .str)
    ++ optionalField "config"
      (if state.config.isEmpty then none else some (configJson state.config)))

/-- An attribute by its name and its value. -/
def RoleAttribute.toJson : RoleAttribute → Json
  | .login b => .tagged "Login" (.bool b)
  | .superuser b => .tagged "Superuser" (.bool b)
  | .createdb b => .tagged "Createdb" (.bool b)
  | .createrole b => .tagged "Createrole" (.bool b)
  | .inherit b => .tagged "Inherit" (.bool b)
  | .replication b => .tagged "Replication" (.bool b)
  | .bypassrls b => .tagged "Bypassrls" (.bool b)
  | .connectionLimit n => .tagged "ConnectionLimit" (.int n)
  | .validUntil v => .tagged "ValidUntil" (.ofOption v)
  | .setConfig parameter value => .tagged "SetConfig" (.ofTexts [parameter, value])
  | .resetConfig parameter => .tagged "ResetConfig" (.str parameter)

/-- A grantee is written as a bare string. -/
def Grantee.toJson (g : Grantee) : Json := .str g.asStr

/-- A scope by its `type`, with the schema of a narrow one. -/
def DefaultPrivilegeScope.toJson : DefaultPrivilegeScope → Json
  | .global => .object [("type", .str "global")]
  | .schema s => .object [("type", .str "schema"), ("schema", .str s)]

/-- The three options of a membership. -/
def MembershipOptions.toJson (o : MembershipOptions) : Json :=
  .object [("inherit", .bool o.inherit), ("admin", .bool o.admin), ("set", .bool o.set)]

/-- What is expected of a membership before the statement runs. -/
def MembershipExpectedState.toJson : MembershipExpectedState → Json
  | .absent => .object [("state", .str "absent")]
  | .present options => .object [("state", .str "present"), ("options", options.toJson)]

/-- What becomes of the SET option. -/
def MembershipSetEffect.toJson : MembershipSetEffect → Json
  | .preserve => .str "preserve"
  | .createFalse => .str "createFalse"

/-- What a membership statement is bound to: its executor and the edges it expects. -/
def MembershipOptionBinding.toJson (b : MembershipOptionBinding) : Json :=
  .object [("executor", .str b.executor), ("setEffect", b.setEffect.toJson),
    ("expected", b.expected.toJson),
    ("expectedEdges", .obj (b.expectedEdges.toList.map fun entry => (entry.1, entry.2.toJson)))]

/-- The fields of a grant or a revoke. -/
def grantFields (key : GrantKey) (privileges : Finset Privilege) : List (String × Json) :=
  [("role", key.role.toJson), ("privileges", privilegesJson privileges),
    ("object_type", .str key.objectType.display), ("schema", .ofOption key.schema),
    ("name", .ofOption key.name)]

/-- The fields of a default-privilege change. -/
def defaultPrivilegeFields (key : DefaultPrivKey) (privileges : Finset Privilege) :
    List (String × Json) :=
  [("owner", .str key.owner), ("scope", key.scope.toJson), ("on_type", .str key.onType.display),
    ("grantee", key.grantee.toJson), ("privileges", privilegesJson privileges)]

/-- The name a change is tagged with. -/
def Change.variant : Change → String
  | .createRole .. => "CreateRole"
  | .createSchema .. => "CreateSchema"
  | .alterSchemaOwner .. => "AlterSchemaOwner"
  | .ensureSchemaOwnerPrivileges .. => "EnsureSchemaOwnerPrivileges"
  | .alterRole .. => "AlterRole"
  | .setComment .. => "SetComment"
  | .grant .. => "Grant"
  | .revoke .. => "Revoke"
  | .setDefaultPrivilege .. => "SetDefaultPrivilege"
  | .revokeDefaultPrivilege .. => "RevokeDefaultPrivilege"
  | .addMember .. => "AddMember"
  | .updateMemberOptions .. => "UpdateMemberOptions"
  | .removeMember .. => "RemoveMember"
  | .reassignOwned .. => "ReassignOwned"
  | .dropOwned .. => "DropOwned"
  | .terminateSessions .. => "TerminateSessions"
  | .setPassword .. => "SetPassword"
  | .dropRole .. => "DropRole"

/-- The fields of a change. Absent grantors, options and bindings are left out. -/
def Change.fields : Change → List (String × Json)
  | .createRole name state => [("name", .str name), ("state", state.toJson)]
  | .createSchema name owner => [("name", .str name), ("owner", .ofOption owner)]
  | .alterSchemaOwner name owner => [("name", .str name), ("owner", .str owner)]
  | .ensureSchemaOwnerPrivileges name owner privileges =>
      [("name", .str name), ("owner", .str owner), ("privileges", privilegesJson privileges)]
  | .alterRole name attributes =>
      [("name", .str name), ("attributes", .arr (attributes.map RoleAttribute.toJson))]
  | .setComment name comment => [("name", .str name), ("comment", .ofOption comment)]
  | .grant key privileges => grantFields key privileges
  | .revoke key privileges grantor =>
      grantFields key privileges ++ optionalField "grantor" (grantor.map .str)
  | .setDefaultPrivilege key privileges => defaultPrivilegeFields key privileges
  | .revokeDefaultPrivilege key privileges => defaultPrivilegeFields key privileges
  | .addMember role member inherit admin =>
      [("role", .str role), ("member", .str member), ("inherit", .bool inherit),
        ("admin", .bool admin)]
  | .updateMemberOptions role member grantor inherit admin binding =>
      [("role", .str role), ("member", .str member), ("grantor", .str grantor)]
        ++ optionalField "inherit" (inherit.map .bool) ++ optionalField "admin" (admin.map .bool)
        ++ optionalField "binding" (binding.map MembershipOptionBinding.toJson)
  | .removeMember role member grantor =>
      [("role", .str role), ("member", .str member)]
        ++ optionalField "grantor" (grantor.map .str)
  | .reassignOwned fromRole toRole => [("from_role", .str fromRole), ("to_role", .str toRole)]
  | .dropOwned role => [("role", .str role)]
  | .terminateSessions role => [("role", .str role)]
  | .setPassword name password => [("name", .str name), ("password", .str password)]
  | .dropRole name => [("name", .str name)]

/-- A change by its variant and its fields. -/
def Change.toJson (c : Change) : Json := .tagged c.variant (.object c.fields)

/-! ## The canonical change set -/

/-- The two complementary answers to "is this the same database?". -/
structure TargetIdentity where
  /-- The system identifier, when the server exposes it. -/
  physical : Option String := none
  /-- The fingerprint of the resolved host, port and database name. -/
  logical : Option String := none
  deriving DecidableEq, Repr

/-- Did the server expose a system identifier? -/
def TargetIdentity.hasPhysical (t : TargetIdentity) : Bool := t.physical.isSome

/-- Why a recorded approval can no longer authorise execution against the database in front of
the operator. -/
inductive TargetIdentityReason where
  | targetChanged
  | targetIdentityUnavailable
  | targetIdentityAppeared
  | physicalIdentityRequired
  deriving DecidableEq, Repr

/-- The text of a reason. -/
def TargetIdentityReason.asStr : TargetIdentityReason → String
  | .targetChanged => "TargetChanged"
  | .targetIdentityUnavailable => "TargetIdentityUnavailable"
  | .targetIdentityAppeared => "TargetIdentityAppeared"
  | .physicalIdentityRequired => "PhysicalIdentityRequired"

/-- What the observed target identity permits. -/
inductive TargetIdentityVerdict where
  | proceed
  | superseded (reason : TargetIdentityReason)
  | blocked (reason : TargetIdentityReason)
  deriving DecidableEq, Repr

/-- One half of the identity, as approved and as observed. -/
def compareIdentityHalf : Option String → Option String → Option TargetIdentityReason
  | some approved, some observed => if approved ≠ observed then some .targetChanged else none
  | some _, none => some .targetIdentityUnavailable
  | none, some _ => some .targetIdentityAppeared
  | none, none => none

/-- Compare the identity an approval was bound to against the one observed now; the physical half
is looked at first. -/
def evaluateTargetIdentity (approved observed : TargetIdentity) (requirePhysicalIdentity : Bool) :
    TargetIdentityVerdict :=
  if requirePhysicalIdentity && (!observed.hasPhysical || !approved.hasPhysical) then
    .blocked .physicalIdentityRequired
  else
    match compareIdentityHalf approved.physical observed.physical with
    | some reason => .superseded reason
    | none =>
        match compareIdentityHalf approved.logical observed.logical with
        | some reason => .superseded reason
        | none => .proceed

/-- Context bound into the digest alongside the effects themselves. -/
structure EffectDigestInputs where
  reconciliationMode : ReconciliationMode
  target : String
  targetIdentity : TargetIdentity
  passwordSourceVersions : BTreeMap String String
  ownedRoles : List String
  ownedSchemas : List String

/-- Refusal to produce a digest that would not bind what it claims to bind. -/
inductive ApprovalDigestError where
  | missingPasswordSource (role : String)
  deriving DecidableEq, Repr

/-- The encoding that the bytes of a change set name first. -/
def approvalEffectEncodingV3 : String := "pgroles.io/approval-effect/v3"

/-- The name of a mode in the source's type. -/
def ReconciliationMode.variant : ReconciliationMode → String
  | .authoritative => "Authoritative"
  | .additive => "Additive"
  | .adopt => "Adopt"

/-- One change in its canonical form. A password is bound by the source it was derived from. -/
def canonicalEffect (c : Change) (versions : BTreeMap String String) :
    Except ApprovalDigestError Json :=
  match c with
  | .setPassword name _ =>
      match versions[name]? with
      | none => .error (.missingPasswordSource name)
      | some source =>
          .ok (.tagged "SetPassword" (.object [("name", .str name),
            ("password_source", .str source)]))
  | c => .ok c.toJson

/-- Effects sorted by their text. -/
def sortEffects (effects : List Json) : List Json :=
  effects.mergeSort fun a b => (compare a.text b.text).isLE

/-- The object whose bytes are hashed. -/
def canonicalChangeSet (effects : List Json) (inputs : EffectDigestInputs) : Json :=
  .obj [("effect_encoding", .str approvalEffectEncodingV3),
    ("reconciliation_mode", .str inputs.reconciliationMode.variant),
    ("target", .str inputs.target),
    ("target_physical_identity", .ofOption inputs.targetIdentity.physical),
    ("target_logical_fingerprint", .ofOption inputs.targetIdentity.logical),
    ("owned_roles", .ofTexts (ExtTreeSet.ofList inputs.ownedRoles compare).toList),
    ("owned_schemas", .ofTexts (ExtTreeSet.ofList inputs.ownedSchemas compare).toList),
    ("effects", .arr (sortEffects effects))]

/-- The exact bytes the digest hashes. -/
def canonicalChangeSetBytes (changes : List Change) (inputs : EffectDigestInputs) :
    Except ApprovalDigestError ByteArray := do
  let effects ← changes.mapM fun c => canonicalEffect c inputs.passwordSourceVersions
  return (canonicalChangeSet effects inputs).bytes

/-- The digest, over a hash of bytes. -/
def computeChangeDigest (hash : ByteArray → String) (changes : List Change)
    (inputs : EffectDigestInputs) : Except ApprovalDigestError String :=
  (canonicalChangeSetBytes changes inputs).map hash

/-! ## Serialisations are told apart -/

theorem privilegesJson_injective : Function.Injective privilegesJson := by
  intro s t h
  have hlist := List.map_injective_iff.2 Privilege.display_injective (Json.ofTexts_injective h)
  ext p
  have hall : p ∈ Privilege.inOrder := by cases p <;> decide
  have hmem : p ∈ Privilege.inOrder.filter (· ∈ s) ↔ p ∈ Privilege.inOrder.filter (· ∈ t) := by
    rw [hlist]
  simpa [List.mem_filter, hall] using hmem

theorem configJson_injective : Function.Injective configJson := by
  intro m n h
  have hinj : Function.Injective fun entry : String × String => (entry.1, Json.str entry.2) := by
    rintro ⟨a, b⟩ ⟨c, d⟩ heq
    simpa using heq
  exact ExtTreeMap.toList_inj.1 (List.map_injective_iff.2 hinj (Json.obj.inj h))

/-- A configuration that is left out when empty is still told apart. -/
theorem config_eq_of_optional {m n : BTreeMap String String}
    (h : (if m.isEmpty then none else some (configJson m)) =
      if n.isEmpty then none else some (configJson n)) : m = n := by
  split_ifs at h with hm hn hn
  · rw [ExtTreeMap.isEmpty_iff.1 hm, ExtTreeMap.isEmpty_iff.1 hn]
  · exact configJson_injective (Option.some.inj h)

theorem map_str_injective : Function.Injective (Option.map Json.str) :=
  Option.map_injective fun _ _ => Json.str.inj

theorem map_bool_injective : Function.Injective (Option.map Json.bool) :=
  Option.map_injective fun _ _ => Json.bool.inj

/-- Different states are different objects. -/
theorem RoleState.toJson_injective : Function.Injective RoleState.toJson := by
  intro a b h
  have hfield := Json.object_eq_iff.1 h
  simp only [List.lookup_append] at hfield
  have hlogin : a.login = b.login := by simpa using hfield "login"
  have hsuperuser : a.superuser = b.superuser := by
    simpa [List.lookup_cons] using hfield "superuser"
  have hcreatedb : a.createdb = b.createdb := by simpa [List.lookup_cons] using hfield "createdb"
  have hcreaterole : a.createrole = b.createrole := by
    simpa [List.lookup_cons] using hfield "createrole"
  have hinherit : a.inherit = b.inherit := by simpa [List.lookup_cons] using hfield "inherit"
  have hreplication : a.replication = b.replication := by
    simpa [List.lookup_cons] using hfield "replication"
  have hbypassrls : a.bypassrls = b.bypassrls := by
    simpa [List.lookup_cons] using hfield "bypassrls"
  have hlimit : a.connectionLimit = b.connectionLimit := by
    simpa [List.lookup_cons] using hfield "connection_limit"
  have hcomment : a.comment = b.comment := Json.ofOption_injective <| by
    simpa [List.lookup_cons] using hfield "comment"
  have huntil : a.passwordValidUntil = b.passwordValidUntil := map_str_injective <| by
    simpa [List.lookup_cons, lookup_optionalField_of_ne] using hfield "password_valid_until"
  have hconfig : a.config = b.config := config_eq_of_optional <| by
    simpa [List.lookup_cons, lookup_optionalField_of_ne] using hfield "config"
  cases a
  cases b
  simp only at *
  subst hlogin hsuperuser hcreatedb hcreaterole hinherit hreplication hbypassrls hlimit hcomment
    huntil hconfig
  rfl

theorem RoleAttribute.toJson_injective : Function.Injective RoleAttribute.toJson := by
  intro a b h
  cases a <;> cases b <;>
    simp [RoleAttribute.toJson, Json.tagged_inj, Json.ofOption_injective.eq_iff,
      Json.ofTexts_injective.eq_iff] at h ⊢ <;> exact h

/-- A grantee is told apart by its string, unless an ordinary role is spelled like PUBLIC. -/
theorem Grantee.toJson_inj {a b : Grantee} (ha : a ≠ .role publicRoleName)
    (hb : b ≠ .role publicRoleName) (h : a.toJson = b.toJson) : a = b := by
  have hstr : a.asStr = b.asStr := Json.str.inj h
  cases a with
  | publicRole =>
    cases b with
    | publicRole => rfl
    | role name => exact absurd (congrArg Grantee.role hstr.symm) hb
  | role name =>
    cases b with
    | publicRole => exact absurd (congrArg Grantee.role hstr) ha
    | role name' => exact congrArg Grantee.role hstr

theorem DefaultPrivilegeScope.toJson_injective :
    Function.Injective DefaultPrivilegeScope.toJson := by
  intro a b h
  cases a with
  | global =>
    cases b with
    | global => rfl
    | schema s => simpa [List.lookup_cons] using Json.object_eq_iff.1 h "schema"
  | schema s =>
    cases b with
    | global => simpa [List.lookup_cons] using Json.object_eq_iff.1 h "schema"
    | schema t => simpa [List.lookup_cons] using Json.object_eq_iff.1 h "schema"

theorem MembershipOptions.toJson_injective : Function.Injective MembershipOptions.toJson := by
  intro a b h
  have hfield := Json.object_eq_iff.1 h
  have hinherit : a.inherit = b.inherit := by simpa using hfield "inherit"
  have hadmin : a.admin = b.admin := by simpa [List.lookup_cons] using hfield "admin"
  have hset : a.set = b.set := by simpa [List.lookup_cons] using hfield "set"
  cases a
  cases b
  simp_all

theorem MembershipExpectedState.toJson_injective :
    Function.Injective MembershipExpectedState.toJson := by
  intro a b h
  cases a with
  | absent =>
    cases b with
    | absent => rfl
    | present o => simpa [List.lookup_cons] using Json.object_eq_iff.1 h "options"
  | present o =>
    cases b with
    | absent => simpa [List.lookup_cons] using Json.object_eq_iff.1 h "options"
    | present o' =>
      have hoptions : o.toJson = o'.toJson := by
        simpa [List.lookup_cons] using Json.object_eq_iff.1 h "options"
      rw [MembershipOptions.toJson_injective hoptions]

theorem MembershipSetEffect.toJson_injective : Function.Injective MembershipSetEffect.toJson := by
  intro a b h
  cases a <;> cases b <;> first | rfl | simp [MembershipSetEffect.toJson] at h

/-- Different bindings are different objects. -/
theorem MembershipOptionBinding.toJson_injective :
    Function.Injective MembershipOptionBinding.toJson := by
  intro a b h
  have hfield := Json.object_eq_iff.1 h
  have hexecutor : a.executor = b.executor := by simpa using hfield "executor"
  have hset : a.setEffect = b.setEffect := MembershipSetEffect.toJson_injective <| by
    simpa [List.lookup_cons] using hfield "setEffect"
  have hexpected : a.expected = b.expected := MembershipExpectedState.toJson_injective <| by
    simpa [List.lookup_cons] using hfield "expected"
  have hedges : a.expectedEdges = b.expectedEdges := by
    have hlist : a.expectedEdges.toList.map (fun entry => (entry.1, entry.2.toJson)) =
        b.expectedEdges.toList.map fun entry => (entry.1, entry.2.toJson) := by
      simpa [List.lookup_cons] using hfield "expectedEdges"
    refine ExtTreeMap.toList_inj.1 (List.map_injective_iff.2 ?_ hlist)
    rintro ⟨k, o⟩ ⟨k', o'⟩ heq
    rw [Prod.mk.injEq] at heq
    exact Prod.ext heq.1 (MembershipOptions.toJson_injective heq.2)
  cases a
  cases b
  simp only at hexecutor hset hexpected hedges
  subst hexecutor hset hexpected hedges
  rfl

/-- The grantees of a change, where it has one. -/
def Change.grantee? : Change → Option Grantee
  | .grant key _ | .revoke key _ _ => some key.role
  | .setDefaultPrivilege key _ | .revokeDefaultPrivilege key _ => some key.grantee
  | _ => none

/-- No ordinary role of the change is spelled like the PUBLIC pseudo-role. -/
def Change.NamesNoPublicRole (c : Change) : Prop := c.grantee? ≠ some (.role publicRoleName)

/-- The fields of a grant tell its key, where no role is named PUBLIC. -/
theorem grantKey_eq_of_fields {k l : GrantKey} {p q : Finset Privilege}
    {rest rest' : List (String × Json)}
    (hk : k.role ≠ .role publicRoleName) (hl : l.role ≠ .role publicRoleName)
    (h : ∀ f, (grantFields k p ++ rest).lookup f = (grantFields l q ++ rest').lookup f) :
    k = l ∧ p = q := by
  simp only [List.lookup_append, grantFields] at h
  have hrole : k.role = l.role := Grantee.toJson_inj hk hl <| by simpa using h "role"
  have hprivileges : p = q := privilegesJson_injective <| by
    simpa [List.lookup_cons] using h "privileges"
  have htype : k.objectType = l.objectType := ObjectType.display_injective <| by
    simpa [List.lookup_cons] using h "object_type"
  have hschema : k.schema = l.schema := Json.ofOption_injective <| by
    simpa [List.lookup_cons] using h "schema"
  have hname : k.name = l.name := Json.ofOption_injective <| by
    simpa [List.lookup_cons] using h "name"
  exact ⟨GrantKey.fields_injective (by simp [GrantKey.fields, hrole, htype, hschema, hname]),
    hprivileges⟩

/-- The fields of a default privilege tell its key, where no role is named PUBLIC. -/
theorem defaultPrivKey_eq_of_fields {k l : DefaultPrivKey} {p q : Finset Privilege}
    (hk : k.grantee ≠ .role publicRoleName) (hl : l.grantee ≠ .role publicRoleName)
    (h : ∀ f, (defaultPrivilegeFields k p).lookup f = (defaultPrivilegeFields l q).lookup f) :
    k = l ∧ p = q := by
  simp only [defaultPrivilegeFields] at h
  have howner : k.owner = l.owner := by simpa using h "owner"
  have hscope : k.scope = l.scope := DefaultPrivilegeScope.toJson_injective <| by
    simpa [List.lookup_cons] using h "scope"
  have htype : k.onType = l.onType := ObjectType.display_injective <| by
    simpa [List.lookup_cons] using h "on_type"
  have hgrantee : k.grantee = l.grantee := Grantee.toJson_inj hk hl <| by
    simpa [List.lookup_cons] using h "grantee"
  have hprivileges : p = q := privilegesJson_injective <| by
    simpa [List.lookup_cons] using h "privileges"
  exact ⟨DefaultPrivKey.fields_injective
    (by simp [DefaultPrivKey.fields, howner, hscope, htype, hgrantee]), hprivileges⟩

/-- The variant and the fields tell the change. -/
theorem Change.eq_of_fields {c d : Change} (hc : c.NamesNoPublicRole) (hd : d.NamesNoPublicRole)
    (hvariant : c.variant = d.variant) (h : ∀ f, c.fields.lookup f = d.fields.lookup f) : c = d := by
  cases c with
  | createRole name state =>
    cases d with
    | createRole name' state' =>
      have hname : name = name' := by simpa [Change.fields] using h "name"
      have hstate : state = state' := RoleState.toJson_injective <| by
        simpa [Change.fields, List.lookup_cons] using h "state"
      rw [hname, hstate]
    | _ => simp [Change.variant] at hvariant
  | createSchema name owner =>
    cases d with
    | createSchema name' owner' =>
      have hname : name = name' := by simpa [Change.fields] using h "name"
      have howner : owner = owner' := Json.ofOption_injective <| by
        simpa [Change.fields, List.lookup_cons] using h "owner"
      rw [hname, howner]
    | _ => simp [Change.variant] at hvariant
  | alterSchemaOwner name owner =>
    cases d with
    | alterSchemaOwner name' owner' =>
      have hname : name = name' := by simpa [Change.fields] using h "name"
      have howner : owner = owner' := by simpa [Change.fields, List.lookup_cons] using h "owner"
      rw [hname, howner]
    | _ => simp [Change.variant] at hvariant
  | ensureSchemaOwnerPrivileges name owner privileges =>
    cases d with
    | ensureSchemaOwnerPrivileges name' owner' privileges' =>
      have hname : name = name' := by simpa [Change.fields] using h "name"
      have howner : owner = owner' := by simpa [Change.fields, List.lookup_cons] using h "owner"
      have hprivileges : privileges = privileges' := privilegesJson_injective <| by
        simpa [Change.fields, List.lookup_cons] using h "privileges"
      rw [hname, howner, hprivileges]
    | _ => simp [Change.variant] at hvariant
  | alterRole name attributes =>
    cases d with
    | alterRole name' attributes' =>
      have hname : name = name' := by simpa [Change.fields] using h "name"
      have hattributes : attributes = attributes' :=
        List.map_injective_iff.2 RoleAttribute.toJson_injective <| by
          simpa [Change.fields, List.lookup_cons] using h "attributes"
      rw [hname, hattributes]
    | _ => simp [Change.variant] at hvariant
  | setComment name comment =>
    cases d with
    | setComment name' comment' =>
      have hname : name = name' := by simpa [Change.fields] using h "name"
      have hcomment : comment = comment' := Json.ofOption_injective <| by
        simpa [Change.fields, List.lookup_cons] using h "comment"
      rw [hname, hcomment]
    | _ => simp [Change.variant] at hvariant
  | grant key privileges =>
    cases d with
    | grant key' privileges' =>
      have hfields : ∀ f, (grantFields key privileges ++ []).lookup f =
          (grantFields key' privileges' ++ []).lookup f := by simpa [Change.fields] using h
      obtain ⟨rfl, rfl⟩ := grantKey_eq_of_fields (fun hrole => hc (congrArg some hrole))
        (fun hrole => hd (congrArg some hrole)) hfields
      rfl
    | _ => simp [Change.variant] at hvariant
  | revoke key privileges grantor =>
    cases d with
    | revoke key' privileges' grantor' =>
      obtain ⟨rfl, rfl⟩ := grantKey_eq_of_fields (fun hrole => hc (congrArg some hrole))
        (fun hrole => hd (congrArg some hrole)) h
      have hgrantor : grantor = grantor' := map_str_injective <| by
        simpa [Change.fields, List.lookup_append, grantFields, List.lookup_cons] using h "grantor"
      rw [hgrantor]
    | _ => simp [Change.variant] at hvariant
  | setDefaultPrivilege key privileges =>
    cases d with
    | setDefaultPrivilege key' privileges' =>
      obtain ⟨rfl, rfl⟩ := defaultPrivKey_eq_of_fields (fun hrole => hc (congrArg some hrole))
        (fun hrole => hd (congrArg some hrole)) h
      rfl
    | _ => simp [Change.variant] at hvariant
  | revokeDefaultPrivilege key privileges =>
    cases d with
    | revokeDefaultPrivilege key' privileges' =>
      obtain ⟨rfl, rfl⟩ := defaultPrivKey_eq_of_fields (fun hrole => hc (congrArg some hrole))
        (fun hrole => hd (congrArg some hrole)) h
      rfl
    | _ => simp [Change.variant] at hvariant
  | addMember role member inherit admin =>
    cases d with
    | addMember role' member' inherit' admin' =>
      have hrole : role = role' := by simpa [Change.fields] using h "role"
      have hmember : member = member' := by
        simpa [Change.fields, List.lookup_cons] using h "member"
      have hinherit : inherit = inherit' := by
        simpa [Change.fields, List.lookup_cons] using h "inherit"
      have hadmin : admin = admin' := by simpa [Change.fields, List.lookup_cons] using h "admin"
      rw [hrole, hmember, hinherit, hadmin]
    | _ => simp [Change.variant] at hvariant
  | updateMemberOptions role member grantor inherit admin binding =>
    cases d with
    | updateMemberOptions role' member' grantor' inherit' admin' binding' =>
      simp only [Change.fields, List.lookup_append] at h
      have hrole : role = role' := by simpa using h "role"
      have hmember : member = member' := by simpa [List.lookup_cons] using h "member"
      have hgrantor : grantor = grantor' := by simpa [List.lookup_cons] using h "grantor"
      have hinherit : inherit = inherit' := map_bool_injective <| by
        simpa [List.lookup_cons, lookup_optionalField_of_ne] using h "inherit"
      have hadmin : admin = admin' := map_bool_injective <| by
        simpa [List.lookup_cons, lookup_optionalField_of_ne] using h "admin"
      have hbinding : binding = binding' :=
        Option.map_injective MembershipOptionBinding.toJson_injective <| by
          simpa [List.lookup_cons, lookup_optionalField_of_ne] using h "binding"
      rw [hrole, hmember, hgrantor, hinherit, hadmin, hbinding]
    | _ => simp [Change.variant] at hvariant
  | removeMember role member grantor =>
    cases d with
    | removeMember role' member' grantor' =>
      simp only [Change.fields, List.lookup_append] at h
      have hrole : role = role' := by simpa using h "role"
      have hmember : member = member' := by simpa [List.lookup_cons] using h "member"
      have hgrantor : grantor = grantor' := map_str_injective <| by
        simpa [List.lookup_cons] using h "grantor"
      rw [hrole, hmember, hgrantor]
    | _ => simp [Change.variant] at hvariant
  | reassignOwned fromRole toRole =>
    cases d with
    | reassignOwned fromRole' toRole' =>
      have hfrom : fromRole = fromRole' := by simpa [Change.fields] using h "from_role"
      have hto : toRole = toRole' := by simpa [Change.fields, List.lookup_cons] using h "to_role"
      rw [hfrom, hto]
    | _ => simp [Change.variant] at hvariant
  | dropOwned role =>
    cases d with
    | dropOwned role' =>
      have hrole : role = role' := by simpa [Change.fields] using h "role"
      rw [hrole]
    | _ => simp [Change.variant] at hvariant
  | terminateSessions role =>
    cases d with
    | terminateSessions role' =>
      have hrole : role = role' := by simpa [Change.fields] using h "role"
      rw [hrole]
    | _ => simp [Change.variant] at hvariant
  | setPassword name password =>
    cases d with
    | setPassword name' password' =>
      have hname : name = name' := by simpa [Change.fields] using h "name"
      have hpassword : password = password' := by
        simpa [Change.fields, List.lookup_cons] using h "password"
      rw [hname, hpassword]
    | _ => simp [Change.variant] at hvariant
  | dropRole name =>
    cases d with
    | dropRole name' =>
      have hname : name = name' := by simpa [Change.fields] using h "name"
      rw [hname]
    | _ => simp [Change.variant] at hvariant

/-! ## What the bytes bind -/

/-- A change as it is bound: a password by the source it was derived from. -/
def Change.bound (versions : BTreeMap String String) : Change → Change
  | .setPassword name _ => .setPassword name (versions[name]?.getD "")
  | c => c

/-- The changes of a plan as they are bound. -/
def boundEffects (inputs : EffectDigestInputs) (changes : List Change) : List Change :=
  changes.map (Change.bound inputs.passwordSourceVersions)

/-- The fields of a bound change. -/
def Change.boundFields : Change → List (String × Json)
  | .setPassword name source => [("name", .str name), ("password_source", .str source)]
  | c => c.fields

/-- A bound change by its variant and its fields. -/
def Change.boundJson (c : Change) : Json := .tagged c.variant (.object c.boundFields)

/-- The change is no password, or the role has a source version. -/
def Change.HasSource (versions : BTreeMap String String) : Change → Prop
  | .setPassword name _ => versions[name]?.isSome = true
  | _ => True

theorem canonicalEffect_eq_ok_iff {c : Change} {versions : BTreeMap String String} {j : Json} :
    canonicalEffect c versions = .ok j ↔
      c.HasSource versions ∧ j = (c.bound versions).boundJson := by
  cases c with
  | setPassword name password =>
    cases hsource : versions[name]? with
    | none => simp [canonicalEffect, Change.HasSource, hsource]
    | some source =>
      simp [canonicalEffect, Change.HasSource, hsource, Change.bound, Change.boundJson,
        Change.boundFields, Change.variant, eq_comm]
  | _ => simp [canonicalEffect, Change.HasSource, Change.bound, Change.boundJson,
      Change.boundFields, Change.toJson, eq_comm]

/-- So do all changes of a plan. -/
theorem mapM_canonicalEffect_eq_ok_iff {changes : List Change} {versions : BTreeMap String String}
    {effects : List Json} :
    (changes.mapM fun c => canonicalEffect c versions) = .ok effects ↔
      (∀ c ∈ changes, c.HasSource versions) ∧
        effects = changes.map fun c => (c.bound versions).boundJson := by
  rw [mapM_eq_ok]
  induction changes generalizing effects with
  | nil => simp
  | cons c changes ih =>
    simp only [List.forall₂_cons_left_iff, ih, List.forall_mem_cons, List.map_cons]
    simp only [canonicalEffect_eq_ok_iff]
    constructor
    · rintro ⟨j, rest, ⟨hsource, rfl⟩, ⟨hall, rfl⟩, rfl⟩
      exact ⟨⟨hsource, hall⟩, rfl⟩
    · rintro ⟨⟨hsource, hall⟩, rfl⟩
      exact ⟨_, _, ⟨hsource, rfl⟩, ⟨hall, rfl⟩, rfl⟩

/-- The bytes exist exactly when every password has a source, and are then those of the bound
effects. -/
theorem canonicalChangeSetBytes_eq_ok_iff {changes : List Change} {inputs : EffectDigestInputs}
    {bytes : ByteArray} :
    canonicalChangeSetBytes changes inputs = .ok bytes ↔
      (∀ c ∈ changes, c.HasSource inputs.passwordSourceVersions) ∧
        bytes = (canonicalChangeSet ((boundEffects inputs changes).map Change.boundJson)
          inputs).bytes := by
  rw [canonicalChangeSetBytes, bind_eq_ok]
  simp only [mapM_canonicalEffect_eq_ok_iff, boundEffects, List.map_map, Function.comp_def]
  constructor
  · rintro ⟨effects, ⟨hall, rfl⟩, hbytes⟩
    exact ⟨hall, (Except.ok.inj hbytes).symm⟩
  · rintro ⟨hall, rfl⟩
    exact ⟨_, ⟨hall, rfl⟩, rfl⟩

/-- Different bound changes are different values. -/
theorem Change.boundJson_inj {c d : Change} (hc : c.NamesNoPublicRole) (hd : d.NamesNoPublicRole)
    (h : c.boundJson = d.boundJson) : c = d := by
  obtain ⟨hvariant, hobject⟩ := Json.tagged_inj.1 h
  have hfield := Json.object_eq_iff.1 hobject
  by_cases hpassword : c.variant = "SetPassword"
  · -- Both are passwords, bound by name and source.
    cases c with
    | setPassword name source =>
      cases d with
      | setPassword name' source' =>
        have hname : name = name' := by simpa [Change.boundFields] using hfield "name"
        have hsource : source = source' := by
          simpa [Change.boundFields, List.lookup_cons] using hfield "password_source"
        rw [hname, hsource]
      | _ => simp [Change.variant] at hvariant
    | _ => simp [Change.variant] at hpassword
  · have hplain : ∀ e : Change, e.variant ≠ "SetPassword" → e.boundFields = e.fields := by
      intro e he
      cases e with
      | setPassword name source => exact absurd rfl he
      | _ => rfl
    rw [hplain c hpassword, hplain d (hvariant ▸ hpassword)] at hfield
    exact Change.eq_of_fields hc hd hvariant hfield

theorem Change.namesNoPublicRole_bound {c : Change} {versions : BTreeMap String String}
    (h : c.NamesNoPublicRole) : (c.bound versions).NamesNoPublicRole := by
  cases c with
  | setPassword name source => exact nofun
  | _ => exact h

/-- The values of two plans are the same up to order when the changes are. -/
theorem perm_map_boundJson_iff {l l' : List Change} (hl : ∀ c ∈ l, c.NamesNoPublicRole)
    (hl' : ∀ c ∈ l', c.NamesNoPublicRole) :
    (l.map Change.boundJson).Perm (l'.map Change.boundJson) ↔ l.Perm l' := by
  constructor
  · intro h
    -- A left inverse on the changes that name no role like PUBLIC.
    have : Nonempty Change := ⟨.dropRole ""⟩
    let inv := Function.invFunOn Change.boundJson {c | c.NamesNoPublicRole}
    have hinv : ∀ c, c.NamesNoPublicRole → inv c.boundJson = c := by
      intro c hc
      have hex : ∃ d ∈ {c : Change | c.NamesNoPublicRole}, d.boundJson = c.boundJson := ⟨c, hc, rfl⟩
      exact Change.boundJson_inj (Function.invFunOn_mem hex) hc (Function.invFunOn_eq hex)
    have hback : ∀ k : List Change, (∀ c ∈ k, c.NamesNoPublicRole) →
        (k.map Change.boundJson).map inv = k := by
      intro k hk
      rw [List.map_map]
      conv_rhs => rw [← List.map_id k]
      exact List.map_congr_left fun c hc => hinv c (hk c hc)
    rw [← hback l hl, ← hback l' hl']
    exact h.map inv
  · intro h
    exact h.map _

/-- Sorting forgets the order and nothing else. -/
theorem sortEffects_eq_iff {l l' : List Json} : sortEffects l = sortEffects l' ↔ l.Perm l' := by
  constructor
  · intro h
    have hsorted : (sortEffects l).Perm l' := h ▸ List.mergeSort_perm l' _
    exact (List.mergeSort_perm l _).symm.trans hsorted
  · intro h
    have htrans : ∀ a b c : Json, (compare a.text b.text).isLE = true →
        (compare b.text c.text).isLE = true → (compare a.text c.text).isLE = true :=
      fun _ _ _ => TransCmp.isLE_trans
    have htotal : ∀ a b : Json,
        ((compare a.text b.text).isLE || (compare b.text a.text).isLE) = true := by
      intro a b
      rw [show compare b.text a.text = (compare a.text b.text).swap from OrientedOrd.eq_swap]
      cases compare a.text b.text <;> rfl
    refine List.Perm.eq_of_pairwise (fun a b _ _ hab hba => ?_)
      (List.pairwise_mergeSort htrans htotal l) (List.pairwise_mergeSort htrans htotal l') ?_
    · apply Json.text_injective
      apply LawfulEqOrd.eq_of_compare
      rw [show compare b.text a.text = (compare a.text b.text).swap from OrientedOrd.eq_swap] at hba
      cases hcmp : compare a.text b.text <;> simp_all
    · exact (List.mergeSort_perm l _).trans (h.trans (List.mergeSort_perm l' _).symm)

theorem ofList_toList_eq_iff {l l' : List String} :
    (ExtTreeSet.ofList l compare).toList = (ExtTreeSet.ofList l' compare).toList ↔
      ∀ s, s ∈ l ↔ s ∈ l' := by
  rw [ExtTreeSet.toList_inj]
  constructor
  · intro h s
    have hmem : s ∈ ExtTreeSet.ofList l compare ↔ s ∈ ExtTreeSet.ofList l' compare := by rw [h]
    simpa [ExtTreeSet.mem_ofList] using hmem
  · intro h
    ext s
    simpa [ExtTreeSet.mem_ofList] using h s

theorem ReconciliationMode.variant_injective : Function.Injective ReconciliationMode.variant := by
  intro a b h
  cases a <;> cases b <;> first | rfl | exact absurd h (by decide)

/-- What two change sets share when their bytes are the same. -/
structure SameBinding (xs : List Change) (i : EffectDigestInputs) (ys : List Change)
    (j : EffectDigestInputs) : Prop where
  effects : (boundEffects i xs).Perm (boundEffects j ys)
  mode : i.reconciliationMode = j.reconciliationMode
  target : i.target = j.target
  physical : i.targetIdentity.physical = j.targetIdentity.physical
  logical : i.targetIdentity.logical = j.targetIdentity.logical
  ownedRoles : ∀ r, r ∈ i.ownedRoles ↔ r ∈ j.ownedRoles
  ownedSchemas : ∀ s, s ∈ i.ownedSchemas ↔ s ∈ j.ownedSchemas

/-- What the canonical form of a change set binds. -/
theorem canonicalChangeSet_eq_iff {xs ys : List Change} {i j : EffectDigestInputs}
    (hx : ∀ c ∈ xs, c.NamesNoPublicRole) (hy : ∀ c ∈ ys, c.NamesNoPublicRole) :
    canonicalChangeSet ((boundEffects i xs).map Change.boundJson) i =
      canonicalChangeSet ((boundEffects j ys).map Change.boundJson) j ↔
        SameBinding xs i ys j := by
  have hbound : ∀ (k : EffectDigestInputs) (zs : List Change), (∀ c ∈ zs, c.NamesNoPublicRole) →
      ∀ c ∈ boundEffects k zs, c.NamesNoPublicRole := by
    intro k zs hz c hc
    obtain ⟨d, hd, rfl⟩ := List.mem_map.1 hc
    exact Change.namesNoPublicRole_bound (hz d hd)
  simp only [canonicalChangeSet, Json.obj.injEq, List.cons.injEq, Prod.mk.injEq, true_and,
    and_true, Json.str.injEq, Json.arr.injEq, ReconciliationMode.variant_injective.eq_iff,
    Json.ofOption_injective.eq_iff, Json.ofTexts_injective.eq_iff, ofList_toList_eq_iff,
    sortEffects_eq_iff, perm_map_boundJson_iff (hbound i xs hx) (hbound j ys hy)]
  constructor
  · rintro ⟨hmode, htarget, hphysical, hlogical, hroles, hschemas, heffects⟩
    exact ⟨heffects, hmode, htarget, hphysical, hlogical, hroles, hschemas⟩
  · rintro ⟨heffects, hmode, htarget, hphysical, hlogical, hroles, hschemas⟩
    exact ⟨hmode, htarget, hphysical, hlogical, hroles, hschemas, heffects⟩

/-! ## The digest binds the effects and nothing else -/

/-- Two change sets with bytes have the same bytes exactly when they bind the same; there are no
bytes exactly when some password names a role without a source version. Roles spelled like the
PUBLIC pseudo-role are excluded, as manifest validation excludes them. -/
theorem canonicalChangeSetBytes_eq_iff (xs ys : List Change) (i j : EffectDigestInputs)
    (hx : ∀ c ∈ xs, c.NamesNoPublicRole) (hy : ∀ c ∈ ys, c.NamesNoPublicRole) :
    (∀ bytes bytes', canonicalChangeSetBytes xs i = .ok bytes →
      canonicalChangeSetBytes ys j = .ok bytes' →
        (bytes = bytes' ↔ SameBinding xs i ys j)) ∧
      ((∃ e, canonicalChangeSetBytes xs i = .error e) ↔
        ∃ name verifier, .setPassword name verifier ∈ xs ∧
          i.passwordSourceVersions[name]? = none) := by
  constructor
  · intro bytes bytes' hbytes hbytes'
    obtain ⟨-, rfl⟩ := canonicalChangeSetBytes_eq_ok_iff.1 hbytes
    obtain ⟨-, rfl⟩ := canonicalChangeSetBytes_eq_ok_iff.1 hbytes'
    rw [Json.bytes_injective.eq_iff, canonicalChangeSet_eq_iff hx hy]
  · have hok : (∃ bytes, canonicalChangeSetBytes xs i = .ok bytes) ↔
        ∀ c ∈ xs, c.HasSource i.passwordSourceVersions := by
      simp [canonicalChangeSetBytes_eq_ok_iff]
    have hmissing : (∃ name verifier, .setPassword name verifier ∈ xs ∧
        i.passwordSourceVersions[name]? = none) ↔
          ¬ ∀ c ∈ xs, c.HasSource i.passwordSourceVersions := by
      constructor
      · rintro ⟨name, verifier, hmem, hnone⟩ hall
        have hsource := hall _ hmem
        rw [Change.HasSource, hnone] at hsource
        cases hsource
      · intro hnot
        push Not at hnot
        obtain ⟨c, hmem, hsource⟩ := hnot
        cases c with
        | setPassword name verifier =>
          exact ⟨name, verifier, hmem, by simpa [Change.HasSource] using hsource⟩
        | _ => exact absurd trivial hsource
    rw [hmissing, ← hok]
    cases canonicalChangeSetBytes xs i <;> simp

/-- Inputs with one recorded password source. -/
def reportingInputs : EffectDigestInputs where
  reconciliationMode := .authoritative
  target := "prod/db"
  targetIdentity := { logical := some "db.internal:5432/app" }
  passwordSourceVersions := (∅ : BTreeMap String String).insert "app" "role-passwords:app:7"
  ownedRoles := ["app", "old"]
  ownedSchemas := []

/-- A re-salted verifier and another emission order keep the bytes. -/
theorem resalted_keeps_bytes : ∃ bytes,
    canonicalChangeSetBytes [.setPassword "app" "SCRAM-SHA-256$saltA", .dropRole "old"]
      reportingInputs = .ok bytes ∧
    canonicalChangeSetBytes [.dropRole "old", .setPassword "app" "SCRAM-SHA-256$saltB"]
      reportingInputs = .ok bytes := by
  have hsource : "app" ∈ reportingInputs.passwordSourceVersions := by
    simp [reportingInputs]
  obtain ⟨bytes, hbytes⟩ : ∃ bytes, canonicalChangeSetBytes
      [.setPassword "app" "SCRAM-SHA-256$saltA", .dropRole "old"] reportingInputs = .ok bytes :=
    ⟨_, canonicalChangeSetBytes_eq_ok_iff.2 ⟨by simp [hsource, Change.HasSource], rfl⟩⟩
  obtain ⟨bytes', hbytes'⟩ : ∃ bytes, canonicalChangeSetBytes
      [.dropRole "old", .setPassword "app" "SCRAM-SHA-256$saltB"] reportingInputs = .ok bytes :=
    ⟨_, canonicalChangeSetBytes_eq_ok_iff.2 ⟨by simp [hsource, Change.HasSource], rfl⟩⟩
  have hsame := (canonicalChangeSetBytes_eq_iff _ _ reportingInputs reportingInputs
    (by simp [Change.NamesNoPublicRole, Change.grantee?])
    (by simp [Change.NamesNoPublicRole, Change.grantee?])).1 bytes bytes' hbytes hbytes'
  refine ⟨bytes, hbytes, ?_⟩
  rw [hbytes', hsame.2 ⟨.swap _ _ _, rfl, rfl, rfl, rfl, fun _ => Iff.rfl, fun _ => Iff.rfl⟩]

end PgRoles.Core

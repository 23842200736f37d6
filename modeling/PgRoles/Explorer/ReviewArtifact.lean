import PgRoles.Core.BundlePlan
import PgRoles.Explorer.Simulate

/-!
# The review artifact

A portable record of a plan that has been produced: where it comes from, what was checked before it,
the changes without their sensitive values, what each phase does to the executor's reach, the
findings, the graph after the plan and the SQL. Every type of the format is owned by it, so the
analysis is copied into types of the format's own. Values that are left out are listed with the
change they are left out of.
-/

set_option autoImplicit false

namespace PgRoles.Explorer

open Std PgRoles.Lib PgRoles.Core

/-! ## Provenance and context -/

/-- The policy that was planned. -/
structure PolicyProvenance where
  contentDigest : String
  commit : Option String
  deriving DecidableEq

/-- Where an artifact comes from. -/
structure ReviewProvenance where
  toolVersion : String
  capturedAt : String
  policy : PolicyProvenance
  targetLabel : String
  pgMajorVersion : Int
  deriving DecidableEq

/-- A schema of the managed scope, and which parts of it are managed. -/
structure ReviewManagedSchema where
  name : String
  owner : Bool
  bindings : Bool
  deriving DecidableEq

/-- Roles and schema facets the reviewed policy manages. -/
structure ReviewManagedScope where
  roles : List String
  schemas : List ReviewManagedSchema
  deriving DecidableEq

/-- A role of the review, and whether it is a superuser where that was read. -/
structure ReviewIdentity where
  role : String
  superuser : Option Bool
  deriving DecidableEq

/-- The reconciliation modes as an artifact spells them. -/
inductive ReviewMode where
  | authoritative
  | additive
  | adopt
  deriving DecidableEq

/-- What a plan was made under: the mode, the scope and the roles. -/
structure ReviewContext where
  mode : ReviewMode
  managedScope : Option ReviewManagedScope
  inspector : ReviewIdentity
  intendedExecutor : ReviewIdentity
  authorityGraphComplete : Bool
  deriving DecidableEq

/-! ## Preflight evidence -/

/-- The checks that evidence can be of. -/
inductive EvidenceCheck where
  | defaultPrivilegeOwner
  | predefinedRoleMembership
  | grantorReachability
  | revokeAclOwnership
  | planOrderAuthority
  | dropRoleSafety
  | schemaOwnerTransfer
  deriving DecidableEq

/-- Whether evidence covers the whole plan or a part of it. -/
inductive EvidenceCoverageKind where
  | complete
  | targeted
  deriving DecidableEq

/-- What was checked, and on which changes. -/
structure EvidenceCoverage where
  kind : EvidenceCoverageKind
  checksPerformed : List EvidenceCheck
  checkedChangeIndices : List Nat
  uncheckedChangeIndices : List Nat
  deriving DecidableEq

/-- An issue that a preflight found. -/
structure PreflightFinding where
  code : String
  message : String
  role : Option String
  deriving DecidableEq

/-- The preflights of a plan. -/
inductive PreflightCheck where
  | executorAuthority
  | roleDropSafety
  | serverCompatibility
  | schemaOwnerTransfer
  deriving DecidableEq

/-- How a preflight ended. -/
inductive EvidenceStatus where
  | passed
  | failed
  | notRun
  | unknown
  deriving DecidableEq

/-- What a preflight found, and what it covers. -/
structure PreflightEvidence where
  check : PreflightCheck
  status : EvidenceStatus
  actorRole : Option String
  issueCount : Nat
  issues : List PreflightFinding
  coverage : EvidenceCoverage
  deriving DecidableEq

/-! ## Recorded changes -/

/-- Why a value is left out. -/
inductive OmissionReason where
  | sensitiveValue
  deriving DecidableEq

/-- A field whose value is left out. -/
structure ReviewOmission where
  field : String
  reason : OmissionReason
  deriving DecidableEq

/-- Where a default-privilege rule applies; `global` is the owner-wide layer. -/
inductive ReviewDefaultPrivilegeScope where
  | global
  | schema (schema : String)
  deriving DecidableEq

/-- The scope as an artifact spells it. -/
def ReviewDefaultPrivilegeScope.ofScope : DefaultPrivilegeScope → ReviewDefaultPrivilegeScope
  | .global => .global
  | .schema s => .schema s

/-- A managed key with its parts written out. -/
inductive ReviewManagedKey where
  | role (name : String)
  | schemaFacet (schema : String) (facet : SchemaBindingFacet)
  | grant (role : String) (objectType : ObjectType) (schema name : Option String)
  | defaultPrivilege (owner : String) (scope : ReviewDefaultPrivilegeScope) (onType : ObjectType)
      (grantee : String)
  | membership (role member : String)
  deriving DecidableEq

/-- The bundle document that owns a change, and the managed key it owns it by. -/
structure ReviewChangeSource where
  document : String
  managedKey : ReviewManagedKey
  deriving DecidableEq

/-- The parts of a managed key. -/
def ReviewManagedKey.ofKey : ManagedOwnershipKey → ReviewManagedKey
  | .role name => .role name
  | .schemaFacet key => .schemaFacet key.schema key.facet
  | .grant key => .grant key.role.asStr key.objectType key.schema key.name
  | .defaultPrivilege key =>
      .defaultPrivilege key.owner (.ofScope key.scope) key.onType key.grantee.asStr
  | .membership key => .membership key.role key.member

/-- The source of a change that a bundle's document owns. -/
def ReviewChangeSource.ofOwner (owner : BundleChangeOwner) : ReviewChangeSource :=
  ⟨owner.document, .ofKey owner.managedKey⟩

/-- How much attention a change asks for. -/
inductive ReviewPriority where
  | high
  | review
  | informational
  deriving DecidableEq

/-- Conservative review priority by the kind of a change, not an assessment of its risk. -/
def priority : Change → ReviewPriority
  | .createRole _ state =>
      if state.superuser || state.createrole || state.createdb || state.replication ||
        state.bypassrls then .high else .review
  | .grant key _ => if key.role.isPublic then .high else .review
  | .setDefaultPrivilege key _ => if key.grantee.isPublic then .high else .review
  | .addMember _ _ _ admin => if admin then .high else .review
  | .dropRole .. | .dropOwned .. | .terminateSessions .. | .reassignOwned .. | .alterSchemaOwner ..
  | .alterRole .. | .revoke .. | .revokeDefaultPrivilege .. | .updateMemberOptions ..
  | .removeMember .. | .setPassword .. => .high
  | .createSchema .. | .ensureSchemaOwnerPrivileges .. => .review
  | .setComment .. => .informational

/-- A role without the text of its comment and the values of its settings. -/
structure ReviewRoleState where
  login : Bool
  superuser : Bool
  createdb : Bool
  createrole : Bool
  inherit : Bool
  replication : Bool
  bypassrls : Bool
  connectionLimit : Int
  commentPresent : Bool
  passwordValidUntil : Option String
  configParameters : List String
  deriving DecidableEq

/-- What is kept of a role. -/
def ReviewRoleState.ofState (state : RoleState) : ReviewRoleState where
  login := state.login
  superuser := state.superuser
  createdb := state.createdb
  createrole := state.createrole
  inherit := state.inherit
  replication := state.replication
  bypassrls := state.bypassrls
  connectionLimit := state.connectionLimit
  commentPresent := state.comment.isSome
  passwordValidUntil := state.passwordValidUntil
  configParameters := state.config.keys

/-- A role attribute; a setting keeps its parameter alone. -/
inductive ReviewRoleAttribute where
  | login (value : Bool)
  | superuser (value : Bool)
  | createdb (value : Bool)
  | createrole (value : Bool)
  | inherit (value : Bool)
  | replication (value : Bool)
  | bypassrls (value : Bool)
  | connectionLimit (value : Int)
  | validUntil (value : Option String)
  | setConfig (parameter : String)
  | resetConfig (parameter : String)
  deriving DecidableEq

/-- A plan change with sensitive values removed. -/
inductive ReviewChange where
  | createRole (name : String) (state : ReviewRoleState)
  | createSchema (name : String) (owner : Option String)
  | alterSchemaOwner (name owner : String)
  | ensureSchemaOwnerPrivileges (name owner : String) (privileges : Finset Privilege)
  | alterRole (name : String) (attributes : List ReviewRoleAttribute)
  | setComment (name : String) (commentPresent : Bool)
  | grant (role : String) (privileges : Finset Privilege) (objectType : ObjectType)
      (schema name : Option String)
  | revoke (role : String) (privileges : Finset Privilege) (objectType : ObjectType)
      (schema name grantor : Option String)
  | setDefaultPrivilege (owner : String) (scope : ReviewDefaultPrivilegeScope)
      (onType : ObjectType) (grantee : String) (privileges : Finset Privilege)
  | revokeDefaultPrivilege (owner : String) (scope : ReviewDefaultPrivilegeScope)
      (onType : ObjectType) (grantee : String) (privileges : Finset Privilege)
  | addMember (role member : String) (inherit admin : Bool)
  | updateMemberOptions (role member grantor : String) (inherit admin : Option Bool)
      (binding : Option MembershipOptionBinding)
  | removeMember (role member : String) (grantor : Option String)
  | reassignOwned (fromRole toRole : String)
  | dropOwned (role : String)
  | terminateSessions (role : String)
  | setPassword (name : String)
  | dropRole (name : String)
  deriving DecidableEq

/-- A value that was left out of the field. -/
def omitted (field : String) : ReviewOmission := ⟨field, .sensitiveValue⟩

/-- The attribute without the value of a setting, and what that leaves out. -/
def sanitizeAttribute : RoleAttribute → ReviewRoleAttribute × List ReviewOmission
  | .login value => (.login value, [])
  | .superuser value => (.superuser value, [])
  | .createdb value => (.createdb value, [])
  | .createrole value => (.createrole value, [])
  | .inherit value => (.inherit value, [])
  | .replication value => (.replication value, [])
  | .bypassrls value => (.bypassrls value, [])
  | .connectionLimit value => (.connectionLimit value, [])
  | .validUntil value => (.validUntil value, [])
  | .setConfig parameter _ => (.setConfig parameter, [omitted "attributes[].value"])
  | .resetConfig parameter => (.resetConfig parameter, [])

/-- The change without its sensitive values, and what was left out. -/
def ReviewChange.sanitize : Change → ReviewChange × List ReviewOmission
  | .createRole name state =>
      (.createRole name (.ofState state),
        (if state.comment.isSome then [omitted "state.comment"] else []) ++
          if state.config.isEmpty then [] else [omitted "state.config.values"])
  | .createSchema name owner => (.createSchema name owner, [])
  | .alterSchemaOwner name owner => (.alterSchemaOwner name owner, [])
  | .ensureSchemaOwnerPrivileges name owner privileges =>
      (.ensureSchemaOwnerPrivileges name owner privileges, [])
  | .alterRole name attributes =>
      (.alterRole name (attributes.map fun a => (sanitizeAttribute a).1),
        attributes.flatMap fun a => (sanitizeAttribute a).2)
  | .setComment name comment =>
      (.setComment name comment.isSome, if comment.isSome then [omitted "comment"] else [])
  | .grant key privileges =>
      (.grant key.role.asStr privileges key.objectType key.schema key.name, [])
  | .revoke key privileges grantor =>
      (.revoke key.role.asStr privileges key.objectType key.schema key.name grantor, [])
  | .setDefaultPrivilege key privileges =>
      (.setDefaultPrivilege key.owner (.ofScope key.scope) key.onType key.grantee.asStr privileges,
        [])
  | .revokeDefaultPrivilege key privileges =>
      (.revokeDefaultPrivilege key.owner (.ofScope key.scope) key.onType key.grantee.asStr
        privileges, [])
  | .addMember role member inherit admin => (.addMember role member inherit admin, [])
  | .updateMemberOptions role member grantor inherit admin binding =>
      (.updateMemberOptions role member grantor inherit admin binding, [])
  | .removeMember role member grantor => (.removeMember role member grantor, [])
  | .reassignOwned fromRole toRole => (.reassignOwned fromRole toRole, [])
  | .dropOwned role => (.dropOwned role, [])
  | .terminateSessions role => (.terminateSessions role, [])
  | .setPassword name _ => (.setPassword name, [omitted "password"])
  | .dropRole name => (.dropRole name, [])

/-- A sanitized change with its place in the plan. -/
structure RecordedChange where
  index : Nat
  priority : ReviewPriority
  source : Option ReviewChangeSource
  change : ReviewChange
  omissions : List ReviewOmission
  deriving DecidableEq

/-! ## Recorded phases -/

/-- Whether the executor reaches a role. -/
inductive ReviewReachabilityStatus where
  | reachable
  | unreachable
  | unknown
  deriving DecidableEq

/-- The status as an artifact spells it. -/
def ReviewReachabilityStatus.ofStatus : ReachabilityStatus → ReviewReachabilityStatus
  | .reachable => .reachable
  | .unreachable => .unreachable
  | .unknown => .unknown

/-- The status of one role. -/
structure ReviewReachability where
  role : String
  status : ReviewReachabilityStatus
  deriving DecidableEq

/-- What a phase changes of a map of statuses. -/
structure ReviewReachabilityDelta where
  changed : List ReviewReachability
  removed : List String
  deriving DecidableEq

/-- The phases of a plan as an artifact spells them. -/
inductive ReviewPhase where
  | create
  | alter
  | grant
  | membershipRemove
  | membershipAdd
  | revoke
  | defaultPrivilegeRevoke
  | retire
  deriving DecidableEq

/-- The phase as an artifact spells it. -/
def ReviewPhase.ofPhase : PlanPhase → ReviewPhase
  | .create => .create
  | .alter => .alter
  | .grant => .grant
  | .membershipRemove => .membershipRemove
  | .membershipAdd => .membershipAdd
  | .revoke => .revoke
  | .defaultPrivilegeRevoke => .defaultPrivilegeRevoke
  | .retire => .retire

/-- One contiguous run of changes of one phase. The state before the first phase is empty; the state
after a phase is the state before it without the removed roles and with the changed entries. -/
structure RecordedPhase where
  phase : ReviewPhase
  changeIndices : List Nat
  executorReachabilityDelta : ReviewReachabilityDelta
  executorUsageDelta : ReviewReachabilityDelta
  deriving DecidableEq

/-! ## Recorded findings -/

/-- The kinds of findings as an artifact spells them. -/
inductive ReviewFindingKind where
  | requiredRoleUnavailable
  | requiredRoleReachabilityUnknown
  | executorLosesAccess
  | membershipDisconnectsRole
  | roleBecomesReachable
  | databasePreflightRequired
  | superuserRequired
  | ownershipTransferChangesGrantor
  deriving DecidableEq

/-- The kind as an artifact spells it. -/
def ReviewFindingKind.ofKind : FindingKind → ReviewFindingKind
  | .requiredRoleUnavailable => .requiredRoleUnavailable
  | .requiredRoleReachabilityUnknown => .requiredRoleReachabilityUnknown
  | .executorLosesAccess => .executorLosesAccess
  | .membershipDisconnectsRole => .membershipDisconnectsRole
  | .roleBecomesReachable => .roleBecomesReachable
  | .databasePreflightRequired => .databasePreflightRequired
  | .superuserRequired => .superuserRequired
  | .ownershipTransferChangesGrantor => .ownershipTransferChangesGrantor

/-- The severities of findings. -/
inductive ReviewFindingSeverity where
  | info
  | warning
  | error
  deriving DecidableEq

/-- The severity as an artifact spells it. -/
def ReviewFindingSeverity.ofSeverity : FindingSeverity → ReviewFindingSeverity
  | .info => .info
  | .warning => .warning
  | .error => .error

/-- A finding with the changes it refers to. -/
structure RecordedFinding where
  kind : ReviewFindingKind
  severity : ReviewFindingSeverity
  phase : Option ReviewPhase
  /-- The first affected change. -/
  changeIndex : Option Nat
  changeIndices : List Nat
  role : Option String
  message : String
  deriving DecidableEq

/-- What is recorded of a finding of the analysis. -/
def RecordedFinding.ofFinding (finding : AuthorityFinding) : RecordedFinding where
  kind := .ofKind finding.kind
  severity := .ofSeverity finding.severity
  phase := finding.phase.map .ofPhase
  changeIndex := finding.changeIndex
  changeIndices := finding.changeIndices
  role := finding.role
  message := finding.message

/-! ## The recorded graph -/

/-- Where a graph comes from. -/
inductive ReviewVisualSource where
  | desired
  | current
  deriving DecidableEq

/-- The source as an artifact spells it. -/
def ReviewVisualSource.ofSource : VisualSource → ReviewVisualSource
  | .desired => .desired
  | .current => .current

/-- The counts of a graph and its managed scope. -/
structure ReviewVisualMeta where
  source : ReviewVisualSource
  roleCount : Nat
  grantCount : Nat
  defaultPrivilegeCount : Nat
  membershipCount : Nat
  collapsed : Bool
  managedScope : Option ReviewManagedScope
  deriving DecidableEq

/-- The kinds of nodes. -/
inductive ReviewNodeKind where
  | role
  | externalPrincipal
  | grantTarget
  | defaultPrivilegeTarget
  deriving DecidableEq

/-- The kind as an artifact spells it. -/
def ReviewNodeKind.ofKind : NodeKind → ReviewNodeKind
  | .role => .role
  | .externalPrincipal => .externalPrincipal
  | .grantTarget => .grantTarget
  | .defaultPrivilegeTarget => .defaultPrivilegeTarget

/-- A node without its comment. -/
structure ReviewVisualNode where
  id : String
  label : String
  kind : ReviewNodeKind
  managed : Option Bool
  login : Option Bool
  privileges : List String
  deriving DecidableEq

/-- What is kept of a node. -/
def ReviewVisualNode.ofNode (node : VisualNode) : ReviewVisualNode :=
  ⟨node.id, node.label, .ofKind node.kind, node.managed, node.login, node.privileges⟩

/-- The kinds of edges. -/
inductive ReviewEdgeKind where
  | membership
  | grant
  | defaultPrivilege
  deriving DecidableEq

/-- The kind as an artifact spells it. -/
def ReviewEdgeKind.ofKind : EdgeKind → ReviewEdgeKind
  | .membership => .membership
  | .grant => .grant
  | .defaultPrivilege => .defaultPrivilege

/-- An edge of the graph. -/
structure ReviewVisualEdge where
  source : String
  target : String
  kind : ReviewEdgeKind
  label : String
  deriving DecidableEq

/-- What is kept of an edge, which is all of it. -/
def ReviewVisualEdge.ofEdge (edge : VisualEdge) : ReviewVisualEdge :=
  ⟨edge.source, edge.target, .ofKind edge.kind, edge.label⟩

/-- The graph after the plan, without comments. -/
structure ReviewVisualGraph where
  schemaVersion : String
  info : ReviewVisualMeta
  nodes : List ReviewVisualNode
  edges : List ReviewVisualEdge
  deriving DecidableEq

/-- The graph without comments, and whether there was one. A graph that was analyzed has no managed
scope. -/
def ReviewVisualGraph.sanitized (graph : VisualGraph) : ReviewVisualGraph × Bool :=
  ({ schemaVersion := graph.schemaVersion
     info :=
       { source := .ofSource graph.info.source
         roleCount := graph.info.roleCount
         grantCount := graph.info.grantCount
         defaultPrivilegeCount := graph.info.defaultPrivilegeCount
         membershipCount := graph.info.membershipCount
         collapsed := graph.info.collapsed
         managedScope := none }
     nodes := graph.nodes.map .ofNode
     edges := graph.edges.map .ofEdge },
   graph.nodes.any (·.comment.isSome))

/-! ## The artifact -/

/-- Why the SQL is left out. -/
inductive SqlOmissionReason where
  | sensitiveChanges
  deriving DecidableEq

/-- The SQL of the plan, or why it is left out. -/
inductive SqlPreview where
  | available (sql : String)
  | omitted (reason : SqlOmissionReason) (sensitiveChangeIndices : List Nat)
  deriving DecidableEq

/-- Why the exploration is left out. -/
inductive ExplorationOmissionReason where
  | recordedOnlyExport
  | sensitiveInputsRemoved
  deriving DecidableEq

/-- The exploration section of an artifact. -/
inductive ReviewExploration where
  | omitted (reason : ExplorationOmissionReason)
  deriving DecidableEq

/-- What an artifact records of a plan, with its fingerprint. -/
structure RecordedReview where
  changes : List RecordedChange
  phases : List RecordedPhase
  findings : List RecordedFinding
  visual : ReviewVisualGraph
  sqlPreview : SqlPreview
  omissions : List ReviewOmission
  reviewFingerprint : String
  deriving DecidableEq

/-- A review artifact. -/
structure ReviewArtifact where
  schemaVersion : String
  provenance : ReviewProvenance
  context : ReviewContext
  preflight : List PreflightEvidence
  recorded : RecordedReview
  exploration : ReviewExploration
  deriving DecidableEq

end PgRoles.Explorer

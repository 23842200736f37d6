import PgRoles.Core.Manifest
import PgRoles.Sql.Membership

/-!
# Authority checks on membership changes

Before a plan is executed its membership changes are checked against the live catalog: that the
roles can be administered, that the executor has the privileges of every grantor a statement is
attributed to, and that an option change neither lacks authority nor runs into dependent grants.
The checks of default privileges and of grants on objects are about other changes and are not here.

The server is PostgreSQL 16 or later. Before that, memberships have no grantor.
-/

set_option autoImplicit false

namespace PgRoles.Inspect

open Std PgRoles.Lib PgRoles.Core PgRoles.Sql

/-- What the checks read of the server: the membership rows, the roles and the executor. -/
structure Server where
  catalog : MembershipCatalog
  roles : BTreeSet String
  superusers : BTreeSet String
  /-- The role with object identifier 10. -/
  bootstrap : String
  executor : String
  executorCreateRole : Bool
  /-- The executor inherits the roles that it creates. -/
  selfGrantInherits : Bool

namespace Server

variable (server : Server)

/-- Is the executor a superuser? -/
def executorIsSuperuser : Bool := server.superusers.contains server.executor

end Server

/-- Why an option change is blocked. -/
inductive BlockReason where
  | grantorPrivilegesMissing
  | grantorPrivilegesRemoved
  | grantorPrivilegesNotInherited
  | changedSinceResolution
  | roleMissing
  | executorLacksAdmin
  | grantorLacksAdmin
  | dependentGrants
  deriving DecidableEq

/-- Why the executor lacks the authority for a statement. -/
inductive AuthorityIssue where
  | predefinedRoleGrant (role executor : String)
  | missingPredefinedRole (role : String)
  | membershipOptionsBlocked (role member grantor : String) (reason : BlockReason)
  | foreignGrantorMembershipRevoke (role member grantor executor : String)
  | grantorAuthorityRemovedByPlan (grantor executor : String)
  deriving DecidableEq

/-! ## Reachable roles -/

/-- One round along (role, member) edges. -/
def reachRound (edges : List (String × String)) (reached : BTreeSet String) : BTreeSet String :=
  edges.foldl
    (fun reached e => if reached.contains e.2 then reached.insert e.1 else reached) reached

/-- The roles that are reached from one role; a round that adds none is the last that matters, and
there are no more roles to add than edges. -/
def reach (edges : List (String × String)) (start : String) : BTreeSet String :=
  (reachRound edges)^[edges.length] ((∅ : BTreeSet String).insert start)

/-- The pairs of a catalog whose rows have an option. -/
def pairsWith (option : MembershipOptions → Bool) (catalog : MembershipCatalog) :
    List (String × String) :=
  (catalog.toList.filter fun e => option e.2).map fun e => (e.1.1, e.1.2.1)

/-- The executor has the privileges of the role. -/
def hasUsage (server : Server) (role : String) : Bool :=
  server.executorIsSuperuser ||
    (reach (pairsWith (·.inherit) server.catalog) server.executor).contains role

/-- The executor is a member of a role that has ADMIN on this one. -/
def isMemberWithAdmin (server : Server) (role : String) : Bool :=
  server.executorIsSuperuser ||
    (pairsWith (·.admin) server.catalog).any fun e =>
      e.1 == role && (reach (pairsWith (fun _ => true) server.catalog) server.executor).contains e.2

/-! ## The removal phase -/

/-- A row of the catalog survives the change. -/
def survivesRemoval (role member : String) (grantor : Option String)
    (key : String × String × String) : Bool :=
  key.1 != role || key.2.1 != member || grantor.any (· != key.2.2)

/-- Removals and reductions of a change, on the rows of the catalog. -/
def projectChange (catalog : MembershipCatalog) : Change → MembershipCatalog
  | .removeMember role member grantor =>
      catalog.filter fun key _ => survivesRemoval role member grantor key
  | .updateMemberOptions role member grantor inherit admin _ =>
      catalog.alter (role, member, grantor) (·.map fun o =>
        { o with
          inherit := o.inherit && inherit != some false
          admin := o.admin && admin != some false })
  | _ => catalog

/-- Catalog rows through the removal phase: the pairs that lose an option, and the roles whose
privileges the executor still has. -/
structure MembershipRemovalPhase where
  inheritLost : List (String × String)
  adminLost : List (String × String)
  inheritedRoles : BTreeSet String

/-- What the removals take from the executor: the memberships lost, and the roles still inherited.
-/
def membershipRemovalPhase (server : Server) (changes : List Change) : MembershipRemovalPhase :=
  let after := changes.foldl projectChange server.catalog
  let lost (option : MembershipOptions → Bool) :=
    (pairsWith option server.catalog).filter fun pair => !(pairsWith option after).contains pair
  { inheritLost := lost (·.inherit)
    adminLost := lost (·.admin)
    inheritedRoles := reach (pairsWith (·.inherit) after) server.executor }

/-! ## Roles out of reach -/

/-- The edges of a graph that a phase of the plan leaves. -/
structure PhaseGraph where
  removed : List (String × String)
  added : List (String × String) := []
  adminRemoved : List (String × String)

/-- The roles that the changes create. -/
def createdRoles (changes : List Change) : List String :=
  changes.filterMap fun
    | .createRole name _ => some name
    | _ => none

/-- Created roles that the executor inherits at once. -/
def creationEdges (server : Server) (changes : List Change) : List (String × String) :=
  if server.executorCreateRole && !server.executorIsSuperuser && server.selfGrantInherits then
    (createdRoles changes).map (·, server.executor)
  else []

/-- An added edge counts when its roles exist and the executor may add it. -/
def addedEdgeCounts (server : Server) (created : List String) (reached : BTreeSet String)
    (graph : PhaseGraph) (edge : String × String) : Bool :=
  let known (role : String) := server.roles.contains role || created.contains role
  known edge.1 && known edge.2 &&
    if server.roles.contains edge.1 then
      edge.1 != server.executor &&
        (pairsWith (·.admin) server.catalog).any fun e =>
          e.1 == edge.1 && reached.contains e.2 && !graph.adminRemoved.contains e
    else created.contains edge.1 && server.executorCreateRole

/-- Of the roles, those that the executor does not reach in the phase's graph, with whether it has
their privileges now. -/
def rolesUnreachableInGraph (server : Server) (changes : List Change) (graph : PhaseGraph)
    (roles : List String) : List (String × Bool) :=
  let created := createdRoles changes
  let initial := pairsWith (·.inherit) server.catalog ++ creationEdges server changes
  let surviving := initial.filter fun edge => !graph.removed.contains edge
  let grantorReach := reach surviving server.executor
  let edges := surviving ++ graph.added.filter (addedEdgeCounts server created grantorReach graph)
  let reached := reach edges server.executor
  (roles.filter fun role =>
      (server.roles.contains role || created.contains role) && !reached.contains role).map
    fun role => (role, server.roles.contains role && hasUsage server role)

/-! ## Predefined roles and grantors -/

/-- The predefined roles whose memberships change. -/
def predefinedTargets (changes : List Change) : List String :=
  changes.filterMap fun change =>
    (membershipPair change).bind fun pair => if isPredefinedRole pair.1 then some pair.1 else none

/-- Predefined roles that are missing, or that the executor may not grant. -/
def predefinedRoleIssues (server : Server) (changes : List Change) : List AuthorityIssue :=
  let targets := (predefinedTargets changes).dedup
  ((targets.filter fun role => server.roles.contains role && !isMemberWithAdmin server role).map
      fun role => .predefinedRoleGrant role server.executor) ++
    (targets.filter fun role => !server.roles.contains role).map .missingPredefinedRole

/-- A statement is attributed to a grantor whose privileges the executor does not have. -/
def grantorIssue (server : Server) (change : Change) : List AuthorityIssue :=
  let usable (grantor : String) := server.roles.contains grantor && hasUsage server grantor
  match change with
  | .updateMemberOptions role member grantor _ _ _ =>
      if usable grantor then []
      else [.membershipOptionsBlocked role member grantor .grantorPrivilegesMissing]
  | .removeMember role member (some grantor) =>
      if usable grantor then []
      else [.foreignGrantorMembershipRevoke role member grantor server.executor]
  | _ => []

/-! ## Option changes -/

/-- The live rows of a pair, by grantor. -/
def liveEdges (server : Server) (role member : String) : BTreeMap String MembershipOptions :=
  ExtTreeMap.ofList ((server.catalog.toList.filter fun e =>
    e.1.1 == role && e.1.2.1 == member).map fun e => (e.1.2.2, e.2)) compare

/-- The catalog still holds what the change was resolved against. -/
def matchesBinding (server : Server) (role member grantor : String)
    (binding : MembershipOptionBinding) : Bool :=
  binding.executor == server.executor && binding.expectedEdges == liveEdges server role member &&
    match binding.expected, server.catalog[(role, member, grantor)]? with
    | .absent, none => true
    | .present options, some live => options == live
    | _, _ => false

/-- The executor inherits ADMIN on the role, in what the earlier changes leave. -/
def executorHasAdmin (server : Server) (changes : List Change) (prior : MembershipRemovalPhase)
    (role : String) : Bool :=
  let admins := ((pairsWith (·.admin) server.catalog).filter fun e =>
    e.1 == role && hasUsage server e.2).map (·.2)
  let unreachable := rolesUnreachableInGraph server changes
    { removed := prior.inheritLost, adminRemoved := prior.adminLost } admins
  server.executorIsSuperuser ||
    (!server.superusers.contains role && role != server.executor &&
      admins.any fun member =>
        !(unreachable.map (·.1)).contains member && !prior.adminLost.contains (role, member))

/-- The grantors whose ADMIN the changes take from a pair. -/
def removedGrantors (changes : List Change) (role member : String) : List String :=
  changes.filterMap fun
    | .updateMemberOptions r m g _ (some false) _ => if r = role ∧ m = member then some g else none
    | .removeMember r m (some g) => if r = role ∧ m = member then some g else none
    | _ => none

/-- The changes remove the pair without naming a grantor. -/
def removesPair (changes : List Change) (role member : String) : Bool :=
  changes.any fun
    | .removeMember r m none => r == role && m == member
    | _ => false

/-- The member has granted the role; the grants of the bootstrap superuser do not count. -/
def hasDependentGrants (server : Server) (role member : String) : Bool :=
  server.catalog.toList.any fun e =>
    e.1.1 == role && e.1.2.2 == member && member != server.bootstrap

/-- A row that the changes leave gives the member ADMIN. -/
def hasSurvivingAdmin (server : Server) (changes : List Change) (role member : String) : Bool :=
  server.catalog.toList.any fun e =>
    e.1.1 == role && e.1.2.1 == member && e.2.admin &&
      !(removedGrantors changes role member).contains e.1.2.2 && !removesPair changes role member

/-- Why the authority for an option change is missing. -/
def authorityReason (server : Server) (changes : List Change) (prior : MembershipRemovalPhase)
    (role grantor : String) (increases : Bool) : Option BlockReason :=
  let grantorHasAdmin := (pairsWith (·.admin) server.catalog).contains (role, grantor)
  if !server.roles.contains role then some .roleMissing
  else if !executorHasAdmin server changes prior role then some .executorLacksAdmin
  else if increases && grantor != server.bootstrap &&
      (!grantorHasAdmin || prior.adminLost.contains (role, grantor)) then
    some .grantorLacksAdmin
  else none

/-- The issues of one option change, after the changes before it. -/
def optionIssues (server : Server) (changes before : List Change) : Change → List AuthorityIssue
  | .updateMemberOptions role member grantor inherit admin binding =>
      let prior := membershipRemovalPhase server before
      let blocked (reason : BlockReason) : AuthorityIssue :=
        .membershipOptionsBlocked role member grantor reason
      let change := Change.updateMemberOptions role member grantor inherit admin binding
      let inherited :=
        if server.executorIsSuperuser || prior.inheritedRoles.contains grantor then []
        else if (membershipRemovalPhase server []).inheritedRoles.contains grantor then
          [blocked .grantorPrivilegesRemoved]
        else [blocked .grantorPrivilegesNotInherited]
      let resolved :=
        if binding.any (matchesBinding server role member grantor) then []
        else [blocked .changedSinceResolution]
      let authority := (authorityReason server changes prior role grantor
        (inherit == some true || admin == some true)).toList.map blocked
      let dependents :=
        if admin == some false && hasDependentGrants server role member &&
            !hasSurvivingAdmin server (before ++ [change]) role member then
          [blocked .dependentGrants]
        else []
      inherited ++ resolved ++ authority ++ dependents
  | _ => []

/-- The issues of all option changes, in plan order. -/
def optionIssuesFrom (server : Server) (changes : List Change) :
    List Change → List Change → List AuthorityIssue
  | _, [] => []
  | before, change :: rest =>
      optionIssues server changes before change ++
        optionIssuesFrom server changes (before ++ [change]) rest

/-! ## Authority that the plan removes -/

/-- Removals of memberships in roles that the plan creates. -/
def createdRemovals (changes : List Change) : List (String × String) :=
  changes.filterMap fun
    | .removeMember role member _ =>
        if (createdRoles changes).contains role then some (role, member) else none
    | _ => none

/-- Grantors of removals whose privileges the executor has only before the removals. -/
def phaseIssues (server : Server) (changes : List Change) : List AuthorityIssue :=
  let phase := membershipRemovalPhase server changes
  let removed := phase.inheritLost ++ createdRemovals changes
  let grantors := changes.filterMap fun
    | .removeMember _ _ grantor => grantor
    | _ => none
  if server.executorIsSuperuser || removed.isEmpty then []
  else
    ((rolesUnreachableInGraph server changes
        { removed, adminRemoved := phase.adminLost ++ createdRemovals changes }
        grantors.dedup).filter (·.2)).map
      fun role => .grantorAuthorityRemovedByPlan role.1 server.executor

/-- The issues of the membership changes of a plan. -/
def membershipAuthorityIssues (server : Server) (changes : List Change) : List AuthorityIssue :=
  predefinedRoleIssues server changes ++ changes.flatMap (grantorIssue server) ++
    optionIssuesFrom server changes [] changes ++ phaseIssues server changes

end PgRoles.Inspect

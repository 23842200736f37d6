import PgRoles.Explorer.Facts

/-!
# The explorer's interpreter of changes

One change applied to the simulated graph and to the facts about its memberships. This is an
interpreter of its own beside the database: it keeps the per-grantor entries of grants and
memberships in step with the effective sets, and where it has no per-grantor facts it claims no
effective result.
-/

set_option autoImplicit false

namespace PgRoles.Explorer

open Std PgRoles.Lib PgRoles.Core

/-! ## Roles and schemas -/

/-- A role's state with one attribute set. -/
def RoleState.applyAttribute (role : RoleState) : RoleAttribute → RoleState
  | .login v => { role with login := v }
  | .superuser v => { role with superuser := v }
  | .createdb v => { role with createdb := v }
  | .createrole v => { role with createrole := v }
  | .inherit v => { role with inherit := v }
  | .replication v => { role with replication := v }
  | .bypassrls v => { role with bypassrls := v }
  | .connectionLimit v => { role with connectionLimit := v }
  | .validUntil v => { role with passwordValidUntil := v }
  | .setConfig name value => { role with config := role.config.insert name value }
  | .resetConfig name => { role with config := role.config.erase name }

/-- Change a role that is there. -/
def updateRole (graph : RoleGraph) (name : String) (f : RoleState → RoleState) : RoleGraph :=
  { graph with roles := graph.roles.alter name (·.map f) }

/-- Change a schema that is there. -/
def updateSchema (graph : RoleGraph) (name : String) (f : SchemaState → SchemaState) : RoleGraph :=
  { graph with schemas := graph.schemas.alter name (·.map f) }

/-! ## Object privileges -/

/-- The union of the entries of one target, over its grantors. -/
def attributedPrivileges (entries : BTreeMap String (Finset Privilege)) : Finset Privilege :=
  entries.toList.foldl (fun held entry => held ∪ entry.2) ∅

/-- A revoke of an attributed entry leaves the union of the entries that remain, unless none
remains: then, as without recorded entries, the revoked privileges go. -/
def remainingPrivileges (remaining : Option (Finset Privilege)) (held privileges : Finset Privilege) :
    Finset Privilege :=
  match remaining with
  | some rest => if rest = ∅ then held \ privileges else rest
  | none => held \ privileges

/-- Revoke privileges: from the grantor's own entry where one is named, and from the key. -/
def applyRevoke (graph : RoleGraph) (key : GrantKey) (privileges : Finset Privilege)
    (grantor : Option String) : RoleGraph :=
  let entryGrantors := match grantor with
    | some grantor =>
        graph.grantEntryGrantors.alter key (·.map fun entries =>
          shrinkEntry entries grantor privileges)
    | none => graph.grantEntryGrantors
  let remaining := grantor.bind fun _ => entryGrantors[key]?.map attributedPrivileges
  { graph with
    grants := graph.grants.alter key (·.bind fun held =>
      let rest := remainingPrivileges remaining held privileges
      if rest = ∅ then none else some rest)
    grantEntryGrantors := entryGrantors.alter key (·.filter fun entries => !entries.isEmpty) }

/-! ## Memberships -/

/-- Drop every edge of a pair. -/
def dropPair (memberships : BTreeSet MembershipEdge) (role member : String) :
    BTreeSet MembershipEdge :=
  memberships.filter fun edge => edge.role != role || edge.member != member

/-- Write the effective membership of a pair. -/
def setEdge (graph : RoleGraph) (role member : String) (inherit admin : Bool) : RoleGraph :=
  { graph with
    memberships := (dropPair graph.memberships role member).insert ⟨role, member, inherit, admin⟩ }

/-- A new member; whether the executor can then assume the role is a fact about new memberships. -/
def addMember (s : Simulated) (executor : ExecutorFacts) (pgMajorVersion : Nat)
    (role member : String) (inherit admin : Bool) : Simulated where
  graph := { s.graph with
    memberships := s.graph.memberships.insert ⟨role, member, inherit, admin⟩ }
  setRole := s.setRole.insert (role, member)
    (if 16 ≤ pgMajorVersion then executor.newMembershipSetRole else .allowed)
  usage := s.usage.insert (role, member) (capability inherit)
  adminOptions := s.adminOptions.insert (role, member) (capability admin)

/-- Without complete facts the options that change become unknown. -/
def forgetOptions (s : Simulated) (key : String × String) (inherit admin : Option Bool) :
    Simulated :=
  { s with
    usage := if inherit.isSome then s.usage.insert key .unknown else s.usage
    adminOptions := if admin.isSome then s.adminOptions.insert key .unknown else s.adminOptions }

/-- An increase under a grantor without an edge adds the edge, with no option set. -/
def createEdge (graph : RoleGraph) (key : String × String) (grantor : String)
    (binding : Option MembershipOptionBinding) : RoleGraph :=
  let missing := (graph.membershipEdgeOptions[key]?).any fun options => !options.contains grantor
  if (graph.completeMembershipOptions key.1 key.2).isSome &&
      binding.any (fun b => b.expected = .absent) && missing then
    { graph with
      membershipEdgeOptions := graph.membershipEdgeOptions.alter key
        (·.map fun options => options.insert grantor ⟨false, false, false⟩)
      membershipEdgeGrantors := graph.membershipEdgeGrantors.alter key
        (·.map fun grantors => grantors.insert grantor) }
  else graph

/-- Set the options that are given. -/
def changeOptions (options : MembershipOptions) (inherit admin : Option Bool) : MembershipOptions :=
  { options with inherit := inherit.getD options.inherit, admin := admin.getD options.admin }

/-- Set options of one grantor's edge. What the pair amounts to is known only where all its edges
are. -/
def updateMemberOptions (s : Simulated) (role member grantor : String)
    (inherit admin : Option Bool) (binding : Option MembershipOptionBinding) : Simulated :=
  let key := (role, member)
  let graph := createEdge s.graph key grantor binding
  let complete := (graph.completeMembershipOptions role member).any (·.contains grantor)
  match graph.membershipEdgeOptions[key]? with
  | none => forgetOptions { s with graph := graph } key inherit admin
  | some options =>
      let changed := options.alter grantor (·.map fun o => changeOptions o inherit admin)
      let graph := { graph with
        membershipEdgeOptions := graph.membershipEdgeOptions.insert key changed }
      if complete then
        let newInherit := changed.toList.any (·.2.inherit)
        let newAdmin := changed.toList.any (·.2.admin)
        { s with
          graph := setEdge graph role member newInherit newAdmin
          usage := s.usage.insert key (capability newInherit)
          adminOptions := s.adminOptions.insert key (capability newAdmin) }
      else forgetOptions { s with graph := graph } key inherit admin

/-- The membership is gone with everything recorded about it. -/
def removePair (s : Simulated) (role member : String) : Simulated where
  graph := { s.graph with
    membershipEdgeOptions := s.graph.membershipEdgeOptions.erase (role, member)
    membershipEdgeGrantors := s.graph.membershipEdgeGrantors.erase (role, member)
    memberships := dropPair s.graph.memberships role member }
  setRole := s.setRole.erase (role, member)
  usage := s.usage.erase (role, member)
  adminOptions := s.adminOptions.erase (role, member)

/-- Remove one grantor's edge, or the pair where no grantor is named. -/
def removeMember (s : Simulated) (pgMajorVersion : Nat) (role member : String)
    (grantor : Option String) : Simulated :=
  let key := (role, member)
  match grantor with
  | none => removePair s role member
  | some grantor =>
      let complete := (s.graph.completeMembershipOptions role member).isSome
      let graph := { s.graph with
        membershipEdgeOptions := s.graph.membershipEdgeOptions.alter key (·.map (·.erase grantor))
        membershipEdgeGrantors :=
          s.graph.membershipEdgeGrantors.alter key (·.map (·.erase grantor)) }
      if (graph.membershipEdgeGrantors[key]?).any fun grantors => !grantors.isEmpty then
        match graph.membershipEdgeOptions[key]?.filter fun _ => complete with
        | none =>
            -- other grantors remain and what they supply is not known
            { graph := graph
              setRole := s.setRole.insert key (membershipSetRoleDefault pgMajorVersion)
              usage := s.usage.insert key .unknown
              adminOptions := s.adminOptions.insert key .unknown }
        | some options =>
            let inherit := options.toList.any (·.2.inherit)
            let admin := options.toList.any (·.2.admin)
            { graph := setEdge graph role member inherit admin
              setRole := s.setRole.insert key (capability (options.toList.any (·.2.set)))
              usage := s.usage.insert key (capability inherit)
              adminOptions := s.adminOptions.insert key (capability admin) }
      else removePair { s with graph := graph } role member

/-- Facts that do not name a role. -/
def EdgeFacts.withoutRole (facts : EdgeFacts) (name : String) : EdgeFacts :=
  facts.filter fun key _ => key.1 != name && key.2 != name

/-- Drop a role with its memberships and the facts about it. -/
def dropRole (s : Simulated) (name : String) : Simulated where
  graph := { s.graph with
    roles := s.graph.roles.erase name
    memberships := s.graph.memberships.filter fun edge => edge.role != name && edge.member != name }
  setRole := EdgeFacts.withoutRole s.setRole name
  usage := EdgeFacts.withoutRole s.usage name
  adminOptions := EdgeFacts.withoutRole s.adminOptions name

/-- A created role is the executor's to the extent the facts about new roles say. -/
def createRole (s : Simulated) (executor : ExecutorFacts) (name : String) (state : RoleState) :
    Simulated :=
  let created := { s with graph := { s.graph with roles := s.graph.roles.insert name state } }
  if name = executor.role then created
  else
    { created with
      setRole := s.setRole.insert (name, executor.role) executor.newRoleSetRole
      usage := s.usage.insert (name, executor.role) executor.newRoleInherit
      adminOptions := s.adminOptions.insert (name, executor.role) executor.newRoleAdminOption }

/-! ## Retirement -/

/-- Hand the schemas of a role to another. -/
def reassignOwned (graph : RoleGraph) (fromRole toRole : String) : RoleGraph :=
  { graph with schemas := graph.schemas.map fun _ schema =>
      if schema.owner = some fromRole then { schema with owner := some toRole } else schema }

/-- Drop the schemas of a role and what is granted to it. -/
def dropOwned (graph : RoleGraph) (role : String) : RoleGraph :=
  { graph with
    schemas := graph.schemas.filter fun _ schema => schema.owner != some role
    grants := graph.grants.filter fun key _ => key.role.asStr != role
    grantEntryGrantors := graph.grantEntryGrantors.filter fun key _ => key.role.asStr != role
    defaultPrivileges := graph.defaultPrivileges.filter fun key _ =>
      key.owner != role && key.grantee.asStr != role }

/-! ## One change -/

/-- A change to the graph alone. -/
def Simulated.onGraph (s : Simulated) (graph : RoleGraph) : Simulated := { s with graph := graph }

/-- The state after one change, on the graph and on the facts about paths. -/
def applyChange (executor : ExecutorFacts) (pgMajorVersion : Nat) (s : Simulated) :
    Change → Simulated
  | .createRole name state => createRole s executor name state
  | .createSchema name owner =>
      s.onGraph { s.graph with schemas := s.graph.schemas.insert name ⟨owner, ∅⟩ }
  | .alterSchemaOwner name owner =>
      s.onGraph (updateSchema s.graph name fun schema => { schema with owner := some owner })
  | .ensureSchemaOwnerPrivileges name _ privileges =>
      s.onGraph (updateSchema s.graph name fun schema =>
        { schema with ownerPrivileges := schema.ownerPrivileges ∪ privileges })
  | .alterRole name attributes =>
      s.onGraph (updateRole s.graph name fun role => attributes.foldl RoleState.applyAttribute role)
  | .setComment name comment =>
      s.onGraph (updateRole s.graph name fun role => { role with comment := comment })
  | .grant key privileges =>
      s.onGraph { s.graph with grants := extendEntry s.graph.grants key privileges }
  | .revoke key privileges grantor => s.onGraph (applyRevoke s.graph key privileges grantor)
  | .setDefaultPrivilege key privileges =>
      s.onGraph { s.graph with
        defaultPrivileges := extendEntry s.graph.defaultPrivileges key privileges }
  | .revokeDefaultPrivilege key privileges =>
      s.onGraph { s.graph with
        defaultPrivileges := shrinkEntry s.graph.defaultPrivileges key privileges }
  | .addMember role member inherit admin =>
      addMember s executor pgMajorVersion role member inherit admin
  | .updateMemberOptions role member grantor inherit admin binding =>
      updateMemberOptions s role member grantor inherit admin binding
  | .removeMember role member grantor => removeMember s pgMajorVersion role member grantor
  | .dropRole name => dropRole s name
  | .reassignOwned fromRole toRole => s.onGraph (reassignOwned s.graph fromRole toRole)
  | .dropOwned role => s.onGraph (dropOwned s.graph role)
  | .terminateSessions _ | .setPassword .. => s

end PgRoles.Explorer

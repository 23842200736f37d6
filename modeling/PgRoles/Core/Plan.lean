import PgRoles.Core.Diff
import PgRoles.Core.Expand

/-!
# The plan

The canonical plan is the diff, rewritten by four passes: retirement steps are inserted before the
drop of their role, the reconciliation mode filters, changes to roles owned elsewhere are dropped,
and roles that preserve undeclared grants keep them.
-/

set_option autoImplicit false

namespace PgRoles.Core

open Std PgRoles.Lib

/-! ## Retirements -/

/-- The retirement of a role; of several, the last. -/
def retirementByRole (retirements : List RoleRetirement) : BTreeMap String RoleRetirement :=
  ExtTreeMap.ofList (retirements.map fun r => (r.role, r)) compare

/-- The steps before the drop of a retired role. -/
def retirementSteps (name : String) (retirement : RoleRetirement) : List Change :=
  (if retirement.terminateSessions then [.terminateSessions name] else []) ++
  (match retirement.reassignOwnedTo with
    | some successor => [.reassignOwned name successor]
    | none => []) ++
  (if retirement.dropOwned then [.dropOwned name] else [])

/-- A change with the retirement steps it needs before it. -/
def withRetirement (retirements : BTreeMap String RoleRetirement) : Change → List Change
  | .dropRole name =>
      match retirements[name]? with
      | some retirement => retirementSteps name retirement ++ [.dropRole name]
      | none => [.dropRole name]
  | change => [change]

/-- Insert the retirement steps directly before each matching drop. -/
def applyRoleRetirements (changes : List Change) (retirements : List RoleRetirement) :
    List Change :=
  if retirements.isEmpty then changes
  else changes.flatMap (withRetirement (retirementByRole retirements))

/-! ## Reconciliation modes -/

/-- The change removes access or drops a role. -/
def isDestructive : Change → Bool
  | .updateMemberOptions _ _ _ inherit admin _ => inherit == some false || admin == some false
  | .alterSchemaOwner .. | .revoke .. | .revokeDefaultPrivilege .. | .removeMember ..
  | .dropRole .. | .dropOwned .. | .reassignOwned .. | .terminateSessions .. => true
  | _ => false

/-- The change drops a role or cleans up after one. -/
def isRoleDropOrRetirement : Change → Bool
  | .dropRole .. | .dropOwned .. | .reassignOwned .. | .terminateSessions .. => true
  | _ => false

/-- The plan transfers the schema to the owner; additive mode skips the transfer. -/
def transfersSchema (changes : List Change) (name owner : String) : Bool :=
  changes.contains (.alterSchemaOwner name owner)

/-- The plan creates the role. -/
def createsRole (changes : List Change) (name : String) : Bool :=
  changes.any fun
    | .createRole n _ => n == name
    | _ => false

/-- An option that the change takes away is left out. -/
def dropReduction (option : Option Bool) : Option Bool :=
  if option = some false then none else option

/-- Keep the increases of an option change; without one it goes. -/
def keepIncreases : Change → Option Change
  | .updateMemberOptions role member grantor inherit admin binding =>
      if (dropReduction inherit).isNone && (dropReduction admin).isNone then none
      else
        some (.updateMemberOptions role member grantor (dropReduction inherit)
          (dropReduction admin) binding)
  | change => some change

/-- Does the attribute set a parameter? -/
def isSetConfig : RoleAttribute → Bool
  | .setConfig .. => true
  | _ => false

/-- What additive mode keeps. What depends on a skipped owner transfer goes with it, and of the
alterations only the settings of roles this plan creates stay. -/
def keptByAdditive (changes : List Change) : Change → Bool
  | .ensureSchemaOwnerPrivileges name owner _ => !transfersSchema changes name owner
  | .setDefaultPrivilege ⟨owner, .schema schema, _, _⟩ _ => !transfersSchema changes schema owner
  | .alterRole name attributes => createsRole changes name && attributes.all isSetConfig
  | .setComment .. => false
  | change => !isDestructive change

/-- The changes of additive mode: the increases, without what depends on a change that is skipped.
-/
def filterAdditiveChanges (changes : List Change) : List Change :=
  (changes.filterMap keepIncreases).filter (keptByAdditive changes)

/-- Filter a plan by the reconciliation mode. -/
def filterChanges (changes : List Change) : ReconciliationMode → List Change
  | .authoritative => changes
  | .additive => filterAdditiveChanges changes
  | .adopt => changes.filter fun change => !isRoleDropOrRetirement change

/-! ## Roles owned elsewhere -/

/-- The role object is owned by another system or by PostgreSQL. -/
def isUnmanaged (roles : List RoleDefinition) (name : String) : Bool :=
  (externalNames roles).contains name || isPredefinedRole name

/-- A stanza asserts that the role's member list is complete. -/
def isExclusive (memberships : List Membership) (role : String) : Bool :=
  memberships.any fun membership => membership.exclusive && membership.role == role

/-- What is kept of changes to roles owned elsewhere: nothing of their lifecycle, memberships that
are declared, and removals that an exclusive stanza asks for. -/
def keptForExternal (roles : List RoleDefinition) (memberships : List Membership) :
    Change → Bool
  | .createRole name _ | .alterRole name _ | .setComment name _ | .setPassword name _
  | .dropRole name | .terminateSessions name | .dropOwned name | .reassignOwned name _ =>
      !isUnmanaged roles name
  | .addMember role member _ _ | .updateMemberOptions role member _ _ _ _ =>
      !isUnmanaged roles role || declaresMember memberships role member
  | .removeMember role member _ =>
      !isUnmanaged roles role || declaresMember memberships role member ||
        (isExclusive memberships role && !isPredefinedRole member)
  | _ => true

/-- The changes without those to roles that other systems own. -/
def filterExternalRoleChanges (changes : List Change) (roles : List RoleDefinition)
    (memberships : List Membership) : List Change :=
  changes.filter (keptForExternal roles memberships)

/-! ## Preserved grants -/

/-- The role keeps its undeclared grants. -/
def preservesGrants (roles : List RoleDefinition) (name : String) : Bool :=
  roles.any fun role => role.preserveUndeclaredGrants && role.name == name

/-- A revoke, unless it is of nothing. -/
def revokeUnlessEmpty (key : GrantKey) (privileges : Finset Privilege) (grantor : Option String) :
    List Change :=
  if privileges = ∅ then [] else [.revoke key privileges grantor]

/-- The part of a revoke that absence assertions ask for. A wildcard revoke stays one only for a
wildcard assertion; exact assertions are split back into exact revokes. -/
def enforcedRevokes (desired : RoleGraph) (key : GrantKey) (privileges : Finset Privilege)
    (grantor : Option String) : List Change :=
  let wildcardEnforced := privileges ∩ entryAt desired.grantAbsences key.wildcard
  if key.isWildcard then
    revokeUnlessEmpty key wildcardEnforced grantor ++
      desired.grantAbsences.toList.flatMap fun e =>
        if key.sameScope e.1 && e.1.name.any (· != wildcardName) then
          revokeUnlessEmpty { key with name := e.1.name } ((privileges ∩ e.2) \ wildcardEnforced)
            grantor
        else []
  else
    revokeUnlessEmpty key (wildcardEnforced ∪ (privileges ∩ entryAt desired.grantAbsences key))
      grantor

/-- Drop the revokes against preserving roles, except what is asserted absent. -/
def preserveGrants (roles : List RoleDefinition) (desired : RoleGraph) : Change → List Change
  | .revoke key privileges grantor =>
      if preservesGrants roles key.role.asStr then enforcedRevokes desired key privileges grantor
      else [.revoke key privileges grantor]
  | change => [change]

/-- The changes without the revokes of undeclared privileges that a role keeps. -/
def filterPreservedGrantRevokes (changes : List Change) (roles : List RoleDefinition)
    (desired : RoleGraph) : List Change :=
  changes.flatMap (preserveGrants roles desired)

/-! ## Assembly -/

/-- The canonical plan. -/
def planChanges (current desired : RoleGraph) (manifest : PolicyManifest)
    (expanded : ExpandedManifest) (mode : ReconciliationMode) : List Change :=
  let resolved := desired.resolveRoutineAliases current.routineAliases
  let changes := applyRoleRetirements (diff current resolved) manifest.retirements
  let changes := filterChanges changes mode
  let changes := filterExternalRoleChanges changes expanded.roles expanded.memberships
  filterPreservedGrantRevokes changes expanded.roles resolved

end PgRoles.Core

import PgRoles.Core.Types

/-!
# Changes

The operations a plan is made of. A grant or a revoke names its target by the grant key and a
default-privilege change by the default-privilege key; the source spells the key's fields out in
each variant.
-/

set_option autoImplicit false

namespace PgRoles.Core

open Std PgRoles.Lib

/-! ## Bindings of membership option changes -/

/-- What the reviewed catalog held for one (role, member, grantor) tuple. -/
inductive MembershipExpectedState where
  | absent
  | present (options : MembershipOptions)
  deriving DecidableEq

/-- The effect of an option change on the SET option. -/
inductive MembershipSetEffect where
  | preserve
  | createFalse
  deriving DecidableEq

/-- The executor and the exact per-grantor tuples an option change was resolved against. -/
structure MembershipOptionBinding where
  executor : String
  setEffect : MembershipSetEffect
  expected : MembershipExpectedState
  expectedEdges : BTreeMap String MembershipOptions
  deriving DecidableEq

/-! ## The change type -/

/-- A single change to be applied to the database. -/
inductive Change where
  | createRole (name : String) (state : RoleState)
  | createSchema (name : String) (owner : Option String)
  | alterSchemaOwner (name owner : String)
  | ensureSchemaOwnerPrivileges (name owner : String) (privileges : Finset Privilege)
  | alterRole (name : String) (attributes : List RoleAttribute)
  | setComment (name : String) (comment : Option String)
  | grant (key : GrantKey) (privileges : Finset Privilege)
  /-- `grantor` targets the ACL entry to remove; `none` is a plain revoke. -/
  | revoke (key : GrantKey) (privileges : Finset Privilege) (grantor : Option String)
  | setDefaultPrivilege (key : DefaultPrivKey) (privileges : Finset Privilege)
  | revokeDefaultPrivilege (key : DefaultPrivKey) (privileges : Finset Privilege)
  | addMember (role member : String) (inherit admin : Bool)
  /-- Change options on one attributed membership, preserving independent edges. -/
  | updateMemberOptions (role member grantor : String) (inherit admin : Option Bool)
      (binding : Option MembershipOptionBinding)
  /-- `grantor` targets one membership edge; `none` is a plain revoke. -/
  | removeMember (role member : String) (grantor : Option String)
  | reassignOwned (fromRole toRole : String)
  | dropOwned (role : String)
  | terminateSessions (role : String)
  | setPassword (name password : String)
  | dropRole (name : String)
  deriving DecidableEq

/-- The phases of a plan, in plan order; retirement steps and passwords join a plan later. -/
inductive Phase where
  | createRole
  | alterRole
  | schema
  | ownerPrivileges
  | grant
  | setDefault
  | revoke
  | membership
  | revokeDefault
  | dropRole
  | retirement
  | password
  deriving DecidableEq

/-- The phase of the plan that a change is made in. -/
def Change.phase : Change → Phase
  | .createRole .. => .createRole
  | .alterRole .. | .setComment .. => .alterRole
  | .createSchema .. | .alterSchemaOwner .. => .schema
  | .ensureSchemaOwnerPrivileges .. => .ownerPrivileges
  | .grant .. => .grant
  | .setDefaultPrivilege .. => .setDefault
  | .revoke .. => .revoke
  | .addMember .. | .updateMemberOptions .. | .removeMember .. => .membership
  | .revokeDefaultPrivilege .. => .revokeDefault
  | .dropRole .. => .dropRole
  | .reassignOwned .. | .dropOwned .. | .terminateSessions .. => .retirement
  | .setPassword .. => .password

/-- How aggressively the database converges to the manifest. -/
inductive ReconciliationMode where
  | authoritative
  | additive
  | adopt
  deriving DecidableEq, Repr

end PgRoles.Core

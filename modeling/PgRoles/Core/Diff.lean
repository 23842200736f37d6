import PgRoles.Core.Change
import PgRoles.Core.Graph

/-!
# The convergent diff

`diff current desired` is the ordered list of changes that brings the current graph to the desired
one: creates, alters, schema changes, schema-owner privileges, grants, default privileges, revokes,
membership removals, membership additions, default-privilege revokes, drops. The source fills
eleven buckets in one pass over each map; here each bucket is the list that pass leaves in it.

Revokes are accumulated per key over four branches (a declared key, an undeclared key, an absence
asserted for one object, an absence asserted for a wildcard) and then split per object and per ACL
grantor.
-/

set_option autoImplicit false

namespace PgRoles.Core

open Std PgRoles.Lib

/-! ## Roles -/

/-- Roles in desired but not in current. -/
def roleCreates (current desired : RoleGraph) : List Change :=
  desired.roles.toList.flatMap fun e =>
    if e.1 ∈ current.roles then [] else [Change.createRole e.1 e.2]

/-- Attribute and comment changes. The settings of a created role follow all creates, since a
`role` setting may name another role of the same plan. -/
def roleAlters (current desired : RoleGraph) : List Change :=
  desired.roles.toList.flatMap fun e =>
    match current.roles[e.1]? with
    | none =>
        if e.2.config.isEmpty then []
        else [Change.alterRole e.1 (e.2.config.toList.map fun c => .setConfig c.1 c.2)]
    | some state =>
        let attributes := state.changedAttributes e.2
        (if attributes = [] then [] else [Change.alterRole e.1 attributes]) ++
          (if state.comment = e.2.comment then [] else [Change.setComment e.1 e.2.comment])

/-- Roles in current but not in desired. -/
def roleDrops (current desired : RoleGraph) : List Change :=
  current.roles.toList.flatMap fun e =>
    if e.1 ∈ desired.roles then [] else [Change.dropRole e.1]

/-! ## Schemas -/

/-- Schemas to create, and owners to change where the desired owner is declared. -/
def schemaChanges (current desired : RoleGraph) : List Change :=
  desired.schemas.toList.flatMap fun e =>
    match current.schemas[e.1]? with
    | none => [Change.createSchema e.1 e.2.owner]
    | some state =>
        if state.owner = e.2.owner then []
        else
          match e.2.owner with
          | none => []
          | some owner => [Change.alterSchemaOwner e.1 owner]

/-- Owner privileges to restore on an existing schema. After an owner change the complete set is
asserted again: the inspected privileges belonged to the previous owner. -/
def schemaGrants (current desired : RoleGraph) : List Change :=
  desired.schemas.toList.flatMap fun e =>
    match e.2.owner, current.schemas[e.1]? with
    | some owner, some state =>
        let held := if state.owner = e.2.owner then state.ownerPrivileges else ∅
        let missing := defaultSchemaOwnerPrivileges owner \ held
        if missing = ∅ then [] else [Change.ensureSchemaOwnerPrivileges e.1 owner missing]
    | _, _ => []

/-! ## Grants -/

/-- Privileges a desired wildcard declares for the key's scope. Only keys in a schema have one. -/
def desiredWildcard (desired : RoleGraph) (key : GrantKey) : Finset Privilege :=
  if key.schema.isSome then entryAt desired.grants key.wildcard else ∅

/-- Privileges a wildcard absence asserts for the key's scope, for keys in a schema. -/
def absenceWildcard (desired : RoleGraph) (key : GrantKey) : Finset Privilege :=
  if key.schema.isSome then entryAt desired.grantAbsences key.wildcard else ∅

/-- The part of `candidate` that no wildcard of the key's scope covers. A wildcard key is never
shadowed. -/
def shadowFilter (desired : RoleGraph) (key : GrantKey) (candidate : Finset Privilege) :
    Finset Privilege :=
  if key.isWildcard then candidate
  else (candidate \ desiredWildcard desired key) \ absenceWildcard desired key

/-- Grants for declared targets: the full set on a new target, else the missing privileges. -/
def grantChanges (current desired : RoleGraph) : List Change :=
  desired.grants.toList.flatMap fun e =>
    match current.grants[e.1]? with
    | none => [Change.grant e.1 e.2]
    | some held => if e.2 \ held = ∅ then [] else [Change.grant e.1 (e.2 \ held)]

/-- Excess privileges on declared targets. PUBLIC is assertion-driven, and an owner's entry is not
revocable. -/
def declaredKeyRevokes (current desired : RoleGraph) : List (GrantKey × Finset Privilege) :=
  desired.grants.toList.flatMap fun e =>
    match current.grants[e.1]? with
    | none => []
    | some held =>
        if e.1.role.isPublic then []
        else if e.1 ∈ current.inherentGrants then []
        else
          let excess := shadowFilter desired e.1 (held \ e.2)
          if excess = ∅ then [] else [(e.1, excess)]

/-- Privileges on undeclared targets, for ordinary roles and revocable entries. -/
def undeclaredKeyRevokes (current desired : RoleGraph) : List (GrantKey × Finset Privilege) :=
  current.grants.toList.flatMap fun e =>
    if e.1 ∈ desired.grants then []
    else if e.1.role.isPublic then []
    else if e.1 ∈ current.inherentGrants then []
    else
      let excess := shadowFilter desired e.1 e.2
      if excess = ∅ then [] else [(e.1, excess)]

/-- The least key of the key's scope. -/
def GrantKey.scopeStart (key : GrantKey) : GrantKey := { key with name := none }

/-- The entries of a map under the key's (grantee, type, schema), by a scan from the least key. -/
def scanScope {V : Type} (m : BTreeMap GrantKey V) (key : GrantKey) : List (GrantKey × V) :=
  scanBlock Prod.fst key.scopeStart key.sameScope m.toList

/-- What an absence assertion finds held: every revocable entry of its scope for a wildcard, the
entry of its own key otherwise. -/
def heldForAbsence (current : RoleGraph) (key : GrantKey) : Finset Privilege :=
  if key.isWildcard then
    ((scanScope current.grants key).filter fun e => !current.inherentGrants.contains e.1).foldl
      (fun acc e => acc ∪ e.2) ∅
  else if key ∈ current.inherentGrants then ∅
  else entryAt current.grants key

/-- Privileges held against an absence assertion. -/
def absenceRevokes (current desired : RoleGraph) : List (GrantKey × Finset Privilege) :=
  desired.grantAbsences.toList.flatMap fun e =>
    let toRevoke := e.2 ∩ heldForAbsence current e.1
    if toRevoke = ∅ then [] else [(e.1, toRevoke)]

/-- Revokes accumulated per key over all branches. -/
def accumulatedRevokes (current desired : RoleGraph) : BTreeMap GrantKey (Finset Privilege) :=
  extendEntries ∅ (declaredKeyRevokes current desired ++ undeclaredKeyRevokes current desired ++
    absenceRevokes current desired)

/-- The plan transfers the schema the key names, so recorded grantors are stale. -/
def schemaOwnerTransfers (current desired : RoleGraph) (key : GrantKey) : Bool :=
  match key.objectType, key.name with
  | .schema, some name =>
      match current.schemas[name]?, desired.schemas[name]? with
      | some c, some d => d.owner.isSome && d.owner != c.owner
      | _, _ => false
  | _, _ => false

/-- Revokes on one target, one per ACL grantor that holds any of the privileges and a plain one for
what no recorded entry covers. -/
def pushRevokesOnTarget (current desired : RoleGraph) (key : GrantKey)
    (privileges : Finset Privilege) : List Change :=
  if schemaOwnerTransfers current desired key then [Change.revoke key privileges none]
  else
    match current.grantEntryGrantors[key]? with
    | none => [Change.revoke key privileges none]
    | some perGrantor =>
        let covered := perGrantor.toList.foldl (fun acc e => acc ∪ (privileges ∩ e.2)) ∅
        let remainder := privileges \ covered
        (perGrantor.toList.flatMap fun e =>
          if privileges ∩ e.2 = ∅ then []
          else [Change.revoke key (privileges ∩ e.2) (some e.1)]) ++
        (if remainder = ∅ then [] else [Change.revoke key remainder none])

/-- The concrete targets recorded under a wildcard's scope, each with what any record says it
holds. -/
def concreteTargets (current : RoleGraph) (key : GrantKey) : BTreeMap GrantKey (Finset Privilege) :=
  let entries := (scanScope current.grantEntryGrantors key).filter fun e => !e.1.isWildcard
  let grants := (scanScope current.grants key).filter fun e => !e.1.isWildcard
  extendEntries ∅
    ((entries.map fun e => (e.1, e.2.toList.foldl (fun acc g => acc ∪ g.2) ∅)) ++ grants)

/-- Some inherent tag lies in the wildcard's scope. -/
def hasInherent (current : RoleGraph) (key : GrantKey) : Bool :=
  !(scanBlock id key.scopeStart key.sameScope current.inherentGrants.toList).isEmpty

/-- A wildcard with a recorded object or an inherent tag in its scope is expanded; it never runs as
one broad revoke. -/
def expandsWildcard (current : RoleGraph) (key : GrantKey) : Bool :=
  key.isWildcard && (!(concreteTargets current key).isEmpty || hasInherent current key)

/-- The revokes for one accumulated key, expanded against the recorded objects. -/
def pushRevokesSplitByGrantor (current desired : RoleGraph) (key : GrantKey)
    (privileges : Finset Privilege) : List Change :=
  if expandsWildcard current key then
    (concreteTargets current key).toList.flatMap fun e =>
      if e.1 ∈ current.inherentGrants then []
      else if privileges ∩ e.2 = ∅ then []
      else pushRevokesOnTarget current desired e.1 (privileges ∩ e.2)
  else pushRevokesOnTarget current desired key privileges

/-- All object revokes. -/
def revokeChanges (current desired : RoleGraph) : List Change :=
  (accumulatedRevokes current desired).toList.flatMap fun e =>
    pushRevokesSplitByGrantor current desired e.1 e.2

/-! ## Default privileges -/

/-- Default privileges to grant. -/
def defaultSets (current desired : RoleGraph) : List Change :=
  desired.defaultPrivileges.toList.flatMap fun e =>
    match current.defaultPrivileges[e.1]? with
    | none => [Change.setDefaultPrivilege e.1 e.2]
    | some held => if e.2 \ held = ∅ then [] else [Change.setDefaultPrivilege e.1 (e.2 \ held)]

/-- PostgreSQL's built-in PUBLIC defaults of an owner this plan creates. -/
def builtinDefaultsForNewOwner (current desired : RoleGraph) (key : DefaultPrivKey) :
    Finset Privilege :=
  if key.owner ∈ current.roles ∨ key.owner ∉ desired.roles ∨ key.scope ≠ .global ∨
      key.grantee.isPublic = false then ∅
  else
    match key.onType with
    | .function => {.execute}
    | .type => {.usage}
    | _ => ∅

/-- What a default-privilege absence finds held: the recorded rule, else the built-in defaults. -/
def heldDefaults (current desired : RoleGraph) (key : DefaultPrivKey) : Finset Privilege :=
  current.defaultPrivileges[key]?.getD (builtinDefaultsForNewOwner current desired key)

/-- Excess default privileges on declared rules, for ordinary grantees. -/
def declaredDefaultRevokes (current desired : RoleGraph) :
    List (DefaultPrivKey × Finset Privilege) :=
  desired.defaultPrivileges.toList.flatMap fun e =>
    match current.defaultPrivileges[e.1]? with
    | none => []
    | some held =>
        if e.1.grantee.isPublic then []
        else if held \ e.2 = ∅ then [] else [(e.1, held \ e.2)]

/-- Default privileges of undeclared rules, for ordinary grantees. -/
def undeclaredDefaultRevokes (current desired : RoleGraph) :
    List (DefaultPrivKey × Finset Privilege) :=
  current.defaultPrivileges.toList.flatMap fun e =>
    if e.1 ∈ desired.defaultPrivileges then []
    else if e.1.grantee.isPublic then []
    else [(e.1, e.2)]

/-- Default privileges held against an absence assertion. -/
def absenceDefaultRevokes (current desired : RoleGraph) :
    List (DefaultPrivKey × Finset Privilege) :=
  desired.defaultPrivilegeAbsences.toList.flatMap fun e =>
    let held := heldDefaults current desired e.1
    if e.2 ∩ held = ∅ then [] else [(e.1, e.2 ∩ held)]

/-- Default-privilege revokes accumulated per key. -/
def accumulatedDefaultRevokes (current desired : RoleGraph) :
    BTreeMap DefaultPrivKey (Finset Privilege) :=
  extendEntries ∅ (declaredDefaultRevokes current desired ++
    undeclaredDefaultRevokes current desired ++ absenceDefaultRevokes current desired)

/-- All default-privilege revokes. -/
def defaultRevokes (current desired : RoleGraph) : List Change :=
  (accumulatedDefaultRevokes current desired).toList.flatMap fun e =>
    [Change.revokeDefaultPrivilege e.1 e.2]

/-! ## Memberships -/

/-- One edge per (role, member); of several, the last in edge order. -/
def membershipMap (edges : BTreeSet MembershipEdge) : BTreeMap (String × String) MembershipEdge :=
  ExtTreeMap.ofList (edges.toList.map fun e => (e.pair, e)) compare

/-- The edge is the executor's own ADMIN authority. -/
def executorAuthority (current : RoleGraph) (role member grantor : String) : Bool :=
  current.executorAuthorityEdges.contains (role, member, grantor)

/-- The recorded grantors of a pair, when there are any. -/
def recordedGrantors (current : RoleGraph) (pair : String × String) : Option (BTreeSet String) :=
  match current.membershipEdgeGrantors[pair]? with
  | some grantors => if grantors.isEmpty then none else some grantors
  | none => none

/-- Remove every live edge of a pair except the executor's own authority. -/
def removeAllEdges (current : RoleGraph) (pair : String × String) : List Change :=
  match recordedGrantors current pair with
  | some grantors =>
      (grantors.toList.filter fun g => !executorAuthority current pair.1 pair.2 g).map fun g =>
        Change.removeMember pair.1 pair.2 (some g)
  | none => [Change.removeMember pair.1 pair.2 none]

/-- The reduction of one option on one grantor's edge. Missing live options count as supplying
it. -/
def optionReduction (currentValue desiredValue : Bool) (live : Option Bool) : Option Bool :=
  if currentValue && !desiredValue && live.getD true then some false else none

/-- The inspected options of one grantor's edge. -/
def liveOptions (current : RoleGraph) (pair : String × String) (grantor : String) :
    Option MembershipOptions :=
  current.membershipEdgeOptions[pair]?.bind fun edges => edges[grantor]?

/-- The INHERIT option that a grantor's edge loses. -/
def inheritReduction (current : RoleGraph) (pair : String × String)
    (currentEdge desiredEdge : MembershipEdge) (grantor : String) : Option Bool :=
  optionReduction currentEdge.inherit desiredEdge.inherit
    ((liveOptions current pair grantor).map (·.inherit))

/-- The executor's own authority keeps ADMIN. -/
def adminReduction (current : RoleGraph) (pair : String × String)
    (currentEdge desiredEdge : MembershipEdge) (grantor : String) : Option Bool :=
  if executorAuthority current pair.1 pair.2 grantor then none
  else
    optionReduction currentEdge.admin desiredEdge.admin
      ((liveOptions current pair grantor).map (·.admin))

/-- Option reductions of a pair, one per supplying grantor. -/
def optionReductions (current : RoleGraph) (pair : String × String)
    (grantors : BTreeSet String) (currentEdge desiredEdge : MembershipEdge) : List Change :=
  grantors.toList.flatMap fun g =>
    let inherit := inheritReduction current pair currentEdge desiredEdge g
    let admin := adminReduction current pair currentEdge desiredEdge g
    if inherit.isNone && admin.isNone then []
    else [Change.updateMemberOptions pair.1 pair.2 g inherit admin none]

/-- The increase of one option. -/
def optionIncrease (currentValue desiredValue : Bool) : Option Bool :=
  if !currentValue && desiredValue then some true else none

/-- Option increases of a pair, as one intent under a placeholder grantor. -/
def optionIncreases (pair : String × String) (grantors : BTreeSet String)
    (currentEdge desiredEdge : MembershipEdge) : List Change :=
  let inherit := optionIncrease currentEdge.inherit desiredEdge.inherit
  let admin := optionIncrease currentEdge.admin desiredEdge.admin
  if inherit.isNone && admin.isNone then []
  else [Change.updateMemberOptions pair.1 pair.2 (grantors.toList.headD "") inherit admin none]

/-- The two edges agree on both options. -/
def sameOptions (a b : MembershipEdge) : Bool := a.inherit == b.inherit && a.admin == b.admin

/-- The change that adds an edge. -/
def addMemberOf (e : MembershipEdge) : Change := .addMember e.role e.member e.inherit e.admin

/-- Additions for one desired pair. -/
def pairAdds (current : RoleGraph) (pair : String × String) (desiredEdge : MembershipEdge) :
    List Change :=
  match (membershipMap current.memberships)[pair]? with
  | none => [addMemberOf desiredEdge]
  | some currentEdge =>
      if sameOptions currentEdge desiredEdge then []
      else
        match recordedGrantors current pair with
        | some grantors => optionIncreases pair grantors currentEdge desiredEdge
        | none => [addMemberOf desiredEdge]

/-- Removals for one desired pair. -/
def pairRemoves (current : RoleGraph) (pair : String × String) (desiredEdge : MembershipEdge) :
    List Change :=
  match (membershipMap current.memberships)[pair]? with
  | none => []
  | some currentEdge =>
      if sameOptions currentEdge desiredEdge then []
      else
        match recordedGrantors current pair with
        | some grantors => optionReductions current pair grantors currentEdge desiredEdge
        | none => removeAllEdges current pair

/-- Membership additions. -/
def memberAdds (current desired : RoleGraph) : List Change :=
  (membershipMap desired.memberships).toList.flatMap fun e => pairAdds current e.1 e.2

/-- Membership removals: reductions on desired pairs, then the undeclared pairs. -/
def memberRemoves (current desired : RoleGraph) : List Change :=
  ((membershipMap desired.memberships).toList.flatMap fun e => pairRemoves current e.1 e.2) ++
    (membershipMap current.memberships).toList.flatMap fun e =>
      if e.1 ∈ membershipMap desired.memberships then [] else removeAllEdges current e.1

/-! ## Assembly -/

/-- The change transfers a schema to the grantee of a schema revoke. -/
def revokesIncomingOwner (transfers : List Change) : Change → Bool
  | .revoke key _ _ =>
      match key.objectType, key.name with
      | .schema, some name => transfers.contains (.alterSchemaOwner name key.role.asStr)
      | _, _ => false
  | _ => false

/-- The object revokes of the plan. A transfer absorbs the incoming owner's explicit entry, so
revoking that entry would strip the owner. -/
def plannedRevokes (current desired : RoleGraph) : List Change :=
  (revokeChanges current desired).filter
    fun c => !revokesIncomingOwner (schemaChanges current desired) c

/-- The diff against a desired graph whose routine names are already resolved. -/
def diffResolved (current desired : RoleGraph) : List Change :=
  roleCreates current desired ++ roleAlters current desired ++ schemaChanges current desired ++
    schemaGrants current desired ++ grantChanges current desired ++ defaultSets current desired ++
    plannedRevokes current desired ++ memberRemoves current desired ++ memberAdds current desired ++
    defaultRevokes current desired ++ roleDrops current desired

/-- The changes that bring `current` to `desired`, in dependency order. -/
def diff (current desired : RoleGraph) : List Change :=
  diffResolved current (desired.resolveRoutineAliases current.routineAliases)

end PgRoles.Core

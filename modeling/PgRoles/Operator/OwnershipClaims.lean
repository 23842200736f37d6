import PgRoles.Operator.PolicySpec
import PgRoles.Core.ExpandSpec

/-!
# Claims of policies on one database

A policy claims the roles, the schemas and the databases with PUBLIC rules that its spec mentions.
Before a reconcile connects, it compares its claims with those of every other policy of the same
database, and stops at an overlap. Which database a policy means is read off the text of its
connection.
-/

set_option autoImplicit false

namespace PgRoles.Operator

open Std PgRoles.Lib PgRoles.Core

/-! ## Claims -/

/-- What a policy claims. -/
structure OwnershipClaims where
  roles : BTreeSet String := ∅
  schemas : BTreeSet String := ∅
  /-- Databases whose PUBLIC privileges the policy asserts; PUBLIC itself is no claimable role. -/
  publicDatabases : BTreeSet String := ∅

/-- The names both sets have, in order. -/
def sharedNames (a b : BTreeSet String) : List String := a.toList.filter b.contains

namespace OwnershipClaims

/-- Do two claims share a role, a schema or a database whose PUBLIC privileges they manage? -/
def overlaps (self other : OwnershipClaims) : Bool :=
  !(sharedNames self.roles other.roles).isEmpty ||
    !(sharedNames self.schemas other.schemas).isEmpty ||
    !(sharedNames self.publicDatabases other.publicDatabases).isEmpty

/-- The part of a summary for one kind of claim. -/
def summaryPart (label : String) (names : List String) : List String :=
  if names.isEmpty then [] else [label ++ ": " ++ ", ".intercalate names]

/-- What two claims share, as the condition's message lists it. -/
def overlapSummary (self other : OwnershipClaims) : String :=
  "; ".intercalate
    (summaryPart "roles" (sharedNames self.roles other.roles) ++
      summaryPart "schemas" (sharedNames self.schemas other.schemas) ++
      summaryPart "PUBLIC on databases"
        (sharedNames self.publicDatabases other.publicDatabases))

end OwnershipClaims

/-- The schema a declared grant claims. -/
def claimedSchema (grant : Grant) : Option String :=
  match grant.object.objectType with
  | .database => none
  | .schema => grant.object.name
  | _ => grant.object.schema

/-- The owner a global default-privilege declaration claims; the scope was validated before. -/
def claimedOwner (defaultOwner : Option String) (d : DefaultPrivilege) : Option String :=
  match d.resolvedScope with
  | .ok .global => d.owner.or defaultOwner
  | _ => none

/-- The schema a default-privilege declaration claims. -/
def claimedDefaultSchema (d : DefaultPrivilege) : Option String :=
  match d.resolvedScope with
  | .ok scope => scope.schema?
  | .error _ => none

/-- The roles a manifest mentions apart from those it expands to. -/
def mentionedRoles (m : PolicyManifest) : List String :=
  m.retirements.map (·.role) ++
    (m.grants.map (·.role)).filter (· != publicRoleName) ++
    (m.defaultPrivileges.flatMap fun d => d.grant.filterMap (·.role)).filter
      (· != publicRoleName) ++
    m.memberships.map (·.role) ++
    m.memberships.flatMap (fun membership => membership.members.map (·.name)) ++
    m.defaultPrivileges.filterMap (claimedOwner m.defaultOwner)

/-- The schemas a manifest mentions. -/
def mentionedSchemas (m : PolicyManifest) : List String :=
  m.schemas.map (·.name) ++ m.grants.filterMap claimedSchema ++
    m.defaultPrivileges.filterMap claimedDefaultSchema

/-- The databases with PUBLIC rules. -/
def mentionedPublicDatabases (m : PolicyManifest) : List String :=
  (m.grants.filter fun grant =>
    grant.object.objectType == .database && grant.role == publicRoleName).filterMap (·.object.name)

/-- The claims of a spec: every role it expands to, and every role and schema it mentions. -/
def PostgresPolicySpec.ownershipClaims (spec : PostgresPolicySpec) :
    Except ManifestError OwnershipClaims := do
  let manifest := spec.toPolicyManifest
  let expanded ← expandManifest manifest
  return {
    roles := ExtTreeSet.ofList (expanded.roles.map (·.name) ++ mentionedRoles manifest) compare
    schemas := ExtTreeSet.ofList (mentionedSchemas manifest) compare
    publicDatabases := ExtTreeSet.ofList (mentionedPublicDatabases manifest) compare }

/-! ## The identity of a connection -/

/-- The text of a field that is a literal or a reference. -/
def fieldIdentityRepr (literal : Option String) (secret : Option SecretKeySelector) : String :=
  match literal, secret with
  | some value, _ => "literal=" ++ value
  | none, some selector => "secret=" ++ selector.name ++ "\x00" ++ selector.key
  | none, none => ""

/-- The text of the port, and the default without one. -/
def portIdentityRepr (params : ConnectionParams) : String :=
  match params.port, params.portSecret with
  | some port, _ => "literal=" ++ toString port.toNat
  | none, some selector => "secret=" ++ selector.name ++ "\x00" ++ selector.key
  | none, none => "5432"

/-- The identity of a database that is named in parts. -/
def ConnectionParams.identityKey (params : ConnectionParams) : String :=
  "params\x00" ++ fieldIdentityRepr params.host params.hostSecret ++ "\x00" ++
    fieldIdentityRepr params.dbname params.dbnameSecret ++ "\x00" ++ portIdentityRepr params

/-- The key that stands for the database of a connection; credentials are no part of it. -/
def ConnectionSpec.identityKey (connection : ConnectionSpec) : String :=
  match connection.secretRef, connection.params with
  | some secretRef, _ => secretRef.name ++ "/" ++ connection.effectiveSecretKey
  | none, some params => params.identityKey
  | none, none => "invalid-connection"

/-- The identity of a database, within a namespace. -/
def databaseIdentity (ns : String) (connection : ConnectionSpec) : String :=
  ns ++ "/" ++ connection.identityKey

/-! ## Conflicts -/

/-- A policy object. -/
structure PostgresPolicy where
  ns : Option String
  name : String
  spec : PostgresPolicySpec

/-- The name of a policy with its namespace. -/
def reference (ns name : String) : String := ns ++ "/" ++ name

/-- The entry of another policy in a report, if it is in conflict. A policy that does not pass its
own validation is skipped. -/
def conflictWith (ns name identity : String) (ownership : OwnershipClaims)
    (other : PostgresPolicy) : Option String :=
  match other.ns with
  | none => none
  | some otherNs =>
      if otherNs = ns ∧ other.name = name then none
      else if databaseIdentity otherNs other.spec.connection ≠ identity then none
      else
        match other.spec.validatePasswordSpecs other.name, other.spec.ownershipClaims with
        | .ok _, .ok claims =>
            if ownership.overlaps claims then
              some (reference otherNs other.name ++ " (" ++ ownership.overlapSummary claims ++ ")")
            else none
        | _, _ => none

/-- The message about all policies of the list that claim the same of one database. -/
def detectPolicyConflictInList (resource : PostgresPolicy) (identity : String)
    (ownership : OwnershipClaims) (policies : List PostgresPolicy) : Option String :=
  match resource.ns with
  | none => none
  | some ns =>
      let conflicts := policies.filterMap (conflictWith ns resource.name identity ownership)
      if conflicts.isEmpty then none
      else
        some ("policy ownership overlaps with " ++ ", ".intercalate conflicts ++
          " on database target " ++ identity)

/-! ## Sets of names -/

theorem sharedNames_isEmpty {a b : BTreeSet String} :
    (!(sharedNames a b).isEmpty) = true ↔ ∃ name, name ∈ a ∧ name ∈ b := by
  unfold sharedNames
  rw [Bool.not_eq_true', List.isEmpty_eq_false_iff_exists_mem]
  refine exists_congr fun name => ?_
  rw [List.mem_filter, ExtTreeSet.mem_toList, ExtTreeSet.contains_iff_mem]

theorem OwnershipClaims.overlaps_iff {a b : OwnershipClaims} :
    a.overlaps b = true ↔ (∃ name, name ∈ a.roles ∧ name ∈ b.roles) ∨
      (∃ name, name ∈ a.schemas ∧ name ∈ b.schemas) ∨
      ∃ name, name ∈ a.publicDatabases ∧ name ∈ b.publicDatabases := by
  unfold OwnershipClaims.overlaps
  rw [Bool.or_eq_true, Bool.or_eq_true, sharedNames_isEmpty, sharedNames_isEmpty,
    sharedNames_isEmpty, or_assoc]

theorem OwnershipClaims.overlaps_comm (a b : OwnershipClaims) : a.overlaps b = b.overlaps a := by
  rw [Bool.eq_iff_iff, overlaps_iff, overlaps_iff]
  simp only [and_comm]

theorem mem_ofList_names {names : List String} {name : String} :
    name ∈ ExtTreeSet.ofList names compare ↔ name ∈ names := by
  rw [ExtTreeSet.mem_ofList, List.contains_iff_mem]

end PgRoles.Operator

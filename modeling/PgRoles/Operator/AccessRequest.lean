import PgRoles.Lib.Json

/-!
# Ephemeral access requests

A request asks for temporary memberships. Its status carries the lifecycle phase and, once the
request is resolved, a snapshot of the target policy, the target database and the exact memberships,
bound together by a digest of their canonical JSON. Conditions, durations and timestamps of the
status are left out, except where a later module reads them.
-/

set_option autoImplicit false

namespace PgRoles.Operator

open Std PgRoles.Lib

/-- One membership of a bundle. -/
structure ResolvedEphemeralMembership where
  role : String
  member : String
  inherit : Bool
  deriving DecidableEq, Repr

/-- Memberships are ordered field by field. -/
instance : Ord ResolvedEphemeralMembership := ordOn fun m => (m.role, m.member, m.inherit)

/-- The snapshot of what a request resolved to. -/
structure ResolvedEphemeralAccess where
  accessPolicyUid : String
  targetPolicyUid : String
  /-- Fingerprint of the resolved host, port and database name. -/
  targetDatabaseFingerprint : String
  bundleEncoding : String
  bundleHash : String
  memberships : List ResolvedEphemeralMembership
  deriving DecidableEq, Repr

/-- Lifecycle phase of a request. -/
inductive EphemeralAccessRequestPhase where
  | pending
  | pendingApproval
  | applying
  | active
  | revoking
  | ended
  | revoked
  | cancelled
  | denied
  | approvalExpired
  | failed
  deriving DecidableEq, Repr

/-- What a plan does with the bundle of a request. -/
inductive ScopedPlanOperation where
  | activate
  | revoke
  deriving DecidableEq, Repr

/-- Status of a request. -/
structure EphemeralAccessRequestStatus where
  phase : EphemeralAccessRequestPhase := .pending
  resolvedAccess : Option ResolvedEphemeralAccess := none
  deriving DecidableEq, Repr

/-- An access request. The resource version tells the versions of one object apart. -/
structure EphemeralAccessRequest where
  name : String
  ns : Option String
  uid : Option String
  resourceVersion : Option String
  /-- Name of the access policy the request refers to. -/
  accessPolicyRef : String
  status : Option EphemeralAccessRequestStatus
  deriving DecidableEq, Repr

/-- The snapshot, once the request is resolved. -/
def EphemeralAccessRequest.resolvedAccess (request : EphemeralAccessRequest) :
    Option ResolvedEphemeralAccess :=
  request.status.bind (·.resolvedAccess)

/-! ## The digest of a bundle -/

/-- The encoding that a bundle's text names. -/
def ephemeralBundleEncodingV1 : String := "pgroles.io/ephemeral-membership-bundle-v1"

/-- What the memberships of a bundle mean, as its text names it. -/
def ephemeralMembershipSemanticsV1 : String :=
  "postgres-membership-v1-admin-false-set-server-default"

/-- A membership as the bundle's text spells it. -/
def ResolvedEphemeralMembership.toJson (membership : ResolvedEphemeralMembership) : Json :=
  .obj [("role", .str membership.role), ("member", .str membership.member),
    ("inherit", .bool membership.inherit)]

/-- The bytes the digest is computed over; the memberships are sorted first. -/
def ResolvedEphemeralAccess.canonicalBundleBytes (resolved : ResolvedEphemeralAccess) : ByteArray :=
  let memberships := resolved.memberships.mergeSort fun a b => (compare a b).isLE
  Json.bytes <| .obj [("bundleEncoding", .str ephemeralBundleEncodingV1),
    ("membershipSemantics", .str ephemeralMembershipSemanticsV1),
    ("targetDatabaseFingerprint", .str resolved.targetDatabaseFingerprint),
    ("memberships", .arr (memberships.map ResolvedEphemeralMembership.toJson))]

/-- The digest of the bundle; `sha256` is in hexadecimal. -/
def ResolvedEphemeralAccess.computeBundleHash (sha256 : ByteArray → String)
    (resolved : ResolvedEphemeralAccess) : String :=
  "sha256:" ++ sha256 resolved.canonicalBundleBytes

/-- The recorded digest is that of the recorded bundle. -/
def ResolvedEphemeralAccess.hasValidBundleHash (sha256 : ByteArray → String)
    (resolved : ResolvedEphemeralAccess) : Bool :=
  resolved.bundleEncoding == ephemeralBundleEncodingV1 &&
    resolved.bundleHash == resolved.computeBundleHash sha256

end PgRoles.Operator

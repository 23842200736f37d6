import PgRoles.Operator.EffectiveGraph
import PgRoles.Operator.PlanSql
import PgRoles.Operator.Promotion

/-!
# Resolving an access request

A request names an access policy, which names the policy that manages the target database. Resolving
it freezes the memberships, the database and the duration into one snapshot; the digest of the
memberships and the database is what a reviewer attests to. The duration that is granted is read back
as the seconds it stands for and does not exceed the access policy's maximum
(`madeOf_resolveRequest`).

What the API server and the database answer, and how timestamps are written and read, are parameters.
-/

set_option autoImplicit false

namespace PgRoles.Operator

open Std PgRoles.Core PgRoles.Lib

/-! ## Objects -/

/-- A condition on a request's status. -/
structure EphemeralAccessCondition where
  conditionType : String
  status : String
  reason : Option String := none
  message : Option String := none
  lastTransitionTime : Option String := none
  /-- Digest of the bundle a decision applies to. -/
  bundleHash : Option String := none
  grantedDuration : Option String := none
  deriving DecidableEq, Repr

/-- Who made a decision. -/
structure DecisionActor where
  username : String
  uid : Option String := none
  groups : List String := []
  deriving DecidableEq, Repr

/-- The snapshot with the generations it was made of and the duration that was granted. -/
structure ResolvedAccess extends ResolvedEphemeralAccess where
  accessPolicyGeneration : Int
  targetPolicyGeneration : Int
  grantedDuration : String
  deriving DecidableEq, Repr

/-- The whole status of a request. -/
structure RequestStatus where
  phase : EphemeralAccessRequestPhase := .pending
  conditions : List EphemeralAccessCondition := []
  resolvedAccess : Option ResolvedAccess := none
  decidedBy : Option DecisionActor := none
  approvalExpiresAt : Option String := none
  activatedAt : Option String := none
  expiresAt : Option String := none
  endedAt : Option String := none
  lastError : Option String := none
  retainedMemberships : List ResolvedEphemeralMembership := []
  deriving DecidableEq, Repr

/-- The parts of a request that never change. -/
structure AccessRequest where
  name : String
  ns : Option String
  uid : Option String
  accessPolicyRef : String
  /-- The role that receives the memberships. -/
  subject : String
  requestedDuration : Option String := none
  justification : Option String := none
  deriving DecidableEq, Repr

/-- Is an approval required? -/
inductive EphemeralApprovalMode where
  | automatic
  | required
  deriving DecidableEq, Repr

/-- A role that a policy permits a subject to request. -/
structure EphemeralMembership where
  role : String
  inherit : Bool
  deriving DecidableEq, Repr

/-- What may be requested, of which policy, and for how long. -/
structure AccessPolicy where
  uid : Option String
  generation : Option Int
  postgresPolicyRef : String
  memberships : List EphemeralMembership
  maximumDuration : String
  defaultDuration : Option String := none
  pendingRequestTtl : String := "15m"
  justificationRequired : Bool := false
  approvalMode : EphemeralApprovalMode := .required
  suspend : Bool := false
  /-- The generation its status was written for and the conditions, once there is a status. -/
  status : Option (Option Int × List EphemeralAccessCondition) := none
  deriving DecidableEq, Repr

/-- The policy that manages the target database. -/
structure TargetPolicy where
  name : String
  uid : Option String
  generation : Option Int
  mode : PolicyMode := .apply
  suspend : Bool := false
  content : PolicyContent := {}
  deriving DecidableEq

/-- Why a reconcile stops: the request is not valid, which is reported in its status, or something
failed that is only tried again. -/
inductive EphemeralError where
  | invalid (message : String)
  | other (message : String)
  deriving DecidableEq, Repr

/-- What the API server and the target's connection answer. -/
structure ResolutionReads where
  accessPolicy : String → Except EphemeralError AccessPolicy
  target : String → Except EphemeralError TargetPolicy
  fingerprint : TargetPolicy → Except EphemeralError String

/-- How timestamps are written and read. -/
structure Timestamps where
  fromSecond : Nat → Except EphemeralError String
  parse : String → Option Nat

/-- What is written for a time is read as that time. -/
def Timestamps.ReadsBack (times : Timestamps) : Prop :=
  ∀ secs text, times.fromSecond secs = .ok text → times.parse text = some secs

/-! ## Conditions -/

/-- A condition set now; its message is cut to what the API server takes. -/
def accessCondition (conditionType : String) (status : Bool) (reason message now : String) :
    EphemeralAccessCondition where
  conditionType := conditionType
  status := if status then "True" else "False"
  reason := some reason
  message := some (truncateUtf8 message 2048 "")
  lastTransitionTime := some now

/-- The conditions say the same, whenever they were written. -/
def EphemeralAccessCondition.sameAs (a b : EphemeralAccessCondition) : Bool :=
  a.status == b.status && a.reason == b.reason && a.message == b.message &&
    a.bundleHash == b.bundleHash && a.grantedDuration == b.grantedDuration

/-- Put a condition behind the others, in the place of the one of its type; the time is kept where
nothing else changes. -/
def setCondition (conditions : List EphemeralAccessCondition)
    (condition : EphemeralAccessCondition) : List EphemeralAccessCondition :=
  let found := conditions.find? fun existing => existing.conditionType == condition.conditionType
  let written :=
    match found with
    | some existing =>
        if existing.sameAs condition then
          { condition with lastTransitionTime := existing.lastTransitionTime }
        else condition
    | none => condition
  (conditions.filter fun existing => existing.conditionType != condition.conditionType) ++ [written]

/-- The condition of a decision that was taken. -/
def decisionCondition (status : RequestStatus) (conditionType : String) :
    Option EphemeralAccessCondition :=
  status.conditions.find? fun condition =>
    condition.conditionType == conditionType && condition.status == "True"

/-! ## Durations -/

/-- What is said of a duration that is not read. The schema admits digits and units only. -/
def InvalidDuration.message : InvalidDuration → String
  | .empty => "duration must not be empty"
  | .invalidNumber value => "invalid duration \"" ++ String.ofList value ++ "\""
  | .invalidUnit unit => "invalid duration unit '" ++ String.ofList [unit] ++ "'"
  | .tooLarge => "duration is too large"
  | .missingUnit value => "duration \"" ++ String.ofList value ++ "\" must end in s, m, or h"
  | .zero => "duration must be greater than zero"

/-- A duration, or the error of a text that is none. -/
def readDuration (text : String) : Except EphemeralError Nat :=
  (parseDuration text).mapError fun e => .invalid e.message

/-- A duration in seconds. -/
def formatDuration (secs : Nat) : String := String.ofList (Nat.toDigits 10 secs ++ ['s'])

/-! ## Resolution -/

/-- The status of the current generation says that the policy is accepted and its references are
resolved. -/
def AccessPolicy.accepted (policy : AccessPolicy) : Bool :=
  policy.status.any fun status =>
    status.1 == policy.generation && ["Accepted", "ResolvedRefs"].all fun conditionType =>
      status.2.any fun condition =>
        condition.conditionType == conditionType && condition.status == "True"

/-- A membership is of a role that the target policy has and manages, named once. -/
def checkMembership (targetRoles : List RoleDefinition) (seen : List String)
    (membership : EphemeralMembership) : Except EphemeralError (List String) :=
  match targetRoles.reverse.find? fun role => role.name == membership.role with
  | none => .error <| .invalid <| "access policy role " ++ membership.role ++
      " is not in the current expanded target policy"
  | some role => do
      rejectIf role.external <| .invalid <| "access policy role " ++ membership.role ++
        " is externally managed"
      rejectIf (seen.contains membership.role) <| .invalid <| "access policy role " ++
        membership.role ++ " appears more than once"
      return seen ++ [membership.role]

/-- What a request resolves to now. -/
structure Resolution where
  resolved : ResolvedAccess
  approvalDeadline : Nat
  mode : EphemeralApprovalMode
  suspended : Bool
  deriving DecidableEq

section Resolve

variable (sha256 : ByteArray → String) (times : Timestamps) (reads : ResolutionReads)

/-- The duration that is asked for. -/
def requestedSeconds (request : AccessRequest) (policy : AccessPolicy) :
    Except EphemeralError Nat :=
  match request.requestedDuration.orElse fun _ => policy.defaultDuration with
  | some duration => readDuration duration
  | none => .error (.invalid "requestedDuration or defaultDuration is required")

/-- The snapshot, with the digest of its bundle. -/
def resolvedBundle (request : AccessRequest) (policy : AccessPolicy) (target : TargetPolicy)
    (requested : Nat) (fingerprint : String) : ResolvedAccess :=
  let resolved : ResolvedAccess :=
    { accessPolicyUid := policy.uid.getD ""
      accessPolicyGeneration := policy.generation.getD 0
      targetPolicyUid := target.uid.getD ""
      targetPolicyGeneration := target.generation.getD 0
      targetDatabaseFingerprint := fingerprint
      grantedDuration := formatDuration requested
      bundleEncoding := ephemeralBundleEncodingV1
      bundleHash := ""
      memberships := policy.memberships.map fun membership =>
        ⟨membership.role, request.subject, membership.inherit⟩ }
  { resolved with bundleHash := resolved.computeBundleHash sha256 }

/-- The policy and its target admit the request. -/
def checkAdmission (request : AccessRequest) (policy : AccessPolicy) (target : TargetPolicy) :
    Except EphemeralError Unit := do
  rejectIf target.mode.neverExecutes (.invalid "target PostgresPolicy must be in apply mode")
  let expanded ← (expandManifest target.content.toPolicyManifest).mapError fun _ =>
    .other "the manifest of the target policy is not valid"
  let _ ← policy.memberships.foldlM (checkMembership expanded.roles) []
  rejectIf (!expanded.roles.any fun role => role.name == request.subject) <| .invalid <|
    "subject role " ++ request.subject ++ " is not in the expanded target policy"

/-- Resolve the request at a time. The deadline of the approval is computed once. -/
def resolveRequest (now : Nat) (request : AccessRequest) (approvalExpiresAt : Option String) :
    Except EphemeralError Resolution := do
  rejectIf request.ns.isNone (.invalid "resource has no namespace")
  let policy ← reads.accessPolicy request.accessPolicyRef
  rejectIf (!policy.accepted)
    (.invalid "access policy current generation is not Accepted and Resolved")
  rejectIf (policy.justificationRequired &&
      request.justification.all fun justification => (trimmed justification).isEmpty)
    (.invalid "justification is required")
  let target ← reads.target policy.postgresPolicyRef
  checkAdmission request policy target
  let requested ← requestedSeconds request policy
  let maximum ← readDuration policy.maximumDuration
  rejectIf (maximum < requested) (.invalid "requested duration exceeds policy maximum")
  let fingerprint ← reads.fingerprint target
  let ttl ← readDuration policy.pendingRequestTtl
  -- without a recorded deadline the sum wraps in a release build
  .ok
    { resolved := resolvedBundle sha256 request policy target requested fingerprint
      approvalDeadline := (approvalExpiresAt.bind times.parse).getD ((now + ttl) % wordLimit)
      mode := policy.approvalMode
      suspended := policy.suspend || target.suspend }

end Resolve

/-! ## What is granted -/

theorem parseDuration_bounds {text : String} {secs : Nat} (h : parseDuration text = .ok secs) :
    0 < secs ∧ secs < wordLimit := by
  refine ⟨?_, (parseInterval_of_parseDuration h).1⟩
  unfold parseDuration at h
  obtain ⟨-, h⟩ := check_bind_eq_ok.1 h
  obtain ⟨total, -, h⟩ := bind_eq_ok.1 h
  obtain ⟨hzero, h⟩ := check_bind_eq_ok.1 h
  cases h
  rw [rejectIf_eq_ok, decide_eq_false_iff_not] at hzero
  exact Nat.pos_of_ne_zero hzero

theorem readDuration_eq_ok {text : String} {secs : Nat} :
    readDuration text = .ok secs ↔ parseDuration text = .ok secs := by
  unfold readDuration
  cases parseDuration text <;> simp [Except.mapError]

theorem isAsciiDigit_of_isDigit {c : Char} (h : c.isDigit = true) : isAsciiDigit c = true := by
  simpa [isAsciiDigit, Char.isDigit, Char.le_def] using h

theorem isWhitespace_of_isAsciiDigit {c : Char} (h : isAsciiDigit c = true) :
    isWhitespace c = false := by
  simp only [isAsciiDigit, Bool.and_eq_true, decide_eq_true_eq, Char.le_def,
    UInt32.le_iff_toNat_le] at h
  have hlow : 48 ≤ c.toNat := h.1
  have hhigh : c.toNat ≤ 57 := h.2
  simp [isWhitespace]
  omega

/-- Digits in front of a unit are collected before anything is added. -/
theorem scanDuration_digits (value : List Char) {digits : List Char}
    (hdigits : ∀ c ∈ digits, isAsciiDigit c = true) (rest : List Char) (total : Nat)
    (number : List Char) :
    scanDuration value total number (digits ++ rest) =
      scanDuration value total (number ++ digits) rest := by
  induction digits generalizing number with
  | nil => simp
  | cons c digits ih =>
      rw [List.forall_mem_cons] at hdigits
      rw [List.cons_append, scanDuration, if_pos hdigits.1, ih hdigits.2]
      simp

/-- The granted duration is read as the seconds it was written for. -/
theorem parseDuration_formatDuration {secs : Nat} (hpos : 0 < secs) (hfits : secs < wordLimit) :
    parseDuration (formatDuration secs) = .ok secs := by
  have hdigit : ∀ c ∈ Nat.toDigits 10 secs, isAsciiDigit c = true := fun c hc =>
    isAsciiDigit_of_isDigit (Nat.isDigit_of_mem_toDigits (by decide) (by decide) hc)
  have hne : Nat.toDigits 10 secs ≠ [] := Nat.toDigits_ne_nil
  have htext : trimmed (formatDuration secs) = Nat.toDigits 10 secs ++ ['s'] := by
    obtain ⟨c, digits, hcons⟩ := List.exists_cons_of_ne_nil hne
    have hblank := isWhitespace_of_isAsciiDigit (hdigit c (hcons ▸ List.mem_cons_self))
    rw [trimmed, formatDuration, String.toList_ofList, hcons, List.cons_append,
      List.dropWhile_cons_of_neg (by simp [hblank]), ← List.cons_append,
      List.rdropWhile_concat_neg _ _ _ (by decide)]
  have hword : parseWord (Nat.toDigits 10 secs) = some secs := by
    have hvalue : decimal (Nat.toDigits 10 secs) = secs := Nat.ofDigitChars_ten_toDigits
    exact parseWord_eq_some.2 ⟨hne, by rw [hvalue]; exact hfits, hvalue.symm⟩
  have hscan : scanDuration (trimmed (formatDuration secs)) 0 [] (Nat.toDigits 10 secs ++ ['s']) =
      .ok secs := by
    rw [scanDuration_digits _ hdigit, List.nil_append, scanDuration, if_neg (by decide), hword]
    have hfits' : secs * 1 < wordLimit ∧ 0 + secs * 1 < wordLimit := by omega
    simp [unitSeconds, checked, hfits, scanDuration, bind, Except.bind]
  unfold parseDuration
  rw [htext] at hscan ⊢
  refine check_bind_eq_ok.2 ⟨rejectIf_eq_ok.2 (by simp), bind_eq_ok.2 ⟨secs, hscan, ?_⟩⟩
  exact check_bind_eq_ok.2 ⟨rejectIf_eq_ok.2 (decide_eq_false (by omega)), rfl⟩

/-! ## What a resolution was made of -/

/-- The policies a resolution was made of, and the seconds it grants. -/
structure Resolution.MadeOf (sha256 : ByteArray → String) (reads : ResolutionReads)
    (request : AccessRequest) (policy : AccessPolicy) (target : TargetPolicy) (granted : Nat)
    (r : Resolution) : Prop where
  found : reads.accessPolicy request.accessPolicyRef = .ok policy
  accepted : policy.accepted = true
  managed : reads.target policy.postgresPolicyRef = .ok target
  executes : target.mode.neverExecutes = false
  bundle : ∃ fingerprint,
    r.resolved = resolvedBundle sha256 request policy target granted fingerprint
  /-- The duration is read as these seconds, which the policy permits. -/
  duration : parseDuration r.resolved.grantedDuration = .ok granted
  bounded : ∃ maximum, parseDuration policy.maximumDuration = .ok maximum ∧ granted ≤ maximum
  mode : r.mode = policy.approvalMode
  suspended : r.suspended = (policy.suspend || target.suspend)

theorem executes_of_checkAdmission {request : AccessRequest} {policy : AccessPolicy}
    {target : TargetPolicy} (h : checkAdmission request policy target = .ok ()) :
    target.mode.neverExecutes = false := by
  unfold checkAdmission at h
  exact rejectIf_eq_ok.1 (check_bind_eq_ok.1 h).1

theorem bounds_of_requestedSeconds {request : AccessRequest} {policy : AccessPolicy} {secs : Nat}
    (h : requestedSeconds request policy = .ok secs) : 0 < secs ∧ secs < wordLimit := by
  unfold requestedSeconds at h
  split at h
  · exact parseDuration_bounds (readDuration_eq_ok.1 h)
  · cases h

/-- A request resolves to what its policies say, for a duration its access policy permits. -/
theorem madeOf_resolveRequest {sha256 : ByteArray → String} {times : Timestamps}
    {reads : ResolutionReads} {now : Nat} {request : AccessRequest} {deadline : Option String}
    {r : Resolution} (h : resolveRequest sha256 times reads now request deadline = .ok r) :
    ∃ policy target granted, r.MadeOf sha256 reads request policy target granted := by
  unfold resolveRequest at h
  obtain ⟨-, h⟩ := check_bind_eq_ok.1 h
  obtain ⟨policy, hpolicy, h⟩ := bind_eq_ok.1 h
  obtain ⟨haccepted, h⟩ := check_bind_eq_ok.1 h
  obtain ⟨-, h⟩ := check_bind_eq_ok.1 h
  obtain ⟨target, htarget, h⟩ := bind_eq_ok.1 h
  obtain ⟨hadmitted, h⟩ := check_bind_eq_ok.1 h
  obtain ⟨requested, hrequested, h⟩ := bind_eq_ok.1 h
  obtain ⟨maximum, hmaximum, h⟩ := bind_eq_ok.1 h
  obtain ⟨hbounded, h⟩ := check_bind_eq_ok.1 h
  obtain ⟨fingerprint, -, h⟩ := bind_eq_ok.1 h
  obtain ⟨ttl, -, h⟩ := bind_eq_ok.1 h
  cases h
  have hbounds := bounds_of_requestedSeconds hrequested
  rw [rejectIf_eq_ok, decide_eq_false_iff_not, Nat.not_lt] at hbounded
  rw [rejectIf_eq_ok, Bool.not_eq_false'] at haccepted
  exact ⟨policy, target, requested,
    { found := hpolicy
      accepted := haccepted
      managed := htarget
      executes := executes_of_checkAdmission hadmitted
      bundle := ⟨fingerprint, rfl⟩
      duration := parseDuration_formatDuration hbounds.1 hbounds.2
      bounded := ⟨maximum, readDuration_eq_ok.1 hmaximum, hbounded⟩
      mode := rfl
      suspended := rfl }⟩

/-- The digest of a bundle is computed over neither the digest nor the policies. -/
theorem hasValidBundleHash_resolvedBundle (sha256 : ByteArray → String) (request : AccessRequest)
    (policy : AccessPolicy) (target : TargetPolicy) (granted : Nat) (fingerprint : String) :
    (resolvedBundle sha256 request policy target granted fingerprint).hasValidBundleHash sha256 =
      true := by
  unfold ResolvedEphemeralAccess.hasValidBundleHash
  rw [Bool.and_eq_true]
  exact ⟨beq_self_eq_true _, beq_self_eq_true _⟩

end PgRoles.Operator

import PgRoles.Lib.MapDelta
import PgRoles.Explorer.ReviewJson
import PgRoles.Sql.Render

/-!
# Building and reading review artifacts

The exporter runs the simulation of the plan and records of every phase what it changes of the
executor's reach. The reader checks what the types of the format cannot say: the size, the version,
that the phases partition the changes, that every index refers to a change, that every delta is one
the exporter produces, and the fingerprint.

The parser and the hash are parameters: `fromSlice` reads a JSON value from bytes and `sha256` gives
the digest of bytes in hexadecimal digits.
-/

set_option autoImplicit false

namespace PgRoles.Explorer

open Std PgRoles.Lib PgRoles.Core PgRoles.Sql

/-- The version of the artifacts that this code writes and reads. -/
def reviewArtifactSchemaVersion : String := "pgroles.review-artifact.v3"

/-- The schema versions that are read. -/
def readableReviewArtifactSchemaVersions : List String :=
  [reviewArtifactSchemaVersion, "pgroles.review-artifact.v2"]

/-- The size that an artifact may have. -/
def maxReviewArtifactBytes : Nat := 4 * 1024 * 1024

/-- The server version that is assumed where the review names none. -/
def defaultPgMajorVersion : Nat := 16

/-- Why an artifact is not built, or not accepted. -/
inductive ReviewArtifactError where
  | sqlRender (failure : RenderFailure)
  | tooLarge (actual limit : Nat)
  | changeSourceCount (sources changes : Nat)
  | malformed
  | unsupportedSchemaVersion (version : String)
  | inconsistentIndices (reason : String)
  | invalidReachabilityDelta (phase : Nat) (reason : String)
  | fingerprintMismatch (recorded computed : String)
  deriving DecidableEq

/-! ## Reachability by phase -/

/-- Complete executor reachability after one recorded phase. -/
structure PhaseReachability where
  executorReachability : BTreeMap String ReviewReachabilityStatus := ∅
  executorUsage : BTreeMap String ReviewReachabilityStatus := ∅
  deriving DecidableEq

/-- A difference of reachability maps as the artifact records it. -/
def ReviewReachabilityDelta.ofDelta (delta : MapDelta String ReviewReachabilityStatus) :
    ReviewReachabilityDelta :=
  ⟨delta.changed.map fun e => ⟨e.1, e.2⟩, delta.removed⟩

/-- The difference that a recorded one stands for. -/
def ReviewReachabilityDelta.toDelta (delta : ReviewReachabilityDelta) :
    MapDelta String ReviewReachabilityStatus :=
  ⟨delta.changed.map fun entry => (entry.role, entry.status), delta.removed⟩

/-- The statuses of one phase, by role. -/
def statusesOf (after : List RoleReachability) : BTreeMap String ReviewReachabilityStatus :=
  ExtTreeMap.ofList (after.map fun entry => (entry.role, .ofStatus entry.status)) compare

/-- Diff one phase's complete reachability against the previous phase's, and advance to it. -/
def reachabilityDelta (previous : BTreeMap String ReviewReachabilityStatus)
    (after : List RoleReachability) :
    ReviewReachabilityDelta × BTreeMap String ReviewReachabilityStatus :=
  (.ofDelta (deltaOf previous (statusesOf after)), statusesOf after)

/-- The phases of the analysis from a change index and the reachability before it on. -/
def recordedPhasesFrom (nextIndex : Nat) (previous : PhaseReachability) :
    List PhaseAnalysis → List RecordedPhase
  | [] => []
  | phase :: rest =>
      let reach := reachabilityDelta previous.executorReachability phase.executorReachability
      let usage := reachabilityDelta previous.executorUsage phase.executorUsage
      { phase := .ofPhase phase.phase
        changeIndices := List.range' nextIndex phase.changes.length
        executorReachabilityDelta := reach.1
        executorUsageDelta := usage.1 } ::
        recordedPhasesFrom (nextIndex + phase.changes.length) ⟨reach.2, usage.2⟩ rest

/-- The phases of an analysis as the artifact records them. -/
def recordedPhases (analysis : PlanAnalysis) : List RecordedPhase :=
  recordedPhasesFrom 0 {} analysis.phases

/-- How the reader says why a delta is refused. -/
def deltaReason : DeltaFault → String
  | .notSorted => "roles are not sorted and unique"
  | .removesAbsent => "removes a role absent from the previous phase"
  | .changedAndRemoved => "lists a role as both changed and removed"
  | .unchanged => "records a status that did not change"

/-- The reachability after one recorded phase, or the error that names the phase. -/
def applyReachabilityDelta (state : BTreeMap String ReviewReachabilityStatus)
    (delta : ReviewReachabilityDelta) (phase : Nat) :
    Except ReviewArtifactError (BTreeMap String ReviewReachabilityStatus) :=
  (applyDelta state delta.toDelta).mapError fun fault =>
    .invalidReachabilityDelta phase (deltaReason fault)

/-- Fold the phases from a state on, of which the first has the given position. -/
def phaseReachabilityFrom (phase : Nat) (state : PhaseReachability) :
    List RecordedPhase → Except ReviewArtifactError (List PhaseReachability)
  | [] => .ok []
  | recorded :: rest => do
      let reach ← applyReachabilityDelta state.executorReachability
        recorded.executorReachabilityDelta phase
      let usage ← applyReachabilityDelta state.executorUsage recorded.executorUsageDelta phase
      let states ← phaseReachabilityFrom (phase + 1) ⟨reach, usage⟩ rest
      return ⟨reach, usage⟩ :: states

/-- Rebuild complete executor reachability after each phase, refusing deltas the exporter never
produces. -/
def phaseReachability (phases : List RecordedPhase) :
    Except ReviewArtifactError (List PhaseReachability) :=
  phaseReachabilityFrom 0 {} phases

/-! ## The exporter -/

/-- What an artifact is built from. -/
structure ReviewArtifactInput where
  provenance : ReviewProvenance
  context : ReviewContext
  preflight : List PreflightEvidence
  current : RoleGraph
  changes : List Change
  /-- Bundle ownership in the order of the changes. -/
  changeSources : Option (List BundleChangeOwner)
  executorFacts : ExecutorFacts
  sqlContext : SqlContext
  exploration : ReviewExploration

/-- The major version as an unsigned 16-bit number. -/
def ReviewArtifactInput.majorVersion (input : ReviewArtifactInput) : Nat :=
  if 0 ≤ input.provenance.pgMajorVersion ∧ input.provenance.pgMajorVersion < 2 ^ 16 then
    input.provenance.pgMajorVersion.toNat
  else defaultPgMajorVersion

/-- The analysis the artifact records. -/
def ReviewArtifactInput.analysis (input : ReviewArtifactInput) : PlanAnalysis :=
  (simulate input.executorFacts ⟨input.context.authorityGraphComplete, input.majorVersion⟩
    input.current input.changes .whenAffected).1

/-- A change as the artifact records it: with its place, its priority, its source and no secret. -/
def recordedChange (sources : Option (List BundleChangeOwner)) (change : Change) (index : Nat) :
    RecordedChange where
  index := index
  priority := priority change
  source := (sources.bind fun owners => owners[index]?).map .ofOwner
  change := (ReviewChange.sanitize change).1
  omissions := (ReviewChange.sanitize change).2

/-- The changes of a review in the order of the plan. -/
def ReviewArtifactInput.recordedChanges (input : ReviewArtifactInput) : List RecordedChange :=
  input.changes.zipIdx.map fun e => recordedChange input.changeSources e.1 e.2

/-- The whole plan as one SQL text. -/
def renderAllWithContext (changes : List Change) (ctx : SqlContext) :
    Except RenderFailure String := do
  let statements ← renderBatchWithContext changes ctx
  return "\n".intercalate (statements.map (·.sql))

/-- The SQL of the plan, unless a change of it is sensitive. -/
def ReviewArtifactInput.sqlPreview (input : ReviewArtifactInput) :
    Except ReviewArtifactError SqlPreview :=
  let sensitive := (input.recordedChanges.filter fun c => !c.omissions.isEmpty).map (·.index)
  if sensitive.isEmpty then
    ((renderAllWithContext input.changes input.sqlContext).map .available).mapError .sqlRender
  else .ok (.omitted .sensitiveChanges sensitive)

/-- The fingerprint of the artifact's content. The tool version and the capture time are excluded,
so identical plans captured at different times match. -/
def ReviewArtifact.computedReviewFingerprint (sha256 : ByteArray → String)
    (self : ReviewArtifact) : String :=
  "sha256:" ++ sha256 (Json.arr [
    Codec.text.write self.schemaVersion,
    PolicyProvenance.codec.write self.provenance.policy,
    Codec.text.write self.provenance.targetLabel,
    Codec.int.write self.provenance.pgMajorVersion,
    ReviewContext.codec.write self.context,
    (Codec.list PreflightEvidence.codec).write self.preflight,
    (Codec.list RecordedChange.codec).write self.recorded.changes,
    (Codec.list RecordedPhase.codec).write self.recorded.phases,
    (Codec.list RecordedFinding.codec).write self.recorded.findings,
    ReviewVisualGraph.codec.write self.recorded.visual,
    SqlPreview.codec.write self.recorded.sqlPreview,
    (Codec.list ReviewOmission.codec).write self.recorded.omissions]).bytes

/-- The artifact before it has a fingerprint. -/
def ReviewArtifactInput.unsigned (input : ReviewArtifactInput) (preview : SqlPreview) :
    ReviewArtifact :=
  let visual := ReviewVisualGraph.sanitized input.analysis.visual
  { schemaVersion := reviewArtifactSchemaVersion
    provenance := input.provenance
    context := input.context
    preflight := input.preflight
    recorded :=
      { changes := input.recordedChanges
        phases := recordedPhases input.analysis
        findings := input.analysis.findings.map .ofFinding
        visual := visual.1
        sqlPreview := preview
        omissions := if visual.2 then [omitted "visual.nodes[].comment"] else []
        reviewFingerprint := "" }
    exploration := input.exploration }

/-- Record the fingerprint. -/
def ReviewArtifact.signed (sha256 : ByteArray → String) (self : ReviewArtifact) : ReviewArtifact :=
  { self with recorded :=
    { self.recorded with reviewFingerprint := self.computedReviewFingerprint sha256 } }

/-- There is a source for every change, when there are any. -/
def ReviewArtifactInput.checkSources (input : ReviewArtifactInput) :
    Except ReviewArtifactError Unit :=
  match input.changeSources with
  | some sources =>
      rejectIf (sources.length != input.changes.length)
        (.changeSourceCount sources.length input.changes.length)
  | none => .ok ()

/-- The artifact of a review, with its fingerprint, unless it is too large. -/
def buildReviewArtifact (sha256 : ByteArray → String) (input : ReviewArtifactInput) :
    Except ReviewArtifactError ReviewArtifact := do
  input.checkSources
  let preview ← input.sqlPreview
  let artifact := (input.unsigned preview).signed sha256
  let actual := (ReviewArtifact.codec.write artifact).prettyBytes.size
  rejectIf (maxReviewArtifactBytes < actual) (.tooLarge actual maxReviewArtifactBytes)
  return artifact

/-! ## The reader -/

/-- The schema version alone. -/
def versionProbe : Codec String := .record false (.required "schema_version" .text)

/-- The indices that the findings, the preflight evidence and the preview refer to changes by. -/
def ReviewArtifact.referenced (self : ReviewArtifact) : List Nat :=
  (self.recorded.findings.flatMap fun finding =>
      finding.changeIndex.toList ++ finding.changeIndices) ++
    (self.preflight.flatMap fun evidence =>
      evidence.coverage.checkedChangeIndices ++ evidence.coverage.uncheckedChangeIndices) ++
    match self.recorded.sqlPreview with
    | .available _ => []
    | .omitted _ sensitive => sensitive

/-- An artifact read from its bytes: its size and version first, then its indices, its phases and
its fingerprint. -/
def parseReviewArtifact (fromSlice : ByteArray → Option Json) (sha256 : ByteArray → String)
    (json : ByteArray) : Except ReviewArtifactError ReviewArtifact := do
  rejectIf (maxReviewArtifactBytes < json.size) (.tooLarge json.size maxReviewArtifactBytes)
  let version ← ((fromSlice json).bind versionProbe.read).elim (.error .malformed) .ok
  rejectIf (!readableReviewArtifactSchemaVersions.contains version)
    (.unsupportedSchemaVersion version)
  let artifact ← ((fromSlice json).bind ReviewArtifact.codec.read).elim (.error .malformed) .ok
  let recorded := artifact.recorded
  let count := recorded.changes.length
  rejectIf (recorded.changes.zipIdx.any fun e => e.1.index != e.2)
    (.inconsistentIndices "changes are not indexed in order from zero")
  rejectIf ((recorded.phases.flatMap (·.changeIndices)) != List.range count ||
      recorded.phases.any (·.changeIndices.isEmpty))
    (.inconsistentIndices "phases do not partition the changes in order")
  rejectIf (artifact.referenced.any fun index => count ≤ index)
    (.inconsistentIndices "an index refers to a change that does not exist")
  let _ ← phaseReachability recorded.phases
  let computed := artifact.computedReviewFingerprint sha256
  rejectIf (computed != recorded.reviewFingerprint)
    (.fingerprintMismatch recorded.reviewFingerprint computed)
  return artifact

end PgRoles.Explorer

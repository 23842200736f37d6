import PgRoles.Explorer.ReviewRoundTrip

/-!
# What a review fingerprint stands for

The fingerprint of an artifact is the digest of one text, the serialised tuple of what it covers
(`computedReviewFingerprint_eq`). The serialiser is injective, so two artifacts the reader accepts
have the same fingerprint exactly when they agree in everything but the tool version, the capture
time and the exploration section, unless the digests of two texts collide
(`parse_fingerprint_eq_iff`).
-/

set_option autoImplicit false

namespace PgRoles.Explorer

open Std PgRoles.Lib PgRoles.Core PgRoles.Sql

/-- What is read back determines what was written. -/
theorem write_injective {α : Type} (c : Codec α) : Function.Injective c.write := by
  intro a b h
  have hread := congrArg c.read h
  rw [c.read_write, c.read_write] at hread
  exact Option.some.inj hread

/-- The tuple whose serialised text is digested. -/
def ReviewArtifact.fingerprinted (self : ReviewArtifact) : Json :=
  Json.arr [
    Codec.text.write self.schemaVersion,
    PolicyProvenance.codec.write self.provenance.policy,
    Codec.text.write self.provenance.targetLabel,
    Codec.int.write self.provenance.pgMajorVersion,
    ReviewContext.codec.write self.context,
    (Codec.list PreflightEvidence.codec).write self.preflight,
    (Codec.list RecordedChange.codec).write self.recorded.changes,
    (Codec.list RecordedPhase.codec).write self.recorded.phases,
    (Codec.list RecordedFinding.codec).write self.recorded.findings,
    ReviewVisualGraph.codec.write self.recorded.visual,
    SqlPreview.codec.write self.recorded.sqlPreview,
    (Codec.list ReviewOmission.codec).write self.recorded.omissions]

theorem computedReviewFingerprint_eq (sha256 : ByteArray → String) (self : ReviewArtifact) :
    self.computedReviewFingerprint sha256 = "sha256:" ++ sha256 self.fingerprinted.bytes := rfl

/-- The artifact without what the fingerprint does not cover, and without the fingerprint. -/
def ReviewArtifact.reviewed (self : ReviewArtifact) : ReviewArtifact :=
  { self with
    provenance := { self.provenance with toolVersion := "", capturedAt := "" }
    recorded := { self.recorded with reviewFingerprint := "" }
    exploration := .omitted .recordedOnlyExport }

/-- The tuple is the reviewed part of the artifact in another form. -/
theorem fingerprinted_eq_iff {a b : ReviewArtifact} :
    a.fingerprinted = b.fingerprinted ↔ a.reviewed = b.reviewed := by
  constructor
  · intro h
    have hitems := Json.arr.inj h
    simp only [List.cons.injEq, (write_injective _).eq_iff, and_true] at hitems
    obtain ⟨hversion, hpolicy, hlabel, hmajor, hcontext, hpreflight, hchanges, hphases, hfindings,
      hvisual, hpreview, homissions⟩ := hitems
    simp only [ReviewArtifact.reviewed, hversion, hpolicy, hlabel, hmajor, hcontext, hpreflight,
      hchanges, hphases, hfindings, hvisual, hpreview, homissions]
  · intro h
    have hsame : ∀ c : ReviewArtifact, c.fingerprinted = c.reviewed.fingerprinted := fun _ => rfl
    rw [hsame a, hsame b, h]

/-- The reader accepts no artifact whose fingerprint is not the one of its content. -/
theorem computedReviewFingerprint_of_parse {fromSlice : ByteArray → Option Json}
    {sha256 : ByteArray → String} {json : ByteArray} {artifact : ReviewArtifact}
    (h : parseReviewArtifact fromSlice sha256 json = .ok artifact) :
    artifact.computedReviewFingerprint sha256 = artifact.recorded.reviewFingerprint := by
  unfold parseReviewArtifact at h
  obtain ⟨-, h⟩ := check_bind_eq_ok.1 h
  obtain ⟨version, -, h⟩ := bind_eq_ok.1 h
  obtain ⟨-, h⟩ := check_bind_eq_ok.1 h
  obtain ⟨read, -, h⟩ := bind_eq_ok.1 h
  obtain ⟨-, h⟩ := check_bind_eq_ok.1 h
  obtain ⟨-, h⟩ := check_bind_eq_ok.1 h
  obtain ⟨-, h⟩ := check_bind_eq_ok.1 h
  obtain ⟨states, -, h⟩ := bind_eq_ok.1 h
  obtain ⟨hfingerprint, h⟩ := check_bind_eq_ok.1 h
  cases h
  exact bne_eq_false_iff_eq.1 (rejectIf_eq_ok.1 hfingerprint)

/-- For any two texts the reader accepts, the artifacts have one fingerprint exactly when they agree
in all that is reviewed, provided the digests of their two texts do not collide. -/
theorem parse_fingerprint_eq_iff {fromSlice : ByteArray → Option Json}
    {sha256 : ByteArray → String} {json json' : ByteArray} {a b : ReviewArtifact}
    (hcollision : sha256 a.fingerprinted.bytes = sha256 b.fingerprinted.bytes →
      a.fingerprinted.bytes = b.fingerprinted.bytes)
    (ha : parseReviewArtifact fromSlice sha256 json = .ok a)
    (hb : parseReviewArtifact fromSlice sha256 json' = .ok b) :
    a.recorded.reviewFingerprint = b.recorded.reviewFingerprint ↔ a.reviewed = b.reviewed := by
  rw [← computedReviewFingerprint_of_parse ha, ← computedReviewFingerprint_of_parse hb,
    computedReviewFingerprint_eq, computedReviewFingerprint_eq, String.append_right_inj,
    ← fingerprinted_eq_iff]
  constructor
  · exact fun h => Json.bytes_injective (hcollision h)
  · exact fun h => by rw [h]

/-- The plan that creates one role and drops another, captured at a given time. -/
def capturedPlan (capturedAt : String) : ReviewArtifactInput :=
  { webPlan with provenance := { webPlan.provenance with capturedAt := capturedAt } }

/-- The artifact of that review. -/
def capturedArtifact (capturedAt : String) : ReviewArtifact :=
  ((capturedPlan capturedAt).unsigned webPlanPreview).signed webPlanSha256

/-- The text of that artifact. -/
def capturedText (capturedAt : String) : ByteArray :=
  (ReviewArtifact.codec.write (capturedArtifact capturedAt)).prettyBytes

/-- The parser, on the texts of the artifacts captured at two times. -/
def capturedFromSlice (json : ByteArray) : Option Json :=
  if json = capturedText "2024-01-01T00:00:00Z" then
    some (ReviewArtifact.codec.write (capturedArtifact "2024-01-01T00:00:00Z"))
  else if json = capturedText "2024-01-02T00:00:00Z" then
    some (ReviewArtifact.codec.write (capturedArtifact "2024-01-02T00:00:00Z"))
  else none

/-- The texts of artifacts captured at two times differ where the times are written. -/
theorem capturedText_injective : Function.Injective capturedText := by
  intro a b h
  -- The pieces of the text before and after the capture time.
  have hpieces : ∀ capturedAt,
      (ReviewArtifact.codec.write (capturedArtifact capturedAt)).pieces 0 =
        ((ReviewArtifact.codec.write (capturedArtifact "")).pieces 0).take 18 ++
          quoted capturedAt ::
            ((ReviewArtifact.codec.write (capturedArtifact "")).pieces 0).drop 19 :=
    fun _ => rfl
  have htext := String.ofList_injective (String.toByteArray_inj.1 h)
  rw [hpieces a, hpieces b, List.flatten_append, List.flatten_append, List.flatten_cons,
    List.flatten_cons] at htext
  exact (quoted_append_inj (List.append_cancel_left htext)).1

/-- The plan is read whatever its capture time is. -/
theorem parse_capturedText {fromSlice : ByteArray → Option Json} {capturedAt : String}
    (hserde : fromSlice (capturedText capturedAt) =
      some (ReviewArtifact.codec.write (capturedArtifact capturedAt)))
    (hsize : (ReviewArtifact.codec.write (capturedArtifact capturedAt)).prettyBound 0 ≤ 100000) :
    parseReviewArtifact fromSlice webPlanSha256 (capturedText capturedAt) =
      .ok (capturedArtifact capturedAt) := by
  have hpreflight : (capturedPlan capturedAt).PreflightRefers := preflightRefers_webPlan
  have hpreview : (capturedPlan capturedAt).sqlPreview = .ok webPlanPreview := sqlPreview_webPlan
  exact parse_signed hpreflight hpreview hserde
    ((Json.size_prettyBytes_le _).trans ((Nat.mul_le_mul_left 4 hsize).trans (by decide)))

theorem capturedArtifact_same_fingerprint :
    (capturedArtifact "2024-01-01T00:00:00Z").recorded.reviewFingerprint =
        (capturedArtifact "2024-01-02T00:00:00Z").recorded.reviewFingerprint ↔
      (capturedArtifact "2024-01-01T00:00:00Z").reviewed =
        (capturedArtifact "2024-01-02T00:00:00Z").reviewed := by
  have hapart : capturedText "2024-01-02T00:00:00Z" ≠ capturedText "2024-01-01T00:00:00Z" :=
    capturedText_injective.ne (by decide)
  exact parse_fingerprint_eq_iff (fun _ => rfl)
    (@parse_capturedText capturedFromSlice _ (if_pos rfl) (by decide +kernel))
    (parse_capturedText ((if_neg hapart).trans (if_pos rfl)) (by decide +kernel))

end PgRoles.Explorer

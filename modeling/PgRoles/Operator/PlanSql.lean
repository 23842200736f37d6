import PgRoles.Lib.MergePatch
import PgRoles.Operator.DerivedNames
import PgRoles.Sql.Redaction

/-!
# The SQL of a plan

The text stored for review is the batch of a plan in the forms that are shown of its statements. A
short text is stored whole in the status of the plan, a longer one compressed in a ConfigMap, and
where even that is too large, only its beginning is stored. The status is written by a merge patch,
which stores no null (`recordedIn_statusPatch`). The command line reads the text back from the plan
object: whole, or not at all (`readsBack_preparePlanSql`).

Compression and hashing are parameters; what is used of compression is that it loses nothing.
-/

set_option autoImplicit false

namespace PgRoles.Operator

open Std PgRoles.Lib PgRoles.Core PgRoles.Sql

/-! ## Rendering and execution -/

/-- Redacted SQL for display. -/
def renderRedactedSql (changes : List Change) (ctx : SqlContext) : Except RenderFailure String :=
  (renderBatchWithContext changes ctx).map fun batch => "\n".intercalate (shown batch)

/-- Execute one statement and count it. -/
def executeStatement {σ ε : Type} (execute : String → σ → Except ε σ) (state : σ × Nat)
    (statement : RenderedStatement) : Except ε (σ × Nat) :=
  (execute statement.sql state.1).map fun database => (database, state.2 + 1)

/-- Execute the changes in a transaction, which an error abandons, and count the statements. -/
def executeChangesInTransaction {σ ε : Type} (execute : String → σ → Except ε σ)
    (changes : List Change) (ctx : SqlContext) (database : σ) :
    Except (RenderFailure ⊕ ε) (σ × Nat) := do
  let batch ← (renderBatchWithContext changes ctx).mapError .inl
  (batch.foldlM (executeStatement execute) (database, 0)).mapError .inr

/-! ## Storing -/

/-- The most bytes stored in the status. -/
def maxInlineSqlBytes : Nat := 16 * 1024

/-- The most compressed bytes stored in a ConfigMap, whose limit is 1 MiB with its metadata. -/
def maxConfigmapSqlBytes : Nat := 900 * 1024

/-- The key of the compressed SQL in a ConfigMap. -/
def sqlConfigmapGzipKey : String := "plan.sql.gz"

/-- The line that a preview ends with when it was cut. -/
def truncationMarker : String :=
  "\n-- truncated: compressed SQL preview exceeded Kubernetes ConfigMap limits --"

/-- How the SQL of a plan is compressed. -/
inductive SqlCompression where
  | gzip
  deriving DecidableEq

/-- The text of a compression. -/
def SqlCompression.text : SqlCompression → String
  | .gzip => "gzip"

/-- Where the SQL of a plan is stored outside its status; older references name no compression. -/
structure SqlRef where
  name : String
  key : String
  compression : Option SqlCompression
  deriving DecidableEq

/-- Where a plan's SQL is stored: whole, compressed in a ConfigMap, or cut. -/
inductive PlanSqlArtifact where
  | inline (sql : String)
  | compressedConfigMap (configmapName key : String) (compressedSql : ByteArray)
  | truncatedInline (sql : String)

/-- A plan's SQL ready to be stored, with the hash and the sizes of what it was made from. -/
structure PreparedPlanSql where
  artifact : PlanSqlArtifact
  redactedSqlHash : String
  originalBytes : Nat
  storedBytes : Nat

/-- The reference in the status, where the SQL is in a ConfigMap. -/
def PreparedPlanSql.sqlRef (prepared : PreparedPlanSql) : Option SqlRef :=
  match prepared.artifact with
  | .compressedConfigMap configmapName key _ => some ⟨configmapName, key, some .gzip⟩
  | .inline _ | .truncatedInline _ => none

/-- The SQL in the status, where it is not in a ConfigMap. -/
def PreparedPlanSql.sqlInline (prepared : PreparedPlanSql) : Option String :=
  match prepared.artifact with
  | .inline sql | .truncatedInline sql => some sql
  | .compressedConfigMap .. => none

/-- Was the SQL cut? -/
def PreparedPlanSql.isTruncated (prepared : PreparedPlanSql) : Bool :=
  match prepared.artifact with
  | .truncatedInline _ => true
  | _ => false

/-- The last position up to the given one that lies between characters. -/
def charBoundaryUpTo (chars : List Char) : Nat → Nat
  | 0 => 0
  | n + 1 => if (splitAtByte chars (n + 1)).isSome then n + 1 else charBoundaryUpTo chars n

/-- The beginning of a text that is too long, with a marker behind it. -/
def truncateUtf8 (text : String) (maxBytes : Nat) (marker : String) : String :=
  if text.utf8ByteSize ≤ maxBytes then text
  else
    let stop := charBoundaryUpTo text.toList
      (min (maxBytes - marker.utf8ByteSize) text.utf8ByteSize)
    match splitAtByte text.toList stop with
    | some (front, _) => String.ofList front ++ marker
    | none => marker  -- the slice would panic; the position lies between characters

/-- Choose where the text is stored. -/
def preparePlanSql {ε : Type} (gzipBytes : ByteArray → Except ε ByteArray)
    (computeSqlHash : String → HexDigest) (planName redactedSql : String) :
    Except ε PreparedPlanSql := do
  let originalBytes := redactedSql.utf8ByteSize
  let redactedSqlHash := (computeSqlHash redactedSql).text
  if originalBytes ≤ maxInlineSqlBytes then
    return ⟨.inline redactedSql, redactedSqlHash, originalBytes, originalBytes⟩
  else
    let compressedSql ← gzipBytes redactedSql.toByteArray
    if compressedSql.size ≤ maxConfigmapSqlBytes then
      return ⟨.compressedConfigMap (sqlConfigMapName planName) sqlConfigmapGzipKey compressedSql,
        redactedSqlHash, originalBytes, compressedSql.size⟩
    else
      let truncated := truncateUtf8 redactedSql maxInlineSqlBytes truncationMarker
      return ⟨.truncatedInline truncated, redactedSqlHash, originalBytes, truncated.utf8ByteSize⟩

/-- A reference as the status holds it. -/
def SqlRef.toJson (ref : SqlRef) : Json :=
  .obj ([("name", .str ref.name), ("key", .str ref.key)] ++
    optionalField "compression" (ref.compression.map fun c => .str c.text))

/-- A reference as the derived reader takes it; fields of other names are ignored. -/
def decodeSqlRef (v : Json) : Option SqlRef := do
  let name ← readRequired decodeText (v.field? "name")
  let key ← readRequired decodeText (v.field? "key")
  let compression ← readOptional (decodeEnum [.gzip] SqlCompression.text) (v.field? "compression")
  return ⟨name, key, compression⟩

/-- The fields of the status of a plan that the SQL is found by, as the operator sends them. -/
def PreparedPlanSql.statusFields (prepared : PreparedPlanSql) : List (String × Json) :=
  [("sqlRef", Json.nullable (prepared.sqlRef.map SqlRef.toJson)),
    ("sqlInline", Json.ofOption prepared.sqlInline),
    ("sqlTruncated", .bool prepared.isTruncated)]

/-- A ConfigMap, without its namespace, its owner and its labels. -/
structure ConfigMap where
  name : Option String := none
  annotations : List (String × String) := []
  data : Option (BTreeMap String String) := none
  binaryData : Option (BTreeMap String ByteArray) := none

/-- The ConfigMap of a compressed artifact; the other artifacts have none. -/
def buildPlanSqlConfigmapObject (prepared : PreparedPlanSql) : Except String ConfigMap :=
  match prepared.artifact with
  | .compressedConfigMap configmapName key compressedSql =>
      .ok {
        name := some configmapName
        annotations := [("pgroles.io/sql-compression", "gzip"),
          ("pgroles.io/redacted-sql-hash", prepared.redactedSqlHash),
          ("pgroles.io/sql-original-bytes", toString prepared.originalBytes),
          ("pgroles.io/sql-stored-bytes", toString prepared.storedBytes)]
        binaryData := some ((∅ : BTreeMap String ByteArray).insert key compressedSql) }
  | _ => .error "cannot build ConfigMap for inline plan SQL"

/-! ## Reading back -/

/-- Where the reviewed SQL of a plan lives. -/
inductive PlanSqlSource where
  | inline (sql : String)
  | configMap (name key : String) (gzip : Bool)
  deriving DecidableEq

/-- Why the SQL of a plan cannot be shown. -/
inductive SqlReadError where
  | incompleteRef (name key : String)
  | truncatedPreview
  | notRecorded
  | unreadableConfigMap (configmap : String)
  | missingKey (field configmap key : String)
  | notDecompressed (configmap key : String)
  | emptyPreview
  deriving DecidableEq

/-- Where a reference points; a name or a key that is missing or empty locates nothing. -/
def locateSqlRef (ref : Json) : Except SqlReadError PlanSqlSource :=
  let name := (((ref.field? "name").bind decodeText).getD "")
  let key := (((ref.field? "key").bind decodeText).getD "")
  if name = "" ∨ key = "" then .error (.incompleteRef name key)
  else .ok (.configMap name key ((ref.field? "compression").bind decodeText == some "gzip"))

/-- A field of the status of a plan. -/
def statusField (plan : Json) (name : String) : Option Json :=
  (plan.field? "status").bind fun status => status.field? name

/-- Decide where to read the SQL of a plan from: a whole preview in the status wins, a truncated one
is never returned. -/
def selectPlanSql (plan : Json) : Except SqlReadError PlanSqlSource :=
  let inline := ((statusField plan "sqlInline").bind decodeText).filter (· ≠ "")
  let truncated := ((statusField plan "sqlTruncated").bind decodeFlag).getD false
  let sqlRef := (statusField plan "sqlRef").filter fun ref => !ref.isNull
  match inline, truncated, sqlRef with
  | some sql, false, _ => .ok (.inline sql)
  | _, _, some ref => locateSqlRef ref
  | some _, true, none => .error .truncatedPreview
  | none, _, none => .error .notRecorded

/-- Read the SQL out of the ConfigMap a plan names: compressed from the binary data, the older shape
from the data. A missing key is an error. -/
def decodeConfigmapSql (gunzip : ByteArray → Option ByteArray) (configmap : ConfigMap)
    (key : String) (gzip : Bool) : Except SqlReadError String :=
  let name := configmap.name.getD "<unnamed>"
  if gzip then
    match configmap.binaryData.bind (·[key]?) with
    | none => .error (.missingKey "binaryData" name key)
    | some bytes =>
        match (gunzip bytes).bind String.fromUTF8? with
        | some sql => .ok sql
        | none => .error (.notDecompressed name key)
  else
    match configmap.data.bind (·[key]?) with
    | none => .error (.missingKey "data" name key)
    | some sql => .ok sql

/-- The SQL that is printed for a plan, given the ConfigMaps of its namespace. -/
def readPlanSql (gunzip : ByteArray → Option ByteArray) (configmaps : String → Option ConfigMap)
    (plan : Json) : Except SqlReadError String := do
  let source ← selectPlanSql plan
  let sql ← match source with
    | .inline sql => .ok sql
    | .configMap name key gzip =>
        match configmaps name with
        | none => .error (.unreadableConfigMap name)
        | some configmap => decodeConfigmapSql gunzip configmap key gzip
  rejectIf (sql.toList.all isWhitespace) .emptyPreview
  return sql

/-! ## Cutting between characters -/

theorem charBoundaryUpTo_le (chars : List Char) (n : Nat) : charBoundaryUpTo chars n ≤ n := by
  induction n with
  | zero => exact Nat.le_refl 0
  | succ n ih =>
      rw [charBoundaryUpTo]
      split
      · exact Nat.le_refl _
      · exact ih.trans (Nat.le_succ n)

/-- The loop ends between characters, at the start of the text at the latest. -/
theorem exists_split_charBoundaryUpTo (chars : List Char) (n : Nat) :
    ∃ halves, splitAtByte chars (charBoundaryUpTo chars n) = some halves := by
  induction n with
  | zero => exact ⟨_, splitAtByte_zero chars⟩
  | succ n ih =>
      rw [charBoundaryUpTo]
      split
      · next hboundary => exact Option.isSome_iff_exists.1 hboundary
      · exact ih

/-- What is cut off a text that is too long leaves a beginning of it, which fits with the marker. -/
theorem exists_front_truncateUtf8 {text marker : String} {maxBytes : Nat}
    (hlong : maxBytes < text.utf8ByteSize) (hmarker : marker.utf8ByteSize ≤ maxBytes) :
    ∃ front rest, text = front ++ rest ∧ truncateUtf8 text maxBytes marker = front ++ marker ∧
      (front ++ marker).utf8ByteSize ≤ maxBytes := by
  obtain ⟨⟨front, rest⟩, hsplit⟩ := exists_split_charBoundaryUpTo text.toList
    (min (maxBytes - marker.utf8ByteSize) text.utf8ByteSize)
  obtain ⟨htext, hlen⟩ := of_splitAtByte hsplit
  refine ⟨String.ofList front, String.ofList rest, ?_, ?_, ?_⟩
  · rw [← String.ofList_append, ← htext, String.ofList_toList]
  · simp only [truncateUtf8, if_neg (Nat.not_le.2 hlong), hsplit]
  · have hstop := charBoundaryUpTo_le text.toList
      (min (maxBytes - marker.utf8ByteSize) text.utf8ByteSize)
    have hfront : (String.ofList front).utf8ByteSize ≤ maxBytes - marker.utf8ByteSize := by
      rw [← length_textBytes_toList, String.toList_ofList, hlen]
      exact hstop.trans (Nat.min_le_left _ _)
    rw [String.utf8ByteSize_append]
    omega

/-! ## What is read back -/

/-- The status of the plan object has what the SQL is found by: as it is read, where a field that is
absent counts like a null. Whatever else the plan object has. -/
structure PreparedPlanSql.RecordedIn (prepared : PreparedPlanSql) (plan : Json) : Prop where
  sqlRef : readOptional decodeSqlRef (statusField plan "sqlRef") = some prepared.sqlRef
  sqlInline : readOptional decodeText (statusField plan "sqlInline") = some prepared.sqlInline
  sqlTruncated :
    readDefaulted decodeFlag false (statusField plan "sqlTruncated") = some prepared.isTruncated

/-- The ConfigMap that is built for the SQL, if any, is found under its name. -/
def PreparedPlanSql.StoredIn (prepared : PreparedPlanSql)
    (configmaps : String → Option ConfigMap) : Prop :=
  ∀ configmap, buildPlanSqlConfigmapObject prepared = .ok configmap →
    ∀ name, configmap.name = some name → configmaps name = some configmap

/-- The text is read back whole where it is stored whole, and not at all where its beginning is
stored; that ends between characters and fits with the marker. -/
structure PreparedPlanSql.ReadsBack (gunzip : ByteArray → Option ByteArray)
    (prepared : PreparedPlanSql) (text : String) : Prop where
  whole : prepared.isTruncated = false → ∀ plan configmaps, prepared.RecordedIn plan →
    prepared.StoredIn configmaps → readPlanSql gunzip configmaps plan = .ok text
  refused : prepared.isTruncated = true → ∀ plan, prepared.RecordedIn plan →
    selectPlanSql plan = .error .truncatedPreview
  preview : prepared.isTruncated = true → ∃ front rest, text = front ++ rest ∧
    prepared.sqlInline = some (front ++ truncationMarker) ∧
    (front ++ truncationMarker).utf8ByteSize ≤ maxInlineSqlBytes

section Recorded

variable {prepared : PreparedPlanSql} {plan : Json}

/-- The merge patch that the operator sends for the status of a plan, with its other fields. -/
def PreparedPlanSql.statusPatch (prepared : PreparedPlanSql) (others : List (String × Json)) :
    Json :=
  .obj [("status", .obj (prepared.statusFields ++ others))]

/-- A field of the status after the patch: a null is not stored, and what is stored is merged with
what was there. -/
theorem statusField_statusPatch {others : List (String × Json)}
    (hdistinct : ((prepared.statusFields ++ others).map Prod.fst).Nodup) {name : String} {v : Json}
    (hfield : (name, v) ∈ prepared.statusFields) (plan : Json) :
    statusField (plan.mergePatch (prepared.statusPatch others)) name =
      if v.isNull then none
      else some (((((plan.field? "status").getD .null).field? name).getD .null).mergePatch v) := by
  have hstatus : (plan.mergePatch (prepared.statusPatch others)).field? "status" =
      some (((plan.field? "status").getD .null).mergePatch
        (.obj (prepared.statusFields ++ others))) :=
    Json.field?_mergePatch (by simp) List.mem_cons_self plan
  rw [statusField, hstatus]
  simp only [Json.isNull, Option.bind_some]
  exact Json.field?_mergePatch hdistinct (List.mem_append_left _ hfield) _

/-- A reference that is merged into any value is read as it was written. -/
theorem decodeSqlRef_mergePatch (ref : SqlRef) (hcompressed : ref.compression.isSome)
    (target : Json) : decodeSqlRef (target.mergePatch ref.toJson) = some ref := by
  obtain ⟨name, key, compression⟩ := ref
  obtain ⟨⟨⟩, rfl⟩ := Option.isSome_iff_exists.1 hcompressed
  have hdistinct : (([("name", .str name), ("key", .str key), ("compression", .str "gzip")] :
      List (String × Json)).map Prod.fst).Nodup := by
    simp only [List.map_cons, List.map_nil]
    decide
  have hname := Json.field?_mergePatch hdistinct List.mem_cons_self target
  have hkey := Json.field?_mergePatch hdistinct
    (List.mem_cons_of_mem _ List.mem_cons_self) target
  have hcompression := Json.field?_mergePatch hdistinct
    (List.mem_cons_of_mem _ (List.mem_cons_of_mem _ List.mem_cons_self)) target
  have hjson : SqlRef.toJson ⟨name, key, some .gzip⟩ =
      .obj [("name", .str name), ("key", .str key), ("compression", .str "gzip")] := rfl
  rw [decodeSqlRef, hjson, hname, hkey, hcompression]
  rfl

/-- Whatever the plan object was before, the patch of its status records the SQL. -/
theorem recordedIn_statusPatch {others : List (String × Json)}
    (hdistinct : ((prepared.statusFields ++ others).map Prod.fst).Nodup) (plan : Json) :
    prepared.RecordedIn (plan.mergePatch (prepared.statusPatch others)) := by
  have hfield : ∀ name v, (name, v) ∈ prepared.statusFields → _ :=
    fun name v hmem => statusField_statusPatch hdistinct hmem plan
  constructor
  · rw [hfield "sqlRef" _ List.mem_cons_self]
    obtain ⟨artifact, -, -, -⟩ := prepared
    cases artifact with
    | compressedConfigMap name key compressed =>
      exact (readOptional_of_ne_null (by nofun)).trans
        (congrArg (Option.map some) (decodeSqlRef_mergePatch ⟨name, key, some .gzip⟩ rfl _))
    | inline sql => rfl
    | truncatedInline sql => rfl
  · rw [hfield "sqlInline" _ (List.mem_cons_of_mem _ List.mem_cons_self)]
    obtain ⟨artifact, -, -, -⟩ := prepared
    cases artifact <;> rfl
  · rw [hfield "sqlTruncated" _
      (List.mem_cons_of_mem _ (List.mem_cons_of_mem _ List.mem_cons_self))]
    rfl

/-- Where a text is read, it is there. -/
theorem decodeText_of_readOptional {v : Option Json} {text : Option String}
    (h : readOptional decodeText v = some text) : v.bind decodeText = text := by
  cases v with
  | none => exact Option.some.inj h
  | some v => cases v <;> simp_all [readOptional, decodeText]

theorem decodeFlag_of_readDefaulted {v : Option Json} {flag : Bool}
    (h : readDefaulted decodeFlag false v = some flag) :
    (v.bind decodeFlag).getD false = flag := by
  cases v with
  | none => exact Option.some.inj h
  | some v => rw [Option.bind_some, show decodeFlag v = some flag from h, Option.getD_some]

/-- Where no reference is read, the status has none or a null. -/
theorem filter_eq_none_of_readOptional {T : Type} {decode : Json → Option T} {v : Option Json}
    (h : readOptional decode v = some none) : v.filter (fun ref => !ref.isNull) = none := by
  cases v with
  | none => rfl
  | some v => cases v <;> simp_all [readOptional, Json.isNull, Option.filter]

/-- Where a reference is read, it is located by its name and its key. -/
theorem locateSqlRef_of_decodeSqlRef {v : Json} {name key : String}
    (h : decodeSqlRef v = some ⟨name, key, some .gzip⟩) (hname : name ≠ "") (hkey : key ≠ "") :
    locateSqlRef v = .ok (.configMap name key true) := by
  obtain ⟨n, hn, h⟩ := Option.bind_eq_some_iff.1 h
  obtain ⟨k, hk, h⟩ := Option.bind_eq_some_iff.1 h
  obtain ⟨c, hc, h⟩ := Option.bind_eq_some_iff.1 h
  obtain ⟨rfl, rfl, rfl⟩ : n = name ∧ k = key ∧ c = some .gzip := by
    simpa only [SqlRef.mk.injEq] using Option.some.inj h
  have hgzip : ((v.field? "compression").bind decodeText == some "gzip") = true := by
    cases hv : v.field? "compression" with
    | none => rw [hv] at hc; cases hc
    | some w =>
      rw [hv] at hc
      have htext : decodeText w = some "gzip" := by
        cases w <;> simp_all [readOptional, decodeEnum, decodeText, SqlCompression.text, eq_comm]
      rw [Option.bind_some, htext]
      rfl
  rw [readRequired] at hn hk
  simp only [locateSqlRef, hn, hk, hgzip, Option.getD_some]
  rw [if_neg (by simp [hname, hkey])]

theorem selectPlanSql_inline {sql : String} (h : prepared.RecordedIn plan)
    (hartifact : prepared.artifact = .inline sql) (hne : sql ≠ "") :
    selectPlanSql plan = .ok (.inline sql) := by
  have hinline := decodeText_of_readOptional h.sqlInline
  have htruncated := decodeFlag_of_readDefaulted h.sqlTruncated
  simp only [PreparedPlanSql.sqlInline, PreparedPlanSql.isTruncated, hartifact] at hinline htruncated
  simp [selectPlanSql, hinline, htruncated, Option.filter, hne]

theorem selectPlanSql_compressed {name key : String} {compressed : ByteArray}
    (h : prepared.RecordedIn plan)
    (hartifact : prepared.artifact = .compressedConfigMap name key compressed) (hname : name ≠ "")
    (hkey : key ≠ "") : selectPlanSql plan = .ok (.configMap name key true) := by
  have hinline := decodeText_of_readOptional h.sqlInline
  have href := h.sqlRef
  simp only [PreparedPlanSql.sqlRef, PreparedPlanSql.sqlInline, hartifact] at href hinline
  obtain ⟨ref, hstored, hne, hdecode⟩ : ∃ ref, statusField plan "sqlRef" = some ref ∧
      ref.isNull = false ∧ decodeSqlRef ref = some ⟨name, key, some .gzip⟩ := by
    cases hstored : statusField plan "sqlRef" with
    | none => rw [hstored] at href; cases href
    | some ref =>
      rw [hstored] at href
      cases ref <;> simp_all [readOptional, Json.isNull]
  simp [selectPlanSql, hinline, hstored, hne, Option.filter,
    locateSqlRef_of_decodeSqlRef hdecode hname hkey]

theorem selectPlanSql_truncated {sql : String} (h : prepared.RecordedIn plan)
    (hartifact : prepared.artifact = .truncatedInline sql) (hne : sql ≠ "") :
    selectPlanSql plan = .error .truncatedPreview := by
  have hinline := decodeText_of_readOptional h.sqlInline
  have htruncated := decodeFlag_of_readDefaulted h.sqlTruncated
  have href := h.sqlRef
  simp only [PreparedPlanSql.sqlRef, PreparedPlanSql.sqlInline, PreparedPlanSql.isTruncated,
    hartifact] at href hinline htruncated
  simp only [selectPlanSql, filter_eq_none_of_readOptional href, hinline, htruncated]
  simp [Option.filter, hne]

end Recorded

theorem fromUTF8?_toByteArray (s : String) : String.fromUTF8? s.toByteArray = some s := by
  rw [String.fromUTF8?, dif_pos s.isValidUTF8]
  rfl

theorem sqlConfigMapName_ne (planName : String) : sqlConfigMapName planName ≠ "" := by
  intro h
  have hlen := congrArg String.length h
  rw [sqlConfigMapName, String.length_append] at hlen
  have hsuffix : "-sql".length = 4 := by decide
  have hempty : "".length = 0 := by decide
  omega

/-- The three ways of storing a text, and which text takes which. -/
theorem preparePlanSql_cases {ε : Type} {gzipBytes : ByteArray → Except ε ByteArray}
    {computeSqlHash : String → HexDigest} {planName text : String} {prepared : PreparedPlanSql}
    (h : preparePlanSql gzipBytes computeSqlHash planName text = .ok prepared) :
    prepared.artifact = .inline text ∨
    (∃ compressed, gzipBytes text.toByteArray = .ok compressed ∧
      prepared.artifact =
        .compressedConfigMap (sqlConfigMapName planName) sqlConfigmapGzipKey compressed) ∨
    (maxInlineSqlBytes < text.utf8ByteSize ∧ prepared.artifact =
      .truncatedInline (truncateUtf8 text maxInlineSqlBytes truncationMarker)) := by
  rw [preparePlanSql] at h
  split at h
  · exact .inl (congrArg PreparedPlanSql.artifact (Except.ok.inj h)).symm
  · next hlong =>
    obtain ⟨compressed, hgzip, hrest⟩ := bind_eq_ok.1 h
    split at hrest
    · refine .inr (.inl ⟨compressed, hgzip, ?_⟩)
      exact (congrArg PreparedPlanSql.artifact (Except.ok.inj hrest)).symm
    · refine .inr (.inr ⟨Nat.lt_of_not_le hlong, ?_⟩)
      exact (congrArg PreparedPlanSql.artifact (Except.ok.inj hrest)).symm

section ReadBack

variable {ε : Type} {gzipBytes : ByteArray → Except ε ByteArray}
  {gunzip : ByteArray → Option ByteArray} {computeSqlHash : String → HexDigest}
  {planName text : String} {prepared : PreparedPlanSql}

theorem ne_empty_of_visible (h : Visible text) : text ≠ "" := by
  rintro rfl
  obtain ⟨c, hc, -⟩ := h
  exact absurd hc List.not_mem_nil

theorem not_blank_of_visible (h : Visible text) : text.toList.all isWhitespace = false := by
  obtain ⟨c, hc, hvisible⟩ := h
  rw [List.all_eq_false]
  exact ⟨c, hc, by simp [hvisible]⟩

/-- A visible text is read back from wherever it is stored. -/
theorem readsBack_preparePlanSql
    (hlossless : ∀ bytes compressed, gzipBytes bytes = .ok compressed →
      gunzip compressed = some bytes)
    (hvisible : Visible text)
    (h : preparePlanSql gzipBytes computeSqlHash planName text = .ok prepared) :
    prepared.ReadsBack gunzip text := by
  have hne := ne_empty_of_visible hvisible
  have hblank := not_blank_of_visible hvisible
  rcases preparePlanSql_cases h with hinline | ⟨compressed, hgzip, hconfigmap⟩ | ⟨hlong, hcut⟩
  · have hwhole : prepared.isTruncated = false := by rw [PreparedPlanSql.isTruncated, hinline]
    refine ⟨fun _ plan configmaps hplan _ => ?_, ?_, ?_⟩
    · rw [readPlanSql, selectPlanSql_inline hplan hinline hne]
      simp [bind, Except.bind, rejectIf, hblank, pure, Except.pure]
    · simp [hwhole]
    · simp [hwhole]
  · have hwhole : prepared.isTruncated = false := by rw [PreparedPlanSql.isTruncated, hconfigmap]
    refine ⟨fun _ plan configmaps hplan hstored => ?_, ?_, ?_⟩
    · have hselect := selectPlanSql_compressed hplan hconfigmap (sqlConfigMapName_ne planName)
        (by decide)
      obtain ⟨configmap, hbuild, hname, hdata⟩ : ∃ configmap,
          buildPlanSqlConfigmapObject prepared = .ok configmap ∧
          configmap.name = some (sqlConfigMapName planName) ∧
          configmap.binaryData =
            some ((∅ : BTreeMap String ByteArray).insert sqlConfigmapGzipKey compressed) := by
        rw [buildPlanSqlConfigmapObject, hconfigmap]
        exact ⟨_, rfl, rfl, rfl⟩
      have hdecode : decodeConfigmapSql gunzip configmap sqlConfigmapGzipKey true = .ok text := by
        simp only [decodeConfigmapSql, hdata, if_true, Option.bind_some,
          ExtTreeMap.getElem?_insert_self, hlossless _ _ hgzip, fromUTF8?_toByteArray]
      rw [readPlanSql, hselect]
      simp only [bind, Except.bind, hstored configmap hbuild _ hname, hdecode]
      simp [rejectIf, hblank, pure, Except.pure]
    · simp [hwhole]
    · simp [hwhole]
  · have htruncated : prepared.isTruncated = true := by rw [PreparedPlanSql.isTruncated, hcut]
    have hmarker : truncationMarker.utf8ByteSize ≤ maxInlineSqlBytes := by decide
    obtain ⟨front, rest, htext, hpreview, hfits⟩ := exists_front_truncateUtf8 hlong hmarker
    refine ⟨by simp [htruncated], fun _ plan hplan => ?_, fun _ => ⟨front, rest, htext, ?_, hfits⟩⟩
    · apply selectPlanSql_truncated hplan hcut
      rw [hpreview]
      intro hempty
      have hlen := congrArg String.utf8ByteSize hempty
      rw [String.utf8ByteSize_append] at hlen
      have hmarkerLen : 0 < truncationMarker.utf8ByteSize := by decide
      have hzero : "".utf8ByteSize = 0 := rfl
      omega
    · rw [PreparedPlanSql.sqlInline, hcut, hpreview]

end ReadBack

/-! ## Reviewed and executed -/

/-- Execution is a run over the statements of the batch. -/
theorem foldlM_executeStatement {σ ε : Type} (execute : String → σ → Except ε σ)
    (batch : List RenderedStatement) (database : σ) (count : Nat) :
    batch.foldlM (executeStatement execute) (database, count) =
      ((batch.map (·.sql)).foldlM (fun db sql => execute sql db) database).map fun db =>
        (db, count + batch.length) := by
  induction batch generalizing database count with
  | nil => rfl
  | cons s batch ih =>
      rw [List.foldlM_cons, List.map_cons, List.foldlM_cons, executeStatement]
      cases execute s.sql database with
      | error e => rfl
      | ok next =>
          have hcount : count + 1 + batch.length = count + (batch.length + 1) := by omega
          simp only [Except.map, bind, Except.bind, ih, List.length_cons, hcount]

theorem visible_intercalate {sep : String} {texts : List String} {text : String}
    (hmem : text ∈ texts) (h : Visible text) : Visible (sep.intercalate texts) := by
  obtain ⟨c, hc, hvisible⟩ := h
  refine ⟨c, ?_, hvisible⟩
  rw [String.toList_intercalate]
  exact (infix_intercalate (List.mem_map_of_mem hmem)).subset hc

/-- The text stored for review is, line by line, what is shown of the statements that are executed:
the statements themselves except for passwords, whose verifiers it does not depend on. It is read
back whole, or refused where only its beginning is stored. -/
theorem reviewedSql_executed {ε : Type} {changes : List Change} {ctx : SqlContext}
    {batch : List RenderedStatement} (h : renderBatchWithContext changes ctx = .ok batch)
    (hne : batch ≠ []) {gzipBytes : ByteArray → Except ε ByteArray}
    {gunzip : ByteArray → Option ByteArray}
    (hlossless : ∀ bytes compressed, gzipBytes bytes = .ok compressed →
      gunzip compressed = some bytes)
    (computeSqlHash : String → HexDigest) (planName : String) :
    renderRedactedSql changes ctx = .ok ("\n".intercalate (batch.map (·.redactedSql))) ∧
    (∀ (σ ε' : Type) (execute : String → σ → Except ε' σ) (database : σ),
      executeChangesInTransaction execute changes ctx database =
        (((batch.map (·.sql)).foldlM (fun db sql => execute sql db) database).map fun db =>
          (db, batch.length)).mapError .inr) ∧
    (∀ s ∈ batch, StatementOrigin ctx changes s) ∧
    (∀ changes', redactPasswordChanges changes' = redactPasswordChanges changes →
      renderRedactedSql changes' ctx = renderRedactedSql changes ctx) ∧
    ∀ text prepared, renderRedactedSql changes ctx = .ok text →
      preparePlanSql gzipBytes computeSqlHash planName text = .ok prepared →
      prepared.ReadsBack gunzip text := by
  obtain ⟨-, hbatch⟩ := check_bind_eq_ok.1 h
  have horigin := origin_of_batchFrom hbatch
  have hrendered : renderRedactedSql changes ctx =
      .ok ("\n".intercalate (batch.map (·.redactedSql))) := by
    rw [renderRedactedSql, h]
    rfl
  refine ⟨hrendered, ?_, horigin, ?_, ?_⟩
  · intro σ ε' execute database
    rw [executeChangesInTransaction, h]
    simp only [Except.mapError, bind, Except.bind]
    rw [foldlM_executeStatement, Nat.zero_add]
  · intro changes' heq
    have hsame : (renderBatchWithContext changes' ctx).map shown =
        (renderBatchWithContext changes ctx).map shown := by
      rw [← shownBatch_redactPasswordChanges, heq, shownBatch_redactPasswordChanges]
    have hjoin := congrArg (Except.map ("\n".intercalate ·)) hsame
    rwa [except_map_map, except_map_map] at hjoin
  · intro text prepared htext hprepare
    apply readsBack_preparePlanSql hlossless _ hprepare
    -- the first line already has a visible character
    obtain ⟨s, rest, rfl⟩ := List.exists_cons_of_ne_nil hne
    rw [← Except.ok.inj (hrendered.symm.trans htext)]
    exact visible_intercalate List.mem_cons_self
      ((horigin s List.mem_cons_self).visible (renderChange_of_batchFrom hbatch))

/-! ### A password and a revoke as another role -/

/-- A password, and a revoke that has to run as the grantor. -/
def passwordPlan : List Change :=
  [.setPassword "app" "SCRAM-SHA-256$4096:c2FsdA==$a:b",
    .revoke ⟨.role "app", .table, some "public", some "users"⟩ {.select} (some "owner")]

/-- What a reviewer reads of that plan. -/
def passwordPlanText : String :=
  "ALTER ROLE \"app\" PASSWORD '[REDACTED]';\nSET ROLE \"owner\";\n" ++
    "REVOKE SELECT ON TABLE \"public\".\"users\" FROM \"app\";\nRESET ROLE;"

/-- Four statements, the first shown with a placeholder, and read back from the status, which has no
reference. -/
theorem passwordPlan_reviewed :
    renderRedactedSql passwordPlan {} = .ok passwordPlanText ∧
      readPlanSql some (fun _ => none) (.obj [("status", .obj [
        ("sqlInline", .str passwordPlanText), ("sqlTruncated", .bool false),
        ("phase", .str "Pending")])]) = .ok passwordPlanText := by
  have hbatch : renderBatchWithContext passwordPlan {} =
      .ok [⟨"ALTER ROLE \"app\" PASSWORD 'SCRAM-SHA-256$4096:c2FsdA==$a:b';",
          "ALTER ROLE \"app\" PASSWORD '[REDACTED]';"⟩,
        .plain "SET ROLE \"owner\";",
        .plain "REVOKE SELECT ON TABLE \"public\".\"users\" FROM \"app\";",
        .plain "RESET ROLE;"] := by
    decide +kernel
  obtain ⟨htext, -, -, -, hread⟩ := reviewedSql_executed hbatch (List.cons_ne_nil _ _)
    (fun bytes compressed (hsame : (Except.ok bytes : Except String ByteArray) = .ok compressed) =>
      congrArg some (Except.ok.inj hsame).symm)
    (fun _ => zeroDigest) "app-plan"
  have hrendered : renderRedactedSql passwordPlan {} = .ok passwordPlanText := by
    rw [htext]
    decide +kernel
  have hprepare : preparePlanSql (fun bytes => (Except.ok bytes : Except String ByteArray))
      (fun _ => zeroDigest) "app-plan" passwordPlanText =
      .ok ⟨.inline passwordPlanText, zeroDigest.text, passwordPlanText.utf8ByteSize,
        passwordPlanText.utf8ByteSize⟩ := by
    rw [preparePlanSql, if_pos (by decide +kernel)]
    rfl
  refine ⟨hrendered, (hread _ _ hrendered hprepare).whole rfl _ _ ?_ nofun⟩
  -- the status that the merge patch leaves on a plan that had none
  exact @recordedIn_statusPatch _ [("phase", .str "Pending")] (by decide) (.obj [])

end PgRoles.Operator

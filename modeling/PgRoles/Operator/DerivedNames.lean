import PgRoles.Operator.AccessRequest
import PgRoles.Operator.Durations
import PgRoles.Operator.SecretNames

/-!
# Names and labels the operator derives

The names of plans, of the ConfigMaps with their SQL and of generated Secrets, and the labels put on
these objects. The names are valid for every valid policy, candidate and request and every role, and
labels that go through the sanitizer are valid too. The labels of a generated Secret do not go
through it: they are valid exactly when the policy name and the role name are label values as they
stand (`identifiersAccepted_iff`).
-/

set_option autoImplicit false

namespace PgRoles.Operator

open PgRoles.Core PgRoles.Lib

/-! ## Inputs -/

/-- Lowercase hexadecimal digits. -/
def isLowerHex (c : Char) : Bool := isAsciiDigit c || ('a' ≤ c && c ≤ 'f')

/-- A SHA-256 digest in hexadecimal. -/
structure HexDigest where
  text : String
  length_eq : text.toList.length = 64
  isHex : ∀ c ∈ text.toList, isLowerHex c = true

/-- The UID of an object, as the API server assigns it: lowercase, of eight characters or more. -/
structure ObjectUid where
  text : String
  isLower : ∀ c ∈ text.toList, isAsciiAlnum c = true → isLowerAlnum c = true
  length_le : 8 ≤ (text.toList.filter isAsciiAlnum).length

/-- The name of an object that the API server accepted. -/
structure ObjectName where
  text : String
  isValid : isValidResourceName text = true

/-! ## Plan names -/

/-- The civil date of a day since the epoch. -/
def daysToDate (daysSinceEpoch : Nat) : Nat × Nat × Nat :=
  let z := daysSinceEpoch + 719468
  let era := z / 146097
  let doe := z - era * 146097
  let yoe := (doe - doe / 1460 + doe / 36524 - doe / 146096) / 365
  let y := yoe + era * 400
  let doy := doe - (365 * yoe + yoe / 4 - yoe / 100)
  let mp := (5 * doy + 2) / 153
  let d := doy - (153 * mp + 2) / 5 + 1
  let m := if mp < 10 then mp + 3 else mp - 9
  let y := if m ≤ 2 then y + 1 else y
  (y, m, d)

/-- A number with zeros in front up to the width. -/
def padded (width n : Nat) : List Char :=
  List.replicate (width - (Nat.toDigits 10 n).length) '0' ++ Nat.toDigits 10 n

/-- The time as `YYYYMMDD-HHMMSS`. -/
def formatTimestampCompact (secs : Nat) : List Char :=
  let (year, month, day) := daysToDate (secs / 86400)
  let remaining := secs % 86400
  padded 4 year ++ padded 2 month ++ padded 2 day ++ '-' :: (padded 2 (remaining / 3600) ++
    padded 2 (remaining % 3600 / 60) ++ padded 2 (remaining % 60))

/-- What a plan name leaves to the owner's name; `-sql` may follow the plan name. -/
def maxPrefixLen (timestamp suffix : List Char) : Nat :=
  maxResourceNameLength - 4 - "-plan-".length - timestamp.length - "-".length - suffix.length

/-- The name of a plan, from its owner's name, the hash of its SQL and the time as text. -/
def planNameAt (ownerName sqlHash : String) (timestamp : List Char) : String :=
  let suffix := takeBytes 12 sqlHash.toList
  truncateNamePrefix ownerName (maxPrefixLen timestamp suffix) ++ "-plan-" ++
    String.ofList timestamp ++ "-" ++ String.ofList suffix

/-- The name of a new plan: of its owner, the hash of its SQL and the time. -/
def generatePlanName (ownerName sqlHash : String) (secs : Nat) : String :=
  planNameAt ownerName sqlHash (formatTimestampCompact secs)

/-- The name of the ConfigMap with the SQL of a plan. -/
def sqlConfigMapName (planName : String) : String := planName ++ "-sql"

/-- The plan a ConfigMap belongs to, by name. -/
def configmapPlanName (configmapName : String) : String :=
  if "-sql".toList.isSuffixOf configmapName.toList then
    String.ofList (configmapName.toList.take (configmapName.toList.length - 4))
  else configmapName

/-! ## Scoped plan names -/

/-- An operation as names and messages spell it. -/
def ScopedPlanOperation.name : ScopedPlanOperation → String
  | .activate => "activate"
  | .revoke => "revoke"

/-- The request's name, cut short, and the parts behind it. -/
def joinScopedName (requestName : String) (uidSuffix : List Char) (operation : ScopedPlanOperation)
    (suffix : List Char) : String :=
  let segment := sanitizeDnsLabelSegment requestName "request"
  let maxPrefix := 253 - (uidSuffix.length + operation.name.length + suffix.length + 3)
  truncateNamePrefix segment maxPrefix ++ "-" ++ String.ofList uidSuffix ++ "-" ++
    operation.name ++ "-" ++ String.ofList suffix

/-- The name of a request's plan, from the request's name and UID and the digest of its bundle. -/
def scopedPlanName (requestName : String) (uid : Option String) (bundleHash : String)
    (operation : ScopedPlanOperation) : Except String String := do
  let bundleDigest ← if startsWithText bundleHash "sha256:" then .ok (bundleHash.toList.drop 7)
    else .error "bundle hash must use the sha256 encoding"
  let suffix ← match splitAtByte bundleDigest 12 with
    | some (suffix, _) => .ok suffix
    | none => .error "bundle hash is too short for a scoped plan name"
  let requestUid ← match uid.filter (!·.isEmpty) with
    | some requestUid => .ok requestUid
    | none => .error "request has no UID for scoped plan ownership"
  let uidSuffix := (requestUid.toList.filter isAsciiAlnum).take 8
  rejectIf (uidSuffix.length != 8) "request UID is too short for a scoped plan name"
  return joinScopedName requestName uidSuffix operation suffix

/-! ## Labels -/

/-- The label of the policy that an object is for. -/
def labelPolicy : String := "pgroles.io/policy"

/-- The label of the database that a plan is for. -/
def labelDatabaseIdentity : String := "pgroles.io/database-identity"

/-- The label of the plan that a ConfigMap belongs to. -/
def labelPlan : String := "pgroles.io/plan"

/-- The label of the candidate that a plan is for. -/
def labelCandidate : String := "pgroles.io/candidate"

/-- The labels of a generated Secret. -/
def generatedSecretLabels (policyName roleName : String) : List (String × String) :=
  [("app.kubernetes.io/managed-by", "pgroles-operator"), ("pgroles.io/policy", policyName),
    ("pgroles.io/role", roleName)]

/-- The labels of a plan; a candidate's plan names the candidate too. -/
def planLabels (policyName databaseIdentity : String) (candidateName : Option String) :
    List (String × String) :=
  [(labelPolicy, LabelValue.sanitize policyName),
    (labelDatabaseIdentity, LabelValue.sanitize databaseIdentity)] ++
    (candidateName.map fun name => (labelCandidate, LabelValue.sanitize name)).toList

/-- The labels of the plan of a request. -/
def scopedPlanLabels (targetName : String) : List (String × String) :=
  [(labelPolicy, LabelValue.sanitize targetName)]

section Hashed

-- The SHA-256 digest of a text, in hexadecimal.
variable (computeSqlHash : String → HexDigest)

/-- A plan's name as a label value. -/
def planLabelValue (planName : String) : String :=
  String.ofList ((computeSqlHash planName).text.toList.take 32)

/-- The labels of the ConfigMap with the SQL of a plan. -/
def sqlConfigMapLabels (policyName databaseIdentity configmapName : String) :
    List (String × String) :=
  [(labelPolicy, LabelValue.sanitize policyName),
    (labelDatabaseIdentity, LabelValue.sanitize databaseIdentity),
    (labelPlan, planLabelValue computeSqlHash (configmapPlanName configmapName))]

end Hashed

/-! ## Characters and lengths -/

theorem isLowerAlnum_of_isLowerHex {c : Char} (h : isLowerHex c = true) :
    isLowerAlnum c = true := by
  simp only [isLowerHex, Bool.or_eq_true, Bool.and_eq_true, decide_eq_true_eq] at h
  rcases h with h | ⟨ha, hf⟩
  · simp [isLowerAlnum, h]
  · have hz : c ≤ 'z' := Char.le_trans hf (by decide)
    simp [isLowerAlnum, isAsciiLower, ha, hz]

theorem isLowerAlnum_of_mem_padded {width n : Nat} {c : Char} (h : c ∈ padded width n) :
    isLowerAlnum c = true := by
  rcases List.mem_append.1 h with h | h
  · rw [List.eq_of_mem_replicate h]
    decide
  · have hdigit : c.isDigit = true := Nat.isDigit_of_mem_toDigits (by decide) (by decide) h
    have hascii : isAsciiDigit c = true := by
      simpa [isAsciiDigit, Char.isDigit, Char.le_def] using hdigit
    simp [isLowerAlnum, hascii]

/-- A word has at most twenty digits. -/
theorem length_padded_le {width n : Nat} (hwidth : width ≤ 20) (hn : n < 10 ^ 20) :
    (padded width n).length ≤ 20 := by
  have hdigits := (Nat.length_toDigits_le_iff (by decide) (by decide : 0 < 20)).2 hn
  rw [padded, List.length_append, List.length_replicate]
  omega

theorem isLowerAlnum_or_dash_of_mem_timestamp {secs : Nat} {c : Char}
    (h : c ∈ formatTimestampCompact secs) : isLowerAlnum c = true ∨ c = '-' := by
  simp only [formatTimestampCompact, List.mem_append, List.mem_cons] at h
  rcases h with ((h | h) | h) | h | (h | h) | h
  · exact Or.inl (isLowerAlnum_of_mem_padded h)
  · exact Or.inl (isLowerAlnum_of_mem_padded h)
  · exact Or.inl (isLowerAlnum_of_mem_padded h)
  · exact Or.inr h
  · exact Or.inl (isLowerAlnum_of_mem_padded h)
  · exact Or.inl (isLowerAlnum_of_mem_padded h)
  · exact Or.inl (isLowerAlnum_of_mem_padded h)

/-- A date counted in a word fits into words. -/
theorem daysToDate_lt {days : Nat} (h : days < wordLimit) :
    (daysToDate days).1 < 10 ^ 20 ∧ (daysToDate days).2.1 < 10 ^ 20 ∧
      (daysToDate days).2.2 < 10 ^ 20 := by
  unfold wordLimit at h
  simp only [daysToDate]
  refine ⟨?_, ?_, ?_⟩
  · split_ifs <;> omega
  · split_ifs <;> omega
  · omega

theorem length_formatTimestampCompact_le {secs : Nat} (h : secs < wordLimit) :
    (formatTimestampCompact secs).length ≤ 121 := by
  have hdays : secs / 86400 < wordLimit := lt_of_le_of_lt (Nat.div_le_self _ _) h
  have hdate := daysToDate_lt hdays
  have htime : ∀ n, n ≤ secs % 86400 → (padded 2 n).length ≤ 20 := fun n hn =>
    length_padded_le (by decide) (by omega)
  have hhours := htime (secs % 86400 / 3600) (Nat.div_le_self _ _)
  have hminutes := htime (secs % 86400 % 3600 / 60) (by omega)
  have hseconds := htime (secs % 86400 % 60) (Nat.mod_le _ _)
  unfold formatTimestampCompact
  generalize daysToDate (secs / 86400) = date at hdate ⊢
  obtain ⟨year, month, day⟩ := date
  have hyear := length_padded_le (by decide : 4 ≤ 20) hdate.1
  have hmonth := length_padded_le (by decide : 2 ≤ 20) hdate.2.1
  have hday := length_padded_le (by decide : 2 ≤ 20) hdate.2.2
  dsimp only at hyear hmonth hday ⊢
  rw [List.length_append, List.length_append, List.length_append, List.length_cons,
    List.length_append, List.length_append]
  omega

/-! ## The names are valid -/

/-- A name extended behind a dash, within the length of a name. -/
theorem isValidResourceName_extend {name : String} {stem front : List Char} {c : Char}
    (hname : name.toList = stem ++ '-' :: (front ++ [c])) (hstem : DnsName stem)
    (hfront : ∀ d ∈ front, isLowerAlnum d = true ∨ d = '-') (hc : isLowerAlnum c = true)
    (hlength : name.toList.length ≤ maxResourceNameLength) : isValidResourceName name = true := by
  refine isValidResourceName_iff.2 ⟨?_, hlength⟩
  rw [hname]
  refine hstem.append_dash (fun d hd => ?_) ⟨front, c, rfl, hc⟩
  rcases List.mem_append.1 hd with hd | hd
  · exact hfront d hd
  · rw [List.mem_singleton.1 hd]
    exact Or.inl hc

/-- The start of a digest that goes into a name. -/
theorem HexDigest.exists_take (digest : HexDigest) :
    ∃ front c, digest.text.toList.take 12 = front ++ [c] ∧ front.length = 11 ∧
      (∀ d ∈ front, isLowerAlnum d = true) ∧ isLowerAlnum c = true := by
  have hlength : (digest.text.toList.take 12).length = 12 := by
    rw [List.length_take, digest.length_eq]
    rfl
  have hne : digest.text.toList.take 12 ≠ [] := fun h => by
    rw [h] at hlength
    cases hlength
  have halnum : ∀ d ∈ digest.text.toList.take 12, isLowerAlnum d = true := fun d hd =>
    isLowerAlnum_of_isLowerHex (digest.isHex d (List.mem_of_mem_take hd))
  obtain ⟨front, c, hsplit⟩ := (List.eq_nil_or_concat' _).resolve_left hne
  rw [hsplit] at hlength halnum
  refine ⟨front, c, hsplit, by simpa using hlength, fun d hd => ?_, ?_⟩
  · exact halnum d (List.mem_append_left _ hd)
  · exact halnum c (List.mem_append_right _ List.mem_cons_self)

theorem HexDigest.takeBytes_eq (digest : HexDigest) (n : Nat) :
    takeBytes n digest.text.toList = digest.text.toList.take n :=
  takeBytes_of_utf8Size
    (fun c hc => utf8Size_of_isLowerAlnum (isLowerAlnum_of_isLowerHex (digest.isHex c hc))) n

theorem maxPrefixLen_eq {timestamp suffix : List Char} (h : suffix.length = 12) :
    maxPrefixLen timestamp suffix = 230 - timestamp.length := by
  rw [maxPrefixLen, h, show "-plan-".length = 6 from rfl, show "-".length = 1 from rfl,
    maxResourceNameLength]
  omega

theorem toList_planNameAt (ownerName sqlHash : String) (timestamp : List Char) :
    (planNameAt ownerName sqlHash timestamp).toList =
      (truncateNamePrefix ownerName
        (maxPrefixLen timestamp (takeBytes 12 sqlHash.toList))).toList ++
      '-' :: (['p', 'l', 'a', 'n', '-'] ++ timestamp ++ '-' :: takeBytes 12 sqlHash.toList) := by
  have hplan : "-plan-".toList = ['-', 'p', 'l', 'a', 'n', '-'] := rfl
  have hdash : "-".toList = ['-'] := rfl
  unfold planNameAt
  dsimp only
  rw [String.toList_append, String.toList_append, String.toList_append, String.toList_append,
    hplan, hdash, String.toList_ofList, String.toList_ofList]
  simp only [List.append_assoc, List.cons_append, List.nil_append]

/-- The fixed parts of a name are checked by evaluation. -/
theorem isLowerAlnum_or_dash_of_all {text : List Char}
    (h : text.all (fun c => isLowerAlnum c || c == '-') = true) :
    ∀ c ∈ text, isLowerAlnum c = true ∨ c = '-' := by
  intro c hc
  simpa using List.all_eq_true.1 h c hc

/-- A plan name: the owner's name, cut short, extended behind a dash. -/
theorem exists_planNameAt (owner : ObjectName) (sqlHash : HexDigest) {timestamp : List Char}
    (htime : timestamp.length ≤ 121)
    (hchars : ∀ d ∈ timestamp, isLowerAlnum d = true ∨ d = '-') :
    ∃ stem front c, (planNameAt owner.text sqlHash.text timestamp).toList =
        stem ++ '-' :: (front ++ [c]) ∧ DnsName stem ∧
      (∀ d ∈ front, isLowerAlnum d = true ∨ d = '-') ∧ isLowerAlnum c = true ∧
      (stem ++ '-' :: (front ++ [c])).length ≤ 249 := by
  obtain ⟨hname, -⟩ := isValidResourceName_iff.1 owner.isValid
  obtain ⟨front, c, hsuffix, hlength, hfront, hc⟩ := sqlHash.exists_take
  have htake : takeBytes 12 sqlHash.text.toList = front ++ [c] := by
    rw [sqlHash.takeBytes_eq, hsuffix]
  have htwelve : (front ++ [c]).length = 12 := by
    rw [List.length_append, hlength]
    rfl
  have hmax : maxPrefixLen timestamp (front ++ [c]) = 230 - timestamp.length :=
    maxPrefixLen_eq htwelve
  have hstem := toList_truncateNamePrefix (isNameChar_of_dnsName hname) (230 - timestamp.length)
  refine ⟨(truncateNamePrefix owner.text (230 - timestamp.length)).toList,
    ['p', 'l', 'a', 'n', '-'] ++ timestamp ++ '-' :: front, c, ?_, ?_, ?_, hc, ?_⟩
  · rw [toList_planNameAt, htake, hmax]
    simp only [List.append_assoc, List.cons_append, List.nil_append]
  · rw [hstem]
    exact hname.truncate (by omega)
  · intro d hd
    rcases List.mem_append.1 hd with hd | hd
    · rcases List.mem_append.1 hd with hd | hd
      · exact isLowerAlnum_or_dash_of_all (by decide) d hd
      · exact hchars d hd
    · rcases List.mem_cons.1 hd with hd | hd
      · exact Or.inr hd
      · exact Or.inl (hfront d hd)
  · have hcut : (truncateNamePrefix owner.text (230 - timestamp.length)).toList.length ≤
        230 - timestamp.length := by
      rw [hstem]
      refine (List.IsPrefix.length_le (List.rdropWhile_prefix _ _)).trans ?_
      exact List.length_take_le _ _
    simp only [List.length_append, List.length_cons, List.length_nil, hlength]
    omega

/-- A plan name is valid with room for the suffix of its ConfigMap. -/
theorem isValidResourceName_generatePlanName (owner : ObjectName) (sqlHash : HexDigest) {secs : Nat}
    (hsecs : secs < wordLimit) :
    isValidResourceName (generatePlanName owner.text sqlHash.text secs) = true ∧
      isValidResourceName (sqlConfigMapName (generatePlanName owner.text sqlHash.text secs)) =
        true := by
  obtain ⟨stem, front, c, hname, hstem, hfront, hc, hlength⟩ := exists_planNameAt owner sqlHash
    (length_formatTimestampCompact_le hsecs) fun d hd => isLowerAlnum_or_dash_of_mem_timestamp hd
  constructor
  · refine isValidResourceName_extend hname hstem hfront hc ?_
    rw [generatePlanName, hname]
    exact hlength.trans (by decide)
  · have hsql : (sqlConfigMapName (generatePlanName owner.text sqlHash.text secs)).toList =
        stem ++ '-' :: ((front ++ c :: ['-', 's', 'q']) ++ ['l']) := by
      have hsuffix : "-sql".toList = ['-', 's', 'q', 'l'] := rfl
      rw [sqlConfigMapName, generatePlanName, String.toList_append, hname, hsuffix]
      simp only [List.append_assoc, List.cons_append, List.nil_append]
    refine isValidResourceName_extend hsql hstem (fun d hd => ?_) (by decide) ?_
    · rcases List.mem_append.1 hd with hd | hd
      · exact hfront d hd
      · rcases List.mem_cons.1 hd with rfl | hd
        · exact Or.inl hc
        · exact isLowerAlnum_or_dash_of_all (by decide) d hd
    · rw [hsql]
      simp only [List.length_append, List.length_cons, List.length_nil] at hlength ⊢
      rw [maxResourceNameLength]
      omega

/-- The name of a ConfigMap gives back the plan name. -/
theorem configmapPlanName_sqlConfigMapName (planName : String) :
    configmapPlanName (sqlConfigMapName planName) = planName := by
  have hsuffix : "-sql".toList = ['-', 's', 'q', 'l'] := rfl
  have hname : (sqlConfigMapName planName).toList = planName.toList ++ ['-', 's', 'q', 'l'] := by
    rw [sqlConfigMapName, String.toList_append, hsuffix]
  unfold configmapPlanName
  rw [hname, hsuffix, if_pos (List.isSuffixOf_iff_suffix.2 (List.suffix_append _ _))]
  rw [List.length_append, show (['-', 's', 'q', 'l'] : List Char).length = 4 from rfl,
    Nat.add_sub_cancel, List.take_left, String.ofList_toList]

/-- Words joined by dashes are a name of one label. -/
theorem dnsName_intercalate {ws : List (List Char)} (h : AlnumWords ws) (hne : ws ≠ []) :
    DnsName (['-'].intercalate ws) :=
  ⟨[['-'].intercalate ws], List.cons_ne_nil _ _,
    by simpa using isDns1123Label_intercalate h hne, List.intercalate_singleton.symm⟩

theorem length_intercalate_fitWords_le {ws : List (List Char)} (h : AlnumWords ws) (n : Nat) :
    (['-'].intercalate (fitWords n ws)).length ≤ n := by
  have htrimmed : WordsOver (isTrimmed · = false) ws := by
    intro w hw
    refine ⟨(h w hw).1, fun c hc => ?_⟩
    have halnum := (h w hw).2 c hc
    simp [isTrimmed, ne_dot_of_isLowerAlnum halnum, ne_dash_of_isLowerAlnum halnum]
  have hdash : isTrimmed '-' = true := by decide
  rw [← rdropWhile_take_intercalate hdash htrimmed]
  exact (List.IsPrefix.length_le (List.rdropWhile_prefix _ _)).trans (List.length_take_le _ _)

/-- A default Secret name is valid for every policy and role name. -/
theorem isValidResourceName_defaultGeneratedSecretName (policyName roleName : String) :
    isValidResourceName (defaultGeneratedSecretName policyName roleName) = true := by
  rw [isValidResourceName_iff, toList_defaultGeneratedSecretName]
  constructor
  · exact dnsName_intercalate (alnumWords_fittedSecretWords _ _) (fittedSecretWords_ne_nil _ _)
  · exact length_intercalate_fitWords_le (alnumWords_secretNameWords _ _) _

theorem ScopedPlanOperation.exists_name (operation : ScopedPlanOperation) :
    ∃ text : List Char, operation.name.toList = text ∧ operation.name.length ≤ 8 ∧
      text.length = operation.name.length ∧
      text.all (fun c => isLowerAlnum c || c == '-') = true := by
  cases operation with
  | activate => exact ⟨['a', 'c', 't', 'i', 'v', 'a', 't', 'e'], rfl, by decide, rfl, by decide⟩
  | revoke => exact ⟨['r', 'e', 'v', 'o', 'k', 'e'], rfl, by decide, rfl, by decide⟩

/-- The name of a request's plan is valid, whatever the request is called. -/
theorem isValidResourceName_joinScopedName (requestName : String) {uidSuffix front : List Char}
    {c : Char} (operation : ScopedPlanOperation) (huid : ∀ d ∈ uidSuffix, isLowerAlnum d = true)
    (huidLength : uidSuffix.length = 8) (hfront : ∀ d ∈ front, isLowerAlnum d = true)
    (hlength : front.length = 11) (hc : isLowerAlnum c = true) :
    isValidResourceName (joinScopedName requestName uidSuffix operation (front ++ [c])) = true := by
  obtain ⟨text, hoperation, hshort, hsame, hchars⟩ := operation.exists_name
  have hrequest := alnumWords_segmentWords requestName
    (show AlnumWords ["request".toList] from alnumWords_singleton (by decide) (by decide))
  have hsegment : DnsName (sanitizeDnsLabelSegment requestName "request").toList := by
    rw [toList_sanitizeDnsLabelSegment]
    exact dnsName_intercalate hrequest (segmentWords_ne_nil _ _)
  generalize hmax : 253 - (uidSuffix.length + operation.name.length + (front ++ [c]).length + 3) =
    maxPrefix
  have htwelve : (front ++ [c]).length = 12 := by
    rw [List.length_append, hlength]
    rfl
  rw [huidLength, htwelve] at hmax
  have hstem := toList_truncateNamePrefix (isNameChar_of_dnsName hsegment) maxPrefix
  have hcut : (truncateNamePrefix (sanitizeDnsLabelSegment requestName "request")
      maxPrefix).toList.length ≤ maxPrefix := by
    rw [hstem]
    exact (List.IsPrefix.length_le (List.rdropWhile_prefix _ _)).trans (List.length_take_le _ _)
  have hname : (joinScopedName requestName uidSuffix operation (front ++ [c])).toList =
      (truncateNamePrefix (sanitizeDnsLabelSegment requestName "request") maxPrefix).toList ++
        '-' :: ((uidSuffix ++ '-' :: text ++ '-' :: front) ++ [c]) := by
    have hdash : "-".toList = ['-'] := rfl
    unfold joinScopedName
    dsimp only
    rw [huidLength, htwelve, hmax]
    rw [String.toList_append, String.toList_append, String.toList_append, String.toList_append,
      String.toList_append, String.toList_append, hdash, hoperation, String.toList_ofList,
      String.toList_ofList]
    simp only [List.append_assoc, List.cons_append, List.nil_append]
  refine isValidResourceName_extend hname ?_ (fun d hd => ?_) hc ?_
  · rw [hstem]
    exact hsegment.truncate (by omega)
  · rcases List.mem_append.1 hd with hd | hd
    · rcases List.mem_append.1 hd with hd | hd
      · exact Or.inl (huid d hd)
      · rcases List.mem_cons.1 hd with hd | hd
        · exact Or.inr hd
        · exact isLowerAlnum_or_dash_of_all hchars d hd
    · rcases List.mem_cons.1 hd with hd | hd
      · exact Or.inr hd
      · exact Or.inl (hfront d hd)
  · rw [hname]
    simp only [List.length_append, List.length_cons, List.length_nil, huidLength, hlength, hsame]
    rw [maxResourceNameLength]
    omega

/-- The plan of a request has a name, and it is valid. -/
theorem exists_scopedPlanName (requestName : String) (uid : ObjectUid) (bundleDigest : HexDigest)
    (operation : ScopedPlanOperation) :
    ∃ name, scopedPlanName requestName (some uid.text) ("sha256:" ++ bundleDigest.text) operation =
        .ok name ∧ isValidResourceName name = true := by
  obtain ⟨front, c, hsuffix, hlength, hfront, hc⟩ := bundleDigest.exists_take
  have hsha : "sha256:".toList = ['s', 'h', 'a', '2', '5', '6', ':'] := rfl
  have hstart : startsWithText ("sha256:" ++ bundleDigest.text) "sha256:" = true := by
    rw [startsWithText, String.toList_append]
    exact List.isPrefixOf_iff_prefix.2 (List.prefix_append _ _)
  have hdrop : ("sha256:" ++ bundleDigest.text).toList.drop 7 = bundleDigest.text.toList := by
    rw [String.toList_append, hsha]
    rfl
  have hascii : ∀ d ∈ bundleDigest.text.toList, d.toNat < 0x80 := fun d hd =>
    utf8Size_eq_one_iff.1
      (utf8Size_of_isLowerAlnum (isLowerAlnum_of_isLowerHex (bundleDigest.isHex d hd)))
  have hsplit : splitAtByte bundleDigest.text.toList 12 =
      some (front ++ [c], bundleDigest.text.toList.drop 12) := by
    have hbytes : (textBytes (front ++ [c])).length = 12 := by
      rw [length_textBytes_of_ascii fun d hd => hascii d (List.mem_of_mem_take (hsuffix ▸ hd)),
        List.length_append, hlength]
      rfl
    have hcut : splitAtByte (front ++ [c] ++ bundleDigest.text.toList.drop 12) 12 = _ :=
      splitAtByte_append hbytes
    rwa [← hsuffix, List.take_append_drop, hsuffix] at hcut
  have huidLength : ((uid.text.toList.filter isAsciiAlnum).take 8).length = 8 := by
    rw [List.length_take]
    exact min_eq_left uid.length_le
  have huidNe : uid.text.isEmpty = false := by
    rw [← Bool.not_eq_true, String.isEmpty_iff]
    intro hempty
    have hle := uid.length_le
    rw [hempty] at hle
    exact absurd hle (by decide)
  have huid : ∀ d ∈ (uid.text.toList.filter isAsciiAlnum).take 8, isLowerAlnum d = true := by
    intro d hd
    have hmem := List.mem_filter.1 (List.mem_of_mem_take hd)
    exact uid.isLower d hmem.1 hmem.2
  refine ⟨_, ?_, isValidResourceName_joinScopedName requestName operation huid huidLength hfront
    hlength hc⟩
  unfold scopedPlanName
  simp only [hstart, if_true, hdrop, bind, Except.bind, hsplit, Option.filter_some, huidNe,
    Bool.not_false, huidLength]
  rfl

/-! ## The labels are valid -/

/-- Every value of the labels is valid. -/
def LabelsAccepted (labels : List (String × String)) : Prop :=
  ∀ label ∈ labels, isValidLabelValue label.2 = true

theorem labelsAccepted_cons {key value : String} {labels : List (String × String)} :
    LabelsAccepted ((key, value) :: labels) ↔
      isValidLabelValue value = true ∧ LabelsAccepted labels :=
  List.forall_mem_cons

theorem labelsAccepted_nil : LabelsAccepted [] := fun _ h => nomatch h

theorem labelsAccepted_planLabels (policyName databaseIdentity : String)
    (candidateName : Option String) :
    LabelsAccepted (planLabels policyName databaseIdentity candidateName) := by
  refine labelsAccepted_cons.2 ⟨isValidLabelValue_sanitize _, ?_⟩
  refine labelsAccepted_cons.2 ⟨isValidLabelValue_sanitize _, ?_⟩
  cases candidateName with
  | none => exact labelsAccepted_nil
  | some name =>
    exact labelsAccepted_cons.2 ⟨isValidLabelValue_sanitize _, labelsAccepted_nil⟩

theorem isAsciiAlnum_of_isLowerAlnum {c : Char} (h : isLowerAlnum c = true) :
    isAsciiAlnum c = true := by
  simp only [isLowerAlnum, Bool.or_eq_true] at h
  rcases h with h | h
  · simp [isAsciiAlnum, h]
  · simp [isAsciiAlnum, h]

/-- Half a digest is a label value. -/
theorem isValidLabelValue_planLabelValue (computeSqlHash : String → HexDigest) (planName : String) :
    isValidLabelValue (planLabelValue computeSqlHash planName) = true := by
  have halnum : ∀ c ∈ (computeSqlHash planName).text.toList.take 32, isAsciiAlnum c = true :=
    fun c hc => isAsciiAlnum_of_isLowerAlnum
      (isLowerAlnum_of_isLowerHex ((computeSqlHash planName).isHex c (List.mem_of_mem_take hc)))
  have hlength : ((computeSqlHash planName).text.toList.take 32).length = 32 := by
    rw [List.length_take, (computeSqlHash planName).length_eq]
    rfl
  have hne : (computeSqlHash planName).text.toList.take 32 ≠ [] := fun hnil => by
    rw [hnil] at hlength
    cases hlength
  rw [isValidLabelValue_iff, planLabelValue, String.toList_ofList]
  refine Or.inr ⟨by rw [hlength]; decide, ?_, ?_, fun c hc =>
    isLabelChar_of_isAsciiAlnum (halnum c hc)⟩
  · obtain ⟨c, cs, hcons⟩ := List.exists_cons_of_ne_nil hne
    exact ⟨c, cs, hcons, halnum c (by rw [hcons]; exact List.mem_cons_self)⟩
  · obtain ⟨cs, c, hconcat⟩ := (List.eq_nil_or_concat' _).resolve_left hne
    have hlast := halnum c (by rw [hconcat]; exact List.mem_append_right _ List.mem_cons_self)
    exact ⟨cs, c, hconcat, hlast⟩

theorem labelsAccepted_sqlConfigMapLabels (computeSqlHash : String → HexDigest)
    (policyName databaseIdentity configmapName : String) :
    LabelsAccepted (sqlConfigMapLabels computeSqlHash policyName databaseIdentity configmapName) := by
  refine labelsAccepted_cons.2 ⟨isValidLabelValue_sanitize _, ?_⟩
  refine labelsAccepted_cons.2 ⟨isValidLabelValue_sanitize _, ?_⟩
  exact labelsAccepted_cons.2 ⟨isValidLabelValue_planLabelValue _ _, labelsAccepted_nil⟩

/-- The labels of a Secret carry the names as they stand. -/
theorem labelsAccepted_generatedSecretLabels (policyName roleName : String) :
    LabelsAccepted (generatedSecretLabels policyName roleName) ↔
      isValidLabelValue policyName = true ∧ isValidLabelValue roleName = true := by
  have hmanaged : isValidLabelValue "pgroles-operator" = true := by decide +kernel
  unfold generatedSecretLabels
  rw [labelsAccepted_cons, labelsAccepted_cons, labelsAccepted_cons]
  exact ⟨fun h => ⟨h.2.1, h.2.2.1⟩, fun h => ⟨hmanaged, h.1, h.2, labelsAccepted_nil⟩⟩

/-! ## Every identifier -/

/-- The API server accepts every identifier derived for these objects: the sanitizer gives valid
values and keeps valid ones, and the names and labels of the plans, of their ConfigMaps, of the
plans of a request and of a generated Secret are valid. -/
structure IdentifiersAccepted (computeSqlHash : String → HexDigest)
    (policy candidate request : ObjectName) (roleName databaseIdentity : String)
    (sqlHash bundleDigest : HexDigest) (uid : ObjectUid) (secs : UInt64) : Prop where
  sanitize : ∀ value, isValidLabelValue (LabelValue.sanitize value) = true ∧
    LabelValue.sanitize (LabelValue.sanitize value) = LabelValue.sanitize value ∧
    (isValidLabelValue value = true → LabelValue.sanitize value = value)
  planName : ∀ owner ∈ [policy, candidate],
    isValidResourceName (generatePlanName owner.text sqlHash.text secs.toNat) = true ∧
    isValidResourceName (sqlConfigMapName
      (generatePlanName owner.text sqlHash.text secs.toNat)) = true ∧
    configmapPlanName (sqlConfigMapName (generatePlanName owner.text sqlHash.text secs.toNat)) =
      generatePlanName owner.text sqlHash.text secs.toNat
  scopedName : ∀ operation, ∃ name, scopedPlanName request.text (some uid.text)
    ("sha256:" ++ bundleDigest.text) operation = .ok name ∧ isValidResourceName name = true
  secretName : isValidResourceName (defaultGeneratedSecretName policy.text roleName) = true
  planLabels : LabelsAccepted (planLabels policy.text databaseIdentity none) ∧
    LabelsAccepted (planLabels policy.text databaseIdentity (some candidate.text))
  configMapLabels : ∀ owner ∈ [policy, candidate], LabelsAccepted (sqlConfigMapLabels computeSqlHash
    policy.text databaseIdentity (sqlConfigMapName
      (generatePlanName owner.text sqlHash.text secs.toNat)))
  scopedLabels : LabelsAccepted (scopedPlanLabels policy.text)
  secretLabels : LabelsAccepted (generatedSecretLabels policy.text roleName)

/-- Everything is accepted exactly when the policy name and the role name are label values as they
stand. -/
theorem identifiersAccepted_iff (computeSqlHash : String → HexDigest)
    (policy candidate request : ObjectName) (roleName databaseIdentity : String)
    (sqlHash bundleDigest : HexDigest) (uid : ObjectUid) (secs : UInt64) :
    IdentifiersAccepted computeSqlHash policy candidate request roleName databaseIdentity sqlHash
        bundleDigest uid secs ↔
      isValidLabelValue policy.text = true ∧ isValidLabelValue roleName = true := by
  rw [← labelsAccepted_generatedSecretLabels]
  refine ⟨fun h => h.secretLabels, fun h => ⟨fun value => ?_, fun owner _ => ?_, fun operation => ?_,
    ?_, ⟨?_, ?_⟩, fun owner _ => ?_, ?_, h⟩⟩
  · have hvalid := isValidLabelValue_sanitize value
    exact ⟨hvalid, sanitize_of_isValidLabelValue hvalid, sanitize_of_isValidLabelValue⟩
  · obtain ⟨hplan, hconfigmap⟩ :=
      isValidResourceName_generatePlanName owner sqlHash secs.toNat_lt
    exact ⟨hplan, hconfigmap, configmapPlanName_sqlConfigMapName _⟩
  · exact exists_scopedPlanName request.text uid bundleDigest operation
  · exact isValidResourceName_defaultGeneratedSecretName policy.text roleName
  · exact labelsAccepted_planLabels policy.text databaseIdentity none
  · exact labelsAccepted_planLabels policy.text databaseIdentity (some candidate.text)
  · exact labelsAccepted_sqlConfigMapLabels computeSqlHash policy.text databaseIdentity _
  · exact labelsAccepted_cons.2 ⟨isValidLabelValue_sanitize _, labelsAccepted_nil⟩

/-- A policy called `app`. -/
def appName : ObjectName := ⟨"app", by decide +kernel⟩

/-- A digest of zeros. -/
def zeroDigest : HexDigest where
  text := String.ofList (List.replicate 64 '0')
  length_eq := by simp
  isHex := by simp [isLowerHex, isAsciiDigit]

/-- A UID of zeros. -/
def zeroUid : ObjectUid where
  text := String.ofList (List.replicate 8 '0')
  isLower := by simp [isLowerAlnum, isAsciiDigit]
  length_le := by simp [isAsciiAlnum, isAsciiDigit]

/-- The Secret of a role whose name has an at sign is refused for its label. -/
theorem app_user_at_prod_refused :
    ¬ ∀ (computeSqlHash : String → HexDigest) (policy candidate request : ObjectName)
      (roleName databaseIdentity : String) (sqlHash bundleDigest : HexDigest) (uid : ObjectUid)
      (secs : UInt64), IdentifiersAccepted computeSqlHash policy candidate request roleName
        databaseIdentity sqlHash bundleDigest uid secs := by
  intro h
  have hrole := h (fun _ => zeroDigest) appName appName appName "app_user@prod" "default/db"
    zeroDigest zeroDigest zeroUid 0
  obtain ⟨-, hinvalid⟩ := (labelsAccepted_generatedSecretLabels _ _).1 hrole.secretLabels
  exact absurd hinvalid (by decide +kernel)

end PgRoles.Operator

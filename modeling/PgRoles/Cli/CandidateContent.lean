import PgRoles.Cli.RenderBundle
import PgRoles.Core.ExpandPasswords
import PgRoles.Operator.PolicySpecDecode

/-!
# Filing a document as a candidate

A document, bare or a resource, is filed as the content of a candidate: the keys of a policy that
say how it is executed are dropped, every other key has to be a content key, and what is left is
validated as a manifest before it is sent. The operator reads the same value with its own types.
-/

set_option autoImplicit false

namespace PgRoles.Cli

open Std PgRoles.Core PgRoles.Lib PgRoles.Operator

/-! ## Extraction -/

/-- The keys that the content of a candidate accepts. -/
def contentKeys : List String :=
  ["default_owner", "role_pattern", "default_privileges", "grants", "memberships", "profiles",
    "reconciliation_mode", "retirements", "roles", "schemas"]

/-- The keys of a policy that describe execution, not content. -/
def policyExecutionKeys : List String := ["connection", "interval", "mode", "suspend", "approval"]

/-- Why a document is not filed. -/
inductive ExtractError where
  | unparsable
  | documentNotMapping
  | contentMissing
  | contentNotMapping
  | keyHasNoValue (key : String)
  | unsupportedKeys (keys : List String)
  | noContent
  deriving DecidableEq

/-- Locate the mapping that holds policy content within a parsed document. -/
def candidateContentBody (document : Json) : Except ExtractError Json :=
  if document.isObject then
    match document.field? "apiVersion", document.field? "spec" with
    | some _, some spec =>
        if (document.field? "kind").bind decodeText = some "PostgresPolicyCandidate" then
          match spec.field? "content" with
          | some content => .ok content
          | none => .error .contentMissing
        else .ok spec
    | _, _ => .ok document
  else .error .documentNotMapping

/-- What a scan of the keys has collected. -/
structure Scan where
  content : List (String × Json) := []
  unsupported : List String := []

/-- One more key of the spec: execution keys are dropped, content is kept, and others are noted. -/
def scanEntry (scan : Scan) (entry : String × Json) : Except ExtractError Scan :=
  if policyExecutionKeys.contains entry.1 then .ok scan
  else if !contentKeys.contains entry.1 then
    .ok { scan with unsupported := scan.unsupported ++ [entry.1] }
  else if entry.2.isNull then .error (.keyHasNoValue entry.1)
  else .ok { scan with content := scan.content ++ [entry] }

/-- The content mapping of a local manifest. -/
def extractCandidateContent (yaml : Yaml) (text : String) : Except ExtractError Json := do
  let document ← (yaml.parse text).elim (.error .unparsable) .ok
  let body ← candidateContentBody document
  rejectIf (!body.isObject) .contentNotMapping
  let scan ← body.entries.foldlM scanEntry {}
  rejectIf (!scan.unsupported.isEmpty) (.unsupportedKeys scan.unsupported)
  rejectIf scan.content.isEmpty .noContent
  return .obj scan.content

/-- Parse, expand and resolve a text. -/
def validateManifest (yaml : Yaml) (text : String) : Option RoleGraph := do
  let m ← parseManifest yaml text
  let expanded ← (expandManifest m).toOption
  (RoleGraph.fromExpanded expanded m.defaultOwner).toOption

/-- The content that is sent for a text; it is validated as it is printed. -/
def filedContent (yaml : Yaml) (text : String) : Option Json := do
  let content ← (extractCandidateContent yaml text).toOption
  let _ ← validateManifest yaml (yaml.print content)
  return content

/-! ## What extraction gives -/

section Extraction

/-- A key of a document that is filed is one of the known keys. -/
def isKnownKey (key : String) : Bool := contentKeys.contains key || policyExecutionKeys.contains key

/-- No content key goes without a value. -/
def hasValue (entry : String × Json) : Bool := !contentKeys.contains entry.1 || !entry.2.isNull

theorem not_execution_of_content {key : String} (h : key ∈ contentKeys) :
    key ∉ policyExecutionKeys := by
  have hdisjoint : ∀ key ∈ contentKeys, key ∉ policyExecutionKeys := by decide
  exact hdisjoint key h

/-- A scan fails at a content key without value; it collects the content in order. -/
theorem foldlM_scanEntry_eq_ok {entries : List (String × Json)} {scan result : Scan} :
    entries.foldlM scanEntry scan = .ok result ↔
      (∀ e ∈ entries, hasValue e = true) ∧
        result.content = scan.content ++ entries.filter (contentKeys.contains ·.1) ∧
        result.unsupported =
          scan.unsupported ++ (entries.filter (!isKnownKey ·.1)).map (·.1) := by
  induction entries generalizing scan with
  | nil =>
    obtain ⟨content, unsupported⟩ := result
    rw [List.foldlM_nil]
    simp only [pure, Except.pure, Except.ok.injEq, List.filter_nil, List.map_nil, List.append_nil,
      List.not_mem_nil, false_imp_iff, implies_true, true_and]
    constructor
    · intro h
      rw [h]
      exact ⟨rfl, rfl⟩
    · intro h
      rw [h.1, h.2]
  | cons e entries ih =>
    rw [List.foldlM_cons, List.forall_mem_cons, List.filter_cons, List.filter_cons, scanEntry]
    by_cases hcontent : e.1 ∈ contentKeys
    · have hexecution := not_execution_of_content hcontent
      cases hnull : e.2.isNull with
      | true =>
        simp [hexecution, hcontent, hasValue, hnull, bind, Except.bind]
      | false =>
        simp [hexecution, hcontent, hasValue, hnull, isKnownKey, bind, Except.bind, ih]
    · by_cases hexecution : e.1 ∈ policyExecutionKeys
      · simp [hcontent, hexecution, hasValue, isKnownKey, bind, Except.bind, ih]
      · simp [hcontent, hexecution, hasValue, isKnownKey, bind, Except.bind, ih]

/-- What is kept of a body. -/
def keptContent (body : Json) : Json := .obj (body.entries.filter (contentKeys.contains ·.1))

/-- A body is extracted when it is a mapping of known keys, has some content, and every content key
has a value. -/
structure Extractable (body : Json) : Prop where
  mapping : body.isObject = true
  keys : ∀ e ∈ body.entries, isKnownKey e.1 = true
  values : ∀ e ∈ body.entries, hasValue e = true
  content : ∃ e ∈ body.entries, e.1 ∈ contentKeys

theorem extractCandidateContent_eq_ok {yaml : Yaml} {text : String} {document content : Json}
    (hparse : yaml.parse text = some document) :
    extractCandidateContent yaml text = .ok content ↔
      ∃ body, candidateContentBody document = .ok body ∧ Extractable body ∧
        content = keptContent body := by
  rw [extractCandidateContent, hparse]
  constructor
  · intro h
    obtain ⟨document', hdocument, h⟩ := bind_eq_ok.1 h
    obtain ⟨body, hbody, h⟩ := bind_eq_ok.1 h
    rw [← Except.ok.inj hdocument] at hbody
    obtain ⟨hobject, h⟩ := check_bind_eq_ok.1 h
    obtain ⟨scan, hscan, h⟩ := bind_eq_ok.1 h
    obtain ⟨hvalues, hcontent, hkeys⟩ := foldlM_scanEntry_eq_ok.1 hscan
    obtain ⟨hknown, h⟩ := check_bind_eq_ok.1 h
    obtain ⟨hsome, h⟩ := check_bind_eq_ok.1 h
    rw [rejectIf_eq_ok, Bool.not_eq_false', hkeys, List.nil_append, List.isEmpty_iff,
      List.map_eq_nil_iff, List.filter_eq_nil_iff] at hknown
    rw [rejectIf_eq_ok, hcontent, List.nil_append, ← Bool.not_eq_true, List.isEmpty_iff,
      List.filter_eq_nil_iff] at hsome
    refine ⟨body, hbody, ⟨by simpa using hobject, ?_, hvalues, by simpa using hsome⟩, ?_⟩
    · intro e he
      by_contra hunknown
      exact hknown e he (by simpa using hunknown)
    · rw [← Except.ok.inj h, hcontent, List.nil_append, keptContent]
  · rintro ⟨body, hbody, h, rfl⟩
    refine bind_eq_ok.2 ⟨document, rfl, bind_eq_ok.2 ⟨body, hbody, check_bind_eq_ok.2
      ⟨rejectIf_eq_ok.2 (by simp [h.mapping]), bind_eq_ok.2
        ⟨⟨body.entries.filter (contentKeys.contains ·.1),
            (body.entries.filter (!isKnownKey ·.1)).map (·.1)⟩,
          foldlM_scanEntry_eq_ok.2 ⟨h.values, rfl, rfl⟩, check_bind_eq_ok.2 ⟨rejectIf_eq_ok.2 ?_,
          check_bind_eq_ok.2 ⟨rejectIf_eq_ok.2 ?_, rfl⟩⟩⟩⟩⟩⟩
    · rw [Bool.not_eq_false', List.isEmpty_iff, List.map_eq_nil_iff, List.filter_eq_nil_iff]
      intro e he
      simp [h.keys e he]
    · obtain ⟨e, he, hkey⟩ := h.content
      rw [← Bool.not_eq_true, List.isEmpty_iff, List.filter_eq_nil_iff]
      intro hnone
      exact hnone e he (List.contains_iff_mem.2 hkey)

theorem lookup_filter_key {fields : List (String × Json)} {keep : String → Bool} (key : String) :
    (fields.filter (keep ·.1)).lookup key = if keep key then fields.lookup key else none := by
  induction fields with
  | nil => simp
  | cons e fields ih =>
    obtain ⟨name, v⟩ := e
    rw [List.filter_cons, List.lookup_cons]
    by_cases hkey : key = name
    · subst hkey
      cases hkeep : keep key with
      | true => simp
      | false => simp [ih, hkeep]
    · cases hkeep : keep name with
      | true => simp [ih, List.lookup_cons, beq_false_of_ne hkey]
      | false => simp [ih, beq_false_of_ne hkey]

/-- Content keys are kept as they are, and nothing else is. -/
theorem keptContent_field? {body : Json} (hbody : body.isObject = true) (key : String) :
    (keptContent body).field? key = if contentKeys.contains key then body.field? key else none := by
  cases body with
  | obj fields => exact lookup_filter_key key
  | _ => cases hbody

end Extraction

/-! ## Roles as both types read them -/

/-- A password that the manifest types can read: none, or the name of a variable. -/
def readsPassword (role : Json) : Bool :=
  match role.field? "password" with
  | none | some .null => true
  | some password => (decodePasswordSource password).isSome

section Roles

theorem readsPassword_iff {role : Json} :
    readsPassword role = true ↔
      ∃ p, readOptional decodePasswordSource (role.field? "password") = some p := by
  rw [readsPassword]
  cases role.field? "password" with
  | none => simp [readOptional]
  | some password =>
    cases password with
    | null => simp [readOptional]
    | _ => simp [readOptional, Option.isSome_iff_exists]

/-- A role that the manifest types read has a password that they read. -/
theorem readsPassword_of_decode {v : Json} {d : RoleDefinition}
    (h : decodeRoleDefinition v = some d) : readsPassword v = true := by
  unfold decodeRoleDefinition at h
  -- Twelve fields are read before the password.
  iterate 12 obtain ⟨_, -, h⟩ := Option.bind_eq_some_iff.1 h
  obtain ⟨password, hpassword, -⟩ := Option.bind_eq_some_iff.1 h
  exact readsPassword_iff.2 ⟨password, hpassword⟩

/-- The two types of roles differ in the password. -/
theorem decodeRoleDefinition_of_roleSpec {v : Json} {role : RoleSpec}
    (h : decodeRoleSpec v = some role) :
    readOptional decodePasswordSpec (v.field? "password") = some role.password ∧
      decodeRoleDefinition v = (readOptional decodePasswordSource (v.field? "password")).map
        fun password => { role.toDefinition with password } := by
  unfold decodeRoleSpec at h
  obtain ⟨name, hname, h⟩ := Option.bind_eq_some_iff.1 h
  obtain ⟨external, hexternal, h⟩ := Option.bind_eq_some_iff.1 h
  obtain ⟨preserve, hpreserve, h⟩ := Option.bind_eq_some_iff.1 h
  obtain ⟨login, hlogin, h⟩ := Option.bind_eq_some_iff.1 h
  obtain ⟨superuser, hsuperuser, h⟩ := Option.bind_eq_some_iff.1 h
  obtain ⟨createdb, hcreatedb, h⟩ := Option.bind_eq_some_iff.1 h
  obtain ⟨createrole, hcreaterole, h⟩ := Option.bind_eq_some_iff.1 h
  obtain ⟨inherit, hinherit, h⟩ := Option.bind_eq_some_iff.1 h
  obtain ⟨replication, hreplication, h⟩ := Option.bind_eq_some_iff.1 h
  obtain ⟨bypassrls, hbypassrls, h⟩ := Option.bind_eq_some_iff.1 h
  obtain ⟨connectionLimit, hconnectionLimit, h⟩ := Option.bind_eq_some_iff.1 h
  obtain ⟨comment, hcomment, h⟩ := Option.bind_eq_some_iff.1 h
  obtain ⟨password, hpassword, h⟩ := Option.bind_eq_some_iff.1 h
  obtain ⟨validUntil, hvalidUntil, h⟩ := Option.bind_eq_some_iff.1 h
  obtain ⟨config, hconfig, h⟩ := Option.bind_eq_some_iff.1 h
  cases h
  refine ⟨hpassword, ?_⟩
  simp only [decodeRoleDefinition, Option.bind_eq_bind, hname, hexternal, hpreserve, hlogin,
    hsuperuser, hcreatedb, hcreaterole, hinherit, hreplication, hbypassrls, hconnectionLimit,
    hcomment, hvalidUntil, hconfig, Option.bind_some]
  cases readOptional decodePasswordSource (v.field? "password") with
  | none => rfl
  | some password => rfl

/-- The definition of a role as a manifest reads it, beside the role of a resource. -/
structure SameButPassword (role : RoleSpec) (d : RoleDefinition) : Prop where
  definition : d.withoutPassword = role.toDefinition
  password : d.password.isSome → role.password.isSome

theorem decodeRoleDefinition_isSome_iff {v : Json} {role : RoleSpec}
    (h : decodeRoleSpec v = some role) :
    (∃ d, decodeRoleDefinition v = some d) ↔ readsPassword v = true := by
  rw [readsPassword_iff, (decodeRoleDefinition_of_roleSpec h).2]
  cases readOptional decodePasswordSource (v.field? "password") with
  | none => simp
  | some password => simp

theorem sameButPassword_of_decode {v : Json} {role : RoleSpec} {d : RoleDefinition}
    (h : decodeRoleSpec v = some role) (hd : decodeRoleDefinition v = some d) :
    SameButPassword role d := by
  obtain ⟨hpassword, hdefinition⟩ := decodeRoleDefinition_of_roleSpec h
  rw [hd] at hdefinition
  obtain ⟨password, hread, rfl⟩ := Option.map_eq_some_iff.1 hdefinition.symm
  refine ⟨rfl, fun hsome => ?_⟩
  -- A password that one type reads is neither absent nor null, so the other type reads one too.
  cases hfield : v.field? "password" with
  | none =>
    rw [hfield] at hread
    cases hread
    cases hsome
  | some value =>
    rw [hfield] at hread hpassword
    by_cases hnull : value = .null
    · rw [hnull] at hread
      cases hread
      cases hsome
    · rw [readOptional_of_ne_null hnull] at hpassword
      obtain ⟨spec, -, hspec⟩ := Option.map_eq_some_iff.1 hpassword
      rw [← hspec]
      rfl

/-- The roles of a resource are read as manifest roles when every password is. -/
theorem decodeRoleDefinitions_isSome_iff {items : List Json} {roles : List RoleSpec}
    (h : items.mapM decodeRoleSpec = some roles) :
    (∃ ds, items.mapM decodeRoleDefinition = some ds) ↔
      ∀ v ∈ items, readsPassword v = true := by
  induction items generalizing roles with
  | nil => simp
  | cons v items ih =>
    rw [List.mapM_cons] at h
    obtain ⟨role, hrole, h⟩ := Option.bind_eq_some_iff.1 h
    obtain ⟨roles, hroles, -⟩ := Option.bind_eq_some_iff.1 h
    rw [List.mapM_cons, List.forall_mem_cons, ← ih hroles,
      ← decodeRoleDefinition_isSome_iff hrole]
    cases decodeRoleDefinition v with
    | none => simp
    | some d =>
      cases items.mapM decodeRoleDefinition with
      | none => simp
      | some ds => simp

theorem sameButPassword_of_decodeList {items : List Json} {roles : List RoleSpec}
    {ds : List RoleDefinition} (h : items.mapM decodeRoleSpec = some roles)
    (hds : items.mapM decodeRoleDefinition = some ds) :
    List.Forall₂ SameButPassword roles ds := by
  induction items generalizing roles ds with
  | nil =>
    cases h
    cases hds
    exact .nil
  | cons v items ih =>
    rw [List.mapM_cons] at h hds
    obtain ⟨role, hrole, h⟩ := Option.bind_eq_some_iff.1 h
    obtain ⟨roles, hroles, h⟩ := Option.bind_eq_some_iff.1 h
    obtain ⟨d, hd, hds⟩ := Option.bind_eq_some_iff.1 hds
    obtain ⟨ds, htail, hds⟩ := Option.bind_eq_some_iff.1 hds
    cases h
    cases hds
    exact .cons (sameButPassword_of_decode hrole hd) (ih hroles htail)

/-- Definitions with passwords are the resource's definitions once the passwords are gone. -/
theorem map_withoutPassword_eq {roles : List RoleSpec} {ds : List RoleDefinition}
    (h : List.Forall₂ SameButPassword roles ds) :
    ds.map RoleDefinition.withoutPassword = roles.map RoleSpec.toDefinition := by
  induction h with
  | nil => rfl
  | cons hrole _ ih => rw [List.map_cons, List.map_cons, hrole.definition, ih]

/-- A password that a policy may have belongs to a role that logs in. -/
theorem login_of_validated {policyName : String} {roles : List RoleSpec}
    {ds : List RoleDefinition} (h : List.Forall₂ SameButPassword roles ds)
    (hvalid : ∀ role ∈ roles, validatePasswordSpec policyName role = .ok ()) :
    ∀ d ∈ ds, d.password.isSome → d.login = some true := by
  induction h with
  | nil => simp
  | @cons role d roles ds hrole _ ih =>
    rw [List.forall_mem_cons] at hvalid ⊢
    refine ⟨fun hsome => ?_, ih hvalid.2⟩
    have hlogin : d.login = role.login := congrArg RoleDefinition.login hrole.definition
    have hcheck := hvalid.1
    obtain ⟨password, hpassword⟩ := Option.isSome_iff_exists.1 (hrole.password hsome)
    rw [validatePasswordSpec, hpassword] at hcheck
    obtain ⟨hcheck, -⟩ := check_bind_eq_ok.1 hcheck
    rw [rejectIf_eq_ok] at hcheck
    rw [hlogin]
    simpa using hcheck

end Roles

/-! ## The content as both sides read it -/

/-- The roles that a body lists. -/
def listedRoles (body : Json) : List Json := ((body.field? "roles").map Json.items).getD []

section Reading

theorem readDefaulted_decodeList {T : Type} {decode : Json → Option T} {v : Option Json}
    {l : List T} (h : readDefaulted (decodeList decode) [] v = some l) :
    ((v.map Json.items).getD []).mapM decode = some l ∧
      ∀ w, v = some w → ∃ items, w = .arr items := by
  cases v with
  | none =>
    cases h
    exact ⟨rfl, nofun⟩
  | some w =>
    cases w with
    | arr items => exact ⟨h, fun w hw => ⟨items, (Option.some.inj hw).symm⟩⟩
    | _ => cases h

theorem decodeList_eq_mapM {T : Type} {decode : Json → Option T} {v : Option Json}
    (h : ∀ w, v = some w → ∃ items, w = .arr items) :
    readDefaulted (decodeList decode) [] v = ((v.map Json.items).getD []).mapM decode := by
  cases v with
  | none => rfl
  | some w =>
    obtain ⟨items, rfl⟩ := h w rfl
    rfl

variable {body : Json} {content : PolicyContent}

/-- The operator reads the kept content as it reads the body. -/
theorem decodePolicyContent_kept (hbody : body.isObject = true) :
    decodePolicyContent (keptContent body) = decodePolicyContent body := by
  simp only [decodePolicyContent, keptContent_field? hbody, hbody]
  rfl

/-- The manifest of the kept content is the content's own, with the roles that the manifest types
read. -/
theorem decodePolicyManifest_kept (hcontent : decodePolicyContent body = some content) :
    (listedRoles body).mapM decodeRoleSpec = some content.roles ∧
      decodePolicyManifest (keptContent body) =
        ((listedRoles body).mapM decodeRoleDefinition).map fun roles =>
          { content.toPolicyManifest with roles } := by
  unfold decodePolicyContent at hcontent
  obtain ⟨_, hobject, h⟩ := Option.bind_eq_some_iff.1 hcontent
  obtain ⟨mode, -, h⟩ := Option.bind_eq_some_iff.1 h
  obtain ⟨owner, howner, h⟩ := Option.bind_eq_some_iff.1 h
  obtain ⟨pattern, hpattern, h⟩ := Option.bind_eq_some_iff.1 h
  obtain ⟨profiles, hprofiles, h⟩ := Option.bind_eq_some_iff.1 h
  obtain ⟨schemas, hschemas, h⟩ := Option.bind_eq_some_iff.1 h
  obtain ⟨roles, hroles, h⟩ := Option.bind_eq_some_iff.1 h
  obtain ⟨grants, hgrants, h⟩ := Option.bind_eq_some_iff.1 h
  obtain ⟨defaults, hdefaults, h⟩ := Option.bind_eq_some_iff.1 h
  obtain ⟨memberships, hmemberships, h⟩ := Option.bind_eq_some_iff.1 h
  obtain ⟨retirements, hretirements, h⟩ := Option.bind_eq_some_iff.1 h
  cases h
  have hbody : body.isObject = true := by
    by_contra hnot
    simp [guard, hnot] at hobject
  obtain ⟨hlisted, harr⟩ := readDefaulted_decodeList hroles
  refine ⟨hlisted, ?_⟩
  have hkeep : ∀ key ∈ contentKeys, (keptContent body).field? key = body.field? key := by
    intro key hkey
    rw [keptContent_field? hbody, if_pos (List.contains_iff_mem.2 hkey)]
  have hproviders : (keptContent body).field? "auth_providers" = none := by
    rw [keptContent_field? hbody]
    rfl
  have hkept : (keptContent body).isObject = true := rfl
  simp only [decodePolicyManifest, hkept, hproviders, hkeep "role_pattern" (by decide),
    hkeep "default_owner" (by decide), hkeep "profiles" (by decide), hkeep "schemas" (by decide),
    hkeep "roles" (by decide), hkeep "grants" (by decide), hkeep "default_privileges" (by decide),
    hkeep "memberships" (by decide), hkeep "retirements" (by decide), howner, hpattern, hprofiles,
    hschemas, hgrants, hdefaults, hmemberships, hretirements, decodeList_eq_mapM harr]
  unfold listedRoles
  cases ((body.field? "roles").map Json.items |>.getD []).mapM decodeRoleDefinition with
  | none => rfl
  | some ds => rfl

theorem readsPassword_of_manifest (hbody : body.isObject = true) {m : PolicyManifest}
    (h : decodePolicyManifest (keptContent body) = some m) :
    ∀ role ∈ listedRoles body, readsPassword role = true := by
  unfold decodePolicyManifest at h
  -- Six fields are read before the roles.
  iterate 6 obtain ⟨_, -, h⟩ := Option.bind_eq_some_iff.1 h
  obtain ⟨roles, hroles, -⟩ := Option.bind_eq_some_iff.1 h
  have hkeep : (keptContent body).field? "roles" = body.field? "roles" := by
    rw [keptContent_field? hbody]
    rfl
  rw [hkeep] at hroles
  obtain ⟨hlisted, -⟩ := readDefaulted_decodeList hroles
  intro role hrole
  obtain ⟨d, hd⟩ := exists_decode_of_mem hlisted hrole
  exact readsPassword_of_decode hd

end Reading

/-! ## Filing a policy -/

/-- A policy document that the operator accepts and that declares some content. -/
structure AcceptedPolicy (document spec : Json) (policyName : String)
    (policy : PostgresPolicySpec) : Prop where
  apiVersion : ∃ v, document.field? "apiVersion" = some v
  kind : document.field? "kind" = some (.str "PostgresPolicy")
  spec_eq : document.field? "spec" = some spec
  decodes : decodePostgresPolicySpec spec = some policy
  declares : ∃ key ∈ contentKeys, ∃ v, spec.field? key = some v
  passwords : policy.validatePasswordSpecs policyName = .ok ()
  expands : ∃ e, expandManifest policy.toPolicyManifest = .ok e

/-- The policy is filed, and what is filed has the policy's own content digest. -/
def Preserved (yaml : Yaml) (sha256 : ByteArray → String) (text : String)
    (policy : PostgresPolicySpec) : Prop :=
  ∃ content, filedContent yaml text = some content ∧
    ∃ filed, decodePolicyContent content = some filed ∧
      filed.contentDigest sha256 = policy.content.contentDigest sha256

/-- The spec has known keys only, every content key has a value, and the manifest types can read
every password. -/
structure CliReads (spec : Json) : Prop where
  keys : ∀ e ∈ spec.entries, isKnownKey e.1 = true
  values : ∀ e ∈ spec.entries, hasValue e = true
  passwords : ∀ role ∈ listedRoles spec, readsPassword role = true

section Filing

variable {yaml : Yaml} {text : String} {document spec body content : Json} {policyName : String}
  {policy : PostgresPolicySpec}

theorem isObject_of_field? {v w : Json} {key : String} (h : v.field? key = some w) :
    v.isObject = true := by
  cases v with
  | obj fields => rfl
  | _ => cases h

theorem AcceptedPolicy.body_eq (h : AcceptedPolicy document spec policyName policy) :
    candidateContentBody document = .ok spec := by
  obtain ⟨version, hversion⟩ := h.apiVersion
  rw [candidateContentBody, if_pos (isObject_of_field? hversion), hversion, h.spec_eq, h.kind]
  rfl

theorem AcceptedPolicy.content_eq (h : AcceptedPolicy document spec policyName policy) :
    decodePolicyContent spec = some policy.content := by
  have hdecodes := h.decodes
  unfold decodePostgresPolicySpec at hdecodes
  obtain ⟨connection, -, hdecodes⟩ := Option.bind_eq_some_iff.1 hdecodes
  obtain ⟨interval, -, hdecodes⟩ := Option.bind_eq_some_iff.1 hdecodes
  obtain ⟨suspend, -, hdecodes⟩ := Option.bind_eq_some_iff.1 hdecodes
  obtain ⟨mode, -, hdecodes⟩ := Option.bind_eq_some_iff.1 hdecodes
  obtain ⟨transfers, -, hdecodes⟩ := Option.bind_eq_some_iff.1 hdecodes
  obtain ⟨approval, -, hdecodes⟩ := Option.bind_eq_some_iff.1 hdecodes
  obtain ⟨content, hcontent, hdecodes⟩ := Option.bind_eq_some_iff.1 hdecodes
  cases hdecodes
  exact hcontent

/-- The body of a document without repeated keys has none either. -/
theorem distinctKeys_candidateContentBody (hbody : candidateContentBody document = .ok body)
    (h : document.distinctKeys = true) : body.distinctKeys = true := by
  rw [candidateContentBody] at hbody
  split at hbody
  · split at hbody
    · rename_i version spec hversion hspec
      have hdistinct := Json.distinctKeys_of_field? h hspec
      split at hbody
      · split at hbody
        · rename_i content hcontent
          cases hbody
          exact Json.distinctKeys_of_field? hdistinct hcontent
        · cases hbody
      · cases hbody
        exact hdistinct
    · cases hbody
      exact h
  · cases hbody

theorem distinctKeys_keptContent (h : body.distinctKeys = true) :
    (keptContent body).distinctKeys = true := by
  cases body with
  | obj fields => exact Json.distinctKeys_sublist h List.filter_sublist
  | _ => rfl

/-- What is assumed besides: the parser refuses mappings that repeat a key. -/
structure Yaml.MapLaws (yaml : Yaml) : Prop extends yaml.Laws where
  parse_distinct : ∀ text v, yaml.parse text = some v → v.distinctKeys = true

/-- The printed content is validated as the manifest that its value holds. -/
theorem validateManifest_print (laws : yaml.Laws) (hdistinct : body.distinctKeys = true)
    (hbody : body.isObject = true) :
    (∃ g, validateManifest yaml (yaml.print (keptContent body)) = some g) ↔
      ∃ m, decodePolicyManifest (keptContent body) = some m ∧ ∃ e, expandManifest m = .ok e := by
  have hbare : manifestOfDocument (keptContent body) = decodePolicyManifest (keptContent body) := by
    have hversion : (keptContent body).field? "apiVersion" = none := by
      rw [keptContent_field? hbody]
      rfl
    rw [manifestOfDocument, hversion]
  rw [validateManifest, parseManifest, laws.parse_print _ (distinctKeys_keptContent hdistinct),
    Option.bind_some, hbare]
  cases decodePolicyManifest (keptContent body) with
  | none => simp
  | some m =>
    cases hexpand : expandManifest m with
    | error e => simp [Except.toOption, hexpand]
    | ok e =>
      obtain ⟨g, hg⟩ := fromExpanded_isOk hexpand m.defaultOwner
      simp [Except.toOption, hexpand, hg]

/-- What is filed of a text. -/
theorem filedContent_eq_some (laws : yaml.MapLaws) (hparse : yaml.parse text = some document) :
    filedContent yaml text = some content ↔
      ∃ body, candidateContentBody document = .ok body ∧ Extractable body ∧
        content = keptContent body ∧
        ∃ m, decodePolicyManifest (keptContent body) = some m ∧ ∃ e, expandManifest m = .ok e := by
  have hdistinct : ∀ {body}, candidateContentBody document = .ok body → body.distinctKeys = true :=
    fun hbody => distinctKeys_candidateContentBody hbody (laws.parse_distinct text document hparse)
  rw [filedContent]
  constructor
  · intro h
    cases hextracted : extractCandidateContent yaml text with
    | error e =>
      rw [hextracted] at h
      cases h
    | ok extracted =>
      rw [hextracted] at h
      obtain ⟨_, hsome, h⟩ := Option.bind_eq_some_iff.1 h
      cases hsome
      obtain ⟨g, hvalid, h⟩ := Option.bind_eq_some_iff.1 h
      cases h
      obtain ⟨body, hbody, hextractable, rfl⟩ :=
        (extractCandidateContent_eq_ok hparse).1 hextracted
      exact ⟨body, hbody, hextractable, rfl,
        (validateManifest_print laws.toLaws (hdistinct hbody) hextractable.mapping).1 ⟨g, hvalid⟩⟩
  · intro h
    obtain ⟨body, hbody, hextractable, rfl, hvalid⟩ := h
    obtain ⟨g, hg⟩ :=
      (validateManifest_print laws.toLaws (hdistinct hbody) hextractable.mapping).2 hvalid
    have hextracted := (extractCandidateContent_eq_ok hparse).2 ⟨body, hbody, hextractable, rfl⟩
    rw [hextracted]
    exact Option.bind_eq_some_iff.2 ⟨keptContent body, rfl, Option.bind_eq_some_iff.2 ⟨g, hg, rfl⟩⟩

/-- A policy that is accepted by the operator is filed with its digest exactly when the command
line can read it. -/
theorem preserved_iff (laws : yaml.MapLaws) (hparse : yaml.parse text = some document)
    (h : AcceptedPolicy document spec policyName policy) (sha256 : ByteArray → String) :
    Preserved yaml sha256 text policy ↔ CliReads spec := by
  obtain ⟨hroles, hmanifest⟩ := decodePolicyManifest_kept h.content_eq
  constructor
  · rintro ⟨content, hfiled, -⟩
    obtain ⟨body, hbody, hextractable, -, m, hm, -⟩ := (filedContent_eq_some laws hparse).1 hfiled
    rw [h.body_eq] at hbody
    cases hbody
    rw [hmanifest] at hm
    obtain ⟨ds, hds, -⟩ := Option.map_eq_some_iff.1 hm
    exact ⟨hextractable.keys, hextractable.values,
      (decodeRoleDefinitions_isSome_iff hroles).1 ⟨ds, hds⟩⟩
  · intro hreads
    obtain ⟨key, hkey, v, hv⟩ := h.declares
    have hextractable : Extractable spec := ⟨isObject_of_field? hv, hreads.keys, hreads.values,
      (key, v), Json.mem_entries_of_field? hv, hkey⟩
    obtain ⟨ds, hds⟩ := (decodeRoleDefinitions_isSome_iff hroles).2 hreads.passwords
    have hsame := sameButPassword_of_decodeList hroles hds
    -- Without the passwords the manifest is the one that the operator expands.
    have herased : { policy.content.toPolicyManifest with roles := ds }.withoutPasswords =
        policy.toPolicyManifest :=
      congrArg (fun roles => { policy.content.toPolicyManifest with roles })
        (map_withoutPassword_eq hsame)
    obtain ⟨e, he⟩ := h.expands
    rw [← herased] at he
    have hvalid := expandManifest_withPasswords
      (login_of_validated hsame (forM_eq_ok.1 h.passwords)) he
    refine ⟨keptContent spec, (filedContent_eq_some laws hparse).2 ⟨spec, h.body_eq, hextractable,
      rfl, _, ?_, hvalid⟩, policy.content, ?_, rfl⟩
    · rw [hmanifest, hds, Option.map_some]
    · rw [decodePolicyContent_kept hextractable.mapping, h.content_eq]

end Filing

end PgRoles.Cli

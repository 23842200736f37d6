import PgRoles.Cli.CandidateContent

/-!
# What a schema prunes of a candidate

The content that is sent for a file is checked by its top-level keys only; below them a schema keeps
the fields that the content's types declare. What is sent stays whole exactly for the files that
`ReadInFull` describes: the manifest types, which validate the file, read every nested field of it
under the name that the content's types have for the field, and no role has a password, since the
one kind of password that the manifest types read is none that the content's types have.
-/

set_option autoImplicit false

namespace PgRoles.Cli

open Std PgRoles.Core PgRoles.Lib PgRoles.Operator

/-! ## Files that are read in full -/

/-- The items that are listed under a key. -/
def listedUnder (v : Json) (key : String) : List Json := ((v.field? key).map Json.items).getD []

/-- The grants of the profiles. -/
def listedProfileGrants (body : Json) : List Json :=
  (((body.field? "profiles").map Json.entries).getD []).flatMap fun profile =>
    listedUnder profile.2 "grants"

/-- The role has no password. -/
def NoPassword (role : Json) : Prop :=
  ∀ password, role.field? "password" = some password → password = .null

/-- The manifest types read every nested field of the file, no grant has its target under the alias,
and no role has a password. -/
structure ReadInFull (body : Json) : Prop where
  known : (keptContent body).declaredBy manifestShape = true
  grants : ∀ grant ∈ listedUnder body "grants", grant.field? "on" = none
  profileGrants : ∀ grant ∈ listedProfileGrants body, grant.field? "on" = none
  passwords : ∀ role ∈ listedRoles body, NoPassword role

section Shapes

variable {v : Json}

theorem mem_listedUnder {key : String} (hdistinct : v.distinctKeys = true) {e : String × Json}
    (he : e ∈ v.entries) (hkey : e.1 = key) {item : Json} (hitem : item ∈ e.2.items) :
    item ∈ listedUnder v key := by
  rw [listedUnder, ← hkey, Json.field?_of_mem_entries hdistinct he]
  exact hitem

theorem exists_field_of_mem_listedUnder {key : String} {item : Json}
    (h : item ∈ listedUnder v key) : ∃ list, v.field? key = some list ∧ item ∈ list.items := by
  rw [listedUnder] at h
  cases hfield : v.field? key with
  | none =>
    rw [hfield] at h
    cases h
  | some list =>
    rw [hfield] at h
    exact ⟨list, rfl, h⟩

theorem fst_ne_of_field?_none {key : String} (hdistinct : v.distinctKeys = true)
    (h : v.field? key = none) : ∀ e ∈ v.entries, e.1 ≠ key := by
  intro e he hkey
  have hfield := Json.field?_of_mem_entries hdistinct he
  rw [hkey, h] at hfield
  cases hfield

/-- A grant without the alias is declared by both types alike. -/
theorem declaredBy_grantShape (hdistinct : v.distinctKeys = true) (h : v.field? "on" = none) :
    v.declaredBy (grantShape ["object"]) = v.declaredBy (grantShape ["object", "on"]) :=
  (Json.declaredBy_record_insert [("privileges", .list .leaf),
    ("object", .record (leaves ["type", "schema", "name"]))] (leaves ["role", "ensure"]) _
    (fst_ne_of_field?_none hdistinct h)).symm

theorem declaredBy_profileGrantShape (hdistinct : v.distinctKeys = true)
    (h : v.field? "on" = none) :
    v.declaredBy (profileGrantShape ["object"]) =
      v.declaredBy (profileGrantShape ["object", "on"]) :=
  (Json.declaredBy_record_insert [("privileges", .list .leaf),
    ("object", .record (leaves ["type", "name"]))] (leaves ["ensure"]) _
    (fst_ne_of_field?_none hdistinct h)).symm

/-- A profile whose grants do without the alias is declared by both types alike. -/
theorem declaredBy_profileShape (hdistinct : v.distinctKeys = true)
    (h : ∀ grant ∈ listedUnder v "grants", grant.field? "on" = none) :
    v.declaredBy (profileShape ["object"]) = v.declaredBy (profileShape ["object", "on"]) := by
  refine Json.declaredBy_record_change [] _ fun e he hkey => Json.declaredBy_list_congr ?_
  intro grant hgrant
  exact declaredBy_profileGrantShape (Json.distinctKeys_of_mem_items
    (Json.distinctKeys_of_mem_entries hdistinct he) hgrant)
    (h grant (mem_listedUnder hdistinct he hkey hgrant))

/-- A role without password is declared alike whatever a password is. -/
theorem declaredBy_roleShape (hdistinct : v.distinctKeys = true) (h : NoPassword v)
    (password password' : Shape) :
    v.declaredBy (roleShape password) = v.declaredBy (roleShape password') := by
  refine Json.declaredBy_record_change [] _ fun e he hkey => ?_
  rw [h e.2 (hkey ▸ Json.field?_of_mem_entries hdistinct he)]
  rfl

/-- Without aliases and passwords the two types declare a content alike. -/
theorem declaredBy_contentShape_eq (hdistinct : v.distinctKeys = true)
    (hgrants : ∀ grant ∈ listedUnder v "grants", grant.field? "on" = none)
    (hprofileGrants : ∀ grant ∈ listedProfileGrants v, grant.field? "on" = none)
    (hroles : ∀ role ∈ listedUnder v "roles", NoPassword role) :
    v.declaredBy contentShape = v.declaredBy manifestShape := by
  have hvalue : ∀ e ∈ v.entries, e.2.distinctKeys = true := fun e he =>
    Json.distinctKeys_of_mem_entries hdistinct he
  unfold contentShape manifestShape policyShape
  refine (Json.declaredBy_record_change [] _ fun e he hkey => ?_).trans
    ((Json.declaredBy_record_change [_] _ fun e he hkey => ?_).trans
      (Json.declaredBy_record_change [_, _] _ fun e he hkey => ?_))
  · refine Json.declaredBy_map_congr fun profile hprofile => ?_
    refine declaredBy_profileShape (Json.distinctKeys_of_mem_entries (hvalue e he) hprofile) ?_
    intro grant hgrant
    refine hprofileGrants grant (List.mem_flatMap.2 ⟨profile, ?_, hgrant⟩)
    rw [← hkey, Json.field?_of_mem_entries hdistinct he]
    exact hprofile
  · refine Json.declaredBy_list_congr fun role hrole => ?_
    exact declaredBy_roleShape (Json.distinctKeys_of_mem_items (hvalue e he) hrole)
      (hroles role (mem_listedUnder hdistinct he hkey hrole)) _ _
  · refine Json.declaredBy_list_congr fun grant hgrant => ?_
    exact declaredBy_grantShape (Json.distinctKeys_of_mem_items (hvalue e he) hgrant)
      (hgrants grant (mem_listedUnder hdistinct he hkey hgrant))

/-- A declared value has no field that its shape does not have. -/
theorem field?_eq_none_of_declaredBy {shape : Shape} {name : String}
    (hshape : shape.field? name = none) (h : v.declaredBy shape = true) :
    v.field? name = none := by
  by_contra hsome
  obtain ⟨w, hw⟩ := Option.ne_none_iff_exists'.1 hsome
  obtain ⟨declared, hdeclared, -⟩ := Json.field_declaredBy hw h
  rw [hshape] at hdeclared
  cases hdeclared

end Shapes

/-! ## What is pruned -/

section Filing

variable {yaml : Yaml} {text : String} {document body : Json}

/-- A password that the manifest types read holds a field that the content's types do not have. -/
theorem noPassword_of_declaredBy {role : Json} {password : Shape}
    (hfield : password.field? "from_env" = none)
    (hreads : readsPassword role = true) (h : role.declaredBy (roleShape password) = true) :
    NoPassword role := by
  intro value hvalue
  by_contra hnull
  rw [readsPassword_iff, hvalue, readOptional_of_ne_null hnull] at hreads
  obtain ⟨source, hsource⟩ := hreads
  obtain ⟨source, hsource, -⟩ := Option.map_eq_some_iff.1 hsource
  obtain ⟨variableName, hvariable, -⟩ := Option.bind_eq_some_iff.1 hsource
  obtain ⟨name, hname, -⟩ := Option.bind_eq_some_iff.1 hvariable
  obtain ⟨declared, hshape, hvalueDeclared⟩ := Json.field_declaredBy hvalue h
  cases hshape
  rw [field?_eq_none_of_declaredBy hfield hvalueDeclared] at hname
  cases hname

/-- What is under a key of a declared content is declared. -/
theorem listedUnder_declaredBy {shape item : Shape} {v w : Json} {key : String}
    (h : v.declaredBy shape = true) (hkey : shape.field? key = some (.list item))
    (hw : w ∈ listedUnder v key) : w.declaredBy item = true := by
  obtain ⟨list, hfield, hitem⟩ := exists_field_of_mem_listedUnder hw
  obtain ⟨declared, hshape, hlist⟩ := Json.field_declaredBy hfield h
  rw [hkey] at hshape
  cases hshape
  exact Json.item_declaredBy hitem hlist

/-- The grants of the profiles of a declared content do without the alias. -/
theorem profileGrants_noAlias (h : body.declaredBy contentShape = true) :
    ∀ grant ∈ listedProfileGrants body, grant.field? "on" = none := by
  intro grant hgrant
  obtain ⟨profile, hprofile, hgrant⟩ := List.mem_flatMap.1 hgrant
  cases hprofiles : body.field? "profiles" with
  | none =>
    rw [hprofiles] at hprofile
    cases hprofile
  | some profiles =>
    rw [hprofiles] at hprofile
    obtain ⟨declared, hshape, hmap⟩ := Json.field_declaredBy hprofiles h
    cases hshape
    have hentry : profile.2.declaredBy (profileShape ["object"]) = true := by
      cases profiles with
      | obj fields =>
        obtain ⟨declared, hshape, hprofileDeclared⟩ := Json.declaredBy_obj.1 hmap profile hprofile
        cases hshape
        exact hprofileDeclared
      | _ => cases hprofile
    exact field?_eq_none_of_declaredBy rfl (listedUnder_declaredBy hentry rfl hgrant)

/-- Of a content whose passwords the manifest types read, a schema prunes nothing exactly when the
file is read in full. -/
theorem declaredBy_contentShape_iff (hdistinct : body.distinctKeys = true)
    (hbody : body.isObject = true)
    (hreads : ∀ role ∈ listedRoles body, readsPassword role = true) :
    (keptContent body).declaredBy contentShape = true ↔ ReadInFull body := by
  have hkept := distinctKeys_keptContent hdistinct
  have hfield : ∀ key ∈ contentKeys, (keptContent body).field? key = body.field? key := by
    intro key hkey
    rw [keptContent_field? hbody, if_pos (List.contains_iff_mem.2 hkey)]
  have hgrants : listedUnder (keptContent body) "grants" = listedUnder body "grants" := by
    rw [listedUnder, hfield "grants" (by decide), listedUnder]
  have hroles : listedUnder (keptContent body) "roles" = listedRoles body := by
    rw [listedUnder, hfield "roles" (by decide), listedRoles]
  have hprofileGrants : listedProfileGrants (keptContent body) = listedProfileGrants body := by
    rw [listedProfileGrants, hfield "profiles" (by decide), listedProfileGrants]
  have hsame := declaredBy_contentShape_eq hkept
  rw [hgrants, hroles, hprofileGrants] at hsame
  constructor
  · intro h
    have hnoAlias : ∀ grant ∈ listedUnder body "grants", grant.field? "on" = none :=
      fun grant hgrant => field?_eq_none_of_declaredBy rfl
        (listedUnder_declaredBy h rfl (hgrants ▸ hgrant))
    have hnoProfileAlias := hprofileGrants ▸ profileGrants_noAlias h
    have hnoPassword : ∀ role ∈ listedRoles body, NoPassword role := fun role hrole =>
      noPassword_of_declaredBy rfl (hreads role hrole)
        (listedUnder_declaredBy h rfl (hroles ▸ hrole))
    rw [hsame hnoAlias hnoProfileAlias hnoPassword] at h
    exact ⟨h, hnoAlias, hnoProfileAlias, hnoPassword⟩
  · intro h
    rw [hsame h.grants h.profileGrants h.passwords]
    exact h.known

/-- For every text that is parsed: a policy that the operator accepts is filed with its digest
exactly when the command line can read it, and of what is sent for a file a schema prunes nothing
exactly when the file is read in full. -/
theorem filing_preserves_iff (laws : yaml.MapLaws) (hparse : yaml.parse text = some document)
    (sha256 : ByteArray → String) :
    (∀ spec policyName policy, AcceptedPolicy document spec policyName policy →
      (Preserved yaml sha256 text policy ↔ CliReads spec)) ∧
    ∀ body content, candidateContentBody document = .ok body →
      filedContent yaml text = some content →
      (content.declaredBy contentShape = true ↔ ReadInFull body) := by
  refine ⟨fun spec policyName policy h => preserved_iff laws hparse h sha256, ?_⟩
  intro body content hbody hfiled
  obtain ⟨body', hbody', hextractable, rfl, m, hm, -⟩ := (filedContent_eq_some laws hparse).1 hfiled
  rw [hbody] at hbody'
  cases hbody'
  exact declaredBy_contentShape_iff
    (distinctKeys_candidateContentBody hbody (laws.parse_distinct text document hparse))
    hextractable.mapping (readsPassword_of_manifest hextractable.mapping hm)

end Filing

/-! ### One role -/

/-- The spec of a policy with some more fields and one list of roles. -/
def sampleSpec (fields : List (String × Json)) (role : Json) : Json :=
  .obj ([("connection", .obj [("secretRef", .obj [("name", .str "db")])]),
    ("interval", .str "5m")] ++ fields ++ [("roles", .arr [role])])

/-- A policy's document with this spec. -/
def sampleDocument (spec : Json) : Json :=
  .obj [("apiVersion", .str "pgroles.io/v1alpha1"), ("kind", .str "PostgresPolicy"),
    ("metadata", .obj [("name", .str "app")]), ("spec", spec)]

/-- A role that can log in, with some more fields. -/
def sampleRole (fields : List (String × Json)) : Json :=
  .obj ([("name", .str "app"), ("login", .bool true)] ++ fields)

/-- The policy that the types read from such a document. -/
def samplePolicy (password : Option PasswordSpec) : PostgresPolicySpec where
  connection := { secretRef := some ⟨"db"⟩ }
  content := { roles := [{ name := "app", login := some true, password }] }

/-- A spec that is filed as it stands. -/
def plainSpec : Json := sampleSpec [("approval", .str "manual")] (sampleRole [])

/-- The role has a password that the operator generates. -/
def generatedSpec : Json :=
  sampleSpec [] (sampleRole [("password", .obj [("generate", .obj [("length", .int 32)])])])

/-- That password as the types hold it. -/
def generatedPassword : PasswordSpec := { generate := some { length := some 32 } }

/-- The policy may transfer schemas, which is a field of its execution. -/
def ownerTransferSpec : Json :=
  sampleSpec [("allow_schema_owner_transfers", .bool true)] (sampleRole [])

/-- The key of a flag of the role lacks its last letter. -/
def misspeltSpec : Json :=
  sampleSpec [] (sampleRole [("preserve_undeclared_grant", .bool true)])

theorem sampleYaml_mapLaws : sampleYaml.MapLaws where
  toLaws := sampleYaml_laws
  parse_distinct _ _ h := (Option.filter_eq_some_iff.1 h).2

/-- The document is parsed from its own text. -/
theorem parse_sampleDocument {spec : Json} (h : (sampleDocument spec).distinctKeys = true) :
    sampleYaml.parse (sampleYaml.print (sampleDocument spec)) = some (sampleDocument spec) :=
  sampleYaml_laws.parse_print (sampleDocument spec) h

theorem sampleDocument_accepted {spec : Json} {password : Option PasswordSpec}
    (hdecodes : decodePostgresPolicySpec spec = some (samplePolicy password))
    (hroles : ∃ v, spec.field? "roles" = some v)
    (hpassword : (samplePolicy password).validatePasswordSpecs "app" = .ok ()) :
    AcceptedPolicy (sampleDocument spec) spec "app" (samplePolicy password) where
  apiVersion := ⟨_, rfl⟩
  kind := rfl
  spec_eq := rfl
  decodes := hdecodes
  declares := ⟨"roles", by decide, hroles⟩
  passwords := hpassword
  expands := by
    have hmanifest : (samplePolicy password).toPolicyManifest =
        (samplePolicy none).toPolicyManifest := rfl
    have hok : (expandManifest (samplePolicy none).toPolicyManifest).isOk = true := by
      decide +kernel
    rw [hmanifest]
    cases hexpand : expandManifest (samplePolicy none).toPolicyManifest with
    | error e =>
      rw [hexpand] at hok
      cases hok
    | ok e => exact ⟨e, rfl⟩

theorem plainSpec_accepted :
    AcceptedPolicy (sampleDocument plainSpec) plainSpec "app" (samplePolicy none) :=
  sampleDocument_accepted (by decide +kernel) ⟨_, rfl⟩ (by decide +kernel)

theorem plainSpec_read : CliReads plainSpec :=
  ⟨by decide +kernel, by decide +kernel, by decide +kernel⟩

/-- A policy without passwords is filed with its digest, and nothing of it is pruned. -/
theorem plainSpec_preserved :
    AcceptedPolicy (sampleDocument plainSpec) plainSpec "app" (samplePolicy none) ∧
    Preserved sampleYaml (fun _ => "") (sampleYaml.print (sampleDocument plainSpec))
      (samplePolicy none) ∧
    ∃ content, filedContent sampleYaml (sampleYaml.print (sampleDocument plainSpec)) =
      some content ∧ content.declaredBy contentShape = true := by
  obtain ⟨hpolicy, hcontent⟩ := filing_preserves_iff sampleYaml_mapLaws
    (@parse_sampleDocument plainSpec (by decide +kernel)) fun _ => ""
  have hpreserved := (hpolicy plainSpec "app" (samplePolicy none) plainSpec_accepted).2
    plainSpec_read
  refine ⟨plainSpec_accepted, hpreserved, ?_⟩
  obtain ⟨content, hfiled, -⟩ := hpreserved
  have hread : ReadInFull plainSpec :=
    (declaredBy_contentShape_iff (by decide +kernel) rfl plainSpec_read.passwords).1
      (by decide +kernel)
  exact ⟨content, hfiled, (hcontent plainSpec content plainSpec_accepted.body_eq hfiled).2 hread⟩

/-- A policy with an execution field that the command line does not know and a policy with a
generated password are accepted by the operator and never filed; a policy with a misspelt key is
accepted and filed, and a schema prunes the key. -/
theorem policies_not_preserved :
    (AcceptedPolicy (sampleDocument ownerTransferSpec) ownerTransferSpec "app"
        (samplePolicy none) ∧
      ∀ yaml : Yaml, yaml.MapLaws → ∀ text, yaml.parse text = some (sampleDocument ownerTransferSpec) →
        ¬ Preserved yaml (fun _ => "") text (samplePolicy none)) ∧
    (AcceptedPolicy (sampleDocument generatedSpec) generatedSpec "app"
        (samplePolicy (some generatedPassword)) ∧
      ∀ yaml : Yaml, yaml.MapLaws → ∀ text, yaml.parse text = some (sampleDocument generatedSpec) →
        ¬ Preserved yaml (fun _ => "") text (samplePolicy (some generatedPassword))) ∧
    AcceptedPolicy (sampleDocument misspeltSpec) misspeltSpec "app" (samplePolicy none) ∧
    ∃ content, filedContent sampleYaml (sampleYaml.print (sampleDocument misspeltSpec)) =
      some content ∧ content.declaredBy contentShape = false := by
  have htransfer : AcceptedPolicy (sampleDocument ownerTransferSpec) ownerTransferSpec "app"
      (samplePolicy none) :=
    sampleDocument_accepted (by decide +kernel) ⟨_, rfl⟩ (by decide +kernel)
  have hgenerated : AcceptedPolicy (sampleDocument generatedSpec) generatedSpec "app"
      (samplePolicy (some generatedPassword)) :=
    sampleDocument_accepted (by decide +kernel) ⟨_, rfl⟩ (by decide +kernel)
  have hmisspelt : AcceptedPolicy (sampleDocument misspeltSpec) misspeltSpec "app"
      (samplePolicy none) :=
    sampleDocument_accepted (by decide +kernel) ⟨_, rfl⟩ (by decide +kernel)
  refine ⟨⟨htransfer, fun yaml laws text hparse hpreserved => ?_⟩,
    ⟨hgenerated, fun yaml laws text hparse hpreserved => ?_⟩, hmisspelt, ?_⟩
  · have hreads := (preserved_iff laws hparse htransfer _).1 hpreserved
    have hkeys : ownerTransferSpec.entries.all (isKnownKey ·.1) = true :=
      List.all_eq_true.2 hreads.keys
    exact absurd hkeys (by decide +kernel)
  · have hreads := (preserved_iff laws hparse hgenerated _).1 hpreserved
    have hpasswords : (listedRoles generatedSpec).all readsPassword = true :=
      List.all_eq_true.2 hreads.passwords
    exact absurd hpasswords (by decide +kernel)
  · have hreads : CliReads misspeltSpec :=
      ⟨by decide +kernel, by decide +kernel, by decide +kernel⟩
    have hparse := @parse_sampleDocument misspeltSpec (by decide +kernel)
    obtain ⟨content, hfiled, -⟩ :=
      (preserved_iff sampleYaml_mapLaws hparse hmisspelt fun _ => "").2 hreads
    obtain ⟨body, hbody, -, rfl, -⟩ := (filedContent_eq_some sampleYaml_mapLaws hparse).1 hfiled
    rw [hmisspelt.body_eq] at hbody
    cases hbody
    exact ⟨_, hfiled, by decide +kernel⟩

end PgRoles.Cli

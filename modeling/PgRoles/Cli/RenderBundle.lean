import PgRoles.Core.CompositionSpec
import PgRoles.Core.ManifestJson

/-!
# Rendered bundles

A composed bundle is rendered as one manifest: its value is cleared of the defaults that the parser
fills in again, printed, and put behind a header of comments that names the bundle and its
documents.
-/

set_option autoImplicit false

namespace PgRoles.Cli

open Std PgRoles.Core PgRoles.Lib

/-! ## Clearing of defaults -/

/-- The value at a path may be left out: it is null, an empty list that is not required, or the
empty map of all profiles. -/
def isStrippable (path : List String) : Json → Bool
  | .null => true
  | .arr [] => !(path.getLast?.any fun key => key ∈ ["privileges", "grant", "members"])
  | .obj [] => path == ["profiles"]
  | _ => false

mutual

/-- A value at a path without the defaults in it. -/
def stripManifestDefaultsAt (path : List String) : Json → Json
  | .obj fields => .obj (stripFieldsAt path fields)
  | .arr items => .arr (stripItemsAt path items)
  | .null => .null
  | .bool b => .bool b
  | .int n => .int n
  | .str s => .str s

/-- Items are at the path of their list. -/
def stripItemsAt (path : List String) : List Json → List Json
  | [] => []
  | v :: items => stripManifestDefaultsAt path v :: stripItemsAt path items

/-- The fields of an object at a path, without those that are defaults. -/
def stripFieldsAt (path : List String) : List (String × Json) → List (String × Json)
  | [] => []
  | (key, v) :: fields =>
      let cleaned := stripManifestDefaultsAt (path ++ [key]) v
      if isStrippable (path ++ [key]) cleaned then stripFieldsAt path fields
      else (key, cleaned) :: stripFieldsAt path fields

end

/-- A manifest without its defaults. -/
def stripManifestDefaults (v : Json) : Json := stripManifestDefaultsAt [] v

/-! ## What is left of a field -/

/-- What is left of a field with this value. -/
def stripped (path : List String) (v : Json) : Option Json :=
  let cleaned := stripManifestDefaultsAt path v
  if isStrippable path cleaned then none else some cleaned

theorem stripItemsAt_eq_map (path : List String) (items : List Json) :
    stripItemsAt path items = items.map (stripManifestDefaultsAt path) := by
  induction items with
  | nil => rfl
  | cons v items ih => rw [stripItemsAt, ih, List.map_cons]

theorem stripFieldsAt_cons (path : List String) (key : String) (v : Json)
    (fields : List (String × Json)) :
    stripFieldsAt path ((key, v) :: fields) =
      optionalField key (stripped (path ++ [key]) v) ++ stripFieldsAt path fields := by
  rw [stripFieldsAt, stripped]
  by_cases h : isStrippable (path ++ [key]) (stripManifestDefaultsAt (path ++ [key]) v)
  · simp [h, optionalField]
  · simp [h, optionalField]

/-- A field of a cleared object is what is left of that field. -/
theorem lookup_stripFieldsAt {path : List String} {fields : List (String × Json)}
    (hnodup : (fields.map Prod.fst).Nodup) (k : String) :
    (stripFieldsAt path fields).lookup k = (fields.lookup k).bind (stripped (path ++ [k])) := by
  induction fields with
  | nil => rfl
  | cons field fields ih =>
    obtain ⟨key, v⟩ := field
    rw [List.map_cons, List.nodup_cons] at hnodup
    rw [stripFieldsAt_cons, List.lookup_append, ih hnodup.2, List.lookup_cons]
    by_cases hk : k = key
    · subst hk
      simp [lookup_eq_none_of_not_mem hnodup.1]
    · simp [lookup_optionalField_of_ne hk, beq_false_of_ne hk]

/-- The fields that are left of a record. -/
theorem field_strip_record {path : List String} {fields : List (String × Option Json)}
    (hnodup : (fields.map Prod.fst).Nodup) (k : String) :
    (stripManifestDefaultsAt path (.record fields)).field? k =
      (fields.lookup k).join.bind (stripped (path ++ [k])) := by
  rw [Json.record, Json.object, Json.ofMap, stripManifestDefaultsAt, Json.field?,
    lookup_stripFieldsAt (nodup_fst_toList _), lookup_toList, getElem?_fieldMap,
    lookup_flatMap_optionalField hnodup]

@[simp] theorem isObject_strip_record (path : List String) (fields : List (String × Option Json)) :
    (stripManifestDefaultsAt path (.record fields)).isObject = true := by
  rw [Json.record, Json.object, Json.ofMap, stripManifestDefaultsAt]
  rfl

theorem strip_record_ne_null (path : List String) (fields : List (String × Option Json)) :
    stripManifestDefaultsAt path (.record fields) ≠ .null := by
  intro hnull
  have hobject := isObject_strip_record path fields
  rw [hnull] at hobject
  cases hobject

/-- Clearing leaves fewer fields, in their order. -/
theorem map_fst_stripFieldsAt_sublist (path : List String) (fields : List (String × Json)) :
    ((stripFieldsAt path fields).map Prod.fst).Sublist (fields.map Prod.fst) := by
  induction fields with
  | nil => exact List.Sublist.refl _
  | cons field fields ih =>
    obtain ⟨key, v⟩ := field
    rw [stripFieldsAt, List.map_cons]
    split
    · exact ih.cons _
    · exact ih.cons_cons _

/-- Clearing repeats no key. -/
theorem distinctKeys_strip (path : List String) (v : Json) :
    v.distinctKeys = true → (stripManifestDefaultsAt path v).distinctKeys = true := by
  refine stripManifestDefaultsAt.induct
    (fun path v => v.distinctKeys = true → (stripManifestDefaultsAt path v).distinctKeys = true)
    (fun path items => itemsDistinctKeys items = true →
      itemsDistinctKeys (stripItemsAt path items) = true)
    (fun path fields => fieldsDistinctKeys fields = true →
      fieldsDistinctKeys (stripFieldsAt path fields) = true)
    ?obj (fun _ _ ih => ih) (fun _ _ => rfl) (fun _ _ _ => rfl) (fun _ _ _ => rfl)
    (fun _ _ _ => rfl) (fun _ _ => rfl) ?item (fun _ _ => rfl) ?dropped ?kept path v
  case obj =>
    intro path fields ih h
    rw [Json.distinctKeys, Bool.and_eq_true, decide_eq_true_iff] at h
    rw [stripManifestDefaultsAt, Json.distinctKeys, Bool.and_eq_true, decide_eq_true_iff]
    exact ⟨(map_fst_stripFieldsAt_sublist path fields).nodup h.1, ih h.2⟩
  case item =>
    intro path v items ihHead ihTail h
    rw [itemsDistinctKeys, Bool.and_eq_true] at h
    rw [stripItemsAt, itemsDistinctKeys, ihHead h.1, ihTail h.2]
    rfl
  case dropped =>
    intro path key v fields cleaned hstrippable _ ihTail h
    rw [fieldsDistinctKeys, Bool.and_eq_true] at h
    rw [stripFieldsAt, if_pos hstrippable]
    exact ihTail h.2
  case kept =>
    intro path key v fields cleaned hstrippable ihHead ihTail h
    rw [fieldsDistinctKeys, Bool.and_eq_true] at h
    rw [stripFieldsAt, if_neg hstrippable, fieldsDistinctKeys, ihHead h.1, ihTail h.2]
    rfl

section Values

variable (path : List String)

@[simp] theorem stripped_bool (b : Bool) : stripped path (.bool b) = some (.bool b) := rfl

@[simp] theorem stripped_int (n : Int) : stripped path (.int n) = some (.int n) := rfl

@[simp] theorem stripped_str (s : String) : stripped path (.str s) = some (.str s) := rfl

@[simp] theorem stripped_nullable (v : Option Json) :
    stripped path (.nullable v) = v.bind (stripped path) := by
  cases v <;> rfl

/-- An object stays wherever it is not all profiles. -/
theorem stripped_object {path : List String} (hpath : path ≠ ["profiles"]) {v : Json}
    (hobject : (stripManifestDefaultsAt path v).isObject = true) :
    stripped path v = some (stripManifestDefaultsAt path v) := by
  rw [stripped]
  cases hv : stripManifestDefaultsAt path v with
  | obj entries => cases entries <;> simp [isStrippable, hpath]
  | _ =>
    rw [hv] at hobject
    cases hobject

theorem append_ne_profiles {key : String} (h : key ≠ "profiles") :
    path ++ [key] ≠ ["profiles"] := by
  intro heq
  have hlast := congrArg List.getLast? heq
  simp [h] at hlast

end Values

/-! ## Reading back what is left -/

section Readers

variable {path : List String} {T : Type} {decode : Json → Option T} {encode : T → Json}

/-- An optional field is read back from whatever is left of it. -/
theorem readOptional_stripped
    (h : ∀ a, ∃ v, stripped path (encode a) = some v ∧ v ≠ .null ∧ decode v = some a)
    (o : Option T) : readOptional decode ((o.map encode).bind (stripped path)) = some o := by
  cases o with
  | none => rfl
  | some a =>
    obtain ⟨v, hv, hnull, hdecode⟩ := h a
    rw [Option.map_some, Option.bind_some, hv]
    cases v with
    | null => exact absurd rfl hnull
    | _ => rw [readOptional, hdecode, Option.map_some]; nofun

@[simp] theorem readRequired_text (s : String) :
    readRequired decodeText (some (.str s)) = some s := rfl

@[simp] theorem readOptional_textField (o : Option String) :
    readOptional decodeText ((textField o).bind (stripped path)) = some o :=
  readOptional_stripped (fun s => ⟨.str s, rfl, nofun, rfl⟩) o

@[simp] theorem readOptional_flagField (o : Option Bool) :
    readOptional decodeFlag ((flagField o).bind (stripped path)) = some o :=
  readOptional_stripped (fun b => ⟨.bool b, rfl, nofun, rfl⟩) o

@[simp] theorem readOptional_int (o : Option Int) :
    readOptional decodeInt ((o.map Json.int).bind (stripped path)) = some o :=
  readOptional_stripped (fun n => ⟨.int n, rfl, nofun, rfl⟩) o

@[simp] theorem readDefaulted_setFlagField (b : Bool) :
    readDefaulted decodeFlag false ((setFlagField b).bind (stripped path)) = some b := by
  cases b <;> rfl

@[simp] theorem readDefaulted_ensureField (e : Ensure) :
    readDefaulted decodeEnsure .present ((ensureField e).bind (stripped path)) = some e := by
  cases e <;> rfl

/-- What is left of a list, unless it is empty and may be left out. -/
theorem stripped_arr (items : List Json) :
    stripped path (.arr items) = if items = [] ∧ isStrippable path (.arr []) then none
      else some (.arr (items.map (stripManifestDefaultsAt path))) := by
  rw [stripped, stripManifestDefaultsAt, stripItemsAt_eq_map]
  cases items with
  | nil => simp
  | cons v items => simp [isStrippable]

/-- A cleared list is read back when its items are. -/
theorem decodeList_strip {l : List T}
    (h : ∀ a, decode (stripManifestDefaultsAt path (encode a)) = some a) :
    decodeList decode (.arr ((l.map encode).map (stripManifestDefaultsAt path))) = some l := by
  rw [decodeList, List.map_map]
  exact mapM_eq_some_of_forall fun a _ => h a

/-- A list that may be left out is read back. -/
theorem readDefaulted_list (h : ∀ a, decode (stripManifestDefaultsAt path (encode a)) = some a)
    (l : List T) :
    readDefaulted (decodeList decode) [] (stripped path (.arr (l.map encode))) = some l := by
  rw [stripped_arr]
  split_ifs with hempty
  · rw [List.map_eq_nil_iff] at hempty
    rw [hempty.1]
    rfl
  · exact decodeList_strip h

/-- A required list is never left out. -/
theorem readRequired_list (hpath : isStrippable path (.arr []) = false)
    (h : ∀ a, decode (stripManifestDefaultsAt path (encode a)) = some a) (l : List T) :
    readRequired (decodeList decode) (stripped path (.arr (l.map encode))) = some l := by
  rw [stripped_arr, hpath]
  simpa [readRequired] using decodeList_strip h

@[simp] theorem readRequired_objectType (objectType : ObjectType) :
    readRequired decodeObjectType (stripped path (objectTypeJson objectType)) =
      some objectType := by
  refine decodeEnum_text ObjectType.display_injective ?_
  cases objectType <;> decide

@[simp] theorem readRequired_privileges (privileges : List Privilege) :
    readRequired decodePrivileges (stripped (path ++ ["privileges"])
      (privilegeListJson privileges)) = some privileges := by
  refine readRequired_list (by simp [isStrippable]) (fun p => ?_) privileges
  refine decodeEnum_text Privilege.display_injective ?_
  cases p <;> decide

@[simp] theorem readDefaulted_texts (texts : List String) :
    readDefaulted (decodeList decodeText) [] (stripped path (.ofTexts texts)) = some texts :=
  readDefaulted_list (fun _ => rfl) texts

/-- Entries that all stay are cleared one by one. -/
theorem stripFieldsAt_map (h : ∀ k a, ∃ v, stripped (path ++ [k]) (encode a) = some v)
    (entries : List (String × T)) :
    stripFieldsAt path (entries.map fun e => (e.1, encode e.2)) =
      entries.map fun e => (e.1, stripManifestDefaultsAt (path ++ [e.1]) (encode e.2)) := by
  induction entries with
  | nil => rfl
  | cons e entries ih =>
    obtain ⟨v, hv⟩ := h e.1 e.2
    have hcleaned : v = stripManifestDefaultsAt (path ++ [e.1]) (encode e.2) := by
      rw [stripped] at hv
      split_ifs at hv
      exact (Option.some.inj hv).symm
    rw [List.map_cons, stripFieldsAt_cons, hv, ih, List.map_cons, hcleaned]
    rfl

/-- A map whose entries all stay is read back. -/
theorem decodeMap_strip {m : BTreeMap String T}
    (h : ∀ k a, stripped (path ++ [k]) (encode a) ≠ none)
    (hdecode : ∀ k a, decode (stripManifestDefaultsAt (path ++ [k]) (encode a)) = some a) :
    decodeMap decode (stripManifestDefaultsAt path (.ofMap (m.map fun _ a => encode a))) =
      some m := by
  have hstays : ∀ k a, ∃ v, stripped (path ++ [k]) (encode a) = some v := fun k a =>
    Option.ne_none_iff_exists'.1 (h k a)
  rw [Json.ofMap, ExtTreeMap.toList_map, stripManifestDefaultsAt, stripFieldsAt_map hstays]
  refine decodeMap_toList m fun e _ => ?_
  rw [decodeEntry, hdecode, Option.map_some]

@[simp] theorem readDefaulted_configField (config : BTreeMap String String) :
    readDefaulted decodeConfig ∅ ((configField config).bind (stripped (path ++ ["config"]))) =
      some config := by
  unfold configField
  split_ifs with hempty
  · rw [ExtTreeMap.isEmpty_iff.1 hempty]
    rfl
  · have hstays : stripped (path ++ ["config"]) (configMapJson config) =
        some (stripManifestDefaultsAt (path ++ ["config"]) (configMapJson config)) :=
      stripped_object (append_ne_profiles path (by simp)) rfl
    rw [Option.bind_some, hstays]
    exact decodeMap_strip (fun _ _ => by simp) fun _ _ => rfl

end Readers

/-! ## Reading back declarations -/

section Declarations

variable (path : List String)

/-- A record in a field other than the profiles is read back where it stands. -/
theorem stripped_record {key : String} (hkey : key ≠ "profiles")
    (fields : List (String × Option Json)) :
    stripped (path ++ [key]) (.record fields) =
      some (stripManifestDefaultsAt (path ++ [key]) (.record fields)) :=
  stripped_object (append_ne_profiles path hkey) (isObject_strip_record _ _)

theorem decodeProfileObjectTarget_strip (target : ProfileObjectTarget) :
    decodeProfileObjectTarget (stripManifestDefaultsAt path target.toJson) = some target := by
  simp [decodeProfileObjectTarget, ProfileObjectTarget.toJson, field_strip_record,
    List.lookup_cons]

/-- A profile's grant is read back. -/
theorem decodeProfileGrant_strip (grant : ProfileGrant) :
    decodeProfileGrant (stripManifestDefaultsAt path grant.toJson) = some grant := by
  have hobject : readAliased decodeProfileObjectTarget
      (stripped (path ++ ["object"]) grant.object.toJson) none = some grant.object := by
    rw [ProfileObjectTarget.toJson, stripped_record path (by simp)]
    exact decodeProfileObjectTarget_strip _ grant.object
  simp [decodeProfileGrant, ProfileGrant.toJson, field_strip_record, List.lookup_cons, hobject]

theorem decodeDefaultPrivilegeGrant_strip (grant : DefaultPrivilegeGrant) :
    decodeDefaultPrivilegeGrant (stripManifestDefaultsAt path grant.toJson) = some grant := by
  simp [decodeDefaultPrivilegeGrant, DefaultPrivilegeGrant.toJson, field_strip_record,
    List.lookup_cons]

/-- A profile is read back. -/
theorem decodeProfile_strip (profile : Profile) :
    decodeProfile (stripManifestDefaultsAt path profile.toJson) = some profile := by
  simp [decodeProfile, Profile.toJson, Profile.toJsonWith, field_strip_record, List.lookup_cons,
    readDefaulted_list (decodeProfileGrant_strip _),
    readDefaulted_list (decodeDefaultPrivilegeGrant_strip _)]

theorem decodeSchemaBinding_strip (binding : SchemaBinding) :
    decodeSchemaBinding (stripManifestDefaultsAt path binding.toJson) = some binding := by
  simp [decodeSchemaBinding, SchemaBinding.toJson, field_strip_record, List.lookup_cons]

theorem decodePasswordSource_strip (source : PasswordSource) :
    decodePasswordSource (stripManifestDefaultsAt path source.toJson) = some source := by
  simp [decodePasswordSource, PasswordSource.toJson, field_strip_record]

/-- A role is read back. -/
theorem decodeRoleDefinition_strip (role : RoleDefinition) :
    decodeRoleDefinition (stripManifestDefaultsAt path role.toJson) = some role := by
  have hpassword : readOptional decodePasswordSource
      ((role.password.map PasswordSource.toJson).bind (stripped (path ++ ["password"]))) =
        some role.password := by
    refine readOptional_stripped (fun source => ?_) role.password
    exact ⟨_, stripped_record path (by simp) _, strip_record_ne_null _ _,
      decodePasswordSource_strip _ source⟩
  simp [decodeRoleDefinition, RoleDefinition.toJson, field_strip_record, List.lookup_cons,
    hpassword]

theorem decodeObjectTarget_strip (target : ObjectTarget) :
    decodeObjectTarget (stripManifestDefaultsAt path target.toJson) = some target := by
  simp [decodeObjectTarget, ObjectTarget.toJson, field_strip_record, List.lookup_cons]

/-- A grant is read back; its privileges stay even where they are none. -/
theorem decodeGrant_strip (grant : Grant) :
    decodeGrant (stripManifestDefaultsAt path grant.toJson) = some grant := by
  have hobject : readAliased decodeObjectTarget
      (stripped (path ++ ["object"]) grant.object.toJson) none = some grant.object := by
    rw [ObjectTarget.toJson, stripped_record path (by simp)]
    exact decodeObjectTarget_strip _ grant.object
  simp [decodeGrant, Grant.toJson, field_strip_record, List.lookup_cons, hobject]

/-- A scope is read back. -/
theorem decodeScopeSpec_strip (scope : DefaultPrivilegeScopeSpec) :
    decodeScopeSpec (stripManifestDefaultsAt path scope.toJson) = some scope := by
  have htype : decodeEnum [.global, .schema] DefaultPrivilegeScopeType.text
      (.str scope.scopeType.text) = some scope.scopeType := by
    cases scope.scopeType <;> rfl
  simp [decodeScopeSpec, DefaultPrivilegeScopeSpec.toJson, field_strip_record, List.lookup_cons,
    readRequired, htype]

/-- A default-privilege stanza is read back. -/
theorem decodeDefaultPrivilege_strip (d : DefaultPrivilege) :
    decodeDefaultPrivilege (stripManifestDefaultsAt path d.toJson) = some d := by
  have hscope : readOptional decodeScopeSpec
      ((d.scope.map DefaultPrivilegeScopeSpec.toJson).bind (stripped (path ++ ["scope"]))) =
        some d.scope := by
    refine readOptional_stripped (fun scope => ?_) d.scope
    exact ⟨_, stripped_record path (by simp) _, strip_record_ne_null _ _,
      decodeScopeSpec_strip _ scope⟩
  have hgrant : readRequired (decodeList decodeDefaultPrivilegeGrant) (stripped (path ++ ["grant"])
      (.arr (d.grant.map DefaultPrivilegeGrant.toJson))) = some d.grant :=
    readRequired_list (by simp [isStrippable]) (decodeDefaultPrivilegeGrant_strip _) d.grant
  simp [decodeDefaultPrivilege, DefaultPrivilege.toJson, field_strip_record, List.lookup_cons,
    hscope, hgrant]

theorem decodeMemberSpec_strip (member : MemberSpec) :
    decodeMemberSpec (stripManifestDefaultsAt path member.toJson) = some member := by
  simp [decodeMemberSpec, MemberSpec.toJson, field_strip_record, List.lookup_cons]

/-- A membership is read back; its members stay even where they are none. -/
theorem decodeMembership_strip (membership : Membership) :
    decodeMembership (stripManifestDefaultsAt path membership.toJson) = some membership := by
  have hmembers : readRequired (decodeList decodeMemberSpec) (stripped (path ++ ["members"])
      (.arr (membership.members.map MemberSpec.toJson))) = some membership.members :=
    readRequired_list (by simp [isStrippable]) (decodeMemberSpec_strip _) membership.members
  simp [decodeMembership, Membership.toJson, field_strip_record, List.lookup_cons, hmembers]

/-- A retirement is read back. -/
theorem decodeRoleRetirement_strip (retirement : RoleRetirement) :
    decodeRoleRetirement (stripManifestDefaultsAt path retirement.toJson) = some retirement := by
  simp [decodeRoleRetirement, RoleRetirement.toJson, field_strip_record, List.lookup_cons,
    readDefaulted, decodeFlag]

/-- A provider is read back. -/
theorem decodeAuthProvider_strip (provider : AuthProvider) :
    decodeAuthProvider (stripManifestDefaultsAt path provider.toJson) = some provider := by
  cases provider <;>
    simp [decodeAuthProvider, AuthProvider.toJson, field_strip_record, List.lookup_cons]

end Declarations

/-- The map of all profiles is left out only when it is empty, which is its default. -/
theorem readDefaulted_profiles (profiles : BTreeMap String Profile) :
    readDefaulted (decodeMap decodeProfile) ∅ (stripped ["profiles"]
      (.ofMap (profiles.map fun _ profile => profile.toJson))) = some profiles := by
  have hstays : ∀ (name : String) (profile : Profile),
      stripped (["profiles"] ++ [name]) profile.toJson ≠ none := by
    intro name profile
    have hstays : stripped (["profiles"] ++ [name]) profile.toJson =
        some (stripManifestDefaultsAt (["profiles"] ++ [name]) profile.toJson) :=
      stripped_object (by simp) (isObject_strip_record _ _)
    rw [hstays]
    simp
  have hdecode := decodeMap_strip (m := profiles) hstays fun _ => decodeProfile_strip _
  rw [stripped]
  generalize stripManifestDefaultsAt ["profiles"]
    (.ofMap (profiles.map fun _ profile => profile.toJson)) = v at hdecode
  by_cases hempty : v = .obj []
  · subst hempty
    exact hdecode
  · have hstrip : isStrippable ["profiles"] v = false := by
      cases v with
      | obj entries =>
        cases entries with
        | nil => exact absurd rfl hempty
        | cons e entries => rfl
      | _ => cases hdecode
    simpa [hstrip, readDefaulted] using hdecode

/-- The cleared value of a manifest is read back as the manifest. -/
theorem decodePolicyManifest_strip (providers : List AuthProvider) (m : PolicyManifest) :
    decodePolicyManifest (stripManifestDefaults (m.toJson providers)) = some m := by
  simp [decodePolicyManifest, stripManifestDefaults, PolicyManifest.toJson, field_strip_record,
    List.lookup_cons, readDefaulted_profiles, readDefaulted_list (decodeAuthProvider_strip _),
    readDefaulted_list (decodeSchemaBinding_strip _),
    readDefaulted_list (decodeRoleDefinition_strip _), readDefaulted_list (decodeGrant_strip _),
    readDefaulted_list (decodeDefaultPrivilege_strip _),
    readDefaulted_list (decodeMembership_strip _),
    readDefaulted_list (decodeRoleRetirement_strip _)]

/-! ## The text -/

/-- A printer of values and a parser of documents. -/
structure Yaml where
  print : Json → String
  parse : String → Option Json

/-- A character that ends a line, and with it a comment. -/
def isLineBreak (c : Char) : Bool :=
  c = '\n' || c = '\r' || c = Char.ofNat 0x85 || c = Char.ofNat 0x2028 || c = Char.ofNat 0x2029

/-- A character that a document may hold outside of escapes. -/
def isPrintable (c : Char) : Bool :=
  c = '\t' || c = '\n' || c = '\r' || 0x20 ≤ c.toNat && c.toNat ≤ 0x7E || c.toNat = 0x85 ||
    0xA0 ≤ c.toNat && c.toNat ≠ 0xFFFE && c.toNat ≠ 0xFFFF

/-- The text stays within one line of a document. -/
def isLabel (text : String) : Bool :=
  text.toList.all fun c => !isLineBreak c && isPrintable c

/-- What is assumed of printer and parser: a printed value without repeated keys is parsed as it was,
a comment runs to the end of its line, and a reserved indicator starts no document. -/
structure Yaml.Laws (yaml : Yaml) : Prop where
  parse_print : ∀ v, v.distinctKeys = true → yaml.parse (yaml.print v) = some v
  parse_comment : ∀ comment rest, isLabel comment = true →
    yaml.parse ("#" ++ comment ++ "\n" ++ rest) = yaml.parse rest
  parse_reserved : ∀ rest, yaml.parse ("@" ++ rest) = none

/-- Schema identifier of the rendered body. -/
def renderedManifestSchema : String := "pgroles.manifest.v1"

/-- The comment that names one document of a bundle. -/
def fragmentComment (document : PolicyDocument) : String :=
  match document.fragment.policy.name with
  | some name => "   - " ++ document.source ++ " (" ++ name ++ ")"
  | none => "   - " ++ document.source

/-- The comments about the bundle, without the marks. -/
def bundleComments (sourceLabel : String) : List String :=
  [" Rendered by `pgroles render-bundle`.",
    " Do not edit by hand — regenerate from the source bundle.",
    " Source bundle: " ++ sourceLabel,
    " Manifest schema: " ++ renderedManifestSchema,
    " Fragments:"]

/-- The comments of the header. -/
def headerComments (sourceLabel : String) (documents : List PolicyDocument) : List String :=
  bundleComments sourceLabel ++ documents.map fragmentComment ++ [""]

/-- Comments in front of a text. -/
def commented (comments : List String) (body : String) : String :=
  comments.foldr (fun comment rest => "#" ++ comment ++ "\n" ++ rest) body

/-- A validated bundle: its documents and what they compose to, with the providers it shares. -/
structure ValidatedBundle where
  documents : List PolicyDocument
  composed : ComposedPolicy
  authProviders : List AuthProvider := []

/-- The rendered bundle: a header where it is asked for, and the manifest without defaults. -/
def formatRenderedBundle (yaml : Yaml) (validated : ValidatedBundle) (sourceLabel : String)
    (includeHeader : Bool) : String :=
  let raw := validated.composed.manifest.toJson validated.authProviders
  let body := yaml.print (stripManifestDefaults raw)
  if includeHeader then commented (headerComments sourceLabel validated.documents) body else body

/-- Parse a text into a manifest. -/
def parseManifest (yaml : Yaml) (text : String) : Option PolicyManifest :=
  (yaml.parse text).bind manifestOfDocument

/-- The rendered text is accepted, and it expands to what the bundle expands to. -/
def RendersBack (yaml : Yaml) (validated : ValidatedBundle) (text : String) : Prop :=
  ∃ m, parseManifest yaml text = some m ∧ expandManifest m = .ok validated.composed.expanded ∧
    RoleGraph.fromExpanded validated.composed.expanded m.defaultOwner =
      .ok validated.composed.desired

/-- The manifest of a composed bundle expands to the bundle's expansion and graph. -/
theorem expand_composed {bundle : PolicyBundle} {documents : List PolicyDocument}
    {composed : ComposedPolicy} (h : composeBundle bundle documents = .ok composed) :
    expandManifest composed.manifest = .ok composed.expanded ∧
      RoleGraph.fromExpanded composed.expanded composed.manifest.defaultOwner =
        .ok composed.desired := by
  obtain ⟨expanded, desired, stanzas, hadm, -, rfl⟩ := composeBundle_eq_ok_iff.1 h
  exact ⟨hadm.expands, hadm.graph⟩

/-- The whole manifest is read back from what is left of it. -/
theorem manifestOfDocument_strip (providers : List AuthProvider) (m : PolicyManifest) :
    manifestOfDocument (stripManifestDefaults (m.toJson providers)) = some m := by
  have hfield : (stripManifestDefaults (m.toJson providers)).field? "apiVersion" = none := by
    rw [stripManifestDefaults, PolicyManifest.toJson, field_strip_record (by simp)]
    simp [List.lookup_cons]
  rw [manifestOfDocument, hfield]
  exact decodePolicyManifest_strip providers m

/-- Comments in front of a document do not matter. -/
theorem Yaml.Laws.parse_commented {yaml : Yaml} (laws : yaml.Laws) {comments : List String}
    (h : ∀ comment ∈ comments, isLabel comment = true) (body : String) :
    yaml.parse (commented comments body) = yaml.parse body := by
  induction comments with
  | nil => rfl
  | cons comment comments ih =>
    rw [commented, List.foldr_cons, ← commented, laws.parse_comment _ _ (h _ List.mem_cons_self)]
    exact ih fun c hc => h c (List.mem_cons_of_mem _ hc)

theorem commented_append (comments comments' : List String) (body : String) :
    commented (comments ++ comments') body = commented comments (commented comments' body) :=
  List.foldr_append

/-- A line break in a comment leaves the rest of it uncommented. -/
theorem commented_break (comment rest : String) (comments : List String) (body : String) :
    commented ((comment ++ "\n" ++ rest) :: comments) body =
      commented [comment] (rest ++ "\n" ++ commented comments body) := by
  simp [commented, String.append_assoc]

theorem isLabel_append {a b : String} :
    isLabel (a ++ b) = true ↔ isLabel a = true ∧ isLabel b = true := by
  rw [isLabel, String.toList_append, List.all_append, Bool.and_eq_true]
  rfl

/-- The labels of a bundle stay within their lines. -/
structure LabelsStay (sourceLabel : String) (documents : List PolicyDocument) : Prop where
  bundle : isLabel sourceLabel = true
  sources : ∀ d ∈ documents, isLabel d.source = true
  names : ∀ d ∈ documents, ∀ name, d.fragment.policy.name = some name → isLabel name = true

/-- Where the labels stay on their lines, so do all comments of the header. -/
theorem LabelsStay.headerComments {sourceLabel : String} {documents : List PolicyDocument}
    (h : LabelsStay sourceLabel documents) :
    ∀ comment ∈ headerComments sourceLabel documents, isLabel comment = true := by
  intro comment hcomment
  rw [Cli.headerComments, List.mem_append, List.mem_append] at hcomment
  rcases hcomment with (hcomment | hcomment) | hcomment
  · simp only [bundleComments, List.mem_cons, List.not_mem_nil, or_false] at hcomment
    rcases hcomment with rfl | rfl | rfl | rfl | rfl
    · decide +kernel
    · decide +kernel
    · exact isLabel_append.2 ⟨by decide +kernel, h.bundle⟩
    · decide +kernel
    · decide +kernel
  · obtain ⟨d, hd, rfl⟩ := List.mem_map.1 hcomment
    have hsource := h.sources d hd
    unfold fragmentComment
    split
    · rename_i name hname
      simp only [isLabel_append]
      exact ⟨⟨⟨⟨by decide +kernel, hsource⟩, by decide +kernel⟩, h.names d hd name hname⟩,
        by decide +kernel⟩
    · exact isLabel_append.2 ⟨by decide +kernel, hsource⟩
  · rw [List.mem_singleton.1 hcomment]
    decide +kernel

/-- A rendered bundle means the bundle when it has no header, or when no label leaves its line. -/
theorem renderedBundle_rendersBack {yaml : Yaml} (laws : yaml.Laws) {bundle : PolicyBundle}
    {documents : List PolicyDocument} {composed : ComposedPolicy}
    (h : composeBundle bundle documents = .ok composed) (providers : List AuthProvider)
    (sourceLabel : String) (includeHeader : Bool)
    (hlabels : includeHeader = true → LabelsStay sourceLabel documents) :
    RendersBack yaml ⟨documents, composed, providers⟩
      (formatRenderedBundle yaml ⟨documents, composed, providers⟩ sourceLabel includeHeader) := by
  obtain ⟨hexpands, hgraph⟩ := expand_composed h
  refine ⟨composed.manifest, ?_, hexpands, hgraph⟩
  have hbody : (yaml.parse (yaml.print (stripManifestDefaults
      (composed.manifest.toJson providers)))).bind manifestOfDocument = some composed.manifest := by
    have hdistinct :=
      distinctKeys_strip [] _ (PolicyManifest.distinctKeys_toJson providers composed.manifest)
    rw [stripManifestDefaults, laws.parse_print _ hdistinct, Option.bind_some]
    exact manifestOfDocument_strip providers composed.manifest
  rw [parseManifest, formatRenderedBundle]
  cases includeHeader with
  | false => exact hbody
  | true =>
    rw [if_pos rfl, laws.parse_commented (hlabels rfl).headerComments]
    exact hbody

/-! ### One document -/

/-- A document that declares one role, under the name of its policy. -/
def teamDocument (name : String) : PolicyDocument where
  source := "team.yaml"
  fragment :=
    { policy := { name := some name }
      scope := { roles := ["app"] }
      roles := [{ name := "app" }] }

/-- A bundle of one document. -/
def teamBundle : PolicyBundle where
  sources := [⟨"team.yaml"⟩]

/-- The value of the document's manifest once it is cleared. -/
def appValue : Json := .obj [("roles", .arr [.obj [("name", .str "app")]])]

/-- What follows the comments at the front of a text. -/
def skipComments : Bool → List Char → List Char
  | _, [] => []
  | true, c :: cs => if c = '\n' then skipComments false cs else skipComments true cs
  | false, c :: cs => if c = '#' then skipComments true cs else c :: cs

open Classical in
/-- The value of `appValue` in block style, every other value in flow style. -/
noncomputable def sampleText (v : Json) : List Char :=
  if v = appValue then "roles:\n- name: app\n".toList else v.render ++ ['\n']

/-- A printer and the parser of what it prints, which refuses repeated keys. -/
noncomputable def sampleYaml : Yaml where
  print v := String.ofList (sampleText v)
  parse text :=
    (Function.partialInv sampleText (skipComments false text.toList)).filter Json.distinctKeys

theorem sampleText_appValue : sampleText appValue = "roles:\n- name: app\n".toList := if_pos rfl

theorem sampleText_ne_cons {c : Char} (hshape : shapeOfChar c = 3) (hdigit : c.isDigit = false)
    (hminus : c ≠ '-') (hc : c ≠ 'r') (v : Json) (cs : List Char) : sampleText v ≠ c :: cs := by
  unfold sampleText
  split_ifs
  · intro h
    exact hc (List.cons.inj h).1.symm
  · exact v.render_append_ne_cons hshape hdigit hminus _ _

/-- Different values have different texts. -/
theorem sampleText_injective : Function.Injective sampleText := by
  -- Flow style never starts with the first letter of the block text.
  have hflow : ∀ v : Json, v.render ++ ['\n'] ≠ "roles:\n- name: app\n".toList := fun v =>
    v.render_append_ne_cons (by decide) (by decide) (by decide) _ _
  intro v w h
  unfold sampleText at h
  split_ifs at h with hv hw hw
  · rw [hv, hw]
  · exact absurd h.symm (hflow w)
  · exact absurd h (hflow v)
  · exact Json.render_injective (List.append_cancel_right h)

theorem skipComments_of_ne {cs : List Char} (h : ∀ rest, cs ≠ '#' :: rest) :
    skipComments false cs = cs := by
  cases cs with
  | nil => rfl
  | cons c cs =>
    have hc : c ≠ '#' := fun hc => h cs (by rw [hc])
    rw [skipComments, if_neg hc]

/-- A comment is skipped up to the end of its line. -/
theorem skipComments_comment {comment : List Char} (h : '\n' ∉ comment) (rest : List Char) :
    skipComments true (comment ++ '\n' :: rest) = skipComments false rest := by
  induction comment with
  | nil => rfl
  | cons c comment ih =>
    rw [List.mem_cons, not_or] at h
    rw [List.cons_append, skipComments, if_neg (Ne.symm h.1), ih h.2]

/-- The sample printer and parser obey the laws. -/
theorem sampleYaml_laws : sampleYaml.Laws where
  parse_print v hdistinct := by
    have hprinted : (sampleYaml.print v).toList = sampleText v := by
      simp [sampleYaml]
    have hskip := skipComments_of_ne
      (sampleText_ne_cons (by decide) (by decide) (by decide) (by decide) v)
    have hinverse : Function.partialInv sampleText (skipComments false
        (sampleYaml.print v).toList) = some v := by
      rw [hprinted, hskip]
      exact Function.partialInv_left sampleText_injective v
    rw [show sampleYaml.parse (sampleYaml.print v) = (Function.partialInv sampleText
      (skipComments false (sampleYaml.print v).toList)).filter Json.distinctKeys from rfl,
      hinverse, Option.filter_some, if_pos hdistinct]
  parse_comment comment rest hcomment := by
    have hbreak : '\n' ∉ comment.toList := by
      intro hmem
      have hall := List.all_eq_true.1 hcomment _ hmem
      exact absurd hall (by decide)
    have htext : ("#" ++ comment ++ "\n" ++ rest).toList =
        '#' :: (comment.toList ++ '\n' :: rest.toList) := by
      simp
    refine congrArg (fun text => (Function.partialInv sampleText text).filter Json.distinctKeys) ?_
    rw [htext, skipComments, if_pos rfl, skipComments_comment hbreak]
  parse_reserved rest := by
    have hskip : skipComments false ("@" ++ rest).toList = '@' :: rest.toList := by
      rw [String.toList_append]
      rfl
    have hparse : sampleYaml.parse ("@" ++ rest) =
        (Function.partialInv sampleText ('@' :: rest.toList)).filter Json.distinctKeys := by
      rw [← hskip]
      rfl
    have hnone : Function.partialInv sampleText ('@' :: rest.toList) = none := by
      refine dif_neg ?_
      rintro ⟨v, hv⟩
      exact sampleText_ne_cons (by decide) (by decide) (by decide) (by decide) v _ hv
    rw [hparse, hnone]
    rfl

/-- The document under its plain name: the rendered text is the header and the block text, and it
is read back. -/
theorem teamBundle_rendersBack : ∃ composed,
    composeBundle teamBundle [teamDocument "team"] = .ok composed ∧
    sampleYaml.print (stripManifestDefaults (composed.manifest.toJson [])) =
      "roles:\n- name: app\n" ∧
    RendersBack sampleYaml ⟨[teamDocument "team"], composed, []⟩
      (formatRenderedBundle sampleYaml ⟨[teamDocument "team"], composed, []⟩ "bundle.yaml"
        true) := by
  have hmanifest : (composeBundle teamBundle [teamDocument "team"]).toOption.any (fun c =>
      decide (c.manifest = { roles := [{ name := "app" }] })) = true := by decide +kernel
  cases hc : composeBundle teamBundle [teamDocument "team"] with
  | error e =>
    rw [hc] at hmanifest
    cases hmanifest
  | ok composed =>
    rw [hc] at hmanifest
    have hvalue : stripManifestDefaults (composed.manifest.toJson []) = appValue := by
      rw [of_decide_eq_true hmanifest]
      rfl
    refine ⟨composed, rfl, ?_, renderedBundle_rendersBack sampleYaml_laws hc [] "bundle.yaml" true
      fun _ => ⟨by decide +kernel, by decide +kernel, ?_⟩⟩
    · refine (congrArg String.ofList ?_).trans String.ofList_toList
      rw [hvalue, sampleText_appValue]
    · intro d hd name hname
      rw [List.mem_singleton.1 hd] at hname
      cases hname
      decide +kernel

/-- The name of the policy has a line break: what follows it is not a comment, and no parser accepts
the rendered text. -/
theorem brokenName_not_accepted : ∃ composed,
    composeBundle teamBundle [teamDocument "team\n@platform"] = .ok composed ∧
    ∀ yaml : Yaml, yaml.Laws →
      ¬ RendersBack yaml ⟨[teamDocument "team\n@platform"], composed, []⟩
        (formatRenderedBundle yaml ⟨[teamDocument "team\n@platform"], composed, []⟩ "bundle.yaml"
          true) := by
  have hok : (composeBundle teamBundle [teamDocument "team\n@platform"]).isOk = true := by
    decide +kernel
  cases hc : composeBundle teamBundle [teamDocument "team\n@platform"] with
  | error e =>
    rw [hc] at hok
    cases hok
  | ok composed =>
    refine ⟨composed, rfl, fun yaml laws h => ?_⟩
    obtain ⟨m, hm, -⟩ := h
    -- The header up to the line break is comments; the reserved indicator follows.
    have hfragment : fragmentComment (teamDocument "team\n@platform") =
        "   - team.yaml (team" ++ "\n" ++ "@platform)" := by
      decide +kernel
    have hlabels : ∀ comment ∈ bundleComments "bundle.yaml", isLabel comment = true := by
      decide +kernel
    have hname : ∀ comment ∈ ["   - team.yaml (team"], isLabel comment = true := by decide +kernel
    rw [parseManifest, formatRenderedBundle, if_pos rfl, headerComments, List.append_assoc,
      commented_append, laws.parse_commented hlabels, List.map_singleton, List.singleton_append,
      hfragment, commented_break, laws.parse_commented hname] at hm
    have hrest : ∀ rest : String,
        "@platform)" ++ "\n" ++ rest = "@" ++ ("platform)\n" ++ rest) := by
      intro rest
      rw [← String.append_assoc]
      rfl
    rw [hrest, laws.parse_reserved] at hm
    cases hm

end PgRoles.Cli

import PgRoles.Core.ContentDigest
import PgRoles.Core.ManifestJson
import PgRoles.Operator.PolicySpec

/-!
# What the content digest binds

A candidate is reviewed and later promoted by content digest. The digest is computed over the
canonical form of the serialised content, which drops empty objects at every depth. In most of the
content an empty object cannot occur, or means that nothing is there; an empty profile and an empty
`password` or `generate` block are the exceptions. `dropEmptyBlocks` takes these blocks out of a
content, and the canonical form determines exactly what remains (`canonicalize_content_iff`).
-/

set_option autoImplicit false

namespace PgRoles.Operator

open Std PgRoles.Core PgRoles.Lib

/-! ## The serialised content -/

/-- The default privileges of a resource's profile write the role even when it is absent. -/
def defaultPrivilegeGrantSpecJson (grant : DefaultPrivilegeGrant) : Json :=
  .record [("role", some (.nullable (textField grant.role))),
    ("privileges", some (privilegeListJson grant.privileges)),
    ("on_type", some (objectTypeJson grant.onType)), ("ensure", ensureField grant.ensure)]

/-- A profile as the policy's types write it. -/
def profileSpecJson (profile : Profile) : Json :=
  profile.toJsonWith defaultPrivilegeGrantSpecJson

/-- A reference to a Secret. -/
def SecretReference.toJson (reference : SecretReference) : Json :=
  .record [("name", some (.str reference.name))]

/-- A natural number. -/
def natJson (n : Nat) : Json := .int (Int.ofNat n)

/-- What a generated password is to look like; unset members are null. -/
def GeneratePasswordSpec.toJson (spec : GeneratePasswordSpec) : Json :=
  .record [("length", some (.nullable (spec.length.map natJson))),
    ("secretName", some (.nullable (textField spec.secretName))),
    ("secretKey", some (.nullable (textField spec.secretKey)))]

/-- Where a password comes from; unset members are null. -/
def PasswordSpec.toJson (spec : PasswordSpec) : Json :=
  .record [("secretRef", some (.nullable (spec.secretRef.map SecretReference.toJson))),
    ("secretKey", some (.nullable (textField spec.secretKey))),
    ("generate", some (.nullable (spec.generate.map GeneratePasswordSpec.toJson)))]

/-- A role; unset members are null, but for those that the source skips. -/
def RoleSpec.toJson (role : RoleSpec) : Json :=
  .record [("name", some (.str role.name)), ("external", some (.bool role.external)),
    ("preserve_undeclared_grants", some (.bool role.preserveUndeclaredGrants)),
    ("login", some (.nullable (flagField role.login))),
    ("superuser", some (.nullable (flagField role.superuser))),
    ("createdb", some (.nullable (flagField role.createdb))),
    ("createrole", some (.nullable (flagField role.createrole))),
    ("inherit", some (.nullable (flagField role.inherit))),
    ("replication", some (.nullable (flagField role.replication))),
    ("bypassrls", some (.nullable (flagField role.bypassrls))),
    ("connection_limit", some (.nullable (role.connectionLimit.map .int))),
    ("comment", some (.nullable (textField role.comment))),
    ("password", some (.nullable (role.password.map PasswordSpec.toJson))),
    ("password_valid_until", some (.nullable (textField role.passwordValidUntil))),
    ("config", configField role.config)]

/-- A mode as the policy spells it. -/
def reconciliationModeText : ReconciliationMode → String
  | .authoritative => "authoritative"
  | .additive => "additive"
  | .adopt => "adopt"

/-- The content of a policy as its types write it. -/
def PolicyContent.toJson (content : PolicyContent) : Json :=
  .record [("reconciliation_mode", some (.str (reconciliationModeText content.reconciliationMode))),
    ("default_owner", some (.nullable (textField content.defaultOwner))),
    ("role_pattern", textField content.rolePattern),
    ("profiles", some (.ofMap (content.profiles.map fun _ profile => profileSpecJson profile))),
    ("schemas", some (.arr (content.schemas.map SchemaBinding.toJson))),
    ("roles", some (.arr (content.roles.map RoleSpec.toJson))),
    ("grants", some (.arr (content.grants.map Grant.toJson))),
    ("default_privileges",
      some (.arr (content.defaultPrivileges.map DefaultPrivilege.toJson))),
    ("memberships", some (.arr (content.memberships.map Membership.toJson))),
    ("retirements", some (.arr (content.retirements.map RoleRetirement.toJson)))]

/-- The canonical content digest of a content. -/
def PolicyContent.contentDigest (sha256 : ByteArray → String) (content : PolicyContent) : String :=
  "sha256:" ++ sha256 (canonicalContentBytes content.toJson)

/-! ## What the canonical form keeps of a field -/

section Fields

@[simp] theorem kept_nullable (v : Option Json) : kept (.nullable v) = v.bind kept := by
  cases v <;> rfl

/-- An optional value of a kind that is always kept. -/
theorem bind_kept_iff {T : Type} {encode : T → Json}
    (hkept : ∀ a, kept (encode a) = some (encode a)) (hinj : Function.Injective encode)
    {o o' : Option T} :
    (o.map encode).bind kept = (o'.map encode).bind kept ↔ o = o' := by
  have hmap : ∀ o : Option T, (o.map encode).bind kept = o.map encode := by
    intro o
    cases o with
    | none => rfl
    | some a => exact hkept a
  rw [hmap, hmap, (Option.map_injective hinj).eq_iff]

/-- An optional value; `norm` is what its canonical form determines, nothing if it is dropped. -/
theorem option_kept_iff {T N : Type} {encode : T → Json} {norm : T → Option N}
    (hnone : ∀ a, kept (encode a) = none ↔ norm a = none)
    (hiff : ∀ a b, kept (encode a) = kept (encode b) ↔ norm a = norm b) {o o' : Option T} :
    (o.map encode).bind kept = (o'.map encode).bind kept ↔ o.bind norm = o'.bind norm := by
  cases o with
  | none =>
    cases o' with
    | none => simp
    | some b => simpa [eq_comm] using hnone b
  | some a =>
    cases o' with
    | none => simpa using hnone a
    | some b => simpa using hiff a b

theorem textField_kept_iff {o o' : Option String} :
    (textField o).bind kept = (textField o').bind kept ↔ o = o' :=
  bind_kept_iff kept_str fun _ _ => Json.str.inj

theorem flagField_kept_iff {o o' : Option Bool} :
    (flagField o).bind kept = (flagField o').bind kept ↔ o = o' :=
  bind_kept_iff kept_bool fun _ _ => Json.bool.inj

theorem int_kept_iff {o o' : Option Int} :
    (o.map Json.int).bind kept = (o'.map Json.int).bind kept ↔ o = o' :=
  bind_kept_iff kept_int fun _ _ => Json.int.inj

theorem nat_kept_iff {o o' : Option Nat} :
    (o.map natJson).bind kept = (o'.map natJson).bind kept ↔ o = o' :=
  bind_kept_iff (fun n => kept_int (Int.ofNat n)) fun _ _ h => Int.ofNat.inj (Json.int.inj h)

theorem setFlagField_kept_iff {b b' : Bool} :
    (setFlagField b).bind kept = (setFlagField b').bind kept ↔ b = b' := by
  cases b <;> cases b' <;> simp [setFlagField]

theorem ensureField_kept_iff {e e' : Ensure} :
    (ensureField e).bind kept = (ensureField e').bind kept ↔ e = e' := by
  cases e <;> cases e' <;> simp [ensureField]

/-- A list of values is kept as the list of their canonical forms. -/
theorem list_kept_iff {T N : Type} {encode : T → Json} {norm : T → N}
    (h : ∀ a b, canonicalize (encode a) = canonicalize (encode b) ↔ norm a = norm b)
    {l l' : List T} :
    kept (.arr (l.map encode)) = kept (.arr (l'.map encode)) ↔ l.map norm = l'.map norm := by
  rw [kept_arr_iff, List.map_map, List.map_map]
  induction l generalizing l' with
  | nil => cases l' <;> simp
  | cons a l ih => cases l' <;> simp [ih, h]

/-- What is kept of a list tells the list when its items are told apart. -/
theorem list_kept_iff_eq {T : Type} {encode : T → Json}
    (h : ∀ a b, canonicalize (encode a) = canonicalize (encode b) ↔ a = b) {l l' : List T} :
    kept (.arr (l.map encode)) = kept (.arr (l'.map encode)) ↔ l = l' := by
  rw [@list_kept_iff T T encode id h, List.map_id, List.map_id]

theorem privileges_kept_iff {l l' : List Privilege} :
    kept (privilegeListJson l) = kept (privilegeListJson l') ↔ l = l' := by
  refine list_kept_iff_eq fun a b => ?_
  simp [canonicalize, Privilege.display_injective.eq_iff]

theorem objectType_kept_iff {a b : ObjectType} :
    kept (objectTypeJson a) = kept (objectTypeJson b) ↔ a = b := by
  simp [objectTypeJson, ObjectType.display_injective.eq_iff]

theorem texts_kept_iff {l l' : List String} :
    kept (.ofTexts l) = kept (.ofTexts l') ↔ l = l' := by
  refine list_kept_iff_eq fun a b => ?_
  simp [canonicalize]

/-- A map of values that are always kept. -/
theorem map_kept_iff {T : Type} {encode : T → Json}
    (hkept : ∀ a, kept (encode a) = some (encode a)) (hinj : Function.Injective encode)
    {m m' : BTreeMap String T} :
    kept (.ofMap (m.map fun _ a => encode a)) = kept (.ofMap (m'.map fun _ a => encode a)) ↔
      m = m' := by
  rw [kept_ofMap_iff]
  simp only [ExtTreeMap.getElem?_map, bind_kept_iff hkept hinj]
  exact ⟨fun h => ExtTreeMap.ext_getElem? h, fun h k => by rw [h]⟩

/-- What is kept of settings tells the settings. -/
theorem configField_kept_iff {c c' : BTreeMap String String} :
    (configField c).bind kept = (configField c').bind kept ↔ c = c' := by
  -- The empty map is dropped whether or not it is written.
  have hkept : ∀ c : BTreeMap String String,
      (configField c).bind kept = kept (configMapJson c) := by
    intro c
    unfold configField
    split_ifs with hempty
    · rw [ExtTreeMap.isEmpty_iff.1 hempty]
      rfl
    · rfl
  rw [hkept, hkept]
  exact map_kept_iff kept_str fun _ _ => Json.str.inj

end Fields

/-! ## Declarations without empty blocks -/

section Declarations

theorem kept_profileObjectTarget_iff {a b : ProfileObjectTarget} :
    kept a.toJson = kept b.toJson ↔ a = b := by
  refine (kept_record_iff (by rfl) (by simp)).trans ?_
  cases a
  cases b
  simp [objectType_kept_iff, textField_kept_iff]

/-- The canonical form of a profile's grant tells the grant. -/
theorem canonicalize_profileGrant_iff (a b : ProfileGrant) :
    canonicalize a.toJson = canonicalize b.toJson ↔ a = b := by
  refine (canonicalize_record_iff (by rfl) (by simp)).trans ?_
  cases a
  cases b
  simp [privileges_kept_iff, kept_profileObjectTarget_iff, ensureField_kept_iff]

/-- The canonical form of a default-privilege grant tells the grant. -/
theorem canonicalize_defaultPrivilegeGrant_iff (a b : DefaultPrivilegeGrant) :
    canonicalize a.toJson = canonicalize b.toJson ↔ a = b := by
  refine (canonicalize_record_iff (by rfl) (by simp)).trans ?_
  cases a
  cases b
  simp [privileges_kept_iff, textField_kept_iff, objectType_kept_iff, ensureField_kept_iff]

theorem canonicalize_defaultPrivilegeGrantSpec_iff (a b : DefaultPrivilegeGrant) :
    canonicalize (defaultPrivilegeGrantSpecJson a) =
      canonicalize (defaultPrivilegeGrantSpecJson b) ↔ a = b := by
  refine (canonicalize_record_iff (by rfl) (by simp)).trans ?_
  cases a
  cases b
  simp [privileges_kept_iff, textField_kept_iff, objectType_kept_iff, ensureField_kept_iff]

/-- What is kept of a profile tells the profile. -/
theorem kept_profileSpec_iff {a b : Profile} :
    kept (profileSpecJson a) = kept (profileSpecJson b) ↔ a = b := by
  refine (kept_record_iff (by rfl) (by simp)).trans ?_
  cases a
  cases b
  simp [flagField_kept_iff, list_kept_iff_eq canonicalize_profileGrant_iff,
    list_kept_iff_eq canonicalize_defaultPrivilegeGrantSpec_iff, configField_kept_iff]

theorem canonicalize_schemaBinding_iff (a b : SchemaBinding) :
    canonicalize a.toJson = canonicalize b.toJson ↔ a = b := by
  refine (canonicalize_record_iff (by rfl) (by simp)).trans ?_
  cases a
  cases b
  simp [texts_kept_iff, textField_kept_iff]

theorem kept_objectTarget_iff {a b : ObjectTarget} : kept a.toJson = kept b.toJson ↔ a = b := by
  refine (kept_record_iff (by rfl) (by simp)).trans ?_
  cases a
  cases b
  simp [objectType_kept_iff, textField_kept_iff]

theorem canonicalize_grant_iff (a b : Grant) :
    canonicalize a.toJson = canonicalize b.toJson ↔ a = b := by
  refine (canonicalize_record_iff (by rfl) (by simp)).trans ?_
  cases a
  cases b
  simp [privileges_kept_iff, kept_objectTarget_iff, ensureField_kept_iff]

/-- A record with a field that is always kept is never dropped. -/
theorem kept_record_ne_none {fields : List (String × Option Json)} {name : String} {v : Json}
    (hnodup : (fields.map Prod.fst).Nodup) (hfield : (name, some v) ∈ fields)
    (hkept : kept v ≠ none) : kept (.record fields) ≠ none :=
  fun h => hkept ((kept_record_eq_none_iff hnodup).1 h (name, some v) hfield)

/-- What is kept of a scope tells the scope. -/
theorem scope_kept_iff {o o' : Option DefaultPrivilegeScopeSpec} :
    (o.map DefaultPrivilegeScopeSpec.toJson).bind kept =
      (o'.map DefaultPrivilegeScopeSpec.toJson).bind kept ↔ o = o' := by
  refine (@option_kept_iff _ _ _ some (fun a => ?_) (fun a b => ?_) o o').trans (by simp)
  · have hkept : kept a.toJson ≠ none :=
      kept_record_ne_none (by simp) List.mem_cons_self (by simp)
    simp [hkept]
  · refine (kept_record_iff (by rfl) (by simp)).trans ?_
    have htype : ∀ s s' : DefaultPrivilegeScopeType, s.text = s'.text ↔ s = s' := by
      intro s s'
      cases s <;> cases s' <;> simp [DefaultPrivilegeScopeType.text]
    cases a
    cases b
    simp [textField_kept_iff, htype]

/-- The canonical form of a default-privilege stanza tells the stanza. -/
theorem canonicalize_defaultPrivilege_iff (a b : DefaultPrivilege) :
    canonicalize a.toJson = canonicalize b.toJson ↔ a = b := by
  refine (canonicalize_record_iff (by rfl) (by simp)).trans ?_
  cases a
  cases b
  simp [textField_kept_iff, scope_kept_iff, list_kept_iff_eq canonicalize_defaultPrivilegeGrant_iff]

theorem canonicalize_memberSpec_iff (a b : MemberSpec) :
    canonicalize a.toJson = canonicalize b.toJson ↔ a = b := by
  refine (canonicalize_record_iff (by rfl) (by simp)).trans ?_
  cases a
  cases b
  simp [flagField_kept_iff]

/-- The canonical form of a membership tells the membership. -/
theorem canonicalize_membership_iff (a b : Membership) :
    canonicalize a.toJson = canonicalize b.toJson ↔ a = b := by
  refine (canonicalize_record_iff (by rfl) (by simp)).trans ?_
  cases a
  cases b
  simp [list_kept_iff_eq canonicalize_memberSpec_iff, setFlagField_kept_iff]

theorem canonicalize_roleRetirement_iff (a b : RoleRetirement) :
    canonicalize a.toJson = canonicalize b.toJson ↔ a = b := by
  refine (canonicalize_record_iff (by rfl) (by simp)).trans ?_
  cases a
  cases b
  simp [textField_kept_iff]

end Declarations

/-! ## Empty blocks -/

/-- An empty request for a generated password is taken out. -/
def GeneratePasswordSpec.dropEmpty (spec : GeneratePasswordSpec) : Option GeneratePasswordSpec :=
  if spec = {} then none else some spec

/-- An empty `generate` block is taken out. -/
def PasswordSpec.dropEmptyGenerate (spec : PasswordSpec) : PasswordSpec :=
  { spec with generate := spec.generate.bind GeneratePasswordSpec.dropEmpty }

/-- An empty `generate` block is taken out, and a password block that is empty then. -/
def PasswordSpec.dropEmpty (spec : PasswordSpec) : Option PasswordSpec :=
  if spec.dropEmptyGenerate = {} then none else some spec.dropEmptyGenerate

/-- An empty `password` block is taken out. -/
def RoleSpec.dropEmptyPassword (role : RoleSpec) : RoleSpec :=
  { role with password := role.password.bind PasswordSpec.dropEmpty }

/-- A content without its empty profiles and its empty `password` and `generate` blocks. -/
def PolicyContent.dropEmptyBlocks (content : PolicyContent) : PolicyContent :=
  { content with
    profiles := content.profiles.filter fun _ profile => profile ≠ {}
    roles := content.roles.map RoleSpec.dropEmptyPassword }

section EmptyBlocks

/-- Taking one value out tells all values apart. -/
theorem ite_none_some_inj {T : Type} [DecidableEq T] {e a b : T} :
    (if a = e then none else some a) = (if b = e then none else some b) ↔ a = b := by
  split_ifs with ha hb hb
  · simp [ha, hb]
  · simpa [ha] using Ne.symm hb
  · simpa [hb] using ha
  · simp

theorem kept_generate_iff (a b : GeneratePasswordSpec) :
    kept a.toJson = kept b.toJson ↔ a = b := by
  refine (kept_record_iff (by rfl) (by simp)).trans ?_
  cases a
  cases b
  simp [textField_kept_iff, nat_kept_iff]

theorem kept_emptyGenerate : kept (GeneratePasswordSpec.toJson {}) = none := by
  refine (kept_record_eq_none_iff (by simp)).2 ?_
  simp [textField]

/-- An empty request for a password counts as none. -/
theorem generate_kept_iff {o o' : Option GeneratePasswordSpec} :
    (o.map GeneratePasswordSpec.toJson).bind kept =
      (o'.map GeneratePasswordSpec.toJson).bind kept ↔
      o.bind GeneratePasswordSpec.dropEmpty = o'.bind GeneratePasswordSpec.dropEmpty := by
  refine option_kept_iff (fun a => ?_) fun a b => ?_
  · rw [← kept_emptyGenerate, kept_generate_iff]
    simp [GeneratePasswordSpec.dropEmpty]
  · rw [kept_generate_iff]
    exact ite_none_some_inj.symm

/-- What is kept of a password block tells the block but for an empty request in it. -/
theorem kept_password_iff (a b : PasswordSpec) :
    kept a.toJson = kept b.toJson ↔ a.dropEmptyGenerate = b.dropEmptyGenerate := by
  have hreference : ∀ o o' : Option SecretReference,
      (o.map SecretReference.toJson).bind kept = (o'.map SecretReference.toJson).bind kept ↔
        o = o' := by
    intro o o'
    refine (@option_kept_iff _ _ _ some (fun r => ?_) (fun r r' => ?_) o o').trans (by simp)
    · have hkept : kept r.toJson ≠ none :=
        kept_record_ne_none (by simp) List.mem_cons_self (by simp)
      simp [hkept]
    · refine (kept_record_iff (by rfl) (by simp)).trans ?_
      cases r
      cases r'
      simp
  refine (kept_record_iff (by rfl) (by simp)).trans ?_
  cases a
  cases b
  simp [hreference, textField_kept_iff, generate_kept_iff, PasswordSpec.dropEmptyGenerate]

theorem kept_emptyPassword : kept (PasswordSpec.toJson {}) = none := by
  refine (kept_record_eq_none_iff (by simp)).2 ?_
  simp [textField]

/-- An empty password block counts as none. -/
theorem password_kept_iff {o o' : Option PasswordSpec} :
    (o.map PasswordSpec.toJson).bind kept = (o'.map PasswordSpec.toJson).bind kept ↔
      o.bind PasswordSpec.dropEmpty = o'.bind PasswordSpec.dropEmpty := by
  refine option_kept_iff (fun a => ?_) fun a b => ?_
  · rw [← kept_emptyPassword, kept_password_iff]
    simp [PasswordSpec.dropEmpty, PasswordSpec.dropEmptyGenerate]
  · rw [kept_password_iff]
    exact ite_none_some_inj.symm

/-- The canonical form of a role tells the role but for empty password blocks. -/
theorem canonicalize_roleSpec_iff (a b : RoleSpec) :
    canonicalize a.toJson = canonicalize b.toJson ↔
      a.dropEmptyPassword = b.dropEmptyPassword := by
  refine (canonicalize_record_iff (by rfl) (by simp)).trans ?_
  cases a
  cases b
  simp [flagField_kept_iff, int_kept_iff, textField_kept_iff, password_kept_iff,
    configField_kept_iff, RoleSpec.dropEmptyPassword]

theorem kept_emptyProfile : kept (profileSpecJson {}) = none := by
  refine (kept_record_eq_none_iff (by simp)).2 ?_
  simp [flagField, configField]

/-- Of a map of profiles, those that are not empty are kept. -/
theorem profiles_kept_iff {m m' : BTreeMap String Profile} :
    kept (.ofMap (m.map fun _ profile => profileSpecJson profile)) =
      kept (.ofMap (m'.map fun _ profile => profileSpecJson profile)) ↔
    (m.filter fun _ profile => profile ≠ {}) = m'.filter fun _ profile => profile ≠ {} := by
  have hnone : ∀ p : Profile, kept (profileSpecJson p) = none ↔
      (if p = {} then none else some p) = none := by
    intro p
    rw [← kept_emptyProfile, kept_profileSpec_iff]
    simp
  have hentry : ∀ o o' : Option Profile, (o.map profileSpecJson).bind kept =
      (o'.map profileSpecJson).bind kept ↔ o.filter (· ≠ {}) = o'.filter (· ≠ {}) := by
    intro o o'
    refine (option_kept_iff hnone fun a b => ?_).trans ?_
    · exact kept_profileSpec_iff.trans ite_none_some_inj.symm
    · have hfilter : ∀ o : Option Profile, o.filter (· ≠ {}) =
          o.bind fun p => if p = {} then none else some p := by
        intro o
        cases o <;> simp [Option.filter]
      rw [hfilter, hfilter]
  rw [kept_ofMap_iff]
  simp only [ExtTreeMap.getElem?_map, hentry]
  constructor
  · intro h
    refine ExtTreeMap.ext_getElem? fun k => ?_
    rw [getElem?_filter_eq, getElem?_filter_eq]
    exact h k
  · intro h k
    have hk := congrArg (fun m : BTreeMap String Profile => m[k]?) h
    simpa only [getElem?_filter_eq] using hk

end EmptyBlocks

/-- The canonical form determines a content up to its empty blocks, and nothing else. -/
theorem canonicalize_content_iff {c c' : PolicyContent} :
    canonicalize c.toJson = canonicalize c'.toJson ↔ c.dropEmptyBlocks = c'.dropEmptyBlocks := by
  have hmode : ∀ m m' : ReconciliationMode,
      reconciliationModeText m = reconciliationModeText m' ↔ m = m' := by
    intro m m'
    cases m <;> cases m' <;> simp [reconciliationModeText]
  refine (canonicalize_record_iff (by rfl) (by simp)).trans ?_
  cases c
  cases c'
  simp only [List.map_cons, List.map_nil, List.cons.injEq, and_true, Option.bind_some,
    kept_nullable, kept_str, Option.some.injEq, Json.str.injEq, PolicyContent.mk.injEq, hmode,
    textField_kept_iff, profiles_kept_iff,
    list_kept_iff_eq canonicalize_schemaBinding_iff, list_kept_iff canonicalize_roleSpec_iff,
    list_kept_iff_eq canonicalize_grant_iff, list_kept_iff_eq canonicalize_defaultPrivilege_iff,
    list_kept_iff_eq canonicalize_membership_iff, list_kept_iff_eq canonicalize_roleRetirement_iff,
    PolicyContent.dropEmptyBlocks]
  tauto

/-! ## What a digest stands for -/

/-- The contents mean the same: one reconciliation mode, one manifest, and every role takes its
password from the same place. -/
structure SameMeaning (c c' : PolicyContent) : Prop where
  mode : c.reconciliationMode = c'.reconciliationMode
  manifest : c.toPolicyManifest = c'.toPolicyManifest
  passwords : c.roles.map (fun role => (role.name, role.password)) =
    c'.roles.map fun role => (role.name, role.password)

/-- A role is its definition in the manifest and its password. -/
theorem roles_eq_of_definitions {roles roles' : List RoleSpec}
    (hdefinitions : roles.map RoleSpec.toDefinition = roles'.map RoleSpec.toDefinition)
    (hpasswords : roles.map (fun role => (role.name, role.password)) =
      roles'.map fun role => (role.name, role.password)) : roles = roles' := by
  induction roles generalizing roles' with
  | nil => simpa [eq_comm] using hdefinitions
  | cons role roles ih =>
    cases roles' with
    | nil => simp at hdefinitions
    | cons role' roles' =>
      rw [List.map_cons, List.map_cons, List.cons.injEq] at hdefinitions hpasswords
      have hhead : role = role' := by
        have hdefinition := hdefinitions.1
        have hpassword := hpasswords.1
        cases role
        cases role'
        simp only [RoleSpec.toDefinition, RoleDefinition.mk.injEq, true_and] at hdefinition
        simp only [Prod.mk.injEq] at hpassword
        simp only [RoleSpec.mk.injEq]
        tauto
      rw [hhead, ih hdefinitions.2 hpasswords.2]

/-- Mode, manifest and passwords are all of a content. -/
theorem sameMeaning_iff {c c' : PolicyContent} : SameMeaning c c' ↔ c = c' := by
  constructor
  · intro h
    have hmanifest := h.manifest
    simp only [PolicyContent.toPolicyManifest, PolicyManifest.mk.injEq] at hmanifest
    have hroles := roles_eq_of_definitions hmanifest.2.2.2.2.1 h.passwords
    have hmode := h.mode
    cases c
    cases c'
    simp only [PolicyContent.mk.injEq] at *
    tauto
  · intro h
    subst h
    exact ⟨rfl, rfl, rfl⟩

/-- The contents differ, and by nothing but empty profiles and empty `password` and `generate`
blocks. -/
def DifferInEmptyBlocks (c c' : PolicyContent) : Prop :=
  c.dropEmptyBlocks = c'.dropEmptyBlocks ∧ c ≠ c'

instance (c c' : PolicyContent) : Decidable (DifferInEmptyBlocks c c') :=
  inferInstanceAs (Decidable (_ ∧ _))

/-- The canonical bytes bind what a content means exactly when the contents do not differ in empty
blocks alone; and ways of writing one content have the same bytes. -/
theorem contentBytes_bind_iff (c c' : PolicyContent) (v v' : Json) :
    ((canonicalContentBytes c.toJson = canonicalContentBytes c'.toJson → SameMeaning c c') ↔
      ¬ DifferInEmptyBlocks c c') ∧
    (SameContent v v' → canonicalContentBytes v = canonicalContentBytes v') := by
  refine ⟨?_, fun h => canonicalContentBytes_eq_iff.2 h.canonicalize_eq⟩
  rw [canonicalContentBytes_eq_iff, canonicalize_content_iff, sameMeaning_iff, DifferInEmptyBlocks,
    not_and, not_ne_iff]

/-- A policy with one login role and the password it is given. -/
def loginPolicy (password : Option PasswordSpec) : PolicyContent where
  roles := [{ name := "app", login := some true, password := password }]

/-- Requests for passwords of different lengths are told apart, and the order of the fields of a
content does not matter to its bytes. -/
theorem loginPolicy_bound :
    canonicalContentBytes (loginPolicy (some { generate := some { length := some 32 } })).toJson ≠
      canonicalContentBytes (loginPolicy (some { generate := some { length := some 48 } })).toJson ∧
    canonicalContentBytes (.obj [("roles", .arr []), ("default_owner", .str "app")]) =
      canonicalContentBytes (.obj [("default_owner", .str "app"), ("roles", .arr [])]) := by
  constructor
  · intro h
    have hmeaning := (contentBytes_bind_iff _ _ .null .null).1.2 (by decide +kernel) h
    have hpasswords := hmeaning.passwords
    simp [loginPolicy] at hpasswords
  · exact (contentBytes_bind_iff {} {} _ _).2 (.order (by simp) (.swap _ _ _))

/-- A role with a generated password and the role without a password have the same bytes. -/
theorem generatedPassword_unbound :
    canonicalContentBytes (loginPolicy (some { generate := some {} })).toJson =
      canonicalContentBytes (loginPolicy none).toJson ∧
    ¬ SameMeaning (loginPolicy (some { generate := some {} })) (loginPolicy none) := by
  constructor
  · rw [canonicalContentBytes_eq_iff, canonicalize_content_iff]
    decide +kernel
  · rw [sameMeaning_iff]
    decide +kernel

end PgRoles.Operator

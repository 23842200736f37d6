import PgRoles.Operator.KubernetesNames

/-!
# Secrets of generated passwords

A generated password is stored in a Secret under a key. The Secret's default name joins the words of
the policy name, `pgr` and the words of the role name by dashes, and is cut to the length of a
resource name (`toList_defaultGeneratedSecretName`). An existing Secret of that name is adopted as it
is, so two roles whose names read as the same words share one password. Passwords are kept apart
exactly where the words, or the names given in their place, differ (`passwordsApart_iff`).
-/

set_option autoImplicit false

namespace PgRoles.Operator

open PgRoles.Core PgRoles.Lib

/-! ## The words of a default name -/

/-- The words of the policy name, `pgr`, and the words of the role name. -/
def secretNameWords (policyName roleName : String) : List (List Char) :=
  segmentWords policyName "policy" ++ "pgr".toList :: segmentWords roleName "role"

/-- The words of a default name that fit into a resource name. -/
def fittedSecretWords (policyName roleName : String) : List (List Char) :=
  fitWords maxResourceNameLength (secretNameWords policyName roleName)

/-- A single word of lowercase letters. -/
theorem alnumWords_singleton {word : List Char} (hne : word ≠ [])
    (h : word.all isLowerAlnum = true) : AlnumWords [word] :=
  wordsOver_cons.2 ⟨⟨hne, List.all_eq_true.1 h⟩, wordsOver_nil _⟩

theorem alnumWords_secretNameWords (policyName roleName : String) :
    AlnumWords (secretNameWords policyName roleName) := by
  have hpgr : AlnumWords ["pgr".toList] := alnumWords_singleton (by decide) (by decide)
  refine wordsOver_append.2 ⟨?_, wordsOver_append.2 ⟨hpgr, ?_⟩⟩
  · exact alnumWords_segmentWords policyName (alnumWords_singleton (by decide) (by decide))
  · exact alnumWords_segmentWords roleName (alnumWords_singleton (by decide) (by decide))

theorem alnumWords_fittedSecretWords (policyName roleName : String) :
    AlnumWords (fittedSecretWords policyName roleName) :=
  wordsOver_fitWords (alnumWords_secretNameWords policyName roleName) _

theorem fittedSecretWords_ne_nil (policyName roleName : String) :
    fittedSecretWords policyName roleName ≠ [] := by
  have hne := segmentWords_ne_nil policyName "policy"
  unfold fittedSecretWords secretNameWords
  obtain ⟨w, ws, hcons⟩ := List.exists_cons_of_ne_nil hne
  rw [hcons, List.cons_append, fitWords, if_neg (by decide)]
  split_ifs <;> exact List.cons_ne_nil _ _

theorem isNameChar_of_alnumWords {ws : List (List Char)} (h : AlnumWords ws) :
    ∀ c ∈ ['-'].intercalate ws, isNameChar c = true := by
  intro c hc
  rcases exists_of_mem_intercalate hc with hsep | ⟨w, hw, hcw⟩
  · rw [List.mem_singleton.1 hsep]
    decide
  · simp [isNameChar, (h w hw).2 c hcw]

/-- A default name is the words that fit, joined by dashes. -/
theorem toList_defaultGeneratedSecretName (policyName roleName : String) :
    (defaultGeneratedSecretName policyName roleName).toList =
      ['-'].intercalate (fittedSecretWords policyName roleName) := by
  have hwords := alnumWords_secretNameWords policyName roleName
  have hname : (sanitizeDnsLabelSegment policyName "policy" ++ "-pgr-" ++
      sanitizeDnsLabelSegment roleName "role").toList =
        ['-'].intercalate (secretNameWords policyName roleName) := by
    rw [String.toList_append, String.toList_append, toList_sanitizeDnsLabelSegment,
      toList_sanitizeDnsLabelSegment, secretNameWords,
      intercalate_append (segmentWords_ne_nil _ _) (List.cons_ne_nil _ _),
      List.intercalate_cons_of_ne_nil (segmentWords_ne_nil _ _), List.append_assoc]
    rfl
  have hcut : (truncateNamePrefix (sanitizeDnsLabelSegment policyName "policy" ++ "-pgr-" ++
      sanitizeDnsLabelSegment roleName "role") maxResourceNameLength).toList =
        ['-'].intercalate (fittedSecretWords policyName roleName) := by
    rw [toList_truncateNamePrefix (by rw [hname]; exact isNameChar_of_alnumWords hwords), hname]
    refine rdropWhile_take_intercalate (by decide) (fun w hw => ⟨(hwords w hw).1, ?_⟩) _
    intro c hc
    have halnum := (hwords w hw).2 c hc
    simp [isTrimmed, ne_dot_of_isLowerAlnum halnum, ne_dash_of_isLowerAlnum halnum]
  unfold defaultGeneratedSecretName
  dsimp only
  -- the name is never empty, for the policy's first word fits
  rw [if_neg, hcut]
  rw [String.isEmpty_iff, ← String.toList_eq_nil_iff, hcut,
    intercalate_eq_nil (alnumWords_fittedSecretWords policyName roleName)]
  exact fittedSecretWords_ne_nil policyName roleName

/-- Two default names agree exactly when the words that fit do. -/
theorem defaultGeneratedSecretName_inj {policyName roleName policyName' roleName' : String} :
    defaultGeneratedSecretName policyName roleName =
        defaultGeneratedSecretName policyName' roleName' ↔
      fittedSecretWords policyName roleName = fittedSecretWords policyName' roleName' := by
  rw [← String.toList_inj, toList_defaultGeneratedSecretName, toList_defaultGeneratedSecretName]
  refine ⟨fun h => ?_, fun h => by rw [h]⟩
  have hdash : ∀ {ws : List (List Char)}, AlnumWords ws → WordsOver (· ≠ '-') ws :=
    fun hws w hw => ⟨(hws w hw).1, fun c hc => ne_dash_of_isLowerAlnum ((hws w hw).2 c hc)⟩
  exact intercalate_words_inj (hdash (alnumWords_fittedSecretWords _ _))
    (hdash (alnumWords_fittedSecretWords _ _)) h

/-! ## Where passwords are kept -/

/-- The name and key under which a generated password is stored. -/
def generatedSlot (policyName roleName : String) (generate : GeneratePasswordSpec) :
    String × String :=
  (generatedSecretName policyName roleName generate, generatedSecretKey generate)

/-- The password the operator generates for a role. -/
def RoleSpec.generated (role : RoleSpec) : Option GeneratePasswordSpec :=
  role.password.bind (·.generate)

/-- The roles of one policy with generated passwords keep them apart. -/
def RolesApart (policyName : String) (spec : PostgresPolicySpec) : Prop :=
  ∀ role ∈ spec.content.roles, ∀ role' ∈ spec.content.roles, role.name ≠ role'.name →
    ∀ generate generate', role.generated = some generate → role'.generated = some generate' →
      generatedSlot policyName role.name generate ≠ generatedSlot policyName role'.name generate'

/-- The roles of two policies that use default names keep their passwords apart. -/
def PoliciesApart (policyName : String) (spec : PostgresPolicySpec) (policyName' : String)
    (spec' : PostgresPolicySpec) : Prop :=
  ∀ role ∈ spec.content.roles, ∀ role' ∈ spec'.content.roles,
    ∀ generate generate', role.generated = some generate → role'.generated = some generate' →
      generate.secretName = none → generate'.secretName = none →
      generatedSlot policyName role.name generate ≠ generatedSlot policyName' role'.name generate'

/-- The given names differ; where one is not given, the words that fit into the default name stand
in its place. -/
def NamedApart (policyName roleName : String) (generate : GeneratePasswordSpec)
    (policyName' roleName' : String) (generate' : GeneratePasswordSpec) : Prop :=
  match generate.secretName, generate'.secretName with
  | some name, some name' => name ≠ name'
  | some name, none => name.toList ≠ ['-'].intercalate (fittedSecretWords policyName' roleName')
  | none, some name' => name'.toList ≠ ['-'].intercalate (fittedSecretWords policyName roleName)
  | none, none => fittedSecretWords policyName roleName ≠ fittedSecretWords policyName' roleName'

/-- Two passwords are kept apart by their keys or by the names. -/
theorem generatedSlot_ne_iff (policyName roleName : String) (generate : GeneratePasswordSpec)
    (policyName' roleName' : String) (generate' : GeneratePasswordSpec) :
    generatedSlot policyName roleName generate ≠ generatedSlot policyName' roleName' generate' ↔
      (generatedSecretKey generate = generatedSecretKey generate' →
        NamedApart policyName roleName generate policyName' roleName' generate') := by
  have hname : generatedSecretName policyName roleName generate =
      generatedSecretName policyName' roleName' generate' ↔
        ¬ NamedApart policyName roleName generate policyName' roleName' generate' := by
    unfold generatedSecretName NamedApart
    cases generate.secretName with
    | some name =>
      cases generate'.secretName with
      | some name' => simp
      | none => simp [← toList_defaultGeneratedSecretName, String.toList_inj]
    | none =>
      cases generate'.secretName with
      | some name' => simp [← toList_defaultGeneratedSecretName, String.toList_inj, eq_comm]
      | none => simp [defaultGeneratedSecretName_inj]
  rw [ne_eq, generatedSlot, generatedSlot, Prod.mk.injEq, hname]
  tauto

/-! ## When passwords are kept apart -/

/-- The generated passwords of a policy are kept apart, and those of two policies under default
names, exactly when passwords with one key have names, or words in their place, that differ. -/
theorem passwordsApart_iff (policyName : String) (spec : PostgresPolicySpec) (policyName' : String)
    (spec' : PostgresPolicySpec) :
    (RolesApart policyName spec ∧ PoliciesApart policyName spec policyName' spec') ↔
      (∀ role ∈ spec.content.roles, ∀ role' ∈ spec.content.roles, role.name ≠ role'.name →
        ∀ generate generate', role.generated = some generate → role'.generated = some generate' →
          generatedSecretKey generate = generatedSecretKey generate' →
          NamedApart policyName role.name generate policyName role'.name generate') ∧
      ∀ role ∈ spec.content.roles, ∀ role' ∈ spec'.content.roles,
        ∀ generate generate', role.generated = some generate → role'.generated = some generate' →
          generate.secretName = none → generate'.secretName = none →
          generatedSecretKey generate = generatedSecretKey generate' →
          fittedSecretWords policyName role.name ≠ fittedSecretWords policyName' role'.name := by
  refine and_congr ?_ ?_
  · unfold RolesApart
    simp only [generatedSlot_ne_iff]
  · unfold PoliciesApart
    simp only [generatedSlot_ne_iff]
    have hdefault : ∀ {role role' : String} {generate generate' : GeneratePasswordSpec},
        generate.secretName = none → generate'.secretName = none →
        (NamedApart policyName role generate policyName' role' generate' ↔
          fittedSecretWords policyName role ≠ fittedSecretWords policyName' role') := by
      intro role role' generate generate' h h'
      unfold NamedApart
      rw [h, h']
    constructor
    · intro h role hrole role' hrole' generate generate' hg hg' hnone hnone' hkey
      exact (hdefault hnone hnone').1 (h role hrole role' hrole' _ _ hg hg' hnone hnone' hkey)
    · intro h role hrole role' hrole' generate generate' hg hg' hnone hnone' hkey
      exact (hdefault hnone hnone').2 (h role hrole role' hrole' _ _ hg hg' hnone hnone' hkey)

/-- A login role with a generated password and every default. -/
def generatingRole (name : String) : RoleSpec :=
  { name := name, login := some true, password := some { generate := some {} } }

/-- A policy with such roles. -/
def generatingPolicy (names : List String) : PostgresPolicySpec :=
  { connection := {}, content := { roles := names.map generatingRole } }

/-- An underscore and a dash separate words alike, so the two roles share their password. -/
theorem app_user_shares_password :
    ¬ ∀ (policyName : String) (spec : PostgresPolicySpec) (policyName' : String)
      (spec' : PostgresPolicySpec), spec.validatePasswordSpecs policyName = .ok () →
      spec'.validatePasswordSpecs policyName' = .ok () → policyName ≠ policyName' →
      RolesApart policyName spec ∧ PoliciesApart policyName spec policyName' spec' := by
  intro h
  obtain ⟨hroles, -⟩ := h "app" (generatingPolicy ["app_user", "app-user"]) "other"
    (generatingPolicy []) (by decide +kernel) rfl (by decide)
  refine hroles (generatingRole "app_user") ?_ (generatingRole "app-user") ?_ (by decide) {} {} rfl
    rfl (by decide +kernel)
  · exact List.mem_cons_self
  · exact List.mem_cons_of_mem _ List.mem_cons_self

/-- Two policies meet where the words of one name continue in the other. -/
example : defaultGeneratedSecretName "a" "b-pgr-c" = defaultGeneratedSecretName "a-pgr-b" "c" := by
  decide +kernel

end PgRoles.Operator

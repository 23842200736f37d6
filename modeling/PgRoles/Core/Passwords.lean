import PgRoles.Core.ExpandOrder
import PgRoles.Core.PlanOrder

/-!
# Passwords in a plan

A plan carries no passwords. Declared sources are resolved to cleartext from the environment, and
for each resolved role one `setPassword` with a verifier joins the plan: directly after the creation
of a role that the plan creates, behind the plan for a role that exists. The verifier is salted, so
each call of it may answer differently; the position of its statement stands for the call.

`redactPasswordChanges_injectPasswordChanges` gives the injected plan in closed form, up to the
verifiers.
-/

set_option autoImplicit false

namespace PgRoles.Core

open Std PgRoles.Lib

/-! ## Resolution -/

/-- Errors that can occur during password resolution. -/
inductive PasswordResolutionError where
  | missingEnvVar (role envVar : String)
  | emptyPassword (role envVar : String)
  deriving DecidableEq, Repr

/-- A managed role with a password source; an external role never takes part. -/
def RoleDefinition.managesPassword (role : RoleDefinition) : Bool :=
  !role.external && role.password.isSome

/-- The value of a role's source in the environment. -/
def readPassword (env : String → Option String) (role : String) (source : PasswordSource) :
    Except PasswordResolutionError String :=
  match env source.fromEnv with
  | none => .error (.missingEnvVar role source.fromEnv)
  | some value => if value.isEmpty then .error (.emptyPassword role source.fromEnv) else .ok value

/-- The passwords with that of one more role. External roles get none. -/
def resolvePassword (env : String → Option String) (resolved : BTreeMap String String)
    (role : RoleDefinition) : Except PasswordResolutionError (BTreeMap String String) :=
  if role.external then .ok resolved
  else
    match role.password with
    | none => .ok resolved
    | some source => (readPassword env role.name source).map (resolved.insert role.name)

/-- Resolve password sources from environment variables: role name to cleartext. -/
def resolvePasswords (env : String → Option String) (roles : List RoleDefinition) :
    Except PasswordResolutionError (BTreeMap String String) :=
  roles.foldlM (resolvePassword env) ∅

/-! ## Injection and redaction -/

/-- The role that a change creates. -/
def createdRole? : Change → Option String
  | .createRole name _ => some name
  | _ => none

/-- The role whose password a change sets. -/
def passwordRole? : Change → Option String
  | .setPassword name _ => some name
  | _ => none

/-- Roles have `createRole` in the plan. -/
def createdRoles (changes : List Change) : BTreeSet String :=
  ExtTreeSet.ofList (changes.filterMap createdRole?) compare

section Injection

variable (verifier : Nat → String → String)

/-- Push the statement that sets a role's password. -/
def pushPassword (result : List Change) (name password : String) : List Change :=
  result ++ [.setPassword name (verifier result.length password)]

/-- Push a change, and the password of the role it creates. -/
def injectAtCreate (resolved : BTreeMap String String) (result : List Change) (change : Change) :
    List Change :=
  match (createdRole? change).bind fun name => resolved[name]?.map fun p => (name, p) with
  | some (name, password) => pushPassword verifier (result ++ [change]) name password
  | none => result ++ [change]

/-- Push the password of a role that the plan does not create. -/
def injectForExisting (created : BTreeSet String) (result : List Change)
    (entry : String × String) : List Change :=
  if created.contains entry.1 then result else pushPassword verifier result entry.1 entry.2

/-- Inject `setPassword` changes into a plan for roles that declare passwords. -/
def injectPasswordChanges (changes : List Change) (resolved : BTreeMap String String) :
    List Change :=
  if resolved.isEmpty then changes
  else
    resolved.toList.foldl (injectForExisting verifier (createdRoles changes))
      (changes.foldl (injectAtCreate verifier resolved) [])

end Injection

/-- What is shown in place of a password. -/
def redactedPassword : String := "[REDACTED]"

/-- A change as it may be shown. -/
def redactPassword : Change → Change
  | .setPassword name _ => .setPassword name redactedPassword
  | change => change

/-- Redact credential material while preserving everything else. -/
def redactPasswordChanges (changes : List Change) : List Change := changes.map redactPassword

/-! ## The closed form -/

/-- A change with the redacted password of the role it creates behind it. -/
def withPassword (has : String → Bool) (change : Change) : List Change :=
  match (createdRole? change).filter has with
  | some name => [change, .setPassword name redactedPassword]
  | none => [change]

/-- A plan with the redacted passwords of some roles at their creations and of others behind it. -/
def placePasswords (has : String → Bool) (others : List String) (changes : List Change) :
    List Change :=
  changes.flatMap (withPassword has) ++
    others.map fun name => .setPassword name redactedPassword

section ClosedForm

variable {verifier : Nat → String → String} {resolved : BTreeMap String String}
  {changes : List Change} {c : Change}

theorem redactPassword_eq_self (h : c.phase ≠ .password) : redactPassword c = c := by
  cases c with
  | setPassword name password => exact absurd rfl h
  | _ => rfl

theorem createdRole?_redactPassword (c : Change) :
    createdRole? (redactPassword c) = createdRole? c := by
  cases c <;> rfl

theorem passwordRole?_redactPassword (c : Change) :
    passwordRole? (redactPassword c) = passwordRole? c := by
  cases c <;> rfl

theorem phase_redactPassword (c : Change) : (redactPassword c).phase = c.phase := by
  cases c <;> rfl

theorem redact_pushPassword (result : List Change) (name password : String) :
    (pushPassword verifier result name password).map redactPassword =
      result.map redactPassword ++ [.setPassword name redactedPassword] := by
  rw [pushPassword, List.map_append]
  rfl

/-- Passwords of created roles are redacted as placeholders. -/
theorem redact_injectAtCreate (result : List Change) (hc : c.phase ≠ .password) :
    (injectAtCreate verifier resolved result c).map redactPassword =
      result.map redactPassword ++ withPassword resolved.contains c := by
  have hself := redactPassword_eq_self hc
  cases hcreated : createdRole? c with
  | none => simp [injectAtCreate, withPassword, hcreated, hself]
  | some name =>
      cases hname : resolved[name]? with
      | none =>
          have hnot : resolved.contains name = false := by
            rw [ExtTreeMap.contains_eq_isSome_getElem?, hname]
            rfl
          simp [injectAtCreate, withPassword, hcreated, hname, hself, Option.filter, hnot]
      | some password =>
          have hhas : resolved.contains name = true := by
            rw [ExtTreeMap.contains_eq_isSome_getElem?, hname]
            rfl
          simp [injectAtCreate, withPassword, hcreated, hname, hself, Option.filter, hhas,
            redact_pushPassword]

/-- So they are over a whole plan. -/
theorem redact_foldl_injectAtCreate (result : List Change)
    (h : ∀ c ∈ changes, c.phase ≠ .password) :
    (changes.foldl (injectAtCreate verifier resolved) result).map redactPassword =
      result.map redactPassword ++ changes.flatMap (withPassword resolved.contains) := by
  induction changes generalizing result with
  | nil => simp
  | cons c changes ih =>
      obtain ⟨hc, hrest⟩ := List.forall_mem_cons.1 h
      rw [List.foldl_cons, ih _ hrest, redact_injectAtCreate result hc, List.flatMap_cons,
        List.append_assoc]

/-- So are the passwords of roles that exist. -/
theorem redact_foldl_injectForExisting (created : BTreeSet String)
    (entries : List (String × String)) (result : List Change) :
    (entries.foldl (injectForExisting verifier created) result).map redactPassword =
      result.map redactPassword ++
        ((entries.map Prod.fst).filter fun name => !created.contains name).map fun name =>
          .setPassword name redactedPassword := by
  induction entries generalizing result with
  | nil => simp
  | cons entry entries ih =>
      rw [List.foldl_cons, ih, injectForExisting]
      cases hcreated : created.contains entry.1 with
      | true => simp [hcreated]
      | false => simp [hcreated, redact_pushPassword]

theorem withPassword_of_none {has : String → Bool} (h : ∀ name, has name = false) (c : Change) :
    withPassword has c = [c] := by
  have hnone : (createdRole? c).filter has = none := by
    rw [Option.filter_eq_none_iff]
    intro name _
    simp [h name]
  rw [withPassword, hnone]

/-- The injected plan, up to the verifiers. -/
theorem redactPasswordChanges_injectPasswordChanges (h : ∀ c ∈ changes, c.phase ≠ .password) :
    redactPasswordChanges (injectPasswordChanges verifier changes resolved) =
      placePasswords resolved.contains
        (resolved.keys.filter fun name => !(createdRoles changes).contains name) changes := by
  rw [redactPasswordChanges, injectPasswordChanges, placePasswords]
  split_ifs with hempty
  · -- Nothing is resolved: the plan is returned as it is.
    have hnone : ∀ name, resolved.contains name = false := by
      intro name
      rw [ExtTreeMap.isEmpty_iff.1 hempty, ExtTreeMap.contains_empty]
    have hkeys : resolved.keys = [] := by
      rw [ExtTreeMap.isEmpty_iff.1 hempty]
      rfl
    have hself : ∀ c ∈ changes, redactPassword c = id c := by
      intro c hc
      exact redactPassword_eq_self (h c hc)
    rw [List.flatMap_congr fun c _ => withPassword_of_none hnone c, List.flatMap_singleton', hkeys,
      List.map_congr_left hself, List.map_id]
    simp
  · rw [redact_foldl_injectForExisting, redact_foldl_injectAtCreate _ h,
      ExtTreeMap.map_fst_toList_eq_keys]
    rfl

end ClosedForm

/-! ## What is resolved -/

section Resolution

variable {env : String → Option String} {resolved start : BTreeMap String String}
  {role : RoleDefinition} {roles : List RoleDefinition} {name : String}

/-- Resolving one role's password adds that role, if it manages one. -/
theorem mem_of_resolvePassword (h : resolvePassword env start role = .ok resolved) :
    name ∈ resolved ↔ name ∈ start ∨ role.managesPassword = true ∧ role.name = name := by
  unfold resolvePassword at h
  split_ifs at h with hexternal
  · cases h
    simp [RoleDefinition.managesPassword, hexternal]
  · split at h
    · rename_i hnone
      cases h
      simp [RoleDefinition.managesPassword, hnone]
    · rename_i source hsome
      cases hread : readPassword env role.name source with
      | error err => simp [hread, Except.map] at h
      | ok value =>
          simp only [hread, Except.map, Except.ok.injEq] at h
          rw [← h, ExtTreeMap.mem_insert, compare_eq_iff]
          simp [RoleDefinition.managesPassword, hsome, hexternal, or_comm]

/-- Resolved are exactly the managed roles with a password source. -/
theorem mem_of_foldlM_resolvePassword
    (h : roles.foldlM (resolvePassword env) start = .ok resolved) :
    name ∈ resolved ↔
      name ∈ start ∨ ∃ role ∈ roles, role.managesPassword = true ∧ role.name = name := by
  induction roles generalizing start with
  | nil =>
      cases h
      simp
  | cons role roles ih =>
      rw [List.foldlM_cons] at h
      obtain ⟨next, hnext, hrest⟩ := bind_eq_ok.1 h
      rw [ih hrest, mem_of_resolvePassword hnext]
      simp [or_assoc]

theorem mem_resolvePasswords (h : resolvePasswords env roles = .ok resolved) :
    name ∈ resolved ↔ ∃ role ∈ roles, role.managesPassword = true ∧ role.name = name := by
  rw [mem_of_foldlM_resolvePassword h]
  simp

end Resolution

/-! ## The roles a plan creates -/

section Plan

variable {current desired : RoleGraph} {m : PolicyManifest} {e : ExpandedManifest}
  {mode : ReconciliationMode} {c : Change}

theorem phase_ne_password_of_mem_diffResolved (h : c ∈ diffResolved current desired) :
    c.phase ≠ .password := by
  intro hphase
  have hbucket := mem_bucket_of_mem_diffResolved h
  rw [filter_phase_diffResolved (· == _), hphase] at hbucket
  simp at hbucket

/-- A drop becomes steps of its retirement and itself, other changes keep their phase. -/
theorem phase_of_mem_planned {c' : Change} (h : c' ∈ plannedChange current desired m e mode c) :
    c'.phase = c.phase ∨ c.phase = .dropRole ∧ c'.phase = .retirement := by
  by_cases hdrop : c.phase = .dropRole
  · cases c with
    | dropRole r =>
        rw [plannedChange_dropRole] at h
        split_ifs at h
        · rcases List.mem_append.1 h with h | h
          · refine Or.inr ⟨rfl, ?_⟩
            by_contra hphase
            have hretires := retires_of_mem_retirementBlock h
            rw [retires_eq_false_of_phase hphase] at hretires
            cases hretires
          · rw [List.mem_singleton.1 h]
            exact Or.inl rfl
        · exact absurd h List.not_mem_nil
    | _ => cases hdrop
  · exact Or.inl (phase_of_mem_plannedChange hdrop h)

/-- A plan sets no password. -/
theorem phase_ne_password_of_mem_planChanges (h : c ∈ planChanges current desired m e mode) :
    c.phase ≠ .password := by
  rw [planChanges_eq] at h
  obtain ⟨c₀, hc₀, hc⟩ := List.mem_flatMap.1 h
  rcases phase_of_mem_planned hc with hphase | ⟨-, hphase⟩
  · rw [hphase]
    exact phase_ne_password_of_mem_diffResolved hc₀
  · rw [hphase]
    exact nofun

theorem createdRole?_eq_none_of_phase (h : c.phase ≠ .createRole) : createdRole? c = none := by
  cases c with
  | createRole name state => exact absurd rfl h
  | _ => rfl

/-- What a plan makes of one change creates no other role than the change. -/
theorem filterMap_createdRole?_plannedChange (c : Change) :
    ((plannedChange current desired m e mode c).filterMap createdRole?).Sublist
      (createdRole? c).toList := by
  by_cases hcreate : c.phase = .createRole
  · cases c with
    | createRole n s =>
        rw [plannedChange_createRole]
        split_ifs
        · exact List.nil_sublist _
        · exact List.Sublist.refl _
    | _ => cases hcreate
  · have hnone : (plannedChange current desired m e mode c).filterMap createdRole? = [] := by
      rw [List.filterMap_eq_nil_iff]
      intro c' hc'
      apply createdRole?_eq_none_of_phase
      rcases phase_of_mem_planned hc' with hphase | ⟨-, hphase⟩
      · rwa [hphase]
      · rw [hphase]
        exact nofun
    rw [hnone]
    exact List.nil_sublist _

/-- A plan creates roles in the order of their names, each once. -/
theorem filterMap_createdRole?_diffResolved :
    ((diffResolved current desired).filterMap createdRole?).Sublist desired.roles.keys := by
  -- Only the creations of the diff create roles.
  have hphase : (diffResolved current desired).filterMap createdRole? =
      ((diffResolved current desired).filter fun c => c.phase == .createRole).filterMap
        createdRole? := by
    rw [List.filterMap_filter]
    refine List.filterMap_congr fun c _ => ?_
    by_cases hc : c.phase = .createRole
    · simp [hc]
    · simp [hc, createdRole?_eq_none_of_phase hc]
  rw [hphase, filter_phase_diffResolved (· == _), ← ExtTreeMap.map_fst_toList_eq_keys]
  simp only [beq_self_eq_true, if_true, reduceCtorEq, beq_iff_eq, if_false, List.append_nil,
    roleCreates, List.filterMap_flatMap]
  induction desired.roles.toList with
  | nil => exact List.nil_sublist _
  | cons entry entries ih =>
      rw [List.flatMap_cons, List.map_cons]
      split_ifs
      · exact ih.cons _
      · exact ih.cons_cons _

/-- A plan creates each role once. -/
theorem nodup_created_planChanges (current desired : RoleGraph) (m : PolicyManifest)
    (e : ExpandedManifest) (mode : ReconciliationMode) :
    ((planChanges current desired m e mode).filterMap createdRole?).Nodup := by
  have hsub : ((planChanges current desired m e mode).filterMap createdRole?).Sublist
      ((diffResolved current (plannedGraph current desired)).filterMap createdRole?) := by
    rw [planChanges_eq, List.filterMap_flatMap, List.filterMap_eq_flatMap_toList]
    induction diffResolved current (plannedGraph current desired) with
    | nil => exact List.nil_sublist _
    | cons c l ih =>
        rw [List.flatMap_cons, List.flatMap_cons]
        exact (filterMap_createdRole?_plannedChange c).append ih
  exact (hsub.trans filterMap_createdRole?_diffResolved).nodup ExtTreeMap.nodup_keys

end Plan

end PgRoles.Core

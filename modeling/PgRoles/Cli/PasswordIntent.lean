import PgRoles.Core.Passwords

/-!
# The previewed passwords are the applied ones

A `diff` shows declared password intent in place of credentials: a redacted `setPassword` for each
role of a set of names, which the loop over the plan consumes. An `apply` injects verifiers, with
the created roles collected first and never consumed. For a plan, which creates each role once, both
place the same statements (`preview_eq_applied`).
-/

set_option autoImplicit false

namespace PgRoles.Cli

open Std PgRoles.Lib PgRoles.Core

/-! ## The preview -/

/-- The format that a plan is printed in. -/
inductive OutputFormat where
  | sql
  | summary
  | json
  | markdown
  deriving DecidableEq, Repr

/-- The roles whose password intent has not been placed, and the changes so far. -/
structure IntentState where
  names : BTreeSet String
  reviewChanges : List Change

/-- Push a change, and the redacted password of the role it creates, whose name is consumed. -/
def intentStep (s : IntentState) (change : Change) : IntentState :=
  match (createdRole? change).filter s.names.contains with
  | some name =>
      { names := s.names.erase name
        reviewChanges := s.reviewChanges ++ [change, .setPassword name redactedPassword] }
  | none => { s with reviewChanges := s.reviewChanges ++ [change] }

/-- The names of the roles that declare a password. -/
def passwordNames (expanded : ExpandedManifest) : BTreeSet String :=
  ExtTreeSet.ofList ((expanded.roles.filter (·.managesPassword)).map (·.name)) compare

/-- The plan with declared password intent in place of credentials. -/
def passwordIntentChanges (changes : List Change) (expanded : ExpandedManifest) : List Change :=
  let s := changes.foldl intentStep ⟨passwordNames expanded, []⟩
  s.reviewChanges ++ s.names.toList.map fun name => .setPassword name redactedPassword

/-- Add declared password intent to a `diff` plan. All formats but Markdown keep the requirement
that every source is set, and discard the values. -/
def diffPasswordChanges (env : String → Option String) (changes : List Change)
    (expanded : ExpandedManifest) (format : OutputFormat) :
    Except PasswordResolutionError (List Change) :=
  if format ≠ .markdown then
    (resolvePasswords env expanded.roles).map fun _ => passwordIntentChanges changes expanded
  else .ok (passwordIntentChanges changes expanded)

/-! ## The closed form of the preview -/

section Preview

variable {changes : List Change} {c : Change} {name : String} {expanded : ExpandedManifest}

theorem intentStep_eq (s : IntentState) (c : Change) :
    intentStep s c =
      { names := (createdRole? c).elim s.names s.names.erase
        reviewChanges := s.reviewChanges ++ withPassword s.names.contains c } := by
  cases hcreated : createdRole? c with
  | none => simp [intentStep, withPassword, hcreated]
  | some name =>
      cases hname : s.names.contains name with
      | true => simp [intentStep, withPassword, hcreated, Option.filter, hname]
      | false =>
          -- Erasing a name that is absent changes nothing.
          have herase : s.names.erase name = s.names := by
            refine ExtTreeSet.ext_mem fun other => ?_
            rw [ExtTreeSet.mem_erase, ne_eq, compare_eq_iff]
            constructor
            · exact And.right
            · intro hother
              refine ⟨fun heq => ?_, hother⟩
              rw [heq, ExtTreeSet.contains_iff_mem.2 hother] at hname
              cases hname
          simp [intentStep, withPassword, hcreated, Option.filter, hname, herase]

/-- A change that does not create the name does not see whether it is consumed. -/
theorem withPassword_erase {names : BTreeSet String} (h : createdRole? c ≠ some name) :
    withPassword (names.erase name).contains c = withPassword names.contains c := by
  have hfilter : (createdRole? c).filter (names.erase name).contains =
      (createdRole? c).filter names.contains := by
    cases hcreated : createdRole? c with
    | none => rfl
    | some other =>
        have hsame : (names.erase name).contains other = names.contains other := by
          rw [Bool.eq_iff_iff, ExtTreeSet.contains_iff_mem, ExtTreeSet.contains_iff_mem,
            ExtTreeSet.mem_erase, ne_eq, compare_eq_iff]
          constructor
          · exact And.right
          · intro hmem
            refine ⟨fun heq => h ?_, hmem⟩
            rw [hcreated, heq]
        rw [Option.filter_some, Option.filter_some, hsame]
  rw [withPassword, withPassword, hfilter]

/-- The loop over a plan that creates each role once: the names it starts with decide every
placement, and what is left are those that the plan does not create. -/
theorem foldl_intentStep (s : IntentState) (h : (changes.filterMap createdRole?).Nodup) :
    (changes.foldl intentStep s).reviewChanges =
        s.reviewChanges ++ changes.flatMap (withPassword s.names.contains) ∧
      ∀ name, name ∈ (changes.foldl intentStep s).names ↔
        name ∈ s.names ∧ name ∉ changes.filterMap createdRole? := by
  induction changes generalizing s with
  | nil => simp
  | cons c changes ih =>
      rw [List.foldl_cons, intentStep_eq, List.flatMap_cons]
      cases hcreated : createdRole? c with
      | none =>
          rw [List.filterMap_cons_none hcreated] at h ⊢
          obtain ⟨hreview, hnames⟩ := ih _ h
          refine ⟨?_, hnames⟩
          rw [hreview, List.append_assoc]
          rfl
      | some name =>
          rw [List.filterMap_cons_some hcreated] at h ⊢
          obtain ⟨hfresh, hrest⟩ := List.nodup_cons.1 h
          obtain ⟨hreview, hnames⟩ := ih
            ⟨s.names.erase name, s.reviewChanges ++ withPassword s.names.contains c⟩ hrest
          constructor
          · have hlater : ∀ c' ∈ changes, withPassword (s.names.erase name).contains c' =
                withPassword s.names.contains c' := by
              intro c' hc'
              apply withPassword_erase
              intro hagain
              exact hfresh (List.mem_filterMap.2 ⟨c', hc', hagain⟩)
            simp only [Option.elim_some]
            rw [hreview, List.flatMap_congr hlater, List.append_assoc]
          · intro other
            simp only [Option.elim_some]
            rw [hnames, ExtTreeSet.mem_erase, ne_eq, compare_eq_iff, List.mem_cons, not_or,
              eq_comm]
            tauto

theorem mem_passwordNames :
    name ∈ passwordNames expanded ↔
      ∃ role ∈ expanded.roles, role.managesPassword = true ∧ role.name = name := by
  rw [passwordNames, ExtTreeSet.mem_ofList, List.contains_iff_mem, List.mem_map]
  simp only [List.mem_filter, and_assoc]

theorem mem_createdRoles : name ∈ createdRoles changes ↔ name ∈ changes.filterMap createdRole? := by
  rw [createdRoles, ExtTreeSet.mem_ofList, List.contains_iff_mem]

/-- The preview, for names that are resolved. -/
theorem passwordIntentChanges_eq {resolved : BTreeMap String String}
    (hnames : ∀ name, name ∈ resolved ↔ name ∈ passwordNames expanded)
    (h : (changes.filterMap createdRole?).Nodup) :
    passwordIntentChanges changes expanded =
      placePasswords resolved.contains
        (resolved.keys.filter fun name => !(createdRoles changes).contains name) changes := by
  obtain ⟨hreview, hleft⟩ := foldl_intentStep ⟨passwordNames expanded, []⟩ h
  have hhas : (passwordNames expanded).contains = resolved.contains := by
    funext name
    rw [Bool.eq_iff_iff, ExtTreeSet.contains_iff_mem, ExtTreeMap.contains_iff_mem, hnames]
  have hothers : (changes.foldl intentStep ⟨passwordNames expanded, []⟩).names.toList =
      resolved.keys.filter fun name => !(createdRoles changes).contains name := by
    -- Both lists are sorted and have the same names.
    apply eq_of_sorted_of_mem_iff ExtTreeSet.ordered_toList (ExtTreeMap.ordered_keys.filter _)
    intro name
    rw [ExtTreeSet.mem_toList, hleft, List.mem_filter, ExtTreeMap.mem_keys, hnames,
      Bool.not_eq_true', contains_eq_false_iff, mem_createdRoles]
  rw [passwordIntentChanges, placePasswords, hreview, hothers, hhas]
  rfl

end Preview

/-! ## What is placed -/

/-- Where the passwords of a plan stand: the plan itself is unchanged, each managed role with a
source has one statement, nothing else has any, and a created role's stands directly behind its
creation. -/
structure PasswordsPlaced (expanded : ExpandedManifest) (plan placed : List Change) : Prop where
  unchanged : placed.filter (fun c => c.phase != .password) = plan
  managed : ∀ role ∈ expanded.roles, role.external = false → role.password.isSome = true →
    (placed.filterMap passwordRole?).count role.name = 1
  external : ∀ role ∈ expanded.roles, role.external = true →
    role.name ∉ placed.filterMap passwordRole?
  declared : ∀ name ∈ placed.filterMap passwordRole?,
    ∃ role ∈ expanded.roles, role.managesPassword = true ∧ role.name = name
  afterCreate : ∀ before name password after,
    placed = before ++ .setPassword name password :: after → name ∈ plan.filterMap createdRole? →
      ∃ earlier state, before = earlier ++ [.createRole name state]

section Placed

variable {expanded : ExpandedManifest} {plan placed changes : List Change} {has : String → Bool}
  {others : List String}

theorem filter_placePasswords (h : ∀ c ∈ changes, c.phase ≠ .password) :
    (placePasswords has others changes).filter (fun c => c.phase != .password) = changes := by
  have hothers : (others.map fun name => Change.setPassword name redactedPassword).filter
      (fun c => c.phase != .password) = [] := by
    rw [List.filter_eq_nil_iff]
    intro c hc
    obtain ⟨name, -, rfl⟩ := List.mem_map.1 hc
    exact nofun
  rw [placePasswords, List.filter_append, hothers, List.append_nil]
  induction changes with
  | nil => rfl
  | cons c changes ih =>
      obtain ⟨hc, hrest⟩ := List.forall_mem_cons.1 h
      rw [List.flatMap_cons, List.filter_append, ih hrest, withPassword]
      split
      · have hpassword : ∀ name, (Change.setPassword name redactedPassword).phase = .password :=
          fun _ => rfl
        simp [hc, hpassword]
      · simp [hc]

theorem passwordRole?_of_phase {c : Change} (h : c.phase ≠ .password) : passwordRole? c = none := by
  cases c with
  | setPassword name password => exact absurd rfl h
  | _ => rfl

/-- The roles whose passwords are placed: those created, in plan order, and the others. -/
theorem filterMap_placePasswords (h : ∀ c ∈ changes, c.phase ≠ .password) :
    (placePasswords has others changes).filterMap passwordRole? =
      (changes.filterMap createdRole?).filter has ++ others := by
  have hothers : (others.map fun name => Change.setPassword name redactedPassword).filterMap
      passwordRole? = others := by
    rw [List.filterMap_map]
    exact List.filterMap_some
  rw [placePasswords, List.filterMap_append, hothers]
  congr 1
  induction changes with
  | nil => rfl
  | cons c changes ih =>
      obtain ⟨hc, hrest⟩ := List.forall_mem_cons.1 h
      have hnone := passwordRole?_of_phase hc
      rw [List.flatMap_cons, List.filterMap_append, ih hrest, withPassword]
      cases hcreated : createdRole? c with
      | none => simp [hnone, hcreated]
      | some name =>
          cases hname : has name with
          | true =>
              have hset : passwordRole? (.setPassword name redactedPassword) = some name := rfl
              simp [hnone, hset, hcreated, Option.filter, hname]
          | false => simp [hnone, hcreated, Option.filter, hname]

/-- In the placed changes, the statement of a role that is created follows its creation. -/
theorem create_before_password (h : ∀ c ∈ changes, c.phase ≠ .password)
    (hothers : ∀ name ∈ others, name ∉ plan.filterMap createdRole?)
    {before after : List Change} {name password : String}
    (hsplit : placePasswords has others changes = before ++ .setPassword name password :: after)
    (hcreated : name ∈ plan.filterMap createdRole?) :
    ∃ earlier state, before = earlier ++ [.createRole name state] := by
  induction changes generalizing before with
  | nil =>
      -- Only roles that are not created have their statement here.
      have hmem : Change.setPassword name password ∈ placePasswords has others [] := by
        rw [hsplit]
        simp
      obtain ⟨other, hother, heq⟩ := List.mem_map.1 hmem
      rw [Change.setPassword.injEq] at heq
      rw [heq.1] at hother
      exact absurd hcreated (hothers name hother)
  | cons c changes ih =>
      obtain ⟨hc, hrest⟩ := List.forall_mem_cons.1 h
      have hcons : placePasswords has others (c :: changes) =
          withPassword has c ++ placePasswords has others changes := by
        rw [placePasswords, List.flatMap_cons, List.append_assoc]
        rfl
      rw [hcons, withPassword] at hsplit
      split at hsplit
      · rename_i role hrole
        simp only [List.cons_append, List.nil_append] at hsplit
        cases before with
        | nil =>
            rw [List.nil_append, List.cons.injEq] at hsplit
            rw [hsplit.1] at hc
            exact absurd rfl hc
        | cons first before =>
            rw [List.cons_append, List.cons.injEq] at hsplit
            obtain ⟨rfl, hsplit⟩ := hsplit
            cases before with
            | nil =>
                -- The statement directly behind the creation.
                rw [List.nil_append, List.cons.injEq, Change.setPassword.injEq] at hsplit
                obtain ⟨⟨rfl, -⟩, -⟩ := hsplit
                cases c with
                | createRole created state =>
                    simp only [createdRole?, Option.filter_eq_some_iff, Option.some.injEq] at hrole
                    exact ⟨[], state, by rw [hrole.1]; rfl⟩
                | _ => exact absurd hrole (by simp [createdRole?])
            | cons second before =>
                rw [List.cons_append, List.cons.injEq] at hsplit
                obtain ⟨rfl, hsplit⟩ := hsplit
                obtain ⟨earlier, state, rfl⟩ := ih hrest hsplit
                exact ⟨c :: .setPassword role redactedPassword :: earlier, state, rfl⟩
      · simp only [List.cons_append, List.nil_append] at hsplit
        cases before with
        | nil =>
            rw [List.nil_append, List.cons.injEq] at hsplit
            rw [hsplit.1] at hc
            exact absurd rfl hc
        | cons first before =>
            rw [List.cons_append, List.cons.injEq] at hsplit
            obtain ⟨rfl, hsplit⟩ := hsplit
            obtain ⟨earlier, state, rfl⟩ := ih hrest hsplit
            exact ⟨c :: earlier, state, rfl⟩

/-- Verifiers do not matter for where passwords stand. -/
theorem PasswordsPlaced.of_redacted
    (h : PasswordsPlaced expanded plan (redactPasswordChanges placed)) :
    PasswordsPlaced expanded plan placed := by
  have hroles : (redactPasswordChanges placed).filterMap passwordRole? =
      placed.filterMap passwordRole? := by
    rw [redactPasswordChanges, List.filterMap_map]
    exact List.filterMap_congr fun c _ => passwordRole?_redactPassword c
  refine ⟨?_, ?_, ?_, ?_, ?_⟩
  · have hfilter : (redactPasswordChanges placed).filter (fun c => c.phase != .password) =
        placed.filter fun c => c.phase != .password := by
      rw [redactPasswordChanges, List.filter_map, List.filter_congr (q := fun c : Change =>
        c.phase != .password) fun c _ => by simp [phase_redactPassword]]
      have hself : ∀ c ∈ placed.filter (fun c => c.phase != .password),
          redactPassword c = id c := by
        intro c hc
        apply redactPassword_eq_self
        simpa using (List.mem_filter.1 hc).2
      rw [List.map_congr_left hself, List.map_id]
    rw [← hfilter, h.unchanged]
  · rw [← hroles]
    exact h.managed
  · rw [← hroles]
    exact h.external
  · rw [← hroles]
    exact h.declared
  · intro before name password after hsplit hcreated
    obtain ⟨earlier, state, hbefore⟩ := h.afterCreate (before.map redactPassword) name
      redactedPassword (after.map redactPassword) (by rw [hsplit]; simp [redactPasswordChanges,
        redactPassword]) hcreated
    obtain ⟨earlier', last, rfl, -, hlast⟩ := List.map_eq_append_iff.1 hbefore
    obtain ⟨c, hc, hredact⟩ := List.map_eq_singleton_iff.1 hlast
    have hcreate : createdRole? c = some name := by
      rw [← createdRole?_redactPassword, hredact]
      rfl
    cases c with
    | createRole name' state' =>
        cases hredact
        exact ⟨earlier', state, by rw [hc]⟩
    | _ => cases hcreate

theorem passwordsPlaced_placePasswords {e : ExpandedManifest} {resolved : BTreeMap String String}
    (hnames : (e.roles.map (·.name)).Nodup)
    (hresolved : ∀ name, name ∈ resolved ↔
      ∃ role ∈ e.roles, role.managesPassword = true ∧ role.name = name)
    (hplan : ∀ c ∈ plan, c.phase ≠ .password) (hcreates : (plan.filterMap createdRole?).Nodup) :
    PasswordsPlaced e plan (placePasswords resolved.contains
      (resolved.keys.filter fun name => !(createdRoles plan).contains name) plan) := by
  have hroles : (placePasswords resolved.contains
      (resolved.keys.filter fun name => !(createdRoles plan).contains name) plan).filterMap
        passwordRole? = (plan.filterMap createdRole?).filter resolved.contains ++
          resolved.keys.filter fun name => !(createdRoles plan).contains name :=
    filterMap_placePasswords hplan
  have hnot : ∀ name ∈ resolved.keys.filter fun name => !(createdRoles plan).contains name,
      name ∉ plan.filterMap createdRole? := by
    intro name hname
    have hother := (List.mem_filter.1 hname).2
    rwa [Bool.not_eq_true', contains_eq_false_iff, mem_createdRoles] at hother
  -- Exactly the resolved roles have a statement, whether the plan creates them or not.
  have hmem : ∀ name, name ∈ (placePasswords resolved.contains
      (resolved.keys.filter fun name => !(createdRoles plan).contains name) plan).filterMap
        passwordRole? ↔ name ∈ resolved := by
    intro name
    rw [hroles, List.mem_append, List.mem_filter, List.mem_filter, ExtTreeMap.contains_iff_mem,
      ExtTreeMap.mem_keys, Bool.not_eq_true', contains_eq_false_iff, mem_createdRoles]
    tauto
  have hnodup : ((placePasswords resolved.contains
      (resolved.keys.filter fun name => !(createdRoles plan).contains name) plan).filterMap
        passwordRole?).Nodup := by
    rw [hroles]
    refine List.Nodup.append (hcreates.filter _) (ExtTreeMap.nodup_keys.filter _) ?_
    intro name hcreated hother
    exact hnot name hother (List.mem_filter.1 hcreated).1
  refine ⟨filter_placePasswords hplan, ?_, ?_, ?_, ?_⟩
  · intro role hrole hexternal hpassword
    have hmanages : role.managesPassword = true := by
      rw [RoleDefinition.managesPassword, hexternal, hpassword]
      rfl
    rw [hnodup.count, if_pos]
    exact (hmem role.name).2 ((hresolved role.name).2 ⟨role, hrole, hmanages, rfl⟩)
  · intro role hrole hexternal hplaced
    obtain ⟨other, hother, hmanages, hname⟩ := (hresolved _).1 ((hmem _).1 hplaced)
    rw [List.inj_on_of_nodup_map hnames hother hrole hname] at hmanages
    simp [RoleDefinition.managesPassword, hexternal] at hmanages
  · intro name hplaced
    exact (hresolved name).1 ((hmem name).1 hplaced)
  · intro before name password after hsplit hcreated
    exact create_before_password hplan hnot hsplit hcreated

end Placed

/-! ## The previewed plan is the applied plan -/

/-- In an environment where all sources resolve, a `diff` of every format shows the plan that an
`apply` injects, with each verifier redacted, and in both the passwords stand as they should. -/
theorem preview_eq_applied {m : PolicyManifest} {e : ExpandedManifest}
    (hexpand : expandManifest m = .ok e) {env : String → Option String}
    {resolved : BTreeMap String String} (hresolve : resolvePasswords env e.roles = .ok resolved)
    (current desired : RoleGraph) (mode : ReconciliationMode) (verifier : Nat → String → String)
    (format : OutputFormat) :
    diffPasswordChanges env (planChanges current desired m e mode) e format =
        .ok (passwordIntentChanges (planChanges current desired m e mode) e) ∧
      passwordIntentChanges (planChanges current desired m e mode) e =
        redactPasswordChanges
          (injectPasswordChanges verifier (planChanges current desired m e mode) resolved) ∧
      PasswordsPlaced e (planChanges current desired m e mode)
        (passwordIntentChanges (planChanges current desired m e mode) e) ∧
      PasswordsPlaced e (planChanges current desired m e mode)
        (injectPasswordChanges verifier (planChanges current desired m e mode) resolved) := by
  have hplan : ∀ c ∈ planChanges current desired m e mode, c.phase ≠ .password :=
    fun c hc => phase_ne_password_of_mem_planChanges hc
  have hcreates := nodup_created_planChanges current desired m e mode
  have hresolved : ∀ name, name ∈ resolved ↔
      ∃ role ∈ e.roles, role.managesPassword = true ∧ role.name = name :=
    fun name => mem_resolvePasswords hresolve
  have hintent := passwordIntentChanges_eq
    (fun name => by rw [hresolved name, ← mem_passwordNames]) hcreates
  have happlied : redactPasswordChanges
      (injectPasswordChanges verifier (planChanges current desired m e mode) resolved) = _ :=
    redactPasswordChanges_injectPasswordChanges hplan
  have hplaced := passwordsPlaced_placePasswords (nodup_roles_of_expandManifest hexpand) hresolved
    hplan hcreates
  refine ⟨?_, ?_, ?_, ?_⟩
  · rw [diffPasswordChanges, hresolve]
    split_ifs <;> rfl
  · rw [hintent, happlied]
  · rw [hintent]
    exact hplaced
  · apply PasswordsPlaced.of_redacted
    rw [happlied]
    exact hplaced

/-- A role to create and a role that exists declare passwords, and so does one owned elsewhere. -/
def accountsManifest : PolicyManifest :=
  { roles := [
      { name := "ledger", login := some true, password := some ⟨"LEDGER_PASSWORD"⟩ },
      { name := "audit", login := some true, password := some ⟨"AUDIT_PASSWORD"⟩ },
      { name := "sso", external := true, login := some true, password := some ⟨"SSO_PASSWORD"⟩ }] }

/-- An environment with the two passwords. -/
def accountsEnv : String → Option String
  | "LEDGER_PASSWORD" => some "ledger-secret"
  | "AUDIT_PASSWORD" => some "audit-secret"
  | _ => none

/-- The database has the second role already. -/
def accountsCurrent : RoleGraph :=
  { roles := ExtTreeMap.ofList [("audit", { login := true })] compare }

/-- The graph of those roles. -/
def accountsDesired : RoleGraph :=
  { roles := ExtTreeMap.ofList [("audit", { login := true }), ("ledger", { login := true })]
      compare }

/-- A verifier that shows its salt. -/
def saltedVerifier (call : Nat) (password : String) : String :=
  "SCRAM-SHA-256$4096:" ++ String.ofList (Nat.toDigits 10 call) ++ "$" ++ password

theorem accounts_preview :
    passwordIntentChanges (planChanges accountsCurrent accountsDesired accountsManifest
        { roles := accountsManifest.roles } .authoritative) { roles := accountsManifest.roles } =
      redactPasswordChanges (injectPasswordChanges saltedVerifier
        (planChanges accountsCurrent accountsDesired accountsManifest
          { roles := accountsManifest.roles } .authoritative)
        (ExtTreeMap.ofList [("ledger", "ledger-secret"), ("audit", "audit-secret")] compare)) := by
  have hexpand : expandManifest accountsManifest = .ok { roles := accountsManifest.roles } := by
    decide +kernel
  have hresolve : resolvePasswords accountsEnv accountsManifest.roles =
      .ok (ExtTreeMap.ofList [("ledger", "ledger-secret"), ("audit", "audit-secret")] compare) := by
    decide +kernel
  exact (preview_eq_applied hexpand hresolve accountsCurrent accountsDesired .authoritative
    saltedVerifier .json).2.1

end PgRoles.Cli

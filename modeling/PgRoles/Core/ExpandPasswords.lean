import PgRoles.Core.ExpandOrder
import PgRoles.Core.ExpandKeys

/-!
# Passwords and acceptance

Acceptance of a manifest looks at passwords in one place only: a role with a password has to be
able to log in. A manifest whose roles do so is accepted with its passwords when it is accepted
without them. An accepted manifest always has a graph.
-/

set_option autoImplicit false

namespace PgRoles.Core

open Std PgRoles.Lib

/-! ## Manifests without passwords -/

/-- A role without its password source. -/
def RoleDefinition.withoutPassword (d : RoleDefinition) : RoleDefinition :=
  { d with password := none }

/-- A manifest whose roles have no password sources. -/
def PolicyManifest.withoutPasswords (m : PolicyManifest) : PolicyManifest :=
  { m with roles := m.roles.map RoleDefinition.withoutPassword }

/-- An expanded manifest whose roles have no password sources. -/
def ExpandedManifest.withoutPasswords (e : ExpandedManifest) : ExpandedManifest :=
  { e with roles := e.roles.map RoleDefinition.withoutPassword }

section Names

variable (d : RoleDefinition) (roles : List RoleDefinition)

@[simp] theorem RoleDefinition.withoutPassword_name : d.withoutPassword.name = d.name := rfl

@[simp] theorem RoleDefinition.withoutPassword_external :
    d.withoutPassword.external = d.external := rfl

theorem map_name_withoutPassword :
    (roles.map RoleDefinition.withoutPassword).map (·.name) = roles.map (·.name) := by
  rw [List.map_map]
  exact List.map_congr_left fun _ _ => rfl

theorem externalNames_withoutPassword :
    externalNames (roles.map RoleDefinition.withoutPassword) = externalNames roles := by
  rw [externalNames, externalNames, List.filter_map, List.map_map]
  rfl

/-- A check that does not see passwords passes as it does without them. -/
theorem forM_withoutPassword {check : RoleDefinition → Except ManifestError Unit}
    (hblind : ∀ d : RoleDefinition, check d.withoutPassword = check d)
    (h : (roles.map RoleDefinition.withoutPassword).forM check = .ok ()) :
    roles.forM check = .ok () := by
  refine forM_eq_ok.2 fun d hd => ?_
  rw [← hblind d]
  exact forM_eq_ok.1 h _ (List.mem_map_of_mem hd)

end Names

/-! ## Acceptance with passwords -/

section Acceptance

variable {m : PolicyManifest} {e : ExpandedManifest}

theorem validateBounds_withPasswords (h : validateBounds m.withoutPasswords = .ok ()) :
    validateBounds m = .ok () := by
  unfold validateBounds PolicyManifest.withoutPasswords at h
  unfold validateBounds
  simp only [check_bind_eq_ok, List.length_map] at h ⊢
  obtain ⟨h₁, h₂, h₃, h₄, h₅, h₆, h₇, hroles, hrest⟩ := h
  exact ⟨h₁, h₂, h₃, h₄, h₅, h₆, h₇, forM_withoutPassword m.roles (fun _ => rfl) hroles, hrest⟩

/-- What a profile gives: a role without password, and default privileges that name it. -/
theorem expandProfile_plain {binding : SchemaBinding} {profileName : String}
    {x : ProfileExpansion} (h : expandProfile m binding profileName = .ok x) :
    x.role.withoutPassword = x.role ∧ ∀ d ∈ x.defaultPrivileges, ∀ grant ∈ d.grant,
      grant.role ≠ none := by
  unfold expandProfile at h
  cases hprofile : m.profiles[profileName]? with
  | none =>
    rw [hprofile] at h
    cases h
  | some profile =>
    rw [hprofile] at h
    obtain ⟨-, h⟩ := check_bind_eq_ok.1 h
    obtain ⟨grants, -, h⟩ := bind_eq_ok.1 h
    obtain ⟨defaults, hdefaults, h⟩ := bind_eq_ok.1 h
    rw [← Except.ok.inj h]
    refine ⟨rfl, fun d hd grant hgrant => ?_⟩
    unfold profileDefaultPrivileges at hdefaults
    split_ifs at hdefaults with hempty
    · rw [← Except.ok.inj hdefaults] at hd
      exact absurd hd List.not_mem_nil
    · obtain ⟨named, hnamed, hdefaults⟩ := bind_eq_ok.1 hdefaults
      rw [← Except.ok.inj hdefaults, List.mem_singleton] at hd
      subst hd
      obtain ⟨source, -, hsource⟩ := exists_of_mem_mapM hnamed hgrant
      obtain ⟨-, hsource⟩ := check_bind_eq_ok.1 hsource
      rw [← Except.ok.inj hsource]
      nofun

theorem mergeExpansions_withoutPasswords {expansions : List ProfileExpansion}
    (h : expandBindings m = .ok expansions) :
    mergeExpansions m.withoutPasswords expansions =
      (mergeExpansions m expansions).withoutPasswords := by
  have hprofiles : (expansions.map (·.role)).map RoleDefinition.withoutPassword =
      expansions.map (·.role) := by
    rw [List.map_map]
    refine List.map_congr_left fun x hx => ?_
    obtain ⟨b, -, name, -, hexpand⟩ := (mem_expansions h).1 hx
    exact (expandProfile_plain hexpand).1
  simp only [mergeExpansions, PolicyManifest.withoutPasswords, ExpandedManifest.withoutPasswords,
    List.map_append, hprofiles]

theorem validateExpanded_withPasswords
    (hlogin : ∀ d ∈ e.roles, d.password.isSome → d.login = some true)
    (h : validateExpanded m.withoutPasswords e.withoutPasswords = .ok ()) :
    validateExpanded m e = .ok () := by
  unfold validateExpanded validatePublicReservation at h ⊢
  simp only [check_bind_eq_ok, PolicyManifest.withoutPasswords, ExpandedManifest.withoutPasswords,
    map_name_withoutPassword] at h ⊢
  obtain ⟨⟨howner, hnames, hreserved⟩, hdatabase, hscopes, hconflicts, hduplicates, hretirements,
    -, htimestamps, hconfigs⟩ := h
  refine ⟨⟨howner, forM_withoutPassword e.roles (fun _ => rfl) hnames, hreserved⟩, hdatabase,
    hscopes, hconflicts, hduplicates, hretirements, ?_,
    forM_withoutPassword e.roles (fun _ => rfl) htimestamps,
    forM_withoutPassword e.roles (fun _ => rfl) hconfigs⟩
  refine forM_eq_ok.2 fun d hd => rejectIf_eq_ok.2 ?_
  cases hpassword : d.password.isSome with
  | false => rfl
  | true => simp [hlogin d hd hpassword]

/-- Roles that can log in may have passwords. -/
theorem expandManifest_withPasswords
    (hlogin : ∀ d ∈ m.roles, d.password.isSome → d.login = some true)
    (h : expandManifest m.withoutPasswords = .ok e) : ∃ e', expandManifest m = .ok e' := by
  obtain ⟨expansions, hbounds, hpredefined, hexclusive, hschemas, hexpansions, hroles, hvalid,
    rfl⟩ := of_expandManifest_eq_ok h
  have hbindings : expandBindings m = .ok expansions := hexpansions
  rw [mergeExpansions_withoutPasswords hbindings] at hvalid
  refine ⟨mergeExpansions m expansions, ?_⟩
  refine check_bind_eq_ok.2 ⟨validateBounds_withPasswords hbounds, check_bind_eq_ok.2
    ⟨forM_withoutPassword m.roles (fun _ => rfl) hpredefined, check_bind_eq_ok.2 ⟨?_,
    check_bind_eq_ok.2 ⟨hschemas, bind_eq_ok.2 ⟨expansions, hbindings, check_bind_eq_ok.2 ⟨hroles,
    check_bind_eq_ok.2 ⟨validateExpanded_withPasswords ?_ hvalid, rfl⟩⟩⟩⟩⟩⟩⟩
  · refine forM_eq_ok.2 fun membership hmembership => ?_
    have hcheck := forM_eq_ok.1 hexclusive membership hmembership
    rw [validateExclusive, PolicyManifest.withoutPasswords, externalNames_withoutPassword] at hcheck
    exact hcheck
  · -- Roles of profiles have no password.
    intro d hd hpassword
    rcases List.mem_append.1 hd with hd | hd
    · obtain ⟨x, hx, rfl⟩ := List.mem_map.1 hd
      obtain ⟨b, -, name, -, hexpand⟩ := (mem_expansions hbindings).1 hx
      rw [← (expandProfile_plain hexpand).1] at hpassword
      cases hpassword
    · exact hlogin d hd hpassword

/-! ## The graph of an accepted manifest -/

theorem defaultPrivilegeEntries_isOk {defaultOwner : Option String} {d : DefaultPrivilege}
    (hscope : validateDefaultPrivilegeScope d = .ok ())
    (hroles : ∀ grant ∈ d.grant, grant.role ≠ none) :
    ∃ entries, defaultPrivilegeEntries defaultOwner d = .ok entries := by
  obtain ⟨scope, hscope, -⟩ := bind_eq_ok.1 hscope
  rw [defaultPrivilegeEntries, hscope]
  apply exists_mapM_eq_ok
  intro grant hgrant
  cases hrole : grant.role with
  | none => exact absurd hrole (hroles grant hgrant)
  | some role => exact ⟨_, rfl⟩

/-- Every default privilege of an accepted manifest names its grantees. -/
theorem defaultPrivileges_named (h : expandManifest m = .ok e) {d : DefaultPrivilege}
    (hd : d ∈ e.defaultPrivileges) : ∀ grant ∈ d.grant, grant.role ≠ none := by
  obtain ⟨expansions, -, -, -, -, hexpansions, hroles, -, rfl⟩ := of_expandManifest_eq_ok h
  obtain ⟨source, hsource, rfl⟩ := List.mem_map.1 hd
  rcases List.mem_append.1 hsource with hsource | hsource
  · obtain ⟨x, hx, hsource⟩ := List.mem_flatMap.1 hsource
    obtain ⟨b, -, name, -, hexpand⟩ := (mem_expansions hexpansions).1 hx
    exact (expandProfile_plain hexpand).2 source hsource
  · intro grant hgrant hnone
    have hcheck := forM_eq_ok.1 (forM_eq_ok.1 hroles source hsource) grant hgrant
    rw [hnone] at hcheck
    obtain ⟨scope, -, hcheck⟩ := bind_eq_ok.1 hcheck
    cases hcheck

/-- An accepted manifest has a graph. -/
theorem fromExpanded_isOk (h : expandManifest m = .ok e) (defaultOwner : Option String) :
    ∃ g, RoleGraph.fromExpanded e defaultOwner = .ok g := by
  have hscopes := (expandedChecks_of_expandManifest h).default_scopes
  have hentries : ∀ d ∈ e.defaultPrivileges, ∃ entries,
      defaultPrivilegeEntries defaultOwner d = .ok entries := fun d hd =>
    defaultPrivilegeEntries_isOk (forM_eq_ok.1 hscopes d hd) (defaultPrivileges_named h hd)
  obtain ⟨entries, hmap⟩ := exists_mapM_eq_ok hentries
  exact ⟨_, bind_eq_ok.2 ⟨entries, hmap, rfl⟩⟩

end Acceptance

end PgRoles.Core

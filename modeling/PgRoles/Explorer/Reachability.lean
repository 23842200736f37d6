import PgRoles.Lib.Completion
import PgRoles.Lib.Worklist
import PgRoles.Explorer.Facts

/-!
# What the executor reaches

From the facts about memberships the explorer computes, for every role, whether the executor reaches
it: for certain over allowed memberships, possibly over those that are not denied. Authority over a
role is a reachable holder of the ADMIN option, or CREATEROLE before PostgreSQL 16.

The answers are exact about what is not known. A role is reported reachable exactly when it is
reached however the unknown facts turn out, and unreachable exactly when it is never reached, and so
for the ADMIN option and the authority over memberships (`reachability_exact`,
`membershipAuthority_exact`).
-/

set_option autoImplicit false

namespace PgRoles.Explorer

open Std PgRoles.Lib PgRoles.Core

/-- What is known about reaching a role. -/
inductive ReachabilityStatus where
  | reachable
  | unreachable
  | unknown
  deriving DecidableEq, Repr

/-! ## Reachability -/

/-- The roles that a member holds by memberships of the followed kind. -/
def grantedTo (facts : EdgeFacts) (follow : SetRoleCapability → Bool) (member : String) :
    List String :=
  (facts.toList.filter fun e => e.1.2 == member && follow e.2).map (·.1.1)

/-- The roles seen from the executor; every step of the search takes a role off the queue, and each
role enters it once. -/
def traverse (facts : EdgeFacts) (executorRole : String) (follow : SetRoleCapability → Bool) :
    BTreeSet String :=
  reachFrom (grantedTo facts follow) (facts.toList.length + 1) executorRole

/-- The roles of the graph and of the facts, and the executor. -/
def allRoles (graph : RoleGraph) (facts : EdgeFacts) (executorRole : String) : List String :=
  (ExtTreeSet.ofList (executorRole :: (graph.roles.keys ++
    facts.toList.flatMap fun e => [e.1.1, e.1.2])) compare).toList

/-- What is known of a role: on a definite path, on a possible one, or on none. -/
def roleStatus (definite possible : BTreeSet String) (authorityGraphComplete : Bool)
    (role : String) : ReachabilityStatus :=
  if definite.contains role then .reachable
  else if possible.contains role || !authorityGraphComplete then .unknown
  else .unreachable

/-- The status of every role; a superuser reaches all of them. -/
def reachability (graph : RoleGraph) (facts : EdgeFacts) (executorRole : String)
    (executorSuperuser authorityGraphComplete : Bool) : BTreeMap String ReachabilityStatus :=
  let roles := allRoles graph facts executorRole
  if executorSuperuser then ExtTreeMap.ofList (roles.map fun role => (role, .reachable)) compare
  else
    let definite := traverse facts executorRole (· == .allowed)
    let possible := traverse facts executorRole (· != .denied)
    ExtTreeMap.ofList
      (roles.map fun role => (role, roleStatus definite possible authorityGraphComplete role)) compare

/-! ## Authority -/

/-- What the authority analysis of one change looks at. -/
structure AuthorityState where
  graph : RoleGraph
  setReachable : BTreeMap String ReachabilityStatus
  usageReachable : BTreeMap String ReachabilityStatus
  adminOptions : EdgeFacts
  isSuperuser : Bool
  createrole : SetRoleCapability
  authorityGraphComplete : Bool
  pgMajorVersion : Nat

/-- The status of a role without a recorded path. -/
def unseenStatus (authorityGraphComplete : Bool) : ReachabilityStatus :=
  if authorityGraphComplete then .unreachable else .unknown

/-- The status of a role that no path is known to. -/
def AuthorityState.unseen (self : AuthorityState) : ReachabilityStatus :=
  unseenStatus self.authorityGraphComplete

/-- The better of the best status so far and what one holder of the ADMIN option contributes. -/
def betterAdmin (best member : ReachabilityStatus) (admin : SetRoleCapability) :
    ReachabilityStatus :=
  match member, admin with
  | .reachable, .allowed => .reachable
  | .reachable, .unknown | .unknown, .unknown | .unknown, .allowed =>
      if best != .reachable then .unknown else best
  | _, _ => best

/-- Whether the executor holds the ADMIN option on a role, itself or through a role whose privileges
it inherits. -/
def AuthorityState.adminOption (self : AuthorityState) (role : String) : ReachabilityStatus :=
  (scanBlock Prod.fst (role, "") (fun key => key.1 == role) self.adminOptions.toList).foldl
    (fun best e => betterAdmin best (self.usageReachable[e.1.2]?.getD self.unseen) e.2) self.unseen

/-- Before PostgreSQL 16 CREATEROLE is enough, from 16 on only the ADMIN option is. -/
def statusWithCreaterole (pgMajorVersion : Nat) (createrole : SetRoleCapability)
    (admin : ReachabilityStatus) : ReachabilityStatus :=
  if 16 ≤ pgMajorVersion then admin
  else
    match createrole with
    | .allowed => .reachable
    | .unknown => if admin != .reachable then .unknown else admin
    | .denied => admin

/-- The authority over the memberships of a role that is no superuser. -/
def AuthorityState.membershipAuthority (self : AuthorityState) (role : String) :
    ReachabilityStatus :=
  statusWithCreaterole self.pgMajorVersion self.createrole (self.adminOption role)

/-! ## Completions of the facts -/

/-- A capability as knowledge of a fact. -/
def SetRoleCapability.known : SetRoleCapability → Option Bool
  | .allowed => some true
  | .denied => some false
  | .unknown => none

/-- What is known about a membership; one that is not recorded is none. -/
def knownEdge (facts : EdgeFacts) (key : String × String) : Option Bool :=
  facts[key]?.elim (some false) SetRoleCapability.known

/-- A role is reached over the memberships, each a pair of a granted role and its member. -/
def Reaches (edges : Set (String × String)) (executorRole : String) : String → Prop :=
  Relation.ReflTransGen (fun member role => (role, member) ∈ edges) executorRole

theorem Reaches.mono {a b : Set (String × String)} (h : a ⊆ b) {executorRole role : String}
    (hreach : Reaches a executorRole role) : Reaches b executorRole role :=
  Relation.ReflTransGen.mono (fun _ _ hedge => h hedge) _ _ hreach

/-! ### The search -/

theorem mem_grantedTo_iff {facts : EdgeFacts} {follow : SetRoleCapability → Bool}
    {member role : String} :
    role ∈ grantedTo facts follow member ↔ ∃ value, facts[(role, member)]? = some value ∧
      follow value = true := by
  simp only [grantedTo, List.mem_map, List.mem_filter, Bool.and_eq_true, beq_iff_eq]
  constructor
  · rintro ⟨⟨⟨role', member'⟩, value⟩, ⟨hmem, rfl, hfollow⟩, rfl⟩
    exact ⟨value, mem_toList_iff.1 hmem, hfollow⟩
  · rintro ⟨value, hvalue, hfollow⟩
    exact ⟨((role, member), value), ⟨mem_toList_iff.2 hvalue, rfl, hfollow⟩, rfl⟩

/-- The search sees the roles that the followed memberships lead to. -/
theorem mem_traverse_iff {facts : EdgeFacts} {executorRole role : String}
    {follow : SetRoleCapability → Bool} :
    role ∈ traverse facts executorRole follow ↔
      Reaches {key | ∃ value, facts[key]? = some value ∧ follow value = true} executorRole role := by
  have hdomain : ∀ member, ∀ granted ∈ grantedTo facts follow member,
      granted ∈ (facts.toList.map (·.1.1)).toFinset := by
    intro member granted hgranted
    obtain ⟨e, he, rfl⟩ := List.mem_map.1 hgranted
    exact List.mem_toFinset.2 (List.mem_map.2 ⟨e, (List.mem_filter.1 he).1, rfl⟩)
  have hfuel : (facts.toList.map (·.1.1)).toFinset.card < facts.toList.length + 1 := by
    have hcard := List.toFinset_card_le (facts.toList.map (·.1.1))
    rw [List.length_map] at hcard
    omega
  rw [traverse, mem_reachFrom_iff hdomain hfuel]
  simp only [mem_grantedTo_iff]
  rfl

theorem setOf_allowed_eq (facts : EdgeFacts) :
    {key | ∃ value, facts[key]? = some value ∧ (value == SetRoleCapability.allowed) = true} =
      lowerFacts (knownEdge facts) := by
  ext key
  rw [mem_lowerFacts, knownEdge, Set.mem_ofPred_eq]
  cases facts[key]? with
  | none => simp
  | some value => cases value <;> simp [SetRoleCapability.known]

theorem setOf_possible_eq (facts : EdgeFacts) :
    {key | ∃ value, facts[key]? = some value ∧ (value != SetRoleCapability.denied) = true} =
      upperFacts (knownEdge facts) := by
  ext key
  rw [mem_upperFacts, knownEdge, Set.mem_ofPred_eq]
  cases facts[key]? with
  | none => simp
  | some value => cases value <;> simp [SetRoleCapability.known]

/-! ### The answers about roles -/

section Roles

variable (graph : RoleGraph) (facts : EdgeFacts) (executorRole role : String)

/-- All roles that the graph, the facts or the executor name. -/
theorem mem_allRoles_iff :
    role ∈ allRoles graph facts executorRole ↔ role = executorRole ∨ role ∈ graph.roles ∨
      ∃ key ∈ facts, role = key.1 ∨ role = key.2 := by
  rw [allRoles, ExtTreeSet.mem_toList, ExtTreeSet.mem_ofList, List.contains_iff_mem,
    List.mem_cons, List.mem_append, ExtTreeMap.mem_keys, List.mem_flatMap]
  simp only [List.mem_cons, List.not_mem_nil, or_false]
  constructor
  · rintro (h | h | ⟨e, he, h⟩)
    · exact Or.inl h
    · exact Or.inr (Or.inl h)
    · exact Or.inr (Or.inr ⟨e.1, mem_iff_exists_getElem?.2 ⟨e.2, mem_toList_iff.1 he⟩, h⟩)
  · rintro (h | h | ⟨key, hkey, h⟩)
    · exact Or.inl h
    · exact Or.inr (Or.inl h)
    · obtain ⟨value, hvalue⟩ := mem_iff_exists_getElem?.1 hkey
      exact Or.inr (Or.inr ⟨(key, value), mem_toList_iff.2 hvalue, h⟩)

/-- What is reached is the executor or has a membership. -/
theorem mem_allRoles_of_reaches
    (h : Reaches (upperFacts (knownEdge facts)) executorRole role) :
    role ∈ allRoles graph facts executorRole := by
  rw [mem_allRoles_iff]
  rcases Relation.ReflTransGen.cases_tail h with rfl | ⟨member, -, hedge⟩
  · exact Or.inl rfl
  · refine Or.inr (Or.inr ⟨(role, member), ?_, Or.inl rfl⟩)
    by_contra hnone
    rw [mem_upperFacts, knownEdge, not_mem_iff_getElem?.1 hnone] at hedge
    exact hedge rfl

theorem reachability_getElem? :
    (reachability graph facts executorRole false true)[role]? =
      if role ∈ allRoles graph facts executorRole then
        some (roleStatus (traverse facts executorRole (· == .allowed))
          (traverse facts executorRole (· != .denied)) true role)
      else none := by
  rw [← getElem?_ofList_map]
  rfl

/-- A role is reachable when it is on a path of certain facts. -/
theorem reachability_reachable_iff :
    (reachability graph facts executorRole false true)[role]? = some .reachable ↔
      Reaches (lowerFacts (knownEdge facts)) executorRole role := by
  rw [← setOf_allowed_eq, ← mem_traverse_iff, reachability_getElem?]
  constructor
  · intro h
    split_ifs at h
    rw [Option.some.injEq, roleStatus] at h
    split_ifs at h with hdefinite
    exact ExtTreeSet.mem_iff_contains.2 hdefinite
  · intro h
    have hall : role ∈ allRoles graph facts executorRole := by
      rw [mem_traverse_iff, setOf_allowed_eq] at h
      exact mem_allRoles_of_reaches graph facts executorRole role
        (h.mono (completes_lowerFacts.subset_upper))
    rw [if_pos hall, roleStatus, if_pos (ExtTreeSet.mem_iff_contains.1 h)]

/-- The reported status of a role; one that is not reported counts as unreachable. -/
def reportedStatus : ReachabilityStatus :=
  (reachability graph facts executorRole false true)[role]?.getD .unreachable

theorem reportedStatus_reachable_iff :
    reportedStatus graph facts executorRole role = .reachable ↔
      Reaches (lowerFacts (knownEdge facts)) executorRole role := by
  rw [← reachability_reachable_iff graph facts executorRole role, reportedStatus]
  cases (reachability graph facts executorRole false true)[role]? with
  | none => simp
  | some status => simp

/-- It is reported unreachable when no path of possible facts leads to it. -/
theorem reportedStatus_unreachable_iff :
    reportedStatus graph facts executorRole role = .unreachable ↔
      ¬ Reaches (upperFacts (knownEdge facts)) executorRole role := by
  rw [reportedStatus, ← setOf_possible_eq, ← mem_traverse_iff, reachability_getElem?]
  constructor
  · intro h hpossible
    have hall : role ∈ allRoles graph facts executorRole := by
      rw [mem_traverse_iff, setOf_possible_eq] at hpossible
      exact mem_allRoles_of_reaches graph facts executorRole role hpossible
    rw [if_pos hall, Option.getD_some, roleStatus, ExtTreeSet.mem_iff_contains.1 hpossible,
      Bool.true_or, if_pos rfl] at h
    split_ifs at h
  · intro h
    split_ifs with hall
    · rw [Option.getD_some, roleStatus]
      have hdefinite : (traverse facts executorRole (· == .allowed)).contains role = false := by
        rw [contains_eq_false_iff]
        intro hmem
        rw [mem_traverse_iff, setOf_allowed_eq] at hmem
        rw [mem_traverse_iff, setOf_possible_eq] at h
        exact h (hmem.mono completes_lowerFacts.subset_upper)
      rw [hdefinite, contains_eq_false_iff.2 h]
      rfl
    · rfl

/-- The answer about a role is exact about the unknown facts. -/
theorem reachability_exact :
    Exact (fun edges => Reaches edges executorRole role) (knownEdge facts)
      (reportedStatus graph facts executorRole role = .reachable)
      (reportedStatus graph facts executorRole role = .unreachable) :=
  exact_of_extremes (fun _ _ h hreach => hreach.mono h)
    (reportedStatus_reachable_iff graph facts executorRole role)
    (reportedStatus_unreachable_iff graph facts executorRole role)

theorem isSome_reachability (h : role ∈ allRoles graph facts executorRole) :
    ((reachability graph facts executorRole false true)[role]?).isSome := by
  rw [reachability_getElem?, if_pos h]
  rfl

end Roles

/-! ### The answers about authority -/

/-- What authority over memberships rests on: a membership that passes on privileges, a holder of the
ADMIN option, and the attribute CREATEROLE. -/
inductive AuthorityFact where
  | usage (key : String × String)
  | admin (key : String × String)
  | createrole

/-- The memberships among the facts. -/
def usageEdges (facts : Set AuthorityFact) : Set (String × String) :=
  {key | AuthorityFact.usage key ∈ facts}

/-- The executor holds the ADMIN option on the role, itself or as a role it reaches. -/
def HasAdmin (facts : Set AuthorityFact) (executorRole role : String) : Prop :=
  ∃ holder, Reaches (usageEdges facts) executorRole holder ∧ AuthorityFact.admin (role, holder) ∈ facts

/-- The executor may change the memberships of the role. -/
def HasAuthority (pgMajorVersion : Nat) (facts : Set AuthorityFact) (executorRole role : String) :
    Prop :=
  (pgMajorVersion < 16 ∧ AuthorityFact.createrole ∈ facts) ∨ HasAdmin facts executorRole role

/-- What the explorer knows about these facts. -/
def knownAuthority (usage adminOptions : EdgeFacts) (createrole : SetRoleCapability) :
    AuthorityFact → Option Bool
  | .usage key => knownEdge usage key
  | .admin key => knownEdge adminOptions key
  | .createrole => createrole.known

/-- The analysis state of an executor that is no superuser, with a complete authority graph. -/
def authorityOf (graph : RoleGraph) (setRole usage adminOptions : EdgeFacts) (executorRole : String)
    (createrole : SetRoleCapability) (pgMajorVersion : Nat) : AuthorityState where
  graph := graph
  setReachable := reachability graph setRole executorRole false true
  usageReachable := reachability graph usage executorRole false true
  adminOptions := adminOptions
  isSuperuser := false
  createrole := createrole
  authorityGraphComplete := true
  pgMajorVersion := pgMajorVersion

/-- What a fold over the holders finds. -/
theorem foldl_betterAdmin_iff {l : List ((String × String) × SetRoleCapability)}
    {status : String → ReachabilityStatus} {best : ReachabilityStatus} :
    (l.foldl (fun best e => betterAdmin best (status e.1.2) e.2) best = .reachable ↔
      best = .reachable ∨ ∃ e ∈ l, status e.1.2 = .reachable ∧ e.2 = .allowed) ∧
    (l.foldl (fun best e => betterAdmin best (status e.1.2) e.2) best = .unreachable ↔
      best = .unreachable ∧ ∀ e ∈ l, status e.1.2 = .unreachable ∨ e.2 = .denied) := by
  have hstep : ∀ (best member : ReachabilityStatus) (admin : SetRoleCapability),
      (betterAdmin best member admin = .reachable ↔
        best = .reachable ∨ (member = .reachable ∧ admin = .allowed)) ∧
      (betterAdmin best member admin = .unreachable ↔
        best = .unreachable ∧ (member = .unreachable ∨ admin = .denied)) := by
    intro best member admin
    cases best <;> cases member <;> cases admin <;> decide
  induction l generalizing best with
  | nil => simp
  | cons e l ih =>
      obtain ⟨hreachable, hunreachable⟩ := @ih (betterAdmin best (status e.1.2) e.2)
      obtain ⟨hstepReachable, hstepUnreachable⟩ := hstep best (status e.1.2) e.2
      rw [List.foldl_cons, hreachable, hunreachable, hstepReachable, hstepUnreachable]
      simp only [List.mem_cons, exists_eq_or_imp, forall_eq_or_imp, or_assoc, and_assoc, and_self]

/-- The scan of one role's holders. -/
theorem mem_scanBlock_role {facts : EdgeFacts} {role : String}
    {e : (String × String) × SetRoleCapability} :
    e ∈ scanBlock Prod.fst (role, "") (fun key => key.1 == role) facts.toList ↔
      e.1.1 = role ∧ facts[e.1]? = some e.2 := by
  have hpair : ∀ a b : String × String,
      compare a b = (compare a.1 b.1).then (compare a.2 b.2) := fun _ _ => rfl
  rw [scanBlock_eq_filter Prod.fst]
  · rw [List.mem_filter, beq_iff_eq, mem_toList_iff, and_comm]
  · exact ExtTreeMap.ordered_keys_toList
  · intro key hkey hlt
    -- No text is below the empty one.
    rw [hpair, beq_iff_eq.1 hkey, compare_eq_iff.2 rfl, Ordering.then, compare_lt_iff_lt] at hlt
    have htext := String.lt_iff.1 hlt
    simp at htext
  · intro a b hge hlt hb
    rw [hpair] at hge hlt
    rw [beq_iff_eq.1 hb] at hlt
    exact beq_iff_eq.2 (eq_of_then_ne_lt_of_then_eq_lt (b := role) hge hlt).1

section Authority

variable (graph : RoleGraph) (setRole usage adminOptions : EdgeFacts) (executorRole : String)
  (createrole : SetRoleCapability) (pgMajorVersion : Nat) (role : String)

theorem adminOption_eq :
    (authorityOf graph setRole usage adminOptions executorRole createrole
      pgMajorVersion).adminOption role =
      (scanBlock Prod.fst (role, "") (fun key => key.1 == role) adminOptions.toList).foldl
        (fun best e => betterAdmin best (reportedStatus graph usage executorRole e.1.2) e.2)
        .unreachable :=
  rfl

/-- The ADMIN option is there when some reached member certainly holds it. -/
theorem adminOption_reachable_iff :
    (authorityOf graph setRole usage adminOptions executorRole createrole
      pgMajorVersion).adminOption role = .reachable ↔
      HasAdmin (lowerFacts (knownAuthority usage adminOptions createrole)) executorRole role := by
  rw [adminOption_eq, foldl_betterAdmin_iff.1]
  simp only [reduceCtorEq, false_or, mem_scanBlock_role, reportedStatus_reachable_iff]
  constructor
  · rintro ⟨⟨⟨role', holder⟩, value⟩, ⟨rfl, hvalue⟩, hreach, rfl⟩
    refine ⟨holder, hreach, ?_⟩
    simp only at hvalue
    rw [mem_lowerFacts, knownAuthority, knownEdge, hvalue]
    rfl
  · rintro ⟨holder, hreach, hadmin⟩
    rw [mem_lowerFacts, knownAuthority, knownEdge] at hadmin
    cases hvalue : adminOptions[(role, holder)]? with
    | none =>
        rw [hvalue] at hadmin
        cases hadmin
    | some value =>
        rw [hvalue] at hadmin
        refine ⟨((role, holder), value), ⟨rfl, hvalue⟩, hreach, ?_⟩
        cases value with
        | allowed => rfl
        | denied => cases hadmin
        | unknown => cases hadmin

/-- It is not there when no member that may be reached may hold it. -/
theorem adminOption_unreachable_iff :
    (authorityOf graph setRole usage adminOptions executorRole createrole
      pgMajorVersion).adminOption role = .unreachable ↔
      ¬ HasAdmin (upperFacts (knownAuthority usage adminOptions createrole)) executorRole role := by
  rw [adminOption_eq, foldl_betterAdmin_iff.2]
  simp only [true_and, mem_scanBlock_role]
  constructor
  · rintro h ⟨holder, hreach, hadmin⟩
    rw [mem_upperFacts, knownAuthority, knownEdge] at hadmin
    cases hvalue : adminOptions[(role, holder)]? with
    | none =>
        rw [hvalue] at hadmin
        exact hadmin rfl
    | some value =>
        rw [hvalue] at hadmin
        rcases h ((role, holder), value) ⟨rfl, hvalue⟩ with hholder | hdenied
        · exact (reportedStatus_unreachable_iff graph usage executorRole holder).1 hholder hreach
        · simp only at hdenied
          rw [hdenied] at hadmin
          exact hadmin rfl
  · rintro h ⟨⟨role', holder⟩, value⟩ ⟨rfl, hvalue⟩
    simp only at hvalue ⊢
    by_contra hboth
    push Not at hboth
    refine h ⟨holder, ?_, ?_⟩
    · by_contra hnone
      exact hboth.1 ((reportedStatus_unreachable_iff graph usage executorRole holder).2 hnone)
    · rw [mem_upperFacts, knownAuthority, knownEdge, hvalue]
      cases value with
      | allowed => exact fun hfalse => by cases hfalse
      | denied => exact absurd rfl hboth.2
      | unknown => exact fun hfalse => by cases hfalse

theorem HasAdmin.mono {a b : Set AuthorityFact} (hsub : a ⊆ b) {executorRole role : String}
    (h : HasAdmin a executorRole role) : HasAdmin b executorRole role := by
  obtain ⟨holder, hreach, hadmin⟩ := h
  exact ⟨holder, hreach.mono fun key hkey => hsub hkey, hsub hadmin⟩

/-- The answer about the ADMIN option is exact about the unknown facts. -/
theorem adminOption_exact :
    Exact (fun facts => HasAdmin facts executorRole role)
      (knownAuthority usage adminOptions createrole)
      ((authorityOf graph setRole usage adminOptions executorRole createrole
        pgMajorVersion).adminOption role = .reachable)
      ((authorityOf graph setRole usage adminOptions executorRole createrole
        pgMajorVersion).adminOption role = .unreachable) :=
  exact_of_extremes (fun _ _ h hadmin => hadmin.mono h)
    (adminOption_reachable_iff graph setRole usage adminOptions executorRole createrole
      pgMajorVersion role)
    (adminOption_unreachable_iff graph setRole usage adminOptions executorRole createrole
      pgMajorVersion role)

theorem statusWithCreaterole_iff (admin : ReachabilityStatus) :
    (statusWithCreaterole pgMajorVersion createrole admin = .reachable ↔
      (pgMajorVersion < 16 ∧ createrole.known = some true) ∨ admin = .reachable) ∧
    (statusWithCreaterole pgMajorVersion createrole admin = .unreachable ↔
      ¬ (pgMajorVersion < 16 ∧ createrole.known ≠ some false) ∧ admin = .unreachable) := by
  unfold statusWithCreaterole
  by_cases hversion : 16 ≤ pgMajorVersion
  · simp [hversion, Nat.not_lt.2 hversion]
  · have hlt : pgMajorVersion < 16 := by omega
    rw [if_neg hversion]
    cases createrole <;> cases admin <;> simp [SetRoleCapability.known, hlt]

/-- So is the answer about the authority over memberships. -/
theorem membershipAuthority_exact :
    Exact (fun facts => HasAuthority pgMajorVersion facts executorRole role)
      (knownAuthority usage adminOptions createrole)
      ((authorityOf graph setRole usage adminOptions executorRole createrole
        pgMajorVersion).membershipAuthority role = .reachable)
      ((authorityOf graph setRole usage adminOptions executorRole createrole
        pgMajorVersion).membershipAuthority role = .unreachable) := by
  have hreachable := adminOption_reachable_iff graph setRole usage adminOptions executorRole
    createrole pgMajorVersion role
  have hunreachable := adminOption_unreachable_iff graph setRole usage adminOptions executorRole
    createrole pgMajorVersion role
  refine exact_of_extremes (fun a b h hauthority => ?_) ?_ ?_
  · exact hauthority.imp (And.imp_right fun hcreaterole => h hcreaterole) fun hadmin =>
      hadmin.mono h
  · rw [HasAuthority, ← hreachable, mem_lowerFacts, knownAuthority]
    exact (statusWithCreaterole_iff createrole pgMajorVersion _).1
  · rw [HasAuthority, not_or, ← hunreachable, mem_upperFacts, knownAuthority]
    exact (statusWithCreaterole_iff createrole pgMajorVersion _).2

end Authority

/-! ### More knowledge -/

/-- A definite answer stays. -/
def Keeps (status status' : ReachabilityStatus) : Prop := status ≠ .unknown → status' = status

theorem keeps_of_imp {status status' : ReachabilityStatus}
    (h : (status = .reachable → status' = .reachable) ∧
      (status = .unreachable → status' = .unreachable)) : Keeps status status' := by
  intro hknown
  cases status with
  | reachable => exact h.1 rfl
  | unreachable => exact h.2 rfl
  | unknown => exact absurd rfl hknown

/-- One unknown fact about memberships, ADMIN options or CREATEROLE becomes definite. -/
inductive Settles : EdgeFacts × EdgeFacts × SetRoleCapability →
    EdgeFacts × EdgeFacts × SetRoleCapability → Prop
  | usage {usage adminOptions : EdgeFacts} {createrole value : SetRoleCapability}
      {key : String × String} (hkey : usage[key]? = some .unknown) (hvalue : value ≠ .unknown) :
      Settles (usage, adminOptions, createrole) (usage.insert key value, adminOptions, createrole)
  | admin {usage adminOptions : EdgeFacts} {createrole value : SetRoleCapability}
      {key : String × String} (hkey : adminOptions[key]? = some .unknown)
      (hvalue : value ≠ .unknown) :
      Settles (usage, adminOptions, createrole) (usage, adminOptions.insert key value, createrole)
  | createrole {usage adminOptions : EdgeFacts} {value : SetRoleCapability}
      (hvalue : value ≠ .unknown) :
      Settles (usage, adminOptions, .unknown) (usage, adminOptions, value)

theorem knownRefines_insert {facts : EdgeFacts} {key : String × String}
    (hkey : facts[key]? = some .unknown) (value : SetRoleCapability) :
    KnownRefines (knownEdge facts) (knownEdge (facts.insert key value)) := by
  intro a b ha
  rw [knownEdge, getElem?_insert_eq]
  split_ifs with hsame
  · rw [← hsame, knownEdge, hkey] at ha
    cases ha
  · exact ha

/-- So does settling all of them. -/
theorem Settles.knownRefines {f f' : EdgeFacts × EdgeFacts × SetRoleCapability}
    (h : Settles f f') :
    KnownRefines (knownAuthority f.1 f.2.1 f.2.2) (knownAuthority f'.1 f'.2.1 f'.2.2) := by
  cases h with
  | @usage usage adminOptions createrole value key hkey hvalue =>
      rintro (edge | edge | _) b hb
      · exact knownRefines_insert hkey value edge b hb
      · exact hb
      · exact hb
  | @admin usage adminOptions createrole value key hkey hvalue =>
      rintro (edge | edge | _) b hb
      · exact hb
      · exact knownRefines_insert hkey value edge b hb
      · exact hb
  | createrole hvalue =>
      rintro (edge | edge | _) b hb
      · exact hb
      · exact hb
      · cases hb

/-- For an executor that is no superuser, with a complete authority graph: every role of the graph
and of the facts is reported; reachable means reached in every completion of the unknown facts and
unreachable means reached in none; the same holds of the ADMIN option and of the authority over
memberships; and settling an unknown fact changes no definite answer. -/
theorem authorityAnalysis_exact (graph : RoleGraph) (executorRole : String) :
    (∀ facts : EdgeFacts, ∀ role,
      (role ∈ allRoles graph facts executorRole →
        ((reachability graph facts executorRole false true)[role]?).isSome) ∧
      Exact (fun edges => Reaches edges executorRole role) (knownEdge facts)
        (reportedStatus graph facts executorRole role = .reachable)
        (reportedStatus graph facts executorRole role = .unreachable) ∧
      ∀ key value, facts[key]? = some .unknown →
        Keeps (reportedStatus graph facts executorRole role)
          (reportedStatus graph (facts.insert key value) executorRole role)) ∧
    ∀ (setRole usage adminOptions : EdgeFacts) (createrole : SetRoleCapability)
      (pgMajorVersion : Nat) (role : String),
      Exact (fun facts => HasAdmin facts executorRole role)
        (knownAuthority usage adminOptions createrole)
        ((authorityOf graph setRole usage adminOptions executorRole createrole
          pgMajorVersion).adminOption role = .reachable)
        ((authorityOf graph setRole usage adminOptions executorRole createrole
          pgMajorVersion).adminOption role = .unreachable) ∧
      Exact (fun facts => HasAuthority pgMajorVersion facts executorRole role)
        (knownAuthority usage adminOptions createrole)
        ((authorityOf graph setRole usage adminOptions executorRole createrole
          pgMajorVersion).membershipAuthority role = .reachable)
        ((authorityOf graph setRole usage adminOptions executorRole createrole
          pgMajorVersion).membershipAuthority role = .unreachable) ∧
      ∀ f', Settles (usage, adminOptions, createrole) f' →
        Keeps ((authorityOf graph setRole usage adminOptions executorRole createrole
            pgMajorVersion).adminOption role)
          ((authorityOf graph setRole f'.1 f'.2.1 executorRole f'.2.2
            pgMajorVersion).adminOption role) ∧
        Keeps ((authorityOf graph setRole usage adminOptions executorRole createrole
            pgMajorVersion).membershipAuthority role)
          ((authorityOf graph setRole f'.1 f'.2.1 executorRole f'.2.2
            pgMajorVersion).membershipAuthority role) := by
  constructor
  · intro facts role
    refine ⟨isSome_reachability graph facts executorRole role,
      reachability_exact graph facts executorRole role, fun key value hkey => ?_⟩
    exact keeps_of_imp ((reachability_exact graph facts executorRole role).of_refines
      (reachability_exact graph _ executorRole role) (knownRefines_insert hkey value))
  · intro setRole usage adminOptions createrole pgMajorVersion role
    have hadmin := adminOption_exact graph setRole usage adminOptions executorRole createrole
      pgMajorVersion role
    have hauthority := membershipAuthority_exact graph setRole usage adminOptions executorRole
      createrole pgMajorVersion role
    refine ⟨hadmin, hauthority, fun f' hsettles => ⟨?_, ?_⟩⟩
    · exact keeps_of_imp (hadmin.of_refines (adminOption_exact graph setRole f'.1 f'.2.1
        executorRole f'.2.2 pgMajorVersion role) hsettles.knownRefines)
    · exact keeps_of_imp (hauthority.of_refines (membershipAuthority_exact graph setRole f'.1 f'.2.1
        executorRole f'.2.2 pgMajorVersion role) hsettles.knownRefines)

end PgRoles.Explorer

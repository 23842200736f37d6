import PgRoles.Core.PlanSpec
import PgRoles.Operator.AccessRequest
import PgRoles.Operator.Plan
import PgRoles.Semantics.MembershipRemoval

/-!
# The effective graph

While a request for temporary access runs, its memberships are laid over the graph that the policy
declares, so that an authoritative plan does not revoke them. A status alone grants nothing: a
request counts once a plan it owns shows that the operator began this very bundle. What the policy
declares itself takes precedence, and a request that cannot be laid over the graph fails the
composition.

The loop is characterised by what it has read so far (`Accumulated`) and by a condition on all
memberships together (`Fits`), neither of which depends on the order of the requests.
-/

set_option autoImplicit false

namespace PgRoles.Operator

open Std PgRoles.Core PgRoles.Lib PgRoles.Semantics

/-! ## Plans of requests -/

/-- A reference to the owner of an object. -/
structure OwnerReference where
  kind : String
  uid : String
  controller : Option Bool
  deriving DecidableEq, Repr

/-- The bundle an ephemeral plan executes. -/
structure PlanScope where
  operation : ScopedPlanOperation
  bundleHash : String
  deriving DecidableEq, Repr

/-- The object a scoped plan comes from. -/
structure ScopedPlanOrigin where
  kind : String
  uid : String
  deriving DecidableEq, Repr

/-- A plan of an access request. -/
structure ScopedPlan where
  ownerReferences : Option (List OwnerReference)
  origin : Option ScopedPlanOrigin
  scope : Option PlanScope
  /-- The phase, where a status has been written. -/
  phase : Option PlanPhase
  deriving DecidableEq, Repr

/-- The kind of access requests. -/
def ephemeralAccessRequestKind : String := "EphemeralAccessRequest"

/-- The plan shows that the operator began this bundle for this request. -/
def planAuthorizesActivation (plan : ScopedPlan) (request : EphemeralAccessRequest)
    (resolved : ResolvedEphemeralAccess) (includeApplying : Bool) : Bool :=
  let requestUid := request.uid.getD ""
  let ownedByRequest := plan.ownerReferences.any fun owners => owners.any fun owner =>
    owner.controller == some true && owner.kind == ephemeralAccessRequestKind &&
      owner.uid == requestUid
  let matchingOrigin := plan.origin.any fun origin =>
    origin.kind == ephemeralAccessRequestKind && origin.uid == requestUid
  let matchingScope := plan.scope.any fun scope =>
    scope.operation == .activate && scope.bundleHash == resolved.bundleHash
  let usablePhase :=
    match plan.phase with
    | none => includeApplying
    | some phase => phase == .applied || (includeApplying && phase == .applying)
  ownedByRequest && matchingOrigin && matchingScope && usablePhase

/-! ## Composition -/

/-- Why the graph could not be composed. -/
inductive ComposeError where
  | invalidSpec (message : String)
  /-- A call to the API server failed. -/
  | kube (message : String)
  deriving DecidableEq, Repr

/-- What the calls to the API server answer: reporting that a request blocks the removal of a role,
and clearing such reports. -/
structure ComposeCalls where
  setRoleRetirementBlocked :
    EphemeralAccessRequest → ResolvedEphemeralMembership → String → Except String Unit
  clearRoleRetirementBlocked : Except String Unit

/-- What a composition is computed from, besides the graph and the requests. -/
structure ComposeInputs where
  sha256 : ByteArray → String
  calls : ComposeCalls
  policyUid : Option String
  targetDatabaseFingerprint : String

/-- The pair a membership is about. -/
def ResolvedEphemeralMembership.key (membership : ResolvedEphemeralMembership) : String × String :=
  (membership.role, membership.member)

/-- The edge that is laid over the graph. -/
def ResolvedEphemeralMembership.edge (membership : ResolvedEphemeralMembership) : MembershipEdge :=
  ⟨membership.role, membership.member, membership.inherit, false⟩

/-- The roles and edges collected so far. -/
structure Overlays where
  additionalRoles : BTreeSet String := ∅
  edges : BTreeMap (String × String) MembershipEdge := ∅

/-- The policy declares the pair itself. -/
def isDurable (desired : RoleGraph) (key : String × String) : Bool :=
  (desired.memberships.toList.find? fun candidate => candidate.pair == key).isSome

/-- The snapshot of a request that is applying or active, that one of its plans vouches for, and
that was made for this policy. -/
def composedAccess (inputs : ComposeInputs) (scopedPlans : List ScopedPlan)
    (request : EphemeralAccessRequest) : Option ResolvedEphemeralAccess :=
  match request.status with
  | none => none
  | some status =>
      if status.phase != .applying && status.phase != .active then none
      else
        match status.resolvedAccess with
        | none => none
        | some resolved =>
            if !scopedPlans.any (planAuthorizesActivation · request resolved true) then none
            else if resolved.targetPolicyUid != inputs.policyUid.getD "" ||
                !resolved.hasValidBundleHash inputs.sha256 then none
            else some resolved

section Compose

variable (inputs : ComposeInputs) (desired : RoleGraph)

/-- Which of the two roles the graph does not have. -/
def missingRelationship (desired : RoleGraph) (membership : ResolvedEphemeralMembership) :
    Option String :=
  match !desired.roles.contains membership.role, !desired.roles.contains membership.member with
  | true, true => some "granted role and subject"
  | true, false => some "granted role"
  | false, true => some "subject"
  | false, false => none

/-- Lay one membership over the graph. -/
def composeMembership (request : EphemeralAccessRequest) (overlays : Overlays)
    (membership : ResolvedEphemeralMembership) : Except ComposeError Overlays :=
  match missingRelationship desired membership with
  | some relationship =>
      match inputs.calls.setRoleRetirementBlocked request membership relationship with
      | .error message => .error (.kube message)
      | .ok () => .error <| .invalidSpec <|
          "active ephemeral request " ++ request.name ++ " (" ++ request.uid.getD "" ++
            ") blocks removal of " ++ relationship ++ ": membership " ++ membership.member ++
            " -> " ++ membership.role
  | none =>
      let roles := (overlays.additionalRoles.insert membership.role).insert membership.member
      if isDurable desired membership.key then .ok { overlays with additionalRoles := roles }
      else if overlays.edges[membership.key]?.any (· != membership.edge) then
        .error <| .invalidSpec <| "active ephemeral requests conflict on membership " ++
          membership.member ++ " -> " ++ membership.role
      else .ok ⟨roles, overlays.edges.insert membership.key membership.edge⟩

/-- Lay the memberships of one request over the graph, if it counts. -/
def composeRequest (scopedPlans : List ScopedPlan) (overlays : Overlays)
    (request : EphemeralAccessRequest) : Except ComposeError Overlays :=
  match composedAccess inputs scopedPlans request with
  | none => .ok overlays
  | some resolved =>
      if resolved.targetDatabaseFingerprint != inputs.targetDatabaseFingerprint then
        .error <| .invalidSpec <| "active ephemeral request " ++ request.name ++ " (" ++
          request.uid.getD "" ++ ") targets a different resolved database; restore the original " ++
          "target before reconciliation"
      else resolved.memberships.foldlM (composeMembership inputs desired request) overlays

/-- Compose the effective graph: the result of the call, and the graph it leaves. -/
def composeEffectiveGraph (requests : List EphemeralAccessRequest) (scopedPlans : List ScopedPlan) :
    Except ComposeError (BTreeSet String) × RoleGraph :=
  match requests.foldlM (composeRequest inputs desired scopedPlans) {} with
  | .error e => (.error e, desired)
  | .ok overlays =>
      match inputs.calls.clearRoleRetirementBlocked with
      | .error message => (.error (.kube message), desired)
      | .ok () => (.ok overlays.additionalRoles,
          { desired with
            memberships := desired.memberships.insertMany (overlays.edges.toList.map Prod.snd) })

end Compose

/-! ## What the loop collects -/

section Collect

variable {inputs : ComposeInputs} {desired : RoleGraph} {scopedPlans : List ScopedPlan}
  {items : List ResolvedEphemeralMembership} {overlays : Overlays}

theorem isDurable_iff {key : String × String} :
    isDurable desired key = true ↔ ∃ e ∈ desired.memberships, e.pair = key := by
  unfold isDurable
  rw [List.find?_isSome]
  constructor
  · rintro ⟨e, he, hkey⟩
    exact ⟨e, ExtTreeSet.mem_toList.1 he, beq_iff_eq.1 hkey⟩
  · rintro ⟨e, he, hkey⟩
    exact ⟨e, ExtTreeSet.mem_toList.2 he, beq_iff_eq.2 hkey⟩

/-- The overlays are those of the memberships read so far. -/
structure Accumulated (desired : RoleGraph) (items : List ResolvedEphemeralMembership)
    (overlays : Overlays) : Prop where
  roles : ∀ role, role ∈ overlays.additionalRoles ↔ ∃ m ∈ items, role = m.role ∨ role = m.member
  edges : ∀ key e, overlays.edges[key]? = some e ↔
    ∃ m ∈ items, m.key = key ∧ isDurable desired key = false ∧ e = m.edge

/-- The memberships can be laid over the graph together: their roles are there, and two about a pair
that the policy does not declare ask for the same. -/
structure Fits (desired : RoleGraph) (items : List ResolvedEphemeralMembership) : Prop where
  present : ∀ m ∈ items, missingRelationship desired m = none
  agree : ∀ m ∈ items, ∀ m' ∈ items, m.key = m'.key → isDurable desired m.key = false →
    m.edge = m'.edge

theorem accumulated_nil : Accumulated desired [] {} where
  roles := fun role => ⟨fun h => absurd h ExtTreeSet.not_mem_empty, nofun⟩
  edges := fun key e => by
    refine ⟨fun h => ?_, nofun⟩
    rw [ExtTreeMap.getElem?_empty] at h
    cases h

theorem fits_nil : Fits desired [] := ⟨nofun, nofun⟩

theorem Fits.mono {items' : List ResolvedEphemeralMembership} (h : Fits desired items)
    (hsub : items' ⊆ items) : Fits desired items' where
  present := fun m hm => h.present m (hsub hm)
  agree := fun m hm m' hm' => h.agree m (hsub hm) m' (hsub hm')

/-- One more membership fits if its roles are there and no overlay of its pair differs. -/
theorem fits_append_singleton_iff (hacc : Accumulated desired items overlays)
    (hfits : Fits desired items) (m : ResolvedEphemeralMembership) :
    Fits desired (items ++ [m]) ↔ missingRelationship desired m = none ∧
      (isDurable desired m.key = false →
        ∀ e, overlays.edges[m.key]? = some e → e = m.edge) := by
  constructor
  · intro h
    refine ⟨h.present m (List.mem_append_right _ List.mem_cons_self), fun hdurable e he => ?_⟩
    obtain ⟨m', hm', hkey, -, rfl⟩ := (hacc.edges m.key e).1 he
    exact h.agree m' (List.mem_append_left _ hm') m (List.mem_append_right _ List.mem_cons_self)
      hkey (hkey ▸ hdurable)
  · rintro ⟨hpresent, hagree⟩
    have hnew : ∀ m' ∈ items, m'.key = m.key → isDurable desired m.key = false →
        m'.edge = m.edge := fun m' hm' hkey hdurable =>
      hagree hdurable _ ((hacc.edges m.key _).2 ⟨m', hm', hkey, hdurable, rfl⟩)
    refine ⟨fun a ha => ?_, fun a ha b hb hkey hdurable => ?_⟩
    · rcases List.mem_append.1 ha with ha | ha
      · exact hfits.present a ha
      · rw [List.mem_singleton.1 ha]
        exact hpresent
    · rcases List.mem_append.1 ha with ha | ha <;> rcases List.mem_append.1 hb with hb | hb
      · exact hfits.agree a ha b hb hkey hdurable
      · rw [List.mem_singleton.1 hb] at hkey ⊢
        exact hnew a ha hkey (hkey ▸ hdurable)
      · rw [List.mem_singleton.1 ha] at hkey hdurable ⊢
        exact (hnew b hb hkey.symm hdurable).symm
      · rw [List.mem_singleton.1 ha, List.mem_singleton.1 hb]

/-- The result is the overlays of the memberships where they fit, and an error where not. -/
def Collects (desired : RoleGraph) (items : List ResolvedEphemeralMembership) (ok : Prop)
    (result : Except ComposeError Overlays) : Prop :=
  (ok ∧ Fits desired items ∧
    ∃ overlays, result = .ok overlays ∧ Accumulated desired items overlays) ∨
  (¬ (ok ∧ Fits desired items) ∧ ∃ e, result = .error e)

theorem exists_mem_append_singleton {α : Type} {l : List α} {a : α} {p : α → Prop} :
    (∃ x ∈ l ++ [a], p x) ↔ (∃ x ∈ l, p x) ∨ p a := by
  simp only [List.mem_append, List.mem_singleton, or_and_right, exists_or, exists_eq_left]

/-- One membership. -/
theorem collects_composeMembership (hacc : Accumulated desired items overlays)
    (hfits : Fits desired items) (request : EphemeralAccessRequest)
    (m : ResolvedEphemeralMembership) :
    Collects desired (items ++ [m]) True (composeMembership inputs desired request overlays m) := by
  have hroles : ∀ role, role ∈ (overlays.additionalRoles.insert m.role).insert m.member ↔
      ∃ m' ∈ items ++ [m], role = m'.role ∨ role = m'.member := by
    intro role
    rw [mem_insert_iff, mem_insert_iff, hacc.roles, exists_mem_append_singleton]
    constructor
    · rintro (rfl | rfl | hold)
      · exact Or.inr (Or.inr rfl)
      · exact Or.inr (Or.inl rfl)
      · exact Or.inl hold
    · rintro (hold | rfl | rfl)
      · exact Or.inr (Or.inr hold)
      · exact Or.inr (Or.inl rfl)
      · exact Or.inl rfl
  have hfitsNew := fits_append_singleton_iff hacc hfits m
  unfold composeMembership
  cases hmissing : missingRelationship desired m with
  | some relationship =>
    right
    refine ⟨fun h => ?_, ?_⟩
    · rw [(hfitsNew.1 h.2).1] at hmissing
      cases hmissing
    · dsimp only
      cases inputs.calls.setRoleRetirementBlocked request m relationship with
      | error message => exact ⟨_, rfl⟩
      | ok => exact ⟨_, rfl⟩
  | none =>
    dsimp only
    split_ifs with hdurable hconflict
    · left
      refine ⟨trivial, hfitsNew.2 ⟨hmissing, fun hno => ?_⟩, _, rfl, hroles, fun key e => ?_⟩
      · rw [hdurable] at hno
        cases hno
      · rw [hacc.edges, exists_mem_append_singleton]
        refine ⟨Or.inl, fun h => h.resolve_right ?_⟩
        rintro ⟨rfl, hno, -⟩
        rw [hdurable] at hno
        cases hno
    · right
      refine ⟨fun h => ?_, _, rfl⟩
      rw [Option.any_eq_true] at hconflict
      obtain ⟨e, he, hne⟩ := hconflict
      rw [Bool.not_eq_true] at hdurable
      exact bne_iff_ne.1 hne ((hfitsNew.1 h.2).2 hdurable e he)
    · rw [Bool.not_eq_true] at hdurable
      have hagree : ∀ e, overlays.edges[m.key]? = some e → e = m.edge := by
        intro e he
        rw [he, Option.any_some, Bool.not_eq_true, bne_eq_false_iff_eq] at hconflict
        exact hconflict
      left
      refine ⟨trivial, hfitsNew.2 ⟨hmissing, fun _ => hagree⟩, _, rfl, hroles, fun key e => ?_⟩
      rw [getElem?_insert_eq, exists_mem_append_singleton, ← hacc.edges]
      by_cases hkey : m.key = key
      · -- an overlay that is replaced is the same
        rw [if_pos hkey, Option.some.injEq]
        constructor
        · rintro rfl
          exact Or.inr ⟨hkey, hkey ▸ hdurable, rfl⟩
        · rintro (hold | ⟨-, -, rfl⟩)
          · exact (hagree e (hkey ▸ hold)).symm
          · rfl
      · rw [if_neg hkey]
        exact ⟨Or.inl, fun h => h.resolve_right fun hnew => hkey hnew.1⟩

/-- The memberships of one bundle. -/
theorem collects_composeMemberships (request : EphemeralAccessRequest)
    {ms : List ResolvedEphemeralMembership} (hacc : Accumulated desired items overlays)
    (hfits : Fits desired items) :
    Collects desired (items ++ ms) True
      (ms.foldlM (composeMembership inputs desired request) overlays) := by
  induction ms generalizing items overlays with
  | nil =>
    rw [List.append_nil]
    exact Or.inl ⟨trivial, hfits, overlays, rfl, hacc⟩
  | cons m ms ih =>
    have hsplit : items ++ m :: ms = items ++ [m] ++ ms := by rw [List.append_assoc]; rfl
    rw [List.foldlM_cons, hsplit]
    rcases collects_composeMembership hacc hfits request m with
      ⟨-, hfits', overlays', hok, hacc'⟩ | ⟨hmisfit, e, herror⟩
    · rw [hok]
      exact ih hacc' hfits'
    · rw [herror]
      refine Or.inr ⟨fun h => hmisfit ⟨trivial, h.2.mono ?_⟩, e, rfl⟩
      exact List.subset_append_left _ _

/-! ## The requests that count -/

/-- The snapshots of the requests that count. -/
def composedAccesses (inputs : ComposeInputs) (scopedPlans : List ScopedPlan)
    (requests : List EphemeralAccessRequest) : List ResolvedEphemeralAccess :=
  requests.filterMap (composedAccess inputs scopedPlans)

/-- The memberships of the requests that count. -/
def composedMemberships (inputs : ComposeInputs) (scopedPlans : List ScopedPlan)
    (requests : List EphemeralAccessRequest) : List ResolvedEphemeralMembership :=
  (composedAccesses inputs scopedPlans requests).flatMap (·.memberships)

/-- The snapshots were all made for the database that is connected to. -/
def SameDatabase (inputs : ComposeInputs) (accesses : List ResolvedEphemeralAccess) : Prop :=
  ∀ resolved ∈ accesses, resolved.targetDatabaseFingerprint = inputs.targetDatabaseFingerprint

/-- All requests. -/
theorem collects_composeRequests {requests : List EphemeralAccessRequest}
    (hacc : Accumulated desired items overlays) (hfits : Fits desired items) :
    Collects desired (items ++ composedMemberships inputs scopedPlans requests)
      (SameDatabase inputs (composedAccesses inputs scopedPlans requests))
      (requests.foldlM (composeRequest inputs desired scopedPlans) overlays) := by
  induction requests generalizing items overlays with
  | nil =>
    have hnone : items ++ composedMemberships inputs scopedPlans [] = items := List.append_nil _
    rw [hnone]
    exact Or.inl ⟨nofun, hfits, overlays, rfl, hacc⟩
  | cons request requests ih =>
    rw [List.foldlM_cons]
    unfold composeRequest composedMemberships composedAccesses
    rw [List.filterMap_cons]
    cases haccess : composedAccess inputs scopedPlans request with
    | none => exact ih hacc hfits
    | some resolved =>
      dsimp only
      rw [List.flatMap_cons, ← List.append_assoc]
      split_ifs with hother
      · -- another database fails whatever the memberships are
        refine Or.inr ⟨fun h => ?_, _, rfl⟩
        exact bne_iff_ne.1 hother (h.1 resolved List.mem_cons_self)
      · rw [Bool.not_eq_true, bne_eq_false_iff_eq] at hother
        have hsame :
            SameDatabase inputs (resolved :: composedAccesses inputs scopedPlans requests) ↔
            SameDatabase inputs (composedAccesses inputs scopedPlans requests) :=
          ⟨fun h r hr => h r (List.mem_cons_of_mem _ hr),
            fun h => List.forall_mem_cons.2 ⟨hother, h⟩⟩
        have hbundle : Collects desired (items ++ resolved.memberships) True
            (resolved.memberships.foldlM (composeMembership inputs desired request) overlays) :=
          collects_composeMemberships request hacc hfits
        rcases hbundle with ⟨-, hfits', overlays', hok, hacc'⟩ | ⟨hmisfit, e, herror⟩
        · rw [hok]
          unfold Collects
          rw [show SameDatabase inputs (resolved :: requests.filterMap _) ↔ _ from hsame]
          exact ih hacc' hfits'
        · rw [herror]
          refine Or.inr ⟨fun h => hmisfit ⟨trivial, h.2.mono ?_⟩, e, rfl⟩
          exact List.subset_append_left _ _

/-! ## The composed graph -/

/-- When the composition succeeds. -/
structure Composes (inputs : ComposeInputs) (desired : RoleGraph) (scopedPlans : List ScopedPlan)
    (requests : List EphemeralAccessRequest) : Prop where
  database : SameDatabase inputs (composedAccesses inputs scopedPlans requests)
  fits : Fits desired (composedMemberships inputs scopedPlans requests)
  cleared : inputs.calls.clearRoleRetirementBlocked = .ok ()

/-- What a success returns and leaves: the roles of the memberships that count, and the declared
graph with an edge for each of them that the policy does not declare. -/
structure ComposedGraph (inputs : ComposeInputs) (desired : RoleGraph)
    (scopedPlans : List ScopedPlan) (requests : List EphemeralAccessRequest)
    (additionalRoles : BTreeSet String) (composed : RoleGraph) : Prop where
  roles : ∀ role, role ∈ additionalRoles ↔
    ∃ m ∈ composedMemberships inputs scopedPlans requests, role = m.role ∨ role = m.member
  memberships : ∀ e, e ∈ composed.memberships ↔ e ∈ desired.memberships ∨
    ∃ m ∈ composedMemberships inputs scopedPlans requests,
      isDurable desired m.key = false ∧ e = m.edge
  unchanged : composed = { desired with memberships := composed.memberships }

/-- The graph and the roles are determined. -/
theorem ComposedGraph.unique {requests : List EphemeralAccessRequest}
    {additionalRoles additionalRoles' : BTreeSet String} {composed composed' : RoleGraph}
    (h : ComposedGraph inputs desired scopedPlans requests additionalRoles composed)
    (h' : ComposedGraph inputs desired scopedPlans requests additionalRoles' composed') :
    additionalRoles = additionalRoles' ∧ composed = composed' := by
  have hmemberships : composed.memberships = composed'.memberships :=
    ExtTreeSet.ext_mem fun e => (h.memberships e).trans (h'.memberships e).symm
  refine ⟨ExtTreeSet.ext_mem fun role => (h.roles role).trans (h'.roles role).symm, ?_⟩
  rw [h.unchanged, h'.unchanged, hmemberships]

/-- The composition succeeds with the composed graph, or fails and leaves the graph. -/
theorem composeEffectiveGraph_spec (inputs : ComposeInputs) (desired : RoleGraph)
    (scopedPlans : List ScopedPlan) (requests : List EphemeralAccessRequest) :
    (Composes inputs desired scopedPlans requests ∧ ∃ additionalRoles composed,
      composeEffectiveGraph inputs desired requests scopedPlans = (.ok additionalRoles, composed) ∧
        ComposedGraph inputs desired scopedPlans requests additionalRoles composed) ∨
    (¬ Composes inputs desired scopedPlans requests ∧ ∃ e,
      composeEffectiveGraph inputs desired requests scopedPlans = (.error e, desired)) := by
  have hcollects : Collects desired ([] ++ composedMemberships inputs scopedPlans requests) _ _ :=
    collects_composeRequests accumulated_nil fits_nil
  rw [List.nil_append] at hcollects
  unfold composeEffectiveGraph
  rcases hcollects with ⟨hdatabase, hfits, overlays, hok, hacc⟩ | ⟨hno, e, herror⟩
  · rw [hok]
    dsimp only
    cases hcleared : inputs.calls.clearRoleRetirementBlocked with
    | error message =>
      refine Or.inr ⟨fun h => ?_, _, rfl⟩
      rw [h.cleared] at hcleared
      cases hcleared
    | ok =>
      refine Or.inl ⟨⟨hdatabase, hfits, hcleared⟩, _, _, rfl, hacc.roles, fun e => ?_, rfl⟩
      dsimp only
      rw [ExtTreeSet.mem_insertMany_list, List.contains_iff_mem, List.mem_map]
      refine or_congr Iff.rfl ?_
      constructor
      · rintro ⟨⟨key, e'⟩, hmem, rfl⟩
        obtain ⟨m, hm, rfl, hdurable, heq⟩ := (hacc.edges key e').1 (mem_toList_iff.1 hmem)
        exact ⟨m, hm, hdurable, heq⟩
      · rintro ⟨m, hm, hdurable, rfl⟩
        refine ⟨(m.key, m.edge), mem_toList_iff.2 ?_, rfl⟩
        exact (hacc.edges m.key m.edge).2 ⟨m, hm, rfl, hdurable, rfl⟩
  · rw [herror]
    exact Or.inr ⟨fun h => hno ⟨h.database, h.fits⟩, e, rfl⟩

/-! ## The order of requests and plans -/

variable {scopedPlans' : List ScopedPlan} {requests requests' : List EphemeralAccessRequest}

theorem composedAccess_perm (hplans : scopedPlans'.Perm scopedPlans)
    (request : EphemeralAccessRequest) :
    composedAccess inputs scopedPlans' request = composedAccess inputs scopedPlans request := by
  unfold composedAccess
  simp only [hplans.any_eq]

theorem composedAccesses_perm (hplans : scopedPlans'.Perm scopedPlans)
    (hrequests : requests'.Perm requests) :
    (composedAccesses inputs scopedPlans' requests').Perm
      (composedAccesses inputs scopedPlans requests) := by
  unfold composedAccesses
  rw [show composedAccess inputs scopedPlans' = composedAccess inputs scopedPlans from
    funext (composedAccess_perm hplans)]
  exact hrequests.filterMap _

theorem composedMemberships_perm (hplans : scopedPlans'.Perm scopedPlans)
    (hrequests : requests'.Perm requests) :
    (composedMemberships inputs scopedPlans' requests').Perm
      (composedMemberships inputs scopedPlans requests) :=
  (composedAccesses_perm hplans hrequests).flatMap_right _

theorem Composes.perm (hplans : scopedPlans'.Perm scopedPlans)
    (hrequests : requests'.Perm requests) (h : Composes inputs desired scopedPlans requests) :
    Composes inputs desired scopedPlans' requests' where
  database := fun resolved hresolved =>
    h.database resolved ((composedAccesses_perm hplans hrequests).mem_iff.1 hresolved)
  fits := h.fits.mono (composedMemberships_perm hplans hrequests).subset
  cleared := h.cleared

theorem ComposedGraph.perm {additionalRoles : BTreeSet String} {composed : RoleGraph}
    (hplans : scopedPlans'.Perm scopedPlans) (hrequests : requests'.Perm requests)
    (h : ComposedGraph inputs desired scopedPlans requests additionalRoles composed) :
    ComposedGraph inputs desired scopedPlans' requests' additionalRoles composed := by
  have hmem : ∀ m, m ∈ composedMemberships inputs scopedPlans' requests' ↔
      m ∈ composedMemberships inputs scopedPlans requests := fun m =>
    (composedMemberships_perm hplans hrequests).mem_iff
  refine ⟨fun role => ?_, fun e => ?_, h.unchanged⟩
  · simp only [hmem, h.roles]
  · simp only [hmem, h.memberships]

/-- Both fail, or both succeed with the same. -/
def SameOutcome (a b : Except ComposeError (BTreeSet String) × RoleGraph) : Prop :=
  (∃ additionalRoles composed,
    a = (.ok additionalRoles, composed) ∧ b = (.ok additionalRoles, composed)) ∨
  ∃ e e', a.1 = .error e ∧ b.1 = .error e'

theorem composeEffectiveGraph_perm (hplans : scopedPlans'.Perm scopedPlans)
    (hrequests : requests'.Perm requests) :
    SameOutcome (composeEffectiveGraph inputs desired requests' scopedPlans')
      (composeEffectiveGraph inputs desired requests scopedPlans) := by
  rcases composeEffectiveGraph_spec inputs desired scopedPlans requests with
    ⟨hcomposes, roles, composed, heq, hgraph⟩ | ⟨hno, e, heq⟩ <;>
  rcases composeEffectiveGraph_spec inputs desired scopedPlans' requests' with
    ⟨hcomposes', roles', composed', heq', hgraph'⟩ | ⟨hno', e', heq'⟩ <;> rw [heq, heq']
  · obtain ⟨rfl, rfl⟩ := (hgraph.perm hplans hrequests).unique hgraph'
    exact Or.inl ⟨_, _, rfl, rfl⟩
  · exact absurd (hcomposes.perm hplans hrequests) hno'
  · exact absurd (hcomposes'.perm hplans.symm hrequests.symm) hno
  · exact Or.inr ⟨e', e, rfl, rfl⟩

/-! ## Live access is not removed -/

/-- Laying edges over undeclared pairs keeps one edge per pair. -/
theorem ComposedGraph.oneEdgePerPair {additionalRoles : BTreeSet String} {composed : RoleGraph}
    (hone : OneEdgePerPair desired.memberships)
    (hfits : Fits desired (composedMemberships inputs scopedPlans requests))
    (h : ComposedGraph inputs desired scopedPlans requests additionalRoles composed) :
    OneEdgePerPair composed.memberships := by
  have hdeclared : ∀ {a : MembershipEdge} {m : ResolvedEphemeralMembership},
      a ∈ desired.memberships → isDurable desired m.key = false → a.pair ≠ m.edge.pair := by
    intro a m ha hdurable heq
    rw [← Bool.not_eq_true] at hdurable
    exact hdurable (isDurable_iff.2 ⟨a, ha, heq⟩)
  intro a ha b hb hpair
  rcases (h.memberships a).1 ha with ha | ⟨m, hm, hdurable, rfl⟩ <;>
    rcases (h.memberships b).1 hb with hb | ⟨m', hm', hdurable', rfl⟩
  · exact hone a ha b hb hpair
  · exact absurd hpair (hdeclared ha hdurable')
  · exact absurd hpair.symm (hdeclared hb hdurable)
  · exact hfits.agree m hm m' hm' hpair hdurable

/-- A removal of a plan is one of the diff. -/
theorem mem_memberRemoves_of_mem_planChanges {current graph : RoleGraph} {manifest : PolicyManifest}
    {expanded : ExpandedManifest} {mode : ReconciliationMode} {role member : String}
    {grantor : Option String}
    (h : .removeMember role member grantor ∈ planChanges current graph manifest expanded mode) :
    .removeMember role member grantor ∈
      memberRemoves current (graph.resolveRoutineAliases current.routineAliases) := by
  have hphase : (Change.removeMember role member grantor).phase = .membership := rfl
  have hne : (Change.removeMember role member grantor).phase ≠ .revoke := by
    rw [hphase]
    decide
  obtain ⟨hfiltered, -⟩ := (mem_planChanges hne).1 h
  have hretired : .removeMember role member grantor ∈ applyRoleRetirements
      (diff current (graph.resolveRoutineAliases current.routineAliases)) manifest.retirements := by
    cases mode with
    | authoritative => exact hfiltered
    | additive =>
      -- additive mode keeps no removal
      have hkept := (List.mem_filter.1 hfiltered).2
      cases hkept
    | adopt => exact (List.mem_filter.1 hfiltered).1
  have hphases := filter_applyRoleRetirements (q := (· == Phase.membership)) rfl
    (diff current (graph.resolveRoutineAliases current.routineAliases)) manifest.retirements
  have hdiff : .removeMember role member grantor ∈
      diff current (graph.resolveRoutineAliases current.routineAliases) := by
    refine List.mem_of_mem_filter (p := fun c => c.phase == Phase.membership) ?_
    rw [← hphases]
    exact List.mem_filter.2 ⟨hretired, beq_iff_eq.2 hphase⟩
  rw [← filter_isRemoval_diff]
  exact List.mem_filter.2 ⟨hdiff, rfl⟩

/-- The edge of a membership that counts is in the composed graph, or the policy declares the
pair. -/
theorem ComposedGraph.exists_edge {additionalRoles : BTreeSet String} {composed : RoleGraph}
    (h : ComposedGraph inputs desired scopedPlans requests additionalRoles composed)
    {m : ResolvedEphemeralMembership} (hm : m ∈ composedMemberships inputs scopedPlans requests) :
    ∃ e ∈ composed.memberships, e.pair = m.key ∧ (e = m.edge ∨ e ∈ desired.memberships) := by
  cases hdurable : isDurable desired m.key with
  | true =>
    obtain ⟨e, he, hpair⟩ := isDurable_iff.1 hdurable
    exact ⟨e, (h.memberships e).2 (Or.inl he), hpair, Or.inr he⟩
  | false => exact ⟨m.edge, (h.memberships _).2 (Or.inr ⟨m, hm, hdurable, rfl⟩), rfl, Or.inl rfl⟩

/-- The current edge of the pair is the requested one. -/
def HasLiveEdge (current : RoleGraph) (m : ResolvedEphemeralMembership) : Prop :=
  m.edge ∈ current.memberships ∧ ∀ e ∈ current.memberships, e.pair = m.key → e = m.edge

/-- No plan from a current graph that meets the condition and has the requested edge removes it. -/
def NotRemoved (composed : RoleGraph) (m : ResolvedEphemeralMembership)
    (condition : RoleGraph → Prop) : Prop :=
  ∀ (current : RoleGraph) (manifest : PolicyManifest) (expanded : ExpandedManifest)
    (mode : ReconciliationMode) (grantor : Option String),
    HasLiveEdge current m → condition current →
      .removeMember m.role m.member grantor ∉ planChanges current composed manifest expanded mode

/-- The policy does not declare the pair with other options, or the current graph records the
grantors of the pair. -/
def KeepsOptions (desired : RoleGraph) (m : ResolvedEphemeralMembership) (current : RoleGraph) :
    Prop :=
  (∀ d ∈ desired.memberships, d.pair = m.key → d = m.edge) ∨
    recordedGrantors current m.key ≠ none

theorem ComposedGraph.notRemoved {additionalRoles : BTreeSet String} {composed : RoleGraph}
    (hone : OneEdgePerPair desired.memberships)
    (hfits : Fits desired (composedMemberships inputs scopedPlans requests))
    (h : ComposedGraph inputs desired scopedPlans requests additionalRoles composed)
    {m : ResolvedEphemeralMembership} (hm : m ∈ composedMemberships inputs scopedPlans requests) :
    NotRemoved composed m (KeepsOptions desired m) := by
  intro current manifest expanded mode grantor hlive hkeeps hremoved
  obtain ⟨e, he, hpair, horigin⟩ := h.exists_edge hm
  have hcomposed : OneEdgePerPair
      (composed.resolveRoutineAliases current.routineAliases).memberships := by
    rw [resolveRoutineAliases_memberships]
    exact h.oneEdgePerPair hone hfits
  have hmap : (membershipMap
      (composed.resolveRoutineAliases current.routineAliases).memberships)[m.key]? = some e := by
    rw [hcomposed.membershipMap_eq_some_iff, resolveRoutineAliases_memberships]
    exact ⟨he, hpair⟩
  rcases mem_memberRemoves.1 (mem_memberRemoves_of_mem_planChanges hremoved) with
    ⟨pair, d, hd, hc⟩ | ⟨pair, d, -, hnone, hc⟩
  · obtain ⟨currentEdge, hcurrent, hdiffer, ⟨hunrecorded, heq⟩ | ⟨grantors, -, hc⟩⟩ :=
      mem_pairRemoves.1 hc
    · -- a pair is removed only where its options differ and its grantors are not recorded
      obtain ⟨hrole, hmember, -⟩ := Change.removeMember.inj heq
      obtain rfl : pair = m.key := Prod.ext hrole.symm hmember.symm
      obtain ⟨hmem, hcurrentPair⟩ := of_membershipMap_eq_some hcurrent
      rw [hmap] at hd
      cases hd
      rw [hlive.2 currentEdge hmem hcurrentPair] at hdiffer
      have hedge : e = m.edge := by
        rcases horigin with hedge | hdeclared
        · exact hedge
        · exact hkeeps.resolve_right (fun hrecorded => hrecorded hunrecorded) e hdeclared hpair
      rw [hedge] at hdiffer
      simp [sameOptions] at hdiffer
    · obtain ⟨g, -, -, heq⟩ := mem_optionReductions.1 hc
      cases heq
  · have hkey : pair = m.key := by
      rcases mem_removeAllEdges.1 hc with ⟨-, heq⟩ | ⟨_, _, -, -, -, heq⟩ <;>
        obtain ⟨hrole, hmember, -⟩ := Change.removeMember.inj heq <;>
        exact Prod.ext hrole.symm hmember.symm
    rw [hkey, hmap] at hnone
    cases hnone

end Collect

/-- The composition does not depend on the order of requests and plans; a success leaves the
declared graph with the requested edges that the policy does not declare, from which no plan
removes live access unless the policy itself declares other options for the pair; a failure leaves
the graph. -/
theorem composeEffectiveGraph_composes (inputs : ComposeInputs) {desired : RoleGraph}
    (hone : OneEdgePerPair desired.memberships) (scopedPlans : List ScopedPlan)
    (requests : List EphemeralAccessRequest) :
    (∀ requests' scopedPlans', requests'.Perm requests → scopedPlans'.Perm scopedPlans →
      SameOutcome (composeEffectiveGraph inputs desired requests' scopedPlans')
        (composeEffectiveGraph inputs desired requests scopedPlans)) ∧
    (∀ additionalRoles composed,
      composeEffectiveGraph inputs desired requests scopedPlans = (.ok additionalRoles, composed) →
      ComposedGraph inputs desired scopedPlans requests additionalRoles composed ∧
        OneEdgePerPair composed.memberships ∧
        ∀ m ∈ composedMemberships inputs scopedPlans requests,
          NotRemoved composed m (KeepsOptions desired m)) ∧
    ∀ e graph, composeEffectiveGraph inputs desired requests scopedPlans = (.error e, graph) →
      graph = desired := by
  refine ⟨fun _ _ hrequests hplans => composeEffectiveGraph_perm hplans hrequests, ?_, ?_⟩
  · intro additionalRoles composed h
    rcases composeEffectiveGraph_spec inputs desired scopedPlans requests with
      ⟨hcomposes, _, _, heq, hgraph⟩ | ⟨-, e, heq⟩
    · rw [heq] at h
      cases h
      exact ⟨hgraph, hgraph.oneEdgePerPair hone hcomposes.fits,
        fun m hm => hgraph.notRemoved hone hcomposes.fits hm⟩
    · rw [heq] at h
      cases h
  · intro e graph h
    rcases composeEffectiveGraph_spec inputs desired scopedPlans requests with
      ⟨-, _, _, heq, -⟩ | ⟨-, e', heq⟩
    · rw [heq] at h
      cases h
    · rw [heq] at h
      cases h
      rfl

/-! ## A pair that the policy declares with other options -/

/-- `alice` asked for `app` without inheritance. -/
def appMembership : ResolvedEphemeralMembership := ⟨"app", "alice", false⟩

/-- The digest of the bundle with that membership, in hexadecimal. -/
def appBundleDigest : String := "2c4bd9d6ef4755058e2705df4a8100ccb9ac32e394d4c31431a63fbc377fa2cd"

/-- An access to one role that was resolved. -/
def appAccess : ResolvedEphemeralAccess where
  accessPolicyUid := "access"
  targetPolicyUid := "policy"
  targetDatabaseFingerprint := "fingerprint"
  bundleEncoding := ephemeralBundleEncodingV1
  bundleHash := "sha256:" ++ appBundleDigest
  memberships := [appMembership]

/-- The request is active. -/
def appRequest : EphemeralAccessRequest where
  name := "request"
  ns := some "default"
  uid := some "uid"
  resourceVersion := none
  accessPolicyRef := "access"
  status := some { phase := .active, resolvedAccess := some appAccess }

/-- The plan that activated it. -/
def appPlan : ScopedPlan where
  ownerReferences := some [⟨ephemeralAccessRequestKind, "uid", some true⟩]
  origin := some ⟨ephemeralAccessRequestKind, "uid"⟩
  scope := some ⟨.activate, appAccess.bundleHash⟩
  phase := some .applied

/-- Every call succeeds, and the digest is that of the one bundle there is. -/
def appInputs : ComposeInputs where
  sha256 := fun _ => appBundleDigest
  calls := ⟨fun _ _ _ => .ok (), .ok ()⟩
  policyUid := some "policy"
  targetDatabaseFingerprint := "fingerprint"

/-- The policy declares both roles, and these memberships. -/
def appGraph (memberships : List MembershipEdge) : RoleGraph :=
  { roles := ExtTreeMap.ofList [("alice", {}), ("app", {})] compare
    memberships := ExtTreeSet.ofList memberships compare }

theorem mem_appGraph {memberships : List MembershipEdge} {e : MembershipEdge} :
    e ∈ (appGraph memberships).memberships ↔ e ∈ memberships := by
  unfold appGraph
  rw [ExtTreeSet.mem_ofList, List.contains_iff_mem]

theorem oneEdgePerPair_appGraph (e : MembershipEdge) :
    OneEdgePerPair (appGraph [e]).memberships := by
  intro a ha b hb _
  rw [mem_appGraph, List.mem_singleton] at ha hb
  rw [ha, hb]

/-- The membership of the request is kept where the policy declares another pair. -/
theorem appMembership_kept :
    ∃ additionalRoles composed,
      composeEffectiveGraph appInputs (appGraph [⟨"alice", "app", true, false⟩]) [appRequest]
          [appPlan] = (.ok additionalRoles, composed) ∧
      NotRemoved composed appMembership
        (KeepsOptions (appGraph [⟨"alice", "app", true, false⟩]) appMembership) := by
  have hsucceeds : (composeEffectiveGraph appInputs (appGraph [⟨"alice", "app", true, false⟩])
      [appRequest] [appPlan]).1.isOk = true := by
    decide +kernel
  have hcounts : appMembership ∈ composedMemberships appInputs [appPlan] [appRequest] := by
    decide +kernel
  generalize hcompose : composeEffectiveGraph appInputs (appGraph [⟨"alice", "app", true, false⟩])
    [appRequest] [appPlan] = outcome at hsucceeds
  obtain ⟨result, composed⟩ := outcome
  cases result with
  | error e => cases hsucceeds
  | ok additionalRoles =>
    exact ⟨additionalRoles, composed, rfl, ((composeEffectiveGraph_composes appInputs
      (oneEdgePerPair_appGraph _) [appPlan] [appRequest]).2.1 additionalRoles composed
      hcompose).2.2 appMembership hcounts⟩

/-- Where the policy declares the pair with inheritance and no grantor is recorded, the plan removes
the live membership to add it again. -/
theorem appMembership_removed :
    ¬ ∀ (inputs : ComposeInputs) (desired : RoleGraph) (scopedPlans : List ScopedPlan)
      (requests : List EphemeralAccessRequest) (additionalRoles : BTreeSet String)
      (composed : RoleGraph), OneEdgePerPair desired.memberships →
      composeEffectiveGraph inputs desired requests scopedPlans = (.ok additionalRoles, composed) →
      ∀ m ∈ composedMemberships inputs scopedPlans requests,
        NotRemoved composed m fun _ => True := by
  intro h
  have hsucceeds : (composeEffectiveGraph appInputs (appGraph [⟨"app", "alice", true, false⟩])
      [appRequest] [appPlan]).1.isOk = true := by
    decide +kernel
  have hcounts : appMembership ∈ composedMemberships appInputs [appPlan] [appRequest] := by
    decide +kernel
  have hremoved : .removeMember "app" "alice" none ∈ planChanges (appGraph [appMembership.edge])
      (composeEffectiveGraph appInputs (appGraph [⟨"app", "alice", true, false⟩]) [appRequest]
        [appPlan]).2 {} {} .authoritative := by
    decide +kernel
  generalize hcompose : composeEffectiveGraph appInputs (appGraph [⟨"app", "alice", true, false⟩])
    [appRequest] [appPlan] = outcome at hsucceeds hremoved
  obtain ⟨result, composed⟩ := outcome
  cases result with
  | error e => cases hsucceeds
  | ok additionalRoles =>
    refine h appInputs _ [appPlan] [appRequest] additionalRoles composed
      (oneEdgePerPair_appGraph _) hcompose appMembership hcounts (appGraph [appMembership.edge]) {}
      {} .authoritative none ⟨mem_appGraph.2 (List.mem_singleton_self _), fun e he _ => ?_⟩
      trivial hremoved
    exact List.mem_singleton.1 (mem_appGraph.1 he)

end PgRoles.Operator

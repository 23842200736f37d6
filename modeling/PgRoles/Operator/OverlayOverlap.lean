import PgRoles.Core.ExpandKeys
import PgRoles.Core.Overlap
import PgRoles.Core.PlanOrder
import PgRoles.Inspect.Config
import PgRoles.Operator.PolicySpec
import PgRoles.Semantics.MembershipConvergence
import PgRoles.Sql.TargetReading

/-!
# What overlap reports

A candidate is planned with the active temporary memberships laid over its graph, and its plan is
compared with them pair by pair. The comparison reads the fields of a grant letter by letter, while
the statement that a grant renders to names all objects for `*`, the schema `public` where none is
given, and a view by the keyword of tables. It finds every access that two plans share unless they
share it only through such a target; and a membership that goes with the dropped role it is in is
found only through the other changes of the plan (`missesNothing_iff`).
-/

set_option autoImplicit false

namespace PgRoles.Operator

open Std PgRoles.Lib PgRoles.Core PgRoles.Inspect PgRoles.Sql PgRoles.Semantics

/-! ## The inputs of a candidate -/

/-- What planning a candidate derives from its content. -/
structure CandidateInputs where
  manifest : PolicyManifest
  expanded : ExpandedManifest
  desired : RoleGraph
  inspectConfig : InspectConfig

/-- Lay an overlay edge over the desired graph, unless it lacks a role of the edge or has the pair
already; the roles of the edges laid over it are collected. -/
def composeOverlayEdge (state : RoleGraph × BTreeSet String) (edge : MembershipEdge) :
    RoleGraph × BTreeSet String :=
  let desired := state.1
  if !desired.roles.contains edge.role || !desired.roles.contains edge.member then state
  else if desired.memberships.toList.any fun existing =>
      existing.role == edge.role && existing.member == edge.member then state
  else
    ({ desired with memberships := desired.memberships.insert edge },
      (state.2.insert edge.role).insert edge.member)

/-- What the plan of a candidate is made from: its content expanded, with the active memberships
laid over it. -/
def candidateInputs (content : PolicyContent) (overlayEdges : List MembershipEdge) :
    Except ManifestError CandidateInputs := do
  let manifest := content.toPolicyManifest
  let expanded ← expandManifest manifest
  let desired ← RoleGraph.fromExpanded expanded manifest.defaultOwner
  let composed := overlayEdges.foldl composeOverlayEdge (desired, ∅)
  let hasDatabaseGrants := expanded.grants.any fun grant => grant.object.objectType == .database
  let inspectConfig := InspectConfig.fromExpanded expanded hasDatabaseGrants
    |>.withAdditionalRoles (manifest.retirements.map (·.role))
    |>.withAdditionalRoles composed.2.toList
  return ⟨manifest, expanded, composed.1, inspectConfig⟩

/-- The plan of a candidate. -/
def candidatePlan (current : RoleGraph) (mode : ReconciliationMode) (inputs : CandidateInputs) :
    List Change :=
  planChanges current inputs.desired inputs.manifest inputs.expanded mode

/-! ## What a statement names -/

/-- The objects that a statement about the target names. A relation is named without its kind. -/
def targetObjects : WrittenTarget → Set AccessObject
  | .named .schema container _ => schemaContents container
  | .named .database container _ => {.database container}
  | .named objectType container (some name) =>
      {o | ∃ kind, sqlObjectTypeKeyword kind = sqlObjectTypeKeyword objectType ∧
        o = .schemaObject kind container name}
  | .named _ container none => schemaContents container
  | .all objectType schemaName | .block objectType schemaName =>
      {o | ∃ name, o = .schemaObject objectType schemaName name}
  | .routine schemaName functionName => {.schemaObject .function schemaName functionName}

/-- The objects that the statement of a grant names. -/
def writtenObjects (key : GrantKey) : Set AccessObject :=
  targetObjects (singleTarget key.objectType key.schema key.name)

/-- The objects that the fields of a grant spell, letter by letter. -/
def spelledObjects (key : GrantKey) : Set AccessObject :=
  match key.objectType with
  | .schema => (key.name <|> key.schema).elim Set.univ schemaContents
  | .database => {.database (key.name.getD "")}
  | objectType =>
      match key.name with
      | some name => {.schemaObject objectType (key.schema.getD "") name}
      | none => key.schema.elim Set.univ schemaContents

/-- The objects that a default-privilege rule is bounded to. -/
def scopeObjects (scope : DefaultPrivilegeScope) : Set AccessObject :=
  scope.schema?.elim Set.univ schemaContents

/-- The accesses that a change affects, by what the target of a grant is taken to name. -/
def accesses (objectsOf : GrantKey → Set AccessObject) : Change → Set (String × AccessObject)
  | .createRole name _ | .alterRole name _ | .setComment name _ | .setPassword name _
  | .dropRole name | .dropOwned name | .terminateSessions name => accessOf name Set.univ
  | .reassignOwned fromRole toRole => accessOf fromRole Set.univ ∪ accessOf toRole Set.univ
  | .createSchema name owner => {a | ∃ o, owner = some o ∧ a ∈ accessOf o (schemaContents name)}
  | .alterSchemaOwner name owner | .ensureSchemaOwnerPrivileges name owner _ =>
      accessOf owner (schemaContents name)
  | .grant key _ | .revoke key _ _ => accessOf key.role.asStr (objectsOf key)
  | .setDefaultPrivilege key _ | .revokeDefaultPrivilege key _ =>
      accessOf key.grantee.asStr (scopeObjects key.scope) ∪
        accessOf key.owner (scopeObjects key.scope)
  | .addMember role member _ _ | .updateMemberOptions role member _ _ _ _
  | .removeMember role member _ => accessOf member {.role role}

/-- The two changes affect a common access. -/
def ShareAccess (objectsOf : GrantKey → Set AccessObject) (c d : Change) : Prop :=
  Meet (accesses objectsOf c) (accesses objectsOf d)

/-! ## Targets that are not named as they are spelled -/

/-- The statement names other objects than the fields spell: a wildcard, an object without a schema,
a view, or a schema or a database without a name. -/
def keyNamesByAlias (key : GrantKey) : Bool :=
  match key.objectType with
  | .schema => key.name.isNone && key.schema.any (· != "public")
  | .database => key.name.isNone
  | objectType => key.name.any fun name =>
      name == wildcardName || key.schema.isNone || objectType == .view ||
        objectType == .materializedView

/-- The change is a grant or a revoke on such a target. -/
def namesByAlias : Change → Bool
  | .grant key _ | .revoke key _ _ => keyNamesByAlias key
  | _ => false

/-- A relation without its kind. -/
def withoutKind : AccessObject → AccessObject
  | .schemaObject .view schemaName name => .schemaObject .table schemaName name
  | .schemaObject .materializedView schemaName name => .schemaObject .table schemaName name
  | o => o

theorem schema?_withoutKind (o : AccessObject) : (withoutKind o).schema? = o.schema? := by
  cases o with
  | schemaObject objectType schemaName name => cases objectType <;> rfl
  | _ => rfl

theorem withoutKind_of_keyword {objectType kind : ObjectType} {schemaName name : String}
    (hview : objectType ≠ .view) (hmatview : objectType ≠ .materializedView)
    (hkeyword : sqlObjectTypeKeyword kind = sqlObjectTypeKeyword objectType) :
    withoutKind (.schemaObject kind schemaName name) = .schemaObject objectType schemaName name := by
  cases objectType <;> cases kind <;>
    first
    | rfl
    | exact absurd rfl hview
    | exact absurd rfl hmatview
    | exact absurd hkeyword (by decide)

/-- A target of a schema without an alias has a schema, and its name is no wildcard. -/
theorem target_of_not_alias {role : Grantee} {objectType : ObjectType} {schema : Option String}
    {name : String} (hschema : objectType ≠ .schema) (hdatabase : objectType ≠ .database)
    (halias : keyNamesByAlias ⟨role, objectType, schema, some name⟩ = false) :
    name ≠ wildcardName ∧ (∃ s, schema = some s) ∧ objectType ≠ .view ∧
      objectType ≠ .materializedView := by
  have hfields : name ≠ wildcardName ∧ schema.isNone = false ∧ objectType ≠ .view ∧
      objectType ≠ .materializedView := by
    cases objectType <;> simp_all [keyNamesByAlias]
  refine ⟨hfields.1, ?_, hfields.2.2⟩
  cases schema with
  | none => exact absurd hfields.2.1 (by decide)
  | some s => exact ⟨s, rfl⟩

/-- Without an alias the statement names what the fields spell, up to the kinds of relations. -/
theorem withoutKind_mem_spelledObjects {key : GrantKey} (halias : keyNamesByAlias key = false)
    {o : AccessObject} (ho : o ∈ writtenObjects key) : withoutKind o ∈ spelledObjects key := by
  obtain ⟨role, objectType, schema, name⟩ := key
  have hcontents : ∀ s, o ∈ schemaContents s → withoutKind o ∈ schemaContents s := by
    intro s hs
    rw [mem_schemaContents, schema?_withoutKind]
    exact hs
  -- Without a name the target of a schema is the schema.
  have hunnamed : o ∈ schemaContents (schema.getD "public") →
      withoutKind o ∈ schema.elim Set.univ schemaContents := by
    intro hs
    cases schema with
    | none => exact Set.mem_univ _
    | some s => exact hcontents s hs
  cases objectType with
  | schema =>
      cases name with
      | some name => exact hcontents name ho
      | none =>
          cases schema with
          | none => exact Set.mem_univ _
          | some s =>
              have hpublic : s = "public" := by simpa [keyNamesByAlias] using halias
              rw [hpublic]
              exact hcontents "public" ho
  | database =>
      cases name with
      | none => exact absurd halias Bool.noConfusion
      | some name =>
          have hname : o = .database name := ho
          rw [hname]
          rfl
  | function =>
      cases name with
      | none => exact hunnamed ho
      | some name =>
          obtain ⟨hwild, ⟨s, rfl⟩, -, -⟩ := target_of_not_alias (by decide) (by decide) halias
          have hname : o = .schemaObject .function s name := by
            simpa [writtenObjects, singleTarget, hwild, targetObjects] using ho
          rw [hname]
          rfl
  | _ =>
      cases name with
      | none => exact hunnamed ho
      | some name =>
          obtain ⟨hwild, ⟨s, rfl⟩, hview, hmatview⟩ :=
            target_of_not_alias (by decide) (by decide) halias
          have hname := ho
          simp only [writtenObjects, singleTarget, hwild, if_false, targetObjects,
            Option.getD_some, Set.mem_ofPred_eq] at hname
          obtain ⟨kind, hkeyword, rfl⟩ := hname
          first
          | exact absurd rfl hview
          | exact absurd rfl hmatview
          | exact withoutKind_of_keyword hview hmatview hkeyword

/-- What a change without an alias affects as written it affects as spelled, up to the kinds of
relations. -/
theorem withoutKind_mem_accesses {c : Change} (halias : namesByAlias c = false)
    {a : String × AccessObject} (ha : a ∈ accesses writtenObjects c) :
    (a.1, withoutKind a.2) ∈ accesses spelledObjects c := by
  have hmap : ∀ {role : String} {A B : Set AccessObject}, (∀ o ∈ A, withoutKind o ∈ B) →
      a ∈ accessOf role A → (a.1, withoutKind a.2) ∈ accessOf role B := by
    intro role A B hAB hmem
    exact ⟨hmem.1, hAB _ hmem.2⟩
  have hschema : ∀ s, ∀ o ∈ schemaContents s, withoutKind o ∈ schemaContents s := by
    intro s o ho
    rw [mem_schemaContents, schema?_withoutKind]
    exact ho
  have hscope : ∀ scope, ∀ o ∈ scopeObjects scope, withoutKind o ∈ scopeObjects scope := by
    intro scope o ho
    cases scope with
    | global => exact Set.mem_univ _
    | schema s => exact hschema s o ho
  cases c with
  | grant key _ => exact hmap (fun o ho => withoutKind_mem_spelledObjects halias ho) ha
  | revoke key _ _ => exact hmap (fun o ho => withoutKind_mem_spelledObjects halias ho) ha
  | createSchema name owner =>
      obtain ⟨o, ho, hmem⟩ := ha
      exact ⟨o, ho, hmap (hschema name) hmem⟩
  | alterSchemaOwner name owner => exact hmap (hschema name) ha
  | ensureSchemaOwnerPrivileges name owner _ => exact hmap (hschema name) ha
  | setDefaultPrivilege key _ => exact ha.imp (hmap (hscope _)) (hmap (hscope _))
  | revokeDefaultPrivilege key _ => exact ha.imp (hmap (hscope _)) (hmap (hscope _))
  | addMember role member _ _ => exact hmap (fun o ho => by rw [ho]; rfl) ha
  | updateMemberOptions role member _ _ _ _ => exact hmap (fun o ho => by rw [ho]; rfl) ha
  | removeMember role member _ => exact hmap (fun o ho => by rw [ho]; rfl) ha
  | reassignOwned fromRole toRole =>
      exact ha.imp (hmap fun _ _ => Set.mem_univ _) (hmap fun _ _ => Set.mem_univ _)
  | _ => exact hmap (fun _ _ => Set.mem_univ _) ha

theorem ShareAccess.spelled {c d : Change} (h : ShareAccess writtenObjects c d)
    (hc : namesByAlias c = false) (hd : namesByAlias d = false) :
    ShareAccess spelledObjects c d := by
  obtain ⟨a, hac, had⟩ := h
  exact ⟨_, withoutKind_mem_accesses hc hac, withoutKind_mem_accesses hd had⟩

/-! ## What the pairs of a change stand for -/

theorem covers_grantObject (key : GrantKey) :
    (grantObject key.objectType key.schema key.name).covers = spelledObjects key := by
  obtain ⟨role, objectType, schema, name⟩ := key
  cases objectType <;> cases schema <;> cases name <;> rfl

theorem covers_defaultPrivilegeObject (scope : DefaultPrivilegeScope) :
    (defaultPrivilegeObject scope).covers = scopeObjects scope := by
  cases scope <;> rfl

/-- The pairs of a change stand for the accesses that its fields spell. -/
theorem mem_accesses_spelled_iff {c : Change} {a : String × AccessObject} :
    a ∈ accesses spelledObjects c ↔ ∃ p ∈ changePairs c, a ∈ p.access := by
  cases c with
  | grant key _ => simp [changePairs, accesses, EffectPair.access, covers_grantObject]
  | revoke key _ _ => simp [changePairs, accesses, EffectPair.access, covers_grantObject]
  | setDefaultPrivilege key _ =>
      simp [changePairs, accesses, EffectPair.access, covers_defaultPrivilegeObject]
  | revokeDefaultPrivilege key _ =>
      simp [changePairs, accesses, EffectPair.access, covers_defaultPrivilegeObject]
  | createSchema name owner =>
      cases owner <;> simp [changePairs, accesses, EffectPair.access, EffectObject.covers]
  | _ => simp [changePairs, accesses, EffectPair.access, EffectObject.covers]

/-- Lists of changes overlap when two of their changes affect an access that both spell. -/
theorem pairsIntersect_effectPairs {xs ys : List Change} :
    pairsIntersect (effectPairs xs) (effectPairs ys) = true ↔
      ∃ c ∈ xs, ∃ d ∈ ys, ShareAccess spelledObjects c d := by
  simp only [pairsIntersect_iff, mem_effectPairs]
  constructor
  · intro h
    obtain ⟨p, ⟨c, hc, hp⟩, q, ⟨d, hd, hq⟩, a, hap, haq⟩ := h
    exact ⟨c, hc, d, hd, a, mem_accesses_spelled_iff.2 ⟨p, hp, hap⟩,
      mem_accesses_spelled_iff.2 ⟨q, hq, haq⟩⟩
  · intro h
    obtain ⟨c, hc, d, hd, a, hac, had⟩ := h
    obtain ⟨p, hp, hap⟩ := mem_accesses_spelled_iff.1 hac
    obtain ⟨q, hq, haq⟩ := mem_accesses_spelled_iff.1 had
    exact ⟨p, ⟨c, hc, hp⟩, q, ⟨d, hd, hq⟩, a, hap, haq⟩

/-- The change affects the membership or an access that its edge spells. -/
def TouchesEdge (c : Change) (e : MembershipEdge) : Prop :=
  Meet (accesses spelledObjects c) (edgePair e).access

/-- A plan overlaps the overlay when one of its changes touches one of the edges. -/
theorem intersectingPairs_overlay_iff {plan : List Change} {overlay : List MembershipEdge} :
    intersectingPairs (effectPairs plan) (membershipOverlayPairs overlay) ≠ ∅ ↔
      ∃ c ∈ plan, ∃ e ∈ overlay, TouchesEdge c e := by
  rw [intersectingPairs_ne_empty_iff, pairsIntersect_iff]
  simp only [mem_effectPairs, mem_membershipOverlayPairs]
  constructor
  · intro h
    obtain ⟨p, ⟨c, hc, hp⟩, q, ⟨e, he, rfl⟩, a, hap, haq⟩ := h
    exact ⟨c, hc, e, he, a, mem_accesses_spelled_iff.2 ⟨p, hp, hap⟩, haq⟩
  · intro h
    obtain ⟨c, hc, e, he, a, hac, hae⟩ := h
    obtain ⟨p, hp, hap⟩ := mem_accesses_spelled_iff.1 hac
    exact ⟨p, ⟨c, hc, hp⟩, edgePair e, ⟨e, he, rfl⟩, a, hap, hae⟩

/-! ## What a plan does to memberships -/

section Execution

variable (server : ServerDefaults) (pgMajorVersion : Nat)

/-- Execute one change on the catalog. A dropped role takes the memberships in it and of it along. -/
def execEffect (catalog : MembershipCatalog) : Change → MembershipCatalog
  | .dropRole name => catalog.filter fun row _ => row.1 != name && row.2.1 != name
  | c => execMemberships server pgMajorVersion catalog [c]

/-- Execute changes on the catalog, one after the other. -/
def execEffects (catalog : MembershipCatalog) (changes : List Change) : MembershipCatalog :=
  changes.foldl (execEffect server pgMajorVersion) catalog

/-- The change alters or drops the role. -/
def altersRole (name : String) : Change → Bool
  | .alterRole n _ | .setComment n _ | .setPassword n _ | .dropRole n => n == name
  | _ => false

/-- Executing the plan, one of its changes grants the edge again or changes a row of it: it removes
the row, makes a new one or sets other options. -/
def DisturbsRows (catalog : MembershipCatalog) (plan : List Change) (e : MembershipEdge) : Prop :=
  ∃ before c after, plan = before ++ c :: after ∧
    ((∃ inherit admin, c = .addMember e.role e.member inherit admin) ∨
      ∃ g : String, (execEffect server pgMajorVersion (execEffects server pgMajorVersion catalog before)
          c)[(e.role, e.member, g)]? ≠
        (execEffects server pgMajorVersion catalog before)[(e.role, e.member, g)]?)

/-- Executing the plan disturbs the edge or its member. -/
def DisturbsEdge (catalog : MembershipCatalog) (plan : List Change) (e : MembershipEdge) : Prop :=
  DisturbsRows server pgMajorVersion catalog plan e ∨ ∃ c ∈ plan, altersRole e.member c = true

variable {server pgMajorVersion} {catalog : MembershipCatalog} {role member g : String}

/-- A change of a row is one of its pair, or drops a role of it. -/
theorem pair_of_execEffect_ne {c : Change}
    (h : (execEffect server pgMajorVersion catalog c)[(role, member, g)]? ≠
      catalog[(role, member, g)]?) :
    membershipPair c = some (role, member) ∨ c = .dropRole member ∨
      (c = .dropRole role ∧ (role, member, g) ∈ catalog) := by
  by_cases hdrop : ∃ name, c = .dropRole name
  · obtain ⟨name, rfl⟩ := hdrop
    rw [execEffect, getElem?_filter_eq] at h
    by_cases hmember : member = name
    · exact Or.inr (Or.inl (by rw [hmember]))
    · by_cases hrole : role = name
      · refine Or.inr (Or.inr ⟨by rw [hrole], ?_⟩)
        rw [mem_iff_exists_getElem?]
        by_contra hnone
        apply h
        rw [Option.eq_none_iff_forall_ne_some.2 fun o ho => hnone ⟨o, ho⟩, Option.filter_none]
      · have hkept : (role != name && member != name) = true := by
          rw [bne_iff_ne.2 hrole, bne_iff_ne.2 hmember]
          rfl
        apply absurd _ h
        simp only [hkept]
        cases catalog[(role, member, g)]? <;> rfl
  · refine Or.inl ?_
    by_contra hpair
    apply h
    have hexec : execEffect server pgMajorVersion catalog c =
        execMemberships server pgMajorVersion catalog [c] := by
      cases c <;> first | rfl | exact absurd ⟨_, rfl⟩ hdrop
    rw [hexec, getElem?_execMemberships]
    exact changeRow_of_pair_ne hpair

/-- A row that a run makes is made by a change of its pair. -/
theorem exists_pair_of_mem_execEffects {changes : List Change}
    (hnot : (role, member, g) ∉ catalog)
    (h : (role, member, g) ∈ execEffects server pgMajorVersion catalog changes) :
    ∃ c ∈ changes, membershipPair c = some (role, member) := by
  by_contra hnone
  refine foldl_invariant (fun catalog => (role, member, g) ∉ catalog) ?_ hnot h
  intro catalog hmissing c hc hmem
  have hne : (execEffect server pgMajorVersion catalog c)[(role, member, g)]? ≠
      catalog[(role, member, g)]? := by
    intro heq
    obtain ⟨o, ho⟩ := mem_iff_exists_getElem?.1 hmem
    exact hmissing (mem_iff_exists_getElem?.2 ⟨o, heq ▸ ho⟩)
  rcases pair_of_execEffect_ne hne with hpair | rfl | ⟨-, hrow⟩
  · exact hnone ⟨c, hc, hpair⟩
  · -- The drop of the member leaves no row of it.
    rw [execEffect, mem_iff_exists_getElem?, getElem?_filter_eq] at hmem
    simp at hmem
  · exact hmissing hrow

/-- A dropped role leaves no membership in it. -/
theorem getElem?_execEffect_dropRole :
    (execEffect server pgMajorVersion catalog (.dropRole role))[(role, member, g)]? = none := by
  rw [execEffect, getElem?_filter_eq]
  simp

theorem touchesEdge_of_pair {c : Change} {e : MembershipEdge}
    (h : membershipPair c = some (e.role, e.member)) : TouchesEdge c e := by
  have haccess : accesses spelledObjects c = (edgePair e).access := by
    cases c <;> simp_all [membershipPair, accesses, edgePair, EffectPair.access,
      EffectObject.covers]
  rw [TouchesEdge, haccess]
  exact ⟨(e.member, .role e.role), ⟨Or.inr rfl, rfl⟩, Or.inr rfl, rfl⟩

theorem touchesEdge_of_alters {c : Change} {e : MembershipEdge}
    (h : altersRole e.member c = true) : TouchesEdge c e := by
  have haccess : accesses spelledObjects c = accessOf e.member Set.univ := by
    cases c <;> simp_all [altersRole, accesses]
  rw [TouchesEdge, haccess]
  exact ⟨(e.member, .role e.role), ⟨Or.inr rfl, trivial⟩, Or.inr rfl, rfl⟩

end Execution

/-! ## What overlap misses -/

/-- The promise of the overlap: intersection has no sides, changes that affect a common access as
their statements name it make their lists overlap, and a plan whose execution disturbs an overlay
edge or its member overlaps the overlay. -/
structure MissesNothing (server : ServerDefaults) (pgMajorVersion : Nat)
    (catalog : MembershipCatalog) (xs ys plan : List Change) (overlay : List MembershipEdge) :
    Prop where
  symmetric : ∀ p q : EffectPair, p.intersects q = q.intersects p
  shared : (∃ c ∈ xs, ∃ d ∈ ys, ShareAccess writtenObjects c d) →
    pairsIntersect (effectPairs xs) (effectPairs ys) = true
  disturbed : (∃ e ∈ overlay, DisturbsEdge server pgMajorVersion catalog plan e) →
    intersectingPairs (effectPairs plan) (membershipOverlayPairs overlay) ≠ ∅

/-- Changes that share an access through an alias come with changes that share one as spelled. -/
def AliasesAccompanied (xs ys : List Change) : Prop :=
  ∀ c ∈ xs, ∀ d ∈ ys, ShareAccess writtenObjects c d →
    namesByAlias c = true ∨ namesByAlias d = true →
      ∃ c' ∈ xs, ∃ d' ∈ ys, ShareAccess spelledObjects c' d'

/-- The drop of a role with an overlay membership in it comes with a change that touches an overlay
edge. -/
def DropsAccompanied (catalog : MembershipCatalog) (plan : List Change)
    (overlay : List MembershipEdge) : Prop :=
  ∀ e ∈ overlay, (∃ g, (e.role, e.member, g) ∈ catalog) → .dropRole e.role ∈ plan →
    ∃ c ∈ plan, ∃ o ∈ overlay, TouchesEdge c o

section Misses

variable {server : ServerDefaults} {pgMajorVersion : Nat} {catalog : MembershipCatalog}
  {xs ys plan : List Change} {overlay : List MembershipEdge}

/-- A disturbed edge is touched, unless the role it is in is dropped with it. -/
theorem touched_of_disturbs {e : MembershipEdge}
    (h : DisturbsEdge server pgMajorVersion catalog plan e) :
    (∃ c ∈ plan, TouchesEdge c e) ∨
      ((∃ g, (e.role, e.member, g) ∈ catalog) ∧ .dropRole e.role ∈ plan) := by
  rcases h with ⟨before, c, after, rfl, ⟨inherit, admin, rfl⟩ | ⟨g, hg⟩⟩ | ⟨c, hc, halters⟩
  · exact Or.inl ⟨_, List.mem_append_right _ List.mem_cons_self, touchesEdge_of_pair rfl⟩
  · have hmem : c ∈ before ++ c :: after := List.mem_append_right _ List.mem_cons_self
    rcases pair_of_execEffect_ne hg with hpair | rfl | ⟨rfl, hrow⟩
    · exact Or.inl ⟨c, hmem, touchesEdge_of_pair hpair⟩
    · exact Or.inl ⟨_, hmem, touchesEdge_of_alters (by simp [altersRole])⟩
    · -- The row that goes with the role was there before the plan, or the plan made it.
      by_cases hbefore : (e.role, e.member, g) ∈ catalog
      · exact Or.inr ⟨⟨g, hbefore⟩, hmem⟩
      · obtain ⟨d, hd, hpair⟩ := exists_pair_of_mem_execEffects hbefore hrow
        exact Or.inl ⟨d, List.mem_append_left _ hd, touchesEdge_of_pair hpair⟩
  · exact Or.inl ⟨c, hc, touchesEdge_of_alters halters⟩

/-- An edge of the catalog is disturbed by the drop of the role it is in, or before it. -/
theorem disturbs_of_drop {e : MembershipEdge} {g : String} (hrow : (e.role, e.member, g) ∈ catalog)
    (hdrop : .dropRole e.role ∈ plan) : DisturbsEdge server pgMajorVersion catalog plan e := by
  obtain ⟨before, after, rfl⟩ := List.append_of_mem hdrop
  refine Or.inl ?_
  by_cases hkept : (execEffects server pgMajorVersion catalog before)[(e.role, e.member, g)]? =
      catalog[(e.role, e.member, g)]?
  · refine ⟨before, _, after, rfl, Or.inr ⟨g, ?_⟩⟩
    rw [getElem?_execEffect_dropRole, hkept]
    obtain ⟨o, ho⟩ := mem_iff_exists_getElem?.1 hrow
    rw [ho]
    exact nofun
  · obtain ⟨start, c, rest, rfl, hstep⟩ := exists_step_of_foldl_ne
      (fun catalog : MembershipCatalog => catalog[(e.role, e.member, g)]?) hkept
    exact ⟨start, c, rest ++ .dropRole e.role :: after, by simp, Or.inr ⟨g, hstep⟩⟩

/-- Overlap misses nothing exactly when what is shared through aliases, and what goes with a dropped
role, is accompanied by something that is spelled out. -/
theorem missesNothing_iff (server : ServerDefaults) (pgMajorVersion : Nat)
    (catalog : MembershipCatalog) (xs ys plan : List Change) (overlay : List MembershipEdge) :
    MissesNothing server pgMajorVersion catalog xs ys plan overlay ↔
      AliasesAccompanied xs ys ∧ DropsAccompanied catalog plan overlay := by
  constructor
  · intro h
    constructor
    · intro c hc d hd hshare halias
      exact pairsIntersect_effectPairs.1 (h.shared ⟨c, hc, d, hd, hshare⟩)
    · intro e he hrow hdrop
      obtain ⟨g, hrow⟩ := hrow
      exact intersectingPairs_overlay_iff.1 (h.disturbed ⟨e, he, disturbs_of_drop hrow hdrop⟩)
  · intro h
    obtain ⟨haliases, hdrops⟩ := h
    refine ⟨intersects_comm, ?_, ?_⟩
    · intro hshared
      obtain ⟨c, hc, d, hd, hshare⟩ := hshared
      rw [pairsIntersect_effectPairs]
      by_cases halias : namesByAlias c = true ∨ namesByAlias d = true
      · exact haliases c hc d hd hshare halias
      · rw [not_or, Bool.not_eq_true, Bool.not_eq_true] at halias
        exact ⟨c, hc, d, hd, hshare.spelled halias.1 halias.2⟩
    · intro hdisturbed
      obtain ⟨e, he, hdisturbs⟩ := hdisturbed
      rw [intersectingPairs_overlay_iff]
      rcases touched_of_disturbs hdisturbs with ⟨c, hc, htouches⟩ | ⟨hrow, hdrop⟩
      · exact ⟨c, hc, e, he, htouches⟩
      · exact hdrops e he hrow hdrop

end Misses

/-! ## Plans of candidates -/

/-- An edge laid over the graph has both its roles there. -/
theorem composeOverlayEdge_spec (state : RoleGraph × BTreeSet String) (edge : MembershipEdge) :
    (composeOverlayEdge state edge).1.roles = state.1.roles ∧
      ∀ d ∈ (composeOverlayEdge state edge).1.memberships,
        d ∈ state.1.memberships ∨ d.role ∈ state.1.roles := by
  simp only [composeOverlayEdge]
  split_ifs with hmissing hpair
  · exact ⟨rfl, fun d hd => Or.inl hd⟩
  · exact ⟨rfl, fun d hd => Or.inl hd⟩
  · refine ⟨rfl, fun d hd => ?_⟩
    rcases mem_insert_iff.1 hd with rfl | hd
    · refine Or.inr (ExtTreeMap.contains_iff_mem.1 ?_)
      rw [Bool.or_eq_true, not_or, Bool.not_eq_true, Bool.not_eq_true] at hmissing
      simpa using hmissing.1
    · exact Or.inl hd

/-- The graph of a candidate declares what its content does, and memberships in declared roles. -/
theorem candidateInputs_desired {content : PolicyContent} {overlay : List MembershipEdge}
    {inputs : CandidateInputs} (h : candidateInputs content overlay = .ok inputs) :
    ∀ d ∈ inputs.desired.memberships,
      d ∈ membershipEdges inputs.expanded.memberships ∨ d.role ∈ inputs.desired.roles := by
  unfold candidateInputs at h
  obtain ⟨expanded, hexpanded, h⟩ := bind_eq_ok.1 h
  obtain ⟨desired, hdesired, h⟩ := bind_eq_ok.1 h
  obtain rfl := Except.ok.inj h
  -- The roles stay, and each edge that is added names two of them.
  have hinv : (overlay.foldl composeOverlayEdge (desired, ∅)).1.roles = desired.roles ∧
      ∀ d ∈ (overlay.foldl composeOverlayEdge (desired, ∅)).1.memberships,
        d ∈ desired.memberships ∨ d.role ∈ desired.roles := by
    refine foldl_invariant (fun state : RoleGraph × BTreeSet String =>
      state.1.roles = desired.roles ∧
        ∀ d ∈ state.1.memberships, d ∈ desired.memberships ∨ d.role ∈ desired.roles)
      (fun state hstate edge _ => ?_) ⟨rfl, fun d hd => Or.inl hd⟩
    obtain ⟨hroles, hedges⟩ := composeOverlayEdge_spec state edge
    refine ⟨hroles.trans hstate.1, fun d hd => ?_⟩
    rcases hedges d hd with hd | hd
    · exact hstate.2 d hd
    · exact Or.inr (hstate.1 ▸ hd)
  intro d hd
  rcases hinv.2 d hd with hd | hd
  · exact Or.inl ((mem_memberships_iff hdesired).1 hd)
  · exact Or.inr (hinv.1.symm ▸ hd)

section CandidatePlans

variable {current : RoleGraph} {content : PolicyContent} {overlay : List MembershipEdge}
  {inputs : CandidateInputs} {mode : ReconciliationMode} {e : MembershipEdge}

/-- A planned drop of a role comes with the removal of a membership in it that the graph does not
declare, unless it is the executor's own authority. -/
theorem exists_removal_of_planned_drop {desired : RoleGraph} {m : PolicyManifest}
    {expanded : ExpandedManifest} {a : MembershipEdge} (ha : a ∈ current.memberships)
    (hdrop : .dropRole a.role ∈ planChanges current desired m expanded mode)
    (hundeclared : ∀ d ∈ desired.memberships, d.pair ≠ a.pair)
    (hforeign : ∀ grantors, recordedGrantors current a.pair = some grantors →
      ∃ g ∈ grantors, executorAuthority current a.role a.member g = false) :
    ∃ g, .removeMember a.role a.member g ∈ planChanges current desired m expanded mode := by
  obtain ⟨-, -, -, rfl, hown⟩ := drop_of_mem_planChanges hdrop (Or.inl rfl)
  obtain ⟨pre, post, hplan, hbefore, -, -⟩ := exists_drop_block hdrop
  have hplanned : ∀ g, .removeMember a.role a.member g ∈ removeAllEdges current a.pair →
      .removeMember a.role a.member g ∈ planChanges current desired m expanded .authoritative := by
    intro g hg
    rw [hplan]
    refine List.mem_append_left _ (List.mem_append_left _ (hbefore _ ?_
      (plannedChange_removeMember g
        (keptForExternal_removeMember g hown (Or.inl rfl) (Or.inl hown)))))
    have hmember : .removeMember a.role a.member g ∈
        memberRemoves current (plannedGraph current desired) :=
      removeAllEdges_subset_memberRemoves ha (by rwa [plannedGraph_memberships]) hg
    simp only [beforeDrops, List.mem_append]
    tauto
  cases hrecorded : recordedGrantors current a.pair with
  | none => exact ⟨none, hplanned none (mem_removeAllEdges.2 (Or.inl ⟨hrecorded, rfl⟩))⟩
  | some grantors =>
      obtain ⟨g, hg, hauth⟩ := hforeign grantors hrecorded
      exact ⟨some g, hplanned (some g)
        (mem_removeAllEdges.2 (Or.inr ⟨grantors, g, hrecorded, hg, hauth, rfl⟩))⟩

/-- A candidate that drops the role of an overlay membership overlaps the overlay, unless its content
declares the membership or the membership is the executor's own authority. -/
theorem drop_overlaps_overlay (hinputs : candidateInputs content overlay = .ok inputs)
    (he : e ∈ overlay) (hlive : e ∈ current.memberships)
    (hdrop : .dropRole e.role ∈ candidatePlan current mode inputs)
    (hundeclared : ∀ d ∈ membershipEdges inputs.expanded.memberships, d.pair ≠ e.pair)
    (hforeign : ∀ grantors, recordedGrantors current e.pair = some grantors →
      ∃ g ∈ grantors, executorAuthority current e.role e.member g = false) :
    intersectingPairs (effectPairs (candidatePlan current mode inputs))
      (membershipOverlayPairs overlay) ≠ ∅ := by
  obtain ⟨-, -, hmissing, -, -⟩ := drop_of_mem_planChanges hdrop (Or.inl rfl)
  -- A membership that was laid over the graph is in a declared role, and this one is not.
  have hpairs : ∀ d ∈ inputs.desired.memberships, d.pair ≠ e.pair := by
    intro d hd hpair
    rcases candidateInputs_desired hinputs d hd with hdeclared | hrole
    · exact hundeclared d hdeclared hpair
    · have hroles : d.role = e.role := (Prod.mk.inj hpair).1
      rw [hroles] at hrole
      exact not_mem_iff_getElem?.2 hmissing hrole
  obtain ⟨g, hremoval⟩ := exists_removal_of_planned_drop hlive hdrop hpairs hforeign
  rw [intersectingPairs_overlay_iff]
  exact ⟨_, hremoval, e, he, touchesEdge_of_pair rfl⟩

end CandidatePlans

/-! ## A wildcard and a retired role -/

/-- A candidate that grants on tables of one schema. -/
def readerContent (tableName : String) : PolicyContent :=
  { roles := [{ name := "reader" }]
    grants := [⟨"reader", [.select], ⟨.table, some "app", some tableName⟩, .present⟩] }

/-- A database that has the role already. -/
def readerCurrent : RoleGraph := { roles := ExtTreeMap.ofList [("reader", {})] compare }

/-- The grant that the plan of such a candidate makes. -/
def readerGrant (tableName : String) : Change :=
  .grant ⟨.role "reader", .table, some "app", some tableName⟩ {.select}

/-- A candidate that retires a role and still declares a membership in it. -/
def retiringContent : PolicyContent :=
  { roles := [{ name := "alice" }]
    memberships := [{ role := "app_rw", members := [{ name := "alice" }] }]
    retirements := [{ role := "app_rw" }] }

/-- The membership of a request that is active. -/
def activeEdge : MembershipEdge := ⟨"app_rw", "alice", true, false⟩

/-- A database with the two roles and that membership. -/
def activeCurrent : RoleGraph :=
  { roles := ExtTreeMap.ofList [("alice", {}), ("app_rw", {})] compare
    memberships := ExtTreeSet.ofList [activeEdge] compare }

/-- The same membership as the catalog stores it. -/
def activeCatalog : MembershipCatalog :=
  ExtTreeMap.ofList [(("app_rw", "alice", "postgres"), ⟨true, false, true⟩)] compare

/-- Statements without a grantor are attributed to `postgres`, and members inherit. -/
def activeServer : ServerDefaults := ⟨fun _ _ => "postgres", fun _ => true⟩

/-- The plans of candidates are missed: a grant on all tables of a schema beside one on a table of
it, and the drop of a role that an active membership is in. -/
theorem candidatePlans_missed :
    (candidateInputs (readerContent "*") []).map (candidatePlan readerCurrent .authoritative) =
        .ok [readerGrant "*"] ∧
      (candidateInputs (readerContent "orders") []).map
        (candidatePlan readerCurrent .authoritative) = .ok [readerGrant "orders"] ∧
      (candidateInputs retiringContent [activeEdge]).map
        (candidatePlan activeCurrent .authoritative) = .ok [.dropRole "app_rw"] ∧
      ¬ MissesNothing activeServer 16 ∅ [readerGrant "*"] [readerGrant "orders"] [] [] ∧
      ¬ MissesNothing activeServer 16 activeCatalog [] [] [.dropRole "app_rw"] [activeEdge] := by
  refine ⟨by decide +kernel, by decide +kernel, by decide +kernel, ?_, ?_⟩
  · intro h
    have hshare : ShareAccess writtenObjects (readerGrant "*") (readerGrant "orders") :=
      ⟨("reader", .schemaObject .table "app" "orders"), ⟨Or.inr rfl, "orders", rfl⟩,
        Or.inr rfl, .table, rfl, rfl⟩
    have hmissed : pairsIntersect (effectPairs [readerGrant "*"])
        (effectPairs [readerGrant "orders"]) = false := by
      decide +kernel
    have hreported := h.shared ⟨_, List.mem_singleton_self _, _, List.mem_singleton_self _, hshare⟩
    rw [hmissed] at hreported
    cases hreported
  · intro h
    refine h.disturbed ⟨activeEdge, List.mem_singleton_self _, Or.inl
      ⟨[], .dropRole "app_rw", [], rfl, Or.inr ⟨"postgres", ?_⟩⟩⟩ ?_
    · decide +kernel
    · decide +kernel

end PgRoles.Operator

import PgRoles.Explorer.ReviewBuild

/-!
# Review artifacts reveal no sensitive value

Password verifiers, the text of role comments and the values of role settings are sensitive. An input
is read here with these values blanked (`ReviewArtifactInput.withoutValues`), and the artifact of an
input is that of the blanked one (`buildReviewArtifact_withoutValues`): the interpreter of changes
commutes with blanking, the findings and the reach do not look at a sensitive value, a node's comment
is dropped, and the SQL is shown only when blanking changes nothing. So inputs that differ in
sensitive values alone have the same artifact (`buildReviewArtifact_noninterference`).
-/

set_option autoImplicit false

namespace PgRoles.Explorer

open Std PgRoles.Lib PgRoles.Core PgRoles.Sql

/-! ## Blanking -/

/-- The state with the text of its comment and the values of its settings blanked. -/
def RoleState.withoutValues (state : RoleState) : RoleState :=
  { state with
    comment := state.comment.map fun _ => ""
    config := state.config.map fun _ _ => "" }

/-- An attribute without the value of a setting. -/
def RoleAttribute.withoutValues : RoleAttribute → RoleAttribute
  | .setConfig parameter _ => .setConfig parameter ""
  | a => a

/-- The change with every sensitive value blanked. -/
def Change.withoutValues : Change → Change
  | .createRole name state => .createRole name (RoleState.withoutValues state)
  | .alterRole name attributes => .alterRole name (attributes.map RoleAttribute.withoutValues)
  | .setComment name comment => .setComment name (comment.map fun _ => "")
  | .setPassword name _ => .setPassword name ""
  | change => change

/-- A graph whose roles have no values of settings. -/
def RoleGraph.withoutValues (graph : RoleGraph) : RoleGraph :=
  { graph with roles := graph.roles.map fun _ state => RoleState.withoutValues state }

/-- The input of a review without values and passwords. -/
def ReviewArtifactInput.withoutValues (input : ReviewArtifactInput) : ReviewArtifactInput :=
  { input with
    current := RoleGraph.withoutValues input.current
    changes := input.changes.map Change.withoutValues }

/-! ## Maps -/

section Maps

variable {V W : Type} (m : BTreeMap String V) (f : V → W) (k : String)

theorem getElem?_mapValues (a : String) : (m.map fun _ => f)[a]? = m[a]?.map f :=
  ExtTreeMap.getElem?_map

theorem insert_mapValues (v : V) :
    (m.map fun _ => f).insert k (f v) = (m.insert k v).map fun _ => f := by
  refine ExtTreeMap.ext_getElem? fun a => ?_
  rw [getElem?_mapValues, getElem?_insert_eq, getElem?_insert_eq, getElem?_mapValues]
  split_ifs <;> rfl

theorem erase_mapValues : (m.map fun _ => f).erase k = (m.erase k).map fun _ => f := by
  refine ExtTreeMap.ext_getElem? fun a => ?_
  rw [getElem?_mapValues, getElem?_erase_eq, getElem?_erase_eq, getElem?_mapValues]
  split_ifs <;> rfl

/-- An update commutes with the function when it does on values. -/
theorem alter_mapValues {g : V → V} {g' : W → W} (h : ∀ v, g' (f v) = f (g v)) :
    (m.map fun _ => f).alter k (Option.map g') = (m.alter k (Option.map g)).map fun _ => f := by
  refine ExtTreeMap.ext_getElem? fun a => ?_
  rw [getElem?_mapValues, getElem?_alter_eq, getElem?_alter_eq, getElem?_mapValues]
  split_ifs
  · rw [Option.map_map, Option.map_map]
    exact congrArg (fun g => m[a]?.map g) (funext h)
  · rfl

end Maps

/-! ## The interpreter of changes -/

/-- A simulated state without values of settings. -/
def Simulated.withoutValues (s : Simulated) : Simulated :=
  { s with graph := RoleGraph.withoutValues s.graph }

/-- Setting an attribute without its value gives the role without values. -/
theorem applyAttribute_withoutValues (role : RoleState) (a : RoleAttribute) :
    RoleState.applyAttribute (RoleState.withoutValues role) (RoleAttribute.withoutValues a) =
      RoleState.withoutValues (RoleState.applyAttribute role a) := by
  cases a with
  | setConfig parameter value =>
      have hconfig := insert_mapValues role.config (fun _ => "") parameter value
      simp only [RoleState.applyAttribute, RoleAttribute.withoutValues, RoleState.withoutValues]
      rw [hconfig]
  | resetConfig parameter =>
      have hconfig := erase_mapValues role.config (fun _ => "") parameter
      simp only [RoleState.applyAttribute, RoleAttribute.withoutValues, RoleState.withoutValues]
      rw [hconfig]
  | _ => rfl

theorem foldl_applyAttribute_withoutValues (attributes : List RoleAttribute) (role : RoleState) :
    (attributes.map RoleAttribute.withoutValues).foldl RoleState.applyAttribute
        (RoleState.withoutValues role) =
      RoleState.withoutValues (attributes.foldl RoleState.applyAttribute role) := by
  induction attributes generalizing role with
  | nil => rfl
  | cons a attributes ih =>
      rw [List.map_cons, List.foldl_cons, List.foldl_cons, applyAttribute_withoutValues, ih]

/-- An update that does not look at values acts on the graph without them. -/
theorem updateRole_withoutValues (graph : RoleGraph) (name : String) {f f' : RoleState → RoleState}
    (h : ∀ role, f' (RoleState.withoutValues role) = RoleState.withoutValues (f role)) :
    updateRole (RoleGraph.withoutValues graph) name f' =
      RoleGraph.withoutValues (updateRole graph name f) := by
  have hroles := alter_mapValues graph.roles RoleState.withoutValues name h
  simp only [updateRole, RoleGraph.withoutValues]
  rw [hroles]

theorem createEdge_withoutValues (graph : RoleGraph) (key : String × String) (grantor : String)
    (binding : Option MembershipOptionBinding) :
    createEdge (RoleGraph.withoutValues graph) key grantor binding =
      RoleGraph.withoutValues (createEdge graph key grantor binding) := by
  have hcomplete : (RoleGraph.withoutValues graph).completeMembershipOptions key.1 key.2 =
      graph.completeMembershipOptions key.1 key.2 := rfl
  have hoptions : (RoleGraph.withoutValues graph).membershipEdgeOptions =
      graph.membershipEdgeOptions := rfl
  simp only [createEdge, hcomplete, hoptions]
  split_ifs <;> rfl

/-- Membership options do not touch the values. -/
theorem updateMemberOptions_withoutValues (s : Simulated) (role member grantor : String)
    (inherit admin : Option Bool) (binding : Option MembershipOptionBinding) :
    updateMemberOptions s.withoutValues role member grantor inherit admin binding =
      (updateMemberOptions s role member grantor inherit admin binding).withoutValues := by
  have hedge : createEdge s.withoutValues.graph (role, member) grantor binding =
      RoleGraph.withoutValues (createEdge s.graph (role, member) grantor binding) :=
    createEdge_withoutValues s.graph (role, member) grantor binding
  simp only [updateMemberOptions]
  rw [hedge]
  generalize createEdge s.graph (role, member) grantor binding = graph
  have hcomplete : (RoleGraph.withoutValues graph).completeMembershipOptions role member =
      graph.completeMembershipOptions role member := rfl
  have hoptions : (RoleGraph.withoutValues graph).membershipEdgeOptions =
      graph.membershipEdgeOptions := rfl
  rw [hcomplete, hoptions]
  cases graph.membershipEdgeOptions[(role, member)]? with
  | none => rfl
  | some options =>
      dsimp only
      split_ifs <;> rfl

/-- Nor does the removal of a member. -/
theorem removeMember_withoutValues (s : Simulated) (pgMajorVersion : Nat) (role member : String)
    (grantor : Option String) :
    removeMember s.withoutValues pgMajorVersion role member grantor =
      (removeMember s pgMajorVersion role member grantor).withoutValues := by
  cases grantor with
  | none => rfl
  | some grantor =>
      have hcomplete : s.withoutValues.graph.completeMembershipOptions role member =
          s.graph.completeMembershipOptions role member := rfl
      have hoptions : s.withoutValues.graph.membershipEdgeOptions =
          s.graph.membershipEdgeOptions := rfl
      have hgrantors : s.withoutValues.graph.membershipEdgeGrantors =
          s.graph.membershipEdgeGrantors := rfl
      simp only [removeMember, hcomplete, hoptions, hgrantors]
      split_ifs
      · split <;> rfl
      · rfl

/-- The interpreter sees no sensitive value but to store it. -/
theorem applyChange_withoutValues (executor : ExecutorFacts) (pgMajorVersion : Nat) (s : Simulated)
    (change : Change) :
    applyChange executor pgMajorVersion s.withoutValues (Change.withoutValues change) =
      (applyChange executor pgMajorVersion s change).withoutValues := by
  cases change with
  | createRole name state =>
      have hroles := insert_mapValues s.graph.roles RoleState.withoutValues name state
      simp only [applyChange, Change.withoutValues, createRole, Simulated.withoutValues,
        RoleGraph.withoutValues]
      rw [hroles]
      split_ifs <;> rfl
  | alterRole name attributes =>
      exact congrArg (fun g => { s with graph := g })
        (@updateRole_withoutValues s.graph name
          (fun role => attributes.foldl RoleState.applyAttribute role)
          (fun role => (attributes.map RoleAttribute.withoutValues).foldl
            RoleState.applyAttribute role)
          (foldl_applyAttribute_withoutValues attributes))
  | setComment name comment =>
      exact congrArg (fun g => { s with graph := g })
        (@updateRole_withoutValues s.graph name (fun role => { role with comment := comment })
          (fun role => { role with comment := comment.map fun _ => "" }) fun _ => rfl)
  | dropRole name =>
      have hroles := erase_mapValues s.graph.roles RoleState.withoutValues name
      simp only [applyChange, Change.withoutValues, dropRole, Simulated.withoutValues,
        RoleGraph.withoutValues]
      rw [hroles]
  | updateMemberOptions role member grantor inherit admin binding =>
      exact updateMemberOptions_withoutValues s role member grantor inherit admin binding
  | removeMember role member grantor =>
      exact removeMember_withoutValues s pgMajorVersion role member grantor
  | _ => rfl

/-! ## Findings and reach -/

theorem any_superuser_withoutValues (graph : RoleGraph) (role : String) :
    ((RoleGraph.withoutValues graph).roles[role]?).any RoleState.superuser =
      (graph.roles[role]?).any RoleState.superuser := by
  rw [RoleGraph.withoutValues, getElem?_mapValues, Option.any_map]
  rfl

theorem keys_withoutValues (graph : RoleGraph) :
    (RoleGraph.withoutValues graph).roles.keys = graph.roles.keys :=
  ExtTreeMap.keys_map

/-- An authority without values of settings. -/
def AuthorityState.withoutValues (authority : AuthorityState) : AuthorityState :=
  { authority with graph := RoleGraph.withoutValues authority.graph }

section Findings

variable (authority : AuthorityState) (phase : PlanPhase) (index : Nat) (change : Change)

theorem requiredRoleFinding_withoutValues :
    requiredRoleFinding authority.withoutValues phase index (Change.withoutValues change) =
      requiredRoleFinding authority phase index change := by
  cases change <;> rfl

/-- Nor do those about memberships. -/
theorem membershipFinding_withoutValues :
    membershipFinding authority.withoutValues phase index (Change.withoutValues change) =
      membershipFinding authority phase index change := by
  have hrole : membershipRole? (Change.withoutValues change) = membershipRole? change := by
    cases change <;> rfl
  have hgrantor : namesRemovedGrantor (Change.withoutValues change) =
      namesRemovedGrantor change := by
    cases change <;> rfl
  have hsuper : ∀ role, (authority.withoutValues.graph.roles[role]?).any RoleState.superuser =
      (authority.graph.roles[role]?).any RoleState.superuser :=
    any_superuser_withoutValues authority.graph
  rw [membershipFinding, membershipFinding, hrole, hgrantor]
  simp only [hsuper]
  rfl

theorem ownershipFinding_withoutValues :
    ownershipFinding authority.withoutValues phase index (Change.withoutValues change) =
      ownershipFinding authority phase index change := by
  cases change <;> rfl

/-- The authority that a change requires is the same without the values. -/
theorem analyzeRequiredAuthority_withoutValues (f : Findings) :
    analyzeRequiredAuthority (Change.withoutValues change) phase index authority.withoutValues f =
      analyzeRequiredAuthority change phase index authority f := by
  have hneeds : needsPreflight (Change.withoutValues change) = needsPreflight change := by
    cases change <;> rfl
  have hnote : notePreflight phase index (Change.withoutValues change) =
      notePreflight phase index change := by
    cases change <;> rfl
  rw [analyzeRequiredAuthority, analyzeRequiredAuthority, requiredRoleFinding_withoutValues,
    membershipFinding_withoutValues, ownershipFinding_withoutValues, hneeds, hnote]
  rfl

end Findings

theorem attributes_apply_withoutValues (attributes : ExecutorAttributes) (executor : ExecutorFacts)
    (change : Change) :
    attributes.apply executor (Change.withoutValues change) = attributes.apply executor change := by
  cases change with
  | alterRole name l =>
      have hfold : (l.map RoleAttribute.withoutValues).foldl ExecutorAttributes.applyAttribute
          attributes = l.foldl ExecutorAttributes.applyAttribute attributes := by
        rw [List.foldl_map]
        congr 1
        funext held a
        cases a <;> rfl
      simp only [Change.withoutValues, ExecutorAttributes.apply, hfold]
  | _ => rfl

theorem affectsReachability_withoutValues (change : Change) :
    affectsReachability (Change.withoutValues change) = affectsReachability change := by
  cases change with
  | alterRole name l =>
      rw [Change.withoutValues, affectsReachability, affectsReachability, List.any_map]
      congr 1
      funext a
      cases a <;> rfl
  | _ => rfl

/-! ## The simulation -/

/-- The group with its changes blanked. -/
def blankGroup (group : PlanPhase × List Change) : PlanPhase × List Change :=
  (group.1, group.2.map Change.withoutValues)

theorem phaseFor_withoutValues (change : Change) :
    phaseFor (Change.withoutValues change) = phaseFor change := by
  cases change <;> rfl

theorem pushPhase_withoutValues (groups : List (PlanPhase × List Change)) (change : Change) :
    pushPhase (groups.map blankGroup) (Change.withoutValues change) =
      (pushPhase groups change).map blankGroup := by
  rcases List.eq_nil_or_concat groups with rfl | ⟨before, last, rfl⟩
  · rw [pushPhase, pushPhase, phaseFor_withoutValues]
    rfl
  · rw [List.concat_eq_append, pushPhase, pushPhase, List.getLast?_map, List.getLast?_concat,
      phaseFor_withoutValues]
    simp only [Option.map_some, blankGroup]
    split_ifs
    · simp [blankGroup]
    · simp [blankGroup]

/-- The changes fall into the same phases without the values. -/
theorem groupedPhases_withoutValues (changes : List Change) :
    groupedPhases (changes.map Change.withoutValues) =
      (groupedPhases changes).map blankGroup := by
  rw [groupedPhases, groupedPhases, List.foldl_map]
  exact @List.foldl_hom _ _ _ (List.map blankGroup) pushPhase
    (fun groups change => pushPhase groups (Change.withoutValues change)) changes []
    pushPhase_withoutValues

/-- A simulation without values of settings. -/
def Simulation.withoutValues (s : Simulation) : Simulation :=
  { s with current := s.current.withoutValues }

/-- A phase whose changes carry no values and passwords. -/
def PhaseAnalysis.withoutValues (phase : PhaseAnalysis) : PhaseAnalysis :=
  { phase with changes := phase.changes.map Change.withoutValues }

section Simulate

variable (executor : ExecutorFacts) (options : PlanAnalysisOptions) (recompute : Recompute)

theorem setReach_withoutValues (current : Simulated) (attributes : ExecutorAttributes) :
    setReach executor options current.withoutValues attributes =
      setReach executor options current attributes :=
  reachability_eq_of_keys (keys_withoutValues current.graph) _ _ _ _

theorem usageReach_withoutValues (current : Simulated) (attributes : ExecutorAttributes) :
    usageReach executor options current.withoutValues attributes =
      usageReach executor options current attributes :=
  reachability_eq_of_keys (keys_withoutValues current.graph) _ _ _ _

theorem recomputed_withoutValues (s : Simulation) :
    s.withoutValues.recomputed executor options = (s.recomputed executor options).withoutValues := by
  simp only [Simulation.recomputed, Simulation.withoutValues, setReach_withoutValues,
    usageReach_withoutValues]

/-- One change advances the simulation as it does without the values. -/
theorem advance_withoutValues (phase : PlanPhase) (s : Simulation) (change : Change) :
    s.withoutValues.advance executor options phase (Change.withoutValues change) =
      (s.advance executor options phase change).withoutValues := by
  have hfindings := analyzeRequiredAuthority_withoutValues (s.authority options) phase
    s.globalChangeIndex change s.findings
  have hcurrent := applyChange_withoutValues executor options.pgMajorVersion s.current change
  have hattributes := attributes_apply_withoutValues s.attributes executor change
  simp only [Simulation.advance, Simulation.withoutValues]
  rw [hcurrent, hattributes]
  congr 1

/-- One change with its findings is simulated as it is without the values. -/
theorem simulateChange_withoutValues (phase : PlanPhase) (s : Simulation) (change : Change) :
    simulateChange executor options recompute phase s.withoutValues (Change.withoutValues change) =
      (simulateChange executor options recompute phase s change).withoutValues := by
  simp only [simulateChange, advance_withoutValues, affectsReachability_withoutValues,
    recomputed_withoutValues]
  split_ifs <;> rfl

/-- So is one phase. -/
theorem simulatePhase_withoutValues (s : Simulation) (phases : List PhaseAnalysis)
    (group : PlanPhase × List Change) :
    simulatePhase executor options recompute
        (s.withoutValues, phases.map PhaseAnalysis.withoutValues) (blankGroup group) =
      ((simulatePhase executor options recompute (s, phases) group).1.withoutValues,
        (simulatePhase executor options recompute (s, phases) group).2.map
          PhaseAnalysis.withoutValues) := by
  have hchanges : (group.2.map Change.withoutValues).foldl
        (simulateChange executor options recompute group.1) s.withoutValues =
      (group.2.foldl (simulateChange executor options recompute group.1) s).withoutValues := by
    rw [List.foldl_map]
    exact List.foldl_hom Simulation.withoutValues fun s change =>
      simulateChange_withoutValues executor options recompute group.1 s change
  have hdropped : (group.2.map Change.withoutValues).filterMap droppedRole? =
      group.2.filterMap droppedRole? := by
    rw [List.filterMap_map]
    congr 1
    funext change
    cases change <;> rfl
  simp only [simulatePhase, blankGroup, hchanges, Simulation.comparePhase, hdropped]
  rw [List.map_append]
  rfl

theorem initialEdgeFacts_withoutValues (graph : RoleGraph) (pgMajorVersion : Nat) :
    initialEdgeFacts (RoleGraph.withoutValues graph) executor pgMajorVersion =
      (initialEdgeFacts graph executor pgMajorVersion).withoutValues := by
  have hedges : graph.memberships.toList.foldl
        (noteEdge (membershipSetRoleDefault pgMajorVersion))
        (Simulated.withoutValues { graph := graph }) =
      (graph.memberships.toList.foldl (noteEdge (membershipSetRoleDefault pgMajorVersion))
        { graph := graph }).withoutValues :=
    List.foldl_hom Simulated.withoutValues fun _ _ => rfl
  have hfacts : ∀ s : Simulated, executor.memberships.foldl
        (noteFact (membershipSetRoleDefault pgMajorVersion)) s.withoutValues =
      (executor.memberships.foldl (noteFact (membershipSetRoleDefault pgMajorVersion))
        s).withoutValues :=
    fun s => List.foldl_hom Simulated.withoutValues fun _ _ => rfl
  exact (congrArg (executor.memberships.foldl
    (noteFact (membershipSetRoleDefault pgMajorVersion))) hedges).trans (hfacts _)

/-- The simulation starts the same without the values. -/
theorem initialSimulation_withoutValues (graph : RoleGraph) :
    initialSimulation executor options (RoleGraph.withoutValues graph) =
      (initialSimulation executor options graph).withoutValues := by
  have hattributes : ExecutorAttributes.initial (RoleGraph.withoutValues graph) executor =
      ExecutorAttributes.initial graph executor := by
    simp only [ExecutorAttributes.initial, RoleGraph.withoutValues, getElem?_mapValues]
    cases graph.roles[executor.role]? <;> rfl
  simp only [initialSimulation, initialEdgeFacts_withoutValues, hattributes,
    setReach_withoutValues, usageReach_withoutValues]
  rfl

end Simulate

/-! ## The graph after the plan -/

/-- A node with its comment, if it has one, made empty. -/
def VisualNode.withoutValues (node : VisualNode) : VisualNode :=
  { node with comment := node.comment.map fun _ => "" }

/-- The nodes with their comments blanked. -/
def blankNodes (s : VisualNodes) : VisualNodes :=
  { s with nodes := s.nodes.map VisualNode.withoutValues }

theorem add_withoutValues (s : VisualNodes) (node : VisualNode) :
    (blankNodes s).add (VisualNode.withoutValues node) = blankNodes (s.add node) := by
  simp only [VisualNodes.add, blankNodes, List.map_append]
  rfl

theorem addNew_withoutValues (s : VisualNodes) {node : VisualNode}
    (h : VisualNode.withoutValues node = node) :
    (blankNodes s).addNew node = blankNodes (s.addNew node) := by
  have hids : (blankNodes s).nodeIds = s.nodeIds := rfl
  have hadd := add_withoutValues s node
  rw [h] at hadd
  rw [VisualNodes.addNew, VisualNodes.addNew, hids, hadd]
  split_ifs <;> rfl

/-- Merging privileges does not look at comments. -/
theorem updateFirst_withoutValues (id : String) (privileges : Finset Privilege)
    (nodes : List VisualNode) :
    updateFirst id (·.mergePrivileges privileges) (nodes.map VisualNode.withoutValues) =
      (updateFirst id (·.mergePrivileges privileges) nodes).map VisualNode.withoutValues := by
  induction nodes with
  | nil => rfl
  | cons node nodes ih =>
      have hid : (VisualNode.withoutValues node).id = node.id := rfl
      rw [List.map_cons, updateFirst, updateFirst, hid, ih]
      split_ifs <;> rfl

/-- A grant target is drawn as it is without the values. -/
theorem addGrantTarget_withoutValues (s : VisualNodes) (e : CollapsedGrantKey × Finset Privilege) :
    (blankNodes s).addGrantTarget e = blankNodes (s.addGrantTarget e) := by
  have hids : (blankNodes s).nodeIds = s.nodeIds := rfl
  have hadd : (blankNodes s).add (grantTargetNode e.1 e.2) =
      blankNodes (s.add (grantTargetNode e.1 e.2)) :=
    add_withoutValues s (grantTargetNode e.1 e.2)
  rw [VisualNodes.addGrantTarget, VisualNodes.addGrantTarget, hids, hadd]
  split_ifs
  · exact congrArg (fun nodes => { s with nodes := nodes })
      (updateFirst_withoutValues e.1.nodeId e.2 s.nodes)
  · rfl

theorem mem_roles_withoutValues (graph : RoleGraph) (name : String) :
    name ∈ (RoleGraph.withoutValues graph).roles ↔ name ∈ graph.roles :=
  ExtTreeMap.mem_map

/-- The nodes are drawn as they are without the values. -/
theorem visualNodes_withoutValues (graph : RoleGraph) :
    visualNodes (RoleGraph.withoutValues graph) = blankNodes (visualNodes graph) := by
  have hroles : (RoleGraph.withoutValues graph).roles.toList.foldl
        (fun s e => s.add (roleNode e.1 e.2)) ({} : VisualNodes) =
      blankNodes (graph.roles.toList.foldl (fun s e => s.add (roleNode e.1 e.2))
        ({} : VisualNodes)) := by
    rw [RoleGraph.withoutValues, ExtTreeMap.toList_map, List.foldl_map]
    exact @List.foldl_hom _ _ (String × RoleState) blankNodes
      (fun s e => s.add (roleNode e.1 e.2))
      (fun s e => s.add (roleNode e.1 (RoleState.withoutValues e.2))) graph.roles.toList {}
      fun s e => add_withoutValues s (roleNode e.1 e.2)
  have hmembers : ∀ s : VisualNodes, graph.memberships.toList.foldl (fun s edge =>
        if edge.member ∈ graph.roles then s else s.addNew (externalNode edge.member))
        (blankNodes s) =
      blankNodes (graph.memberships.toList.foldl (fun s edge =>
        if edge.member ∈ graph.roles then s else s.addNew (externalNode edge.member)) s) := by
    intro s
    refine List.foldl_hom blankNodes fun s edge => ?_
    rw [addNew_withoutValues s rfl]
    split_ifs <;> rfl
  have hpublic : ∀ s : VisualNodes,
      (if addressesPublic graph then (blankNodes s).addNew (externalNode publicRoleName)
        else blankNodes s) =
      blankNodes (if addressesPublic graph then s.addNew (externalNode publicRoleName)
        else s) := by
    intro s
    rw [addNew_withoutValues s rfl]
    split_ifs <;> rfl
  have hgrants : ∀ s : VisualNodes,
      (collapseGrants graph.grants).toList.foldl VisualNodes.addGrantTarget (blankNodes s) =
      blankNodes ((collapseGrants graph.grants).toList.foldl VisualNodes.addGrantTarget s) :=
    fun s => List.foldl_hom blankNodes addGrantTarget_withoutValues
  have hdefaults : ∀ s : VisualNodes,
      graph.defaultPrivileges.toList.foldl (fun s e => s.addNew (defaultPrivNode e.1 e.2))
        (blankNodes s) =
      blankNodes (graph.defaultPrivileges.toList.foldl
        (fun s e => s.addNew (defaultPrivNode e.1 e.2)) s) :=
    fun s => List.foldl_hom blankNodes fun s e => addNew_withoutValues s rfl
  have hedges : (RoleGraph.withoutValues graph).memberships = graph.memberships := rfl
  have hkeys : (RoleGraph.withoutValues graph).grants = graph.grants := rfl
  have hrules : (RoleGraph.withoutValues graph).defaultPrivileges = graph.defaultPrivileges := rfl
  have hsame : addressesPublic (RoleGraph.withoutValues graph) = addressesPublic graph := rfl
  unfold visualNodes
  dsimp only
  simp only [mem_roles_withoutValues, hsame, hedges, hkeys, hrules]
  rw [hroles, hmembers, hpublic, hgrants, hdefaults]

theorem visualEdges_withoutValues (graph : RoleGraph) :
    visualEdges (RoleGraph.withoutValues graph) = visualEdges graph := by
  have hedge : membershipEdge (RoleGraph.withoutValues graph) = membershipEdge graph := by
    funext edge
    simp only [membershipEdge, mem_roles_withoutValues]
  rw [visualEdges, visualEdges, hedge]
  rfl

/-- Comments are in the nodes alone, and none is recorded. -/
theorem sanitized_withoutValues (graph : RoleGraph) (source : VisualSource) :
    ReviewVisualGraph.sanitized (buildVisualGraph (RoleGraph.withoutValues graph) source) =
      ReviewVisualGraph.sanitized (buildVisualGraph graph source) := by
  have hnodes : sortNodes (visualNodes (RoleGraph.withoutValues graph)).nodes =
      (sortNodes (visualNodes graph).nodes).map VisualNode.withoutValues := by
    rw [visualNodes_withoutValues]
    exact (@List.map_mergeSort _ _ (fun a b => (compare a.id b.id).isLE)
      (fun a b => (compare a.id b.id).isLE) VisualNode.withoutValues (visualNodes graph).nodes
      fun _ _ _ _ => rfl).symm
  have hsize : (RoleGraph.withoutValues graph).roles.size = graph.roles.size :=
    ExtTreeMap.size_map
  simp only [buildVisualGraph, ReviewVisualGraph.sanitized, hnodes, hsize,
    visualEdges_withoutValues, List.map_map, List.any_map]
  have hof : ReviewVisualNode.ofNode ∘ VisualNode.withoutValues = ReviewVisualNode.ofNode := rfl
  have hany : (fun node : VisualNode => node.comment.isSome) ∘ VisualNode.withoutValues =
      fun node => node.comment.isSome := by
    funext node
    exact Option.isSome_map
  rw [hof, hany]
  rfl

/-! ## The artifact -/

/-- The whole simulation is the one without the values. -/
theorem simulate_withoutValues (executor : ExecutorFacts) (options : PlanAnalysisOptions)
    (graph : RoleGraph) (changes : List Change) (recompute : Recompute) :
    (simulate executor options (RoleGraph.withoutValues graph)
        (changes.map Change.withoutValues) recompute).1.phases =
        (simulate executor options graph changes recompute).1.phases.map
          PhaseAnalysis.withoutValues ∧
      (simulate executor options (RoleGraph.withoutValues graph)
        (changes.map Change.withoutValues) recompute).1.findings =
        (simulate executor options graph changes recompute).1.findings ∧
      ReviewVisualGraph.sanitized (simulate executor options (RoleGraph.withoutValues graph)
          (changes.map Change.withoutValues) recompute).1.visual =
        ReviewVisualGraph.sanitized (simulate executor options graph changes recompute).1.visual := by
  have hrun : (groupedPhases (changes.map Change.withoutValues)).foldl
        (simulatePhase executor options recompute)
        (initialSimulation executor options (RoleGraph.withoutValues graph), []) =
      (fun r : Simulation × List PhaseAnalysis =>
          (r.1.withoutValues, r.2.map PhaseAnalysis.withoutValues))
        ((groupedPhases changes).foldl (simulatePhase executor options recompute)
          (initialSimulation executor options graph, [])) := by
    rw [groupedPhases_withoutValues, initialSimulation_withoutValues, List.foldl_map]
    exact @List.foldl_hom _ _ _ (fun r : Simulation × List PhaseAnalysis =>
        (r.1.withoutValues, r.2.map PhaseAnalysis.withoutValues))
      (simulatePhase executor options recompute)
      (fun r group => simulatePhase executor options recompute r (blankGroup group))
      (groupedPhases changes) (initialSimulation executor options graph, []) fun r group =>
        simulatePhase_withoutValues executor options recompute r.1 r.2 group
  simp only [simulate]
  rw [hrun]
  exact ⟨rfl, rfl, sanitized_withoutValues _ _⟩

/-- The recorded phases are the same without the values. -/
theorem recordedPhasesFrom_withoutValues (phases : List PhaseAnalysis) (nextIndex : Nat)
    (previous : PhaseReachability) :
    recordedPhasesFrom nextIndex previous (phases.map PhaseAnalysis.withoutValues) =
      recordedPhasesFrom nextIndex previous phases := by
  induction phases generalizing nextIndex previous with
  | nil => rfl
  | cons phase phases ih =>
      have hlength : (phase.changes.map Change.withoutValues).length = phase.changes.length :=
        List.length_map _
      simp only [List.map_cons, recordedPhasesFrom, PhaseAnalysis.withoutValues, hlength]
      exact congrArg _ (ih _ _)

/-- What is recorded of a change shows no sensitive value. -/
theorem recordedChange_withoutValues (sources : Option (List BundleChangeOwner)) (change : Change)
    (index : Nat) :
    recordedChange sources (Change.withoutValues change) index =
      recordedChange sources change index := by
  cases change with
  | createRole name state =>
      have hkeys : (RoleState.withoutValues state).config.keys = state.config.keys :=
        ExtTreeMap.keys_map
      have hempty : (RoleState.withoutValues state).config.isEmpty = state.config.isEmpty := by
        rw [← ExtTreeMap.isEmpty_keys, ← ExtTreeMap.isEmpty_keys, hkeys]
      have hcomment : (RoleState.withoutValues state).comment.isSome = state.comment.isSome :=
        Option.isSome_map
      simp only [recordedChange, Change.withoutValues, ReviewChange.sanitize,
        ReviewRoleState.ofState, hkeys, hempty, hcomment]
      rfl
  | alterRole name attributes =>
      have hattribute : ∀ a, sanitizeAttribute (RoleAttribute.withoutValues a) =
          sanitizeAttribute a := by
        intro a
        cases a <;> rfl
      simp only [recordedChange, Change.withoutValues, ReviewChange.sanitize, List.map_map,
        List.flatMap_map, Function.comp_def, hattribute]
      rfl
  | setComment name comment =>
      cases comment <;> rfl
  | _ => rfl

/-- A change without omissions has no sensitive value. -/
theorem withoutValues_of_no_omissions {change : Change}
    (h : (ReviewChange.sanitize change).2 = []) : Change.withoutValues change = change := by
  cases change with
  | createRole name state =>
      obtain ⟨hcomment, hconfig⟩ := List.append_eq_nil_iff.1 h
      have hnone : state.comment = none := by
        cases hc : state.comment with
        | none => rfl
        | some text =>
            rw [hc, Option.isSome_some, if_pos rfl] at hcomment
            exact absurd hcomment (List.cons_ne_nil _ _)
      have hempty : state.config = ∅ := by
        by_contra hne
        rw [if_neg (fun he => hne (ExtTreeMap.isEmpty_iff.1 he))] at hconfig
        exact absurd hconfig (List.cons_ne_nil _ _)
      have hstate : RoleState.withoutValues state = state := by
        obtain ⟨⟩ := state
        simp only at hnone hempty
        subst hnone hempty
        rfl
      rw [Change.withoutValues, hstate]
  | alterRole name attributes =>
      have hall : attributes.map RoleAttribute.withoutValues = attributes := by
        refine List.map_congr_left (g := id) (fun a ha => ?_) |>.trans (List.map_id _)
        have hnone := List.flatMap_eq_nil_iff.1 h a ha
        cases a with
        | setConfig parameter value => exact absurd hnone (List.cons_ne_nil _ _)
        | _ => rfl
      rw [Change.withoutValues, hall]
  | setComment name comment =>
      cases comment with
      | none => rfl
      | some text => exact absurd h (List.cons_ne_nil _ _)
  | setPassword name password => exact absurd h (List.cons_ne_nil _ _)
  | _ => rfl

variable (input : ReviewArtifactInput)

theorem recordedChanges_withoutValues :
    input.withoutValues.recordedChanges = input.recordedChanges := by
  simp only [ReviewArtifactInput.recordedChanges, ReviewArtifactInput.withoutValues,
    List.zipIdx_map, List.map_map]
  refine List.map_congr_left fun e _ => ?_
  exact recordedChange_withoutValues input.changeSources e.1 e.2

/-- The SQL is shown when the plan has no sensitive value. -/
theorem sqlPreview_withoutValues : input.withoutValues.sqlPreview = input.sqlPreview := by
  unfold ReviewArtifactInput.sqlPreview
  dsimp only
  rw [recordedChanges_withoutValues]
  split_ifs with hnone
  · have hchanges : input.changes.map Change.withoutValues = input.changes := by
      refine (List.map_congr_left (g := id) fun change hchange => ?_).trans (List.map_id _)
      obtain ⟨i, hi⟩ := List.mem_iff_getElem?.1 hchange
      have hrecorded : recordedChange input.changeSources change i ∈ input.recordedChanges :=
        List.mem_map.2 ⟨(change, i), List.mem_zipIdx_iff_getElem?.2 hi, rfl⟩
      have hnil := List.filter_eq_nil_iff.1 (List.map_eq_nil_iff.1 (List.isEmpty_iff.1 hnone))
        _ hrecorded
      rw [Bool.not_eq_true, Bool.not_eq_false'] at hnil
      exact withoutValues_of_no_omissions (List.isEmpty_iff.1 hnil)
    have hsame : input.withoutValues.changes = input.changes := hchanges
    rw [hsame]
    rfl
  · rfl

/-- The artifact of an input is the artifact of the blanked one. -/
theorem buildReviewArtifact_withoutValues (sha256 : ByteArray → String) :
    buildReviewArtifact sha256 input.withoutValues = buildReviewArtifact sha256 input := by
  have hsources : input.withoutValues.checkSources = input.checkSources := by
    simp only [ReviewArtifactInput.checkSources, ReviewArtifactInput.withoutValues,
      List.length_map]
  obtain ⟨hphases, hfindings, hvisual⟩ := simulate_withoutValues input.executorFacts
    ⟨input.context.authorityGraphComplete, input.majorVersion⟩ input.current input.changes
    .whenAffected
  have hunsigned : input.withoutValues.unsigned = input.unsigned := by
    funext preview
    have hrecorded : recordedPhases input.withoutValues.analysis = recordedPhases input.analysis :=
      (congrArg (recordedPhasesFrom 0 {}) hphases).trans
        (recordedPhasesFrom_withoutValues _ 0 {})
    have hfound : input.withoutValues.analysis.findings = input.analysis.findings := hfindings
    have hgraph : ReviewVisualGraph.sanitized input.withoutValues.analysis.visual =
        ReviewVisualGraph.sanitized input.analysis.visual := hvisual
    simp only [ReviewArtifactInput.unsigned, recordedChanges_withoutValues, hrecorded, hfound,
      hgraph]
    rfl
  rw [buildReviewArtifact, buildReviewArtifact, hsources, sqlPreview_withoutValues, hunsigned]

/-- For any two inputs that differ in password verifiers, the text of comments and the values of
settings alone, in the current graph and in the changes, building the artifact gives the same: equal
artifacts, or the same failure. -/
theorem buildReviewArtifact_noninterference (sha256 : ByteArray → String)
    {a b : ReviewArtifactInput} (h : a.withoutValues = b.withoutValues) :
    buildReviewArtifact sha256 a = buildReviewArtifact sha256 b := by
  rw [← buildReviewArtifact_withoutValues a, ← buildReviewArtifact_withoutValues b, h]

/-- The graph a plan starts from: an owner with a comment, and a reader with a setting, a grant and a
membership. -/
def settingGraph (comment value : String) : RoleGraph :=
  { roles := ExtTreeMap.ofList
      [("owner", { comment := some comment }),
        ("reader", { login := true
                     config := ExtTreeMap.ofList [("search_path", value)] compare })] compare
    schemas := ExtTreeMap.ofList [("app", ⟨some "owner", {.create, .usage}⟩)] compare
    grants := ExtTreeMap.ofList
      [(⟨.role "reader", .table, some "app", some "orders"⟩, {.select})] compare
    memberships := ExtTreeSet.ofList [⟨"owner", "reader", true, false⟩] compare }

/-- A plan that creates a role with a comment, sets a setting and a password, and grants. -/
def settingPlan (comment value password : String) : ReviewArtifactInput where
  provenance := ⟨"0.1.0", "2024-01-01T00:00:00Z", ⟨"sha256:00", none⟩, "primary", 16⟩
  context := ⟨.authoritative, none, ⟨"postgres", some true⟩, ⟨"postgres", some true⟩, true⟩
  preflight := []
  current := settingGraph comment value
  changes := [.createRole "app" { comment := some comment },
    .alterRole "reader" [.setConfig "search_path" value],
    .grant ⟨.role "app", .table, some "app", some "orders"⟩ {.select},
    .addMember "owner" "app" true false, .setPassword "app" password]
  changeSources := none
  executorFacts := { role := "postgres", superuser := true }
  sqlContext := {}
  exploration := .omitted .recordedOnlyExport

/-- Two plans that differ in a setting, in the value of another and in a password have one artifact.
-/
theorem settingPlan_same_artifact :
    buildReviewArtifact (fun _ => "") (settingPlan "billing" "billing" "SCRAM-SHA-256$a") =
      buildReviewArtifact (fun _ => "") (settingPlan "payroll" "payroll" "SCRAM-SHA-256$b") := by
  refine buildReviewArtifact_noninterference _ ?_
  -- The graphs differ in the comment and the setting only.
  have hgraph : RoleGraph.withoutValues (settingGraph "billing" "billing") =
      RoleGraph.withoutValues (settingGraph "payroll" "payroll") := rfl
  unfold ReviewArtifactInput.withoutValues settingPlan
  rw [hgraph]
  rfl

end PgRoles.Explorer

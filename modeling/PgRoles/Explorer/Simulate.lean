import PgRoles.Core.Visual
import PgRoles.Explorer.ApplyChange
import PgRoles.Explorer.Findings

/-!
# The simulation of a plan

The explorer runs a plan phase by phase over the simulated graph and the facts, and keeps what the
executor reaches at hand. It is computed anew only after a change that can alter it. The decision is
a list of kinds of changes, apart from the interpreter of changes and from the tracking of the
executor's attributes; what it leaves out changes neither the set of roles nor the facts nor the
superuser attribute (`sameReach_applyChange`, `superuser_apply`), so the analysis is the one that
computes everything anew after every change (`simulate_whenAffected_eq_always`).
-/

set_option autoImplicit false

namespace PgRoles.Explorer

open Std PgRoles.Lib PgRoles.Core

/-! ## The analysis of a plan -/

/-- Whether the executor can reach a role. -/
structure RoleReachability where
  role : String
  status : ReachabilityStatus
  deriving DecidableEq, Repr

/-- A phase with its changes, and what the executor reaches before it. -/
structure PhaseAnalysis where
  phase : PlanPhase
  changes : List Change
  executorReachability : List RoleReachability
  executorUsage : List RoleReachability
  deriving DecidableEq

/-- The phases of a plan, what they could not prove, and the drawing of the outcome. -/
structure PlanAnalysis where
  phases : List PhaseAnalysis
  findings : List AuthorityFinding
  visual : VisualGraph
  deriving DecidableEq

/-- What an analysis is told about its facts and the server. -/
structure PlanAnalysisOptions where
  /-- Whether what the facts do not show is not there. -/
  authorityGraphComplete : Bool
  pgMajorVersion : Nat

/-- When the simulation recomputes what the executor reaches. -/
inductive Recompute where
  | whenAffected
  | always
  deriving DecidableEq, Repr

/-- The state of a simulation between two changes. -/
structure Simulation where
  current : Simulated
  attributes : ExecutorAttributes
  currentReachability : BTreeMap String ReachabilityStatus
  currentUsage : BTreeMap String ReachabilityStatus
  findings : Findings := {}
  globalChangeIndex : Nat := 0
  computations : Nat

section Simulate

variable (executor : ExecutorFacts) (options : PlanAnalysisOptions)

/-- The roles that the executor can assume with SET ROLE. -/
def setReach (current : Simulated) (attributes : ExecutorAttributes) :
    BTreeMap String ReachabilityStatus :=
  reachability current.graph current.setRole executor.role attributes.superuser
    options.authorityGraphComplete

/-- The roles whose privileges the executor has. -/
def usageReach (current : Simulated) (attributes : ExecutorAttributes) :
    BTreeMap String ReachabilityStatus :=
  reachability current.graph current.usage executor.role attributes.superuser
    options.authorityGraphComplete

/-- What the executor may do at this point. -/
def Simulation.authority (s : Simulation) : AuthorityState where
  graph := s.current.graph
  setReachable := s.currentReachability
  usageReachable := s.currentUsage
  adminOptions := s.current.adminOptions
  isSuperuser := s.attributes.superuser
  createrole := s.attributes.createrole
  authorityGraphComplete := options.authorityGraphComplete
  pgMajorVersion := options.pgMajorVersion

/-- Compute what the executor reaches in the current state. -/
def Simulation.recomputed (s : Simulation) : Simulation :=
  { s with
    currentReachability := setReach executor options s.current s.attributes
    currentUsage := usageReach executor options s.current s.attributes
    computations := s.computations + 2 }

/-- Analyze a change against the state before it and apply it, with the reach of before. -/
def Simulation.advance (phase : PlanPhase) (s : Simulation) (change : Change) : Simulation :=
  { s with
    findings := analyzeRequiredAuthority change phase s.globalChangeIndex (s.authority options)
      s.findings
    current := applyChange executor options.pgMajorVersion s.current change
    attributes := s.attributes.apply executor change
    globalChangeIndex := s.globalChangeIndex + 1 }

/-- One change of the plan. -/
def simulateChange (recompute : Recompute) (phase : PlanPhase) (s : Simulation) (change : Change) :
    Simulation :=
  let s := s.advance executor options phase change
  if recompute ≠ .whenAffected ∨ affectsReachability change = true then
    s.recomputed executor options
  else s

/-- The role that a change drops. -/
def droppedRole? : Change → Option String
  | .dropRole name => some name
  | _ => none

/-- A reachability map as a list, by role. -/
def reachabilityList (statuses : BTreeMap String ReachabilityStatus) : List RoleReachability :=
  statuses.toList.map fun e => ⟨e.1, e.2⟩

/-- Report what a phase did to the executor's reach. -/
def Simulation.comparePhase (phase : PlanPhase) (changes : List Change)
    (before : BTreeMap String ReachabilityStatus) (s : Simulation) : Simulation :=
  { s with
    findings := compareReachability phase before s.currentUsage
      (ExtTreeSet.ofList (changes.filterMap droppedRole?) compare) options.authorityGraphComplete
      s.findings }

/-- One phase of the plan. -/
def simulatePhase (recompute : Recompute) (s : Simulation × List PhaseAnalysis)
    (group : PlanPhase × List Change) : Simulation × List PhaseAnalysis :=
  let after := (group.2.foldl (simulateChange executor options recompute group.1) s.1).comparePhase
    options group.1 group.2 s.1.currentUsage
  (after, s.2 ++ [
    { phase := group.1
      changes := group.2
      executorReachability := reachabilityList after.currentReachability
      executorUsage := reachabilityList after.currentUsage }])

/-- The simulation before the first change. -/
def initialSimulation (graph : RoleGraph) : Simulation :=
  let current := initialEdgeFacts graph executor options.pgMajorVersion
  let attributes := ExecutorAttributes.initial graph executor
  { current := current
    attributes := attributes
    currentReachability := setReach executor options current attributes
    currentUsage := usageReach executor options current attributes
    computations := 2 }

/-- Simulate the plan phase by phase: the analysis, and how many reachability computations it
took. -/
def simulate (graph : RoleGraph) (changes : List Change) (recompute : Recompute) :
    PlanAnalysis × Nat :=
  let s := (groupedPhases changes).foldl (simulatePhase executor options recompute)
    (initialSimulation executor options graph, [])
  ({ phases := s.2
     findings := finishPreflightFindings s.1.findings
     visual := buildVisualGraph s.1.current.graph .desired }, s.1.computations)

end Simulate

/-! ## Changes that keep the reach -/

/-- Two states have the same roles and the same facts about paths. -/
structure SameReach (s t : Simulated) : Prop where
  roles : s.graph.roles.keys = t.graph.roles.keys
  setRole : s.setRole = t.setRole
  usage : s.usage = t.usage

theorem keys_alter_map {V : Type} (m : BTreeMap String V) (k : String) (f : V → V) :
    (m.alter k (Option.map f)).keys = m.keys := by
  apply eq_of_sorted_of_mem_iff ExtTreeMap.ordered_keys ExtTreeMap.ordered_keys
  intro a
  rw [ExtTreeMap.mem_keys, ExtTreeMap.mem_keys, mem_iff_exists_getElem?, mem_iff_exists_getElem?,
    getElem?_alter_eq]
  split_ifs
  · cases m[a]? <;> simp
  · rfl

section Reach

variable {executor : ExecutorFacts} {options : PlanAnalysisOptions} {change : Change}

theorem reachability_eq_of_keys {g g' : RoleGraph} (h : g.roles.keys = g'.roles.keys)
    (facts : EdgeFacts) (executorRole : String) (superuser complete : Bool) :
    reachability g facts executorRole superuser complete =
      reachability g' facts executorRole superuser complete := by
  have hall : allRoles g facts executorRole = allRoles g' facts executorRole := by
    rw [allRoles, allRoles, h]
  rw [reachability, reachability, hall]

/-- A change that is left out touches neither the set of roles nor the facts about paths. -/
theorem sameReach_applyChange (executor : ExecutorFacts) (pgMajorVersion : Nat) (s : Simulated)
    (h : affectsReachability change = false) :
    SameReach (applyChange executor pgMajorVersion s change) s := by
  cases change with
  | createRole | dropRole | updateMemberOptions | addMember | removeMember => cases h
  | alterRole name attributes => exact ⟨keys_alter_map _ _ _, rfl, rfl⟩
  | setComment name comment => exact ⟨keys_alter_map _ _ _, rfl, rfl⟩
  | _ => exact ⟨rfl, rfl, rfl⟩

theorem superuser_applyAttribute (attributes : ExecutorAttributes) {a : RoleAttribute}
    (h : RoleAttribute.affectsReachability a = false) :
    (attributes.applyAttribute a).superuser = attributes.superuser := by
  cases a with
  | superuser value => cases h
  | _ => rfl

theorem superuser_foldl_applyAttribute {l : List RoleAttribute} (attributes : ExecutorAttributes)
    (h : l.any RoleAttribute.affectsReachability = false) :
    (l.foldl ExecutorAttributes.applyAttribute attributes).superuser = attributes.superuser := by
  induction l generalizing attributes with
  | nil => rfl
  | cons a l ih =>
      rw [List.any_cons, Bool.or_eq_false_iff] at h
      rw [List.foldl_cons, ih _ h.2, superuser_applyAttribute attributes h.1]

/-- Nor does it touch the executor's superuser attribute. -/
theorem superuser_apply (attributes : ExecutorAttributes)
    (h : affectsReachability change = false) :
    (attributes.apply executor change).superuser = attributes.superuser := by
  cases change with
  | alterRole name l =>
      rw [ExecutorAttributes.apply]
      split_ifs
      · exact superuser_foldl_applyAttribute attributes h
      · rfl
  | _ => rfl

end Reach

/-! ## Runs -/

/-- The reach at hand is that of the current state. -/
structure Simulation.UpToDate (executor : ExecutorFacts) (options : PlanAnalysisOptions)
    (s : Simulation) : Prop where
  reachability : s.currentReachability = setReach executor options s.current s.attributes
  usage : s.currentUsage = usageReach executor options s.current s.attributes

/-- Two simulations differ in the number of computations at most. -/
def SameAnalysis (s t : Simulation) : Prop := ∃ n, t = { s with computations := n }

section Runs

variable {executor : ExecutorFacts} {options : PlanAnalysisOptions} {s t : Simulation}

theorem upToDate_initialSimulation (graph : RoleGraph) :
    (initialSimulation executor options graph).UpToDate executor options :=
  ⟨rfl, rfl⟩

/-- After a change that is left out, what was at hand is still right. -/
theorem upToDate_advance {change : Change} (hs : s.UpToDate executor options) (phase : PlanPhase)
    (h : affectsReachability change = false) :
    (s.advance executor options phase change).UpToDate executor options := by
  have hsame := sameReach_applyChange executor options.pgMajorVersion s.current h
  have hsuper : (s.attributes.apply executor change).superuser = s.attributes.superuser :=
    superuser_apply s.attributes h
  constructor
  · rw [Simulation.advance, hs.reachability, setReach, setReach, hsame.setRole, hsuper]
    exact (reachability_eq_of_keys hsame.roles _ _ _ _).symm
  · rw [Simulation.advance, hs.usage, usageReach, usageReach, hsame.usage, hsuper]
    exact (reachability_eq_of_keys hsame.roles _ _ _ _).symm

/-- To compute again what is up to date changes the count alone. -/
theorem Simulation.UpToDate.recomputed (hs : s.UpToDate executor options) :
    s.recomputed executor options = { s with computations := s.computations + 2 } := by
  rw [Simulation.recomputed, ← hs.reachability, ← hs.usage]

/-- One change: the reach at hand stays up to date, and the two simulations stay the same. -/
theorem simulateChange_step (hs : s.UpToDate executor options) (h : SameAnalysis s t)
    (phase : PlanPhase) (change : Change) :
    (simulateChange executor options .whenAffected phase s change).UpToDate executor options ∧
      SameAnalysis (simulateChange executor options .whenAffected phase s change)
        (simulateChange executor options .always phase t change) := by
  obtain ⟨n, rfl⟩ := h
  have halways : simulateChange executor options .always phase { s with computations := n } change =
      { (s.advance executor options phase change).recomputed executor options with
        computations := n + 2 } := by
    rw [simulateChange, if_pos (Or.inl (by decide))]
    rfl
  rw [halways]
  cases haffects : affectsReachability change with
  | true =>
      rw [simulateChange, if_pos (Or.inr haffects)]
      exact ⟨⟨rfl, rfl⟩, n + 2, rfl⟩
  | false =>
      have hskip : simulateChange executor options .whenAffected phase s change =
          s.advance executor options phase change := by
        rw [simulateChange, if_neg (by simp [haffects])]
      have hup := upToDate_advance hs phase haffects
      rw [hskip, hup.recomputed]
      exact ⟨hup, n + 2, rfl⟩

theorem foldl_simulateChange (changes : List Change) (hs : s.UpToDate executor options)
    (h : SameAnalysis s t) (phase : PlanPhase) :
    (changes.foldl (simulateChange executor options .whenAffected phase) s).UpToDate executor
        options ∧
      SameAnalysis (changes.foldl (simulateChange executor options .whenAffected phase) s)
        (changes.foldl (simulateChange executor options .always phase) t) := by
  induction changes generalizing s t with
  | nil => exact ⟨hs, h⟩
  | cons change changes ih =>
      obtain ⟨hup, hsame⟩ := simulateChange_step hs h phase change
      exact ih hup hsame

/-- One phase: the simulations stay the same, and the phases they report are the same. -/
theorem simulatePhase_step (phases : List PhaseAnalysis) (hs : s.UpToDate executor options)
    (h : SameAnalysis s t) (group : PlanPhase × List Change) :
    (simulatePhase executor options .whenAffected (s, phases) group).1.UpToDate executor options ∧
      SameAnalysis (simulatePhase executor options .whenAffected (s, phases) group).1
        (simulatePhase executor options .always (t, phases) group).1 ∧
      (simulatePhase executor options .whenAffected (s, phases) group).2 =
        (simulatePhase executor options .always (t, phases) group).2 := by
  obtain ⟨hup, n, hsame⟩ := foldl_simulateChange group.2 hs h group.1
  obtain ⟨k, rfl⟩ := h
  refine ⟨⟨hup.reachability, hup.usage⟩, ⟨n, ?_⟩, ?_⟩
  · simp only [simulatePhase, hsame]
    rfl
  · simp only [simulatePhase, hsame]
    rfl

theorem foldl_simulatePhase (groups : List (PlanPhase × List Change))
    (phases : List PhaseAnalysis) (hs : s.UpToDate executor options) (h : SameAnalysis s t) :
    SameAnalysis (groups.foldl (simulatePhase executor options .whenAffected) (s, phases)).1
        (groups.foldl (simulatePhase executor options .always) (t, phases)).1 ∧
      (groups.foldl (simulatePhase executor options .whenAffected) (s, phases)).2 =
        (groups.foldl (simulatePhase executor options .always) (t, phases)).2 := by
  induction groups generalizing s t phases with
  | nil => exact ⟨h, rfl⟩
  | cons group groups ih =>
      obtain ⟨hup, hsame, hphases⟩ := simulatePhase_step phases hs h group
      have hrest := ih (simulatePhase executor options .whenAffected (s, phases) group).2 hup hsame
      have hpair : simulatePhase executor options .whenAffected (s, phases) group =
          ((simulatePhase executor options .whenAffected (s, phases) group).1,
            (simulatePhase executor options .always (t, phases) group).2) :=
        Prod.ext rfl hphases
      rw [hphases] at hrest
      rw [List.foldl_cons, List.foldl_cons, hpair]
      exact hrest

end Runs

/-- For every graph, every list of changes in any order, all executor facts and all options, the
simulation that recomputes the reach only when a change is said to affect it reports what the one
reports that recomputes it after every change. -/
theorem simulate_whenAffected_eq_always (graph : RoleGraph) (changes : List Change)
    (executor : ExecutorFacts) (options : PlanAnalysisOptions) :
    (simulate executor options graph changes .whenAffected).1 =
      (simulate executor options graph changes .always).1 := by
  have hstart : SameAnalysis (initialSimulation executor options graph)
      (initialSimulation executor options graph) := ⟨2, rfl⟩
  obtain ⟨⟨n, hsame⟩, hphases⟩ := foldl_simulatePhase (groupedPhases changes) []
    (upToDate_initialSimulation graph) hstart
  simp only [simulate]
  rw [hphases, hsame]

end PgRoles.Explorer

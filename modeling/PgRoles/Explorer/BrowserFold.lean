import PgRoles.Explorer.ReviewRoundTrip
import PgRoles.Lib.ByteOrder
import PgRoles.Lib.InsertionMap

/-!
# The browser's fold of a recorded review

The documentation site rebuilds the reachability after each phase of a recorded review with a fold of
its own, over the parsed artifact and in dictionaries that keep the order of insertion, and shows the
entries sorted by the bytes of the role names. It gives the states that the reader of the command
line gives and stops at the phase where that reader stops
(`foldRecordedPhaseReachability_write`). The reader's checks decide before anything is removed what
the command line finds on the way (`foldDelta_write`).
-/

set_option autoImplicit false

namespace PgRoles.Explorer

open Std PgRoles.Lib PgRoles.Core

/-! ## The fold -/

/-- Rust orders role names by their UTF-8 bytes, JavaScript by UTF-16 units. -/
def compareUtf8 (left right : String) : Int :=
  compareBytes (textBytes left.toList) (textBytes right.toList)

/-- Every role but the first follows the one before it. -/
def strictlyAscending (roles : List String) : Bool :=
  (roles.zip roles.tail).all fun pair => compareUtf8 pair.1 pair.2 < 0

/-- The values that a status may have. -/
def reachabilityStatuses : List ReviewReachabilityStatus := [.reachable, .unreachable, .unknown]

/-- An entry of `changed`: a role with its status. -/
def readChangedEntry (entry : Json) : Option ReviewReachability := do
  let role ← (entry.field? "role").bind decodeText
  let status ← (entry.field? "status").bind
    (decodeEnum reachabilityStatuses ReviewReachabilityStatus.name)
  return ⟨role, status⟩

/-- A delta has its two lists and every item of them has its form. -/
def readDelta (delta : Json) : Option ReviewReachabilityDelta := do
  let changed ← (delta.field? "changed").bind (decodeList readChangedEntry)
  let removed ← (delta.field? "removed").bind (decodeList decodeText)
  return ⟨changed, removed⟩

/-- The map of the page, which keeps its entries in the order they came. -/
abbrev BrowserState := InsertionMap String ReviewReachabilityStatus

/-- The checks of the page on a delta: sorted lists, no role in both, and only entries that change
something. -/
def deltaMalformed (state : BrowserState) (delta : ReviewReachabilityDelta) : Bool :=
  (!strictlyAscending (delta.changed.map (·.role)) || !strictlyAscending delta.removed) ||
    (delta.removed.any fun role => (delta.changed.map (·.role)).contains role || !state.has role) ||
    delta.changed.any fun entry => state.get entry.role == some entry.status

/-- No state when the delta is absent or malformed. -/
def foldDelta (state : BrowserState) (delta : Option Json) : Option BrowserState := do
  let delta ← delta.bind readDelta
  if deltaMalformed state delta then none
  else
    let next := delta.removed.foldl InsertionMap.delete state
    some (delta.changed.foldl (fun next entry => next.set entry.role entry.status) next)

/-- The entries as the page shows them, by the UTF-8 order of the roles. -/
def sortedEntries (state : BrowserState) : List ReviewReachability :=
  (state.entries.mergeSort fun left right => compareUtf8 left.1 right.1 ≤ 0).map fun e => ⟨e.1, e.2⟩

/-- A phase with its reachability written out. -/
structure FoldedPhase where
  executorReachability : List ReviewReachability
  executorUsage : List ReviewReachability
  deriving DecidableEq

/-- The error of a malformed delta, with the phase counted from one. -/
def malformedPhase (index : Nat) : String :=
  "review artifact phase " ++ toString (index + 1) ++ " reachability delta is malformed"

/-- The phases from an index on, folded until a delta is malformed. -/
def foldRecordedPhasesFrom (index : Nat) (reachability usage : BrowserState) :
    List Json → Except String (List FoldedPhase)
  | [] => .ok []
  | phase :: rest =>
      match foldDelta reachability (phase.field? "executor_reachability_delta"),
          foldDelta usage (phase.field? "executor_usage_delta") with
      | some reachability, some usage =>
          (foldRecordedPhasesFrom (index + 1) reachability usage rest).map fun folded =>
            ⟨sortedEntries reachability, sortedEntries usage⟩ :: folded
      | _, _ => .error (malformedPhase index)

/-- Rebuilds each phase's full reachability from the recorded deltas, from the empty state on. -/
def foldRecordedPhaseReachability (phases : List Json) : Except String (List FoldedPhase) :=
  foldRecordedPhasesFrom 0 .empty .empty phases

/-! ## The order -/

theorem compareUtf8_lt_iff {left right : String} :
    compareUtf8 left right < 0 ↔ compare left right = .lt := compareBytes_textBytes_lt_iff

theorem compareUtf8_le_iff {left right : String} :
    compareUtf8 left right ≤ 0 ↔ compare left right ≠ .gt := by
  have hswap : compareUtf8 left right ≤ 0 ↔ ¬ compareUtf8 right left < 0 := by
    unfold compareUtf8
    rw [compareBytes_swap]
    omega
  rw [hswap, compareUtf8_lt_iff, @OrientedCmp.eq_swap _ compare _ right, ne_eq]
  cases compare left right <;> simp

theorem strictlyAscending_eq (roles : List String) :
    strictlyAscending roles = strictlySorted roles := by
  induction roles with
  | nil => rfl
  | cons role roles ih =>
      cases roles with
      | nil => rfl
      | cons next roles =>
          have hfirst : decide (compareUtf8 role next < 0) = (compare role next == .lt) := by
            rw [Bool.eq_iff_iff, decide_eq_true_eq, compareUtf8_lt_iff, beq_iff_eq]
          rw [strictlySorted, ← ih, ← hfirst]
          rfl

theorem sortedEntries_eq (state : BrowserState) :
    sortedEntries state = state.toOrdered.toList.map fun e => ⟨e.1, e.2⟩ := by
  unfold sortedEntries
  rw [state.mergeSort_entries]
  intro a b
  rw [decide_eq_true_eq, compareUtf8_le_iff]

/-! ## One delta -/

theorem readChangedEntry_write (entry : ReviewReachability) :
    readChangedEntry (ReviewReachability.codec.write entry) = some entry := by
  obtain ⟨role, status⟩ := entry
  cases status <;> rfl

theorem readDelta_write (delta : ReviewReachabilityDelta) :
    readDelta (ReviewReachabilityDelta.codec.write delta) = some delta := by
  obtain ⟨changed, removed⟩ := delta
  have hchanged : decodeList readChangedEntry (.arr (changed.map ReviewReachability.codec.write)) =
      some changed := mapM_eq_some_of_forall fun entry _ => readChangedEntry_write entry
  have hremoved : decodeList decodeText (.arr (removed.map Json.str)) = some removed :=
    mapM_eq_some_of_forall fun _ _ => rfl
  change ((decodeList readChangedEntry (.arr (changed.map ReviewReachability.codec.write))).bind
    fun changed => (decodeList decodeText (.arr (removed.map Json.str))).bind fun removed =>
      some (⟨changed, removed⟩ : ReviewReachabilityDelta)) = _
  rw [hchanged, hremoved]
  rfl

/-- The checks before the loops decide whether the loops succeed. -/
theorem deltaMalformed_eq_false_iff {state : BrowserState} {delta : ReviewReachabilityDelta} :
    deltaMalformed state delta = false ↔
      ∃ after, applyDelta state.toOrdered delta.toDelta = .ok after := by
  have hroles : delta.toDelta.changed.map Prod.fst = delta.changed.map (·.role) := by
    rw [ReviewReachabilityDelta.toDelta, List.map_map]
    rfl
  rw [exists_applyDelta_iff, hroles]
  simp only [deltaMalformed, Bool.or_eq_false_iff, Bool.not_eq_false', strictlyAscending_eq,
    List.any_eq_false, Bool.or_eq_true, Bool.not_eq_true', beq_iff_eq, state.has_eq, state.get_eq,
    decide_eq_false_iff_not, List.contains_iff_mem, not_or, not_not, ReviewReachabilityDelta.toDelta,
    List.forall_mem_map, and_assoc]
  -- a role is listed in both lists exactly when a removed one is changed, or a changed one removed
  constructor
  · rintro ⟨hchanged, hremoved, hall, hall'⟩
    refine ⟨hchanged, hremoved, fun k hk => (hall k hk).2, fun e he => ⟨fun hk => ?_, hall' e he⟩⟩
    exact (hall e.role hk).1 (List.mem_map_of_mem he)
  · rintro ⟨hchanged, hremoved, hall, hall'⟩
    refine ⟨hchanged, hremoved, fun k hk => ⟨fun hmem => ?_, hall k hk⟩, fun e he => (hall' e he).2⟩
    obtain ⟨e, he, rfl⟩ := List.mem_map.1 hmem
    exact (hall' e he).1 hk

/-- A recorded delta is folded as the reader applies it. -/
theorem foldDelta_write (state : BrowserState) (delta : ReviewReachabilityDelta) :
    (foldDelta state (some (ReviewReachabilityDelta.codec.write delta))).map
        InsertionMap.toOrdered =
      (applyDelta state.toOrdered delta.toDelta).toOption := by
  have hread : foldDelta state (some (ReviewReachabilityDelta.codec.write delta)) =
      if deltaMalformed state delta then none
      else some (delta.changed.foldl (fun next entry => next.set entry.role entry.status)
        (delta.removed.foldl InsertionMap.delete state)) := by
    unfold foldDelta
    rw [Option.bind_some, readDelta_write]
    rfl
  rw [hread]
  cases happly : applyDelta state.toOrdered delta.toDelta with
  | ok after =>
      have hfalse := deltaMalformed_eq_false_iff.2 ⟨after, happly⟩
      have hentries : delta.changed.foldl (fun next entry => next.set entry.role entry.status)
          (delta.removed.foldl InsertionMap.delete state) =
          delta.toDelta.changed.foldl (fun next e => next.set e.1 e.2)
            (delta.removed.foldl InsertionMap.delete state) := by
        rw [ReviewReachabilityDelta.toDelta, List.foldl_map]
      rw [hfalse, if_neg Bool.false_ne_true, Option.map_some, hentries,
        InsertionMap.toOrdered_foldl_set, InsertionMap.toOrdered_foldl_delete,
        eq_of_applyDelta happly]
      rfl
  | error fault =>
      have htrue : deltaMalformed state delta = true := by
        by_contra hnot
        obtain ⟨after, hok⟩ := deltaMalformed_eq_false_iff.1 (Bool.eq_false_iff.2 hnot)
        rw [happly] at hok
        cases hok
      rw [htrue, if_pos rfl]
      rfl

/-- The browser folds a recorded delta to the state of the reader, or both refuse it. -/
theorem foldDelta_cases (state : BrowserState) (delta : ReviewReachabilityDelta) (phase : Nat) :
    (∃ next, foldDelta state (some (ReviewReachabilityDelta.codec.write delta)) = some next ∧
        applyReachabilityDelta state.toOrdered delta phase = .ok next.toOrdered) ∨
      foldDelta state (some (ReviewReachabilityDelta.codec.write delta)) = none ∧
        ∃ reason, applyReachabilityDelta state.toOrdered delta phase =
          .error (.invalidReachabilityDelta phase reason) := by
  have hfold := foldDelta_write state delta
  unfold applyReachabilityDelta
  cases happly : applyDelta state.toOrdered delta.toDelta with
  | ok after =>
      rw [happly] at hfold
      obtain ⟨next, hnext, hafter⟩ := Option.map_eq_some_iff.1 hfold
      exact .inl ⟨next, hnext, congrArg Except.ok hafter.symm⟩
  | error fault =>
      rw [happly] at hfold
      exact .inr ⟨Option.map_eq_none_iff.1 hfold, deltaReason fault, rfl⟩

/-! ## All phases -/

/-- What the browser shows of a state. -/
def PhaseReachability.folded (state : PhaseReachability) : FoldedPhase where
  executorReachability := state.executorReachability.toList.map fun e => ⟨e.1, e.2⟩
  executorUsage := state.executorUsage.toList.map fun e => ⟨e.1, e.2⟩

/-- The browser's fold follows the reader's, from states of the same entries on. -/
theorem foldRecordedPhasesFrom_write (phases : List RecordedPhase) (index : Nat)
    (reachability usage : BrowserState) :
    (∀ states, phaseReachabilityFrom index ⟨reachability.toOrdered, usage.toOrdered⟩ phases =
        .ok states →
      foldRecordedPhasesFrom index reachability usage (phases.map RecordedPhase.codec.write) =
        .ok (states.map PhaseReachability.folded)) ∧
    (∀ error, phaseReachabilityFrom index ⟨reachability.toOrdered, usage.toOrdered⟩ phases =
        .error error →
      ∃ phase reason, error = .invalidReachabilityDelta phase reason ∧
        foldRecordedPhasesFrom index reachability usage (phases.map RecordedPhase.codec.write) =
          .error (malformedPhase phase)) := by
  induction phases generalizing index reachability usage with
  | nil =>
      refine ⟨fun states h => ?_, fun error h => ?_⟩
      · cases h
        rfl
      · cases h
  | cons recorded phases ih =>
      have hstep : foldRecordedPhasesFrom index reachability usage
          ((recorded :: phases).map RecordedPhase.codec.write) =
          match foldDelta reachability (some (ReviewReachabilityDelta.codec.write
              recorded.executorReachabilityDelta)),
            foldDelta usage (some (ReviewReachabilityDelta.codec.write
              recorded.executorUsageDelta)) with
          | some reachability, some usage =>
              (foldRecordedPhasesFrom (index + 1) reachability usage
                (phases.map RecordedPhase.codec.write)).map fun folded =>
                ⟨sortedEntries reachability, sortedEntries usage⟩ :: folded
          | _, _ => .error (malformedPhase index) := rfl
      rw [hstep, phaseReachabilityFrom]
      rcases foldDelta_cases reachability recorded.executorReachabilityDelta index with
        ⟨reach, hreach, happly⟩ | ⟨hreach, reason, happly⟩
      · rcases foldDelta_cases usage recorded.executorUsageDelta index with
          ⟨used, hused, happly'⟩ | ⟨hused, reason, happly'⟩
        · obtain ⟨hok, herror⟩ := ih (index + 1) reach used
          rw [hreach, hused, happly, happly']
          simp only [bind, Except.bind, pure, Except.pure]
          refine ⟨fun states h => ?_, fun error h => ?_⟩
          · cases hrest : phaseReachabilityFrom (index + 1) ⟨reach.toOrdered, used.toOrdered⟩ phases
                with
            | ok rest =>
                rw [hrest] at h
                cases h
                rw [hok rest hrest, sortedEntries_eq, sortedEntries_eq]
                rfl
            | error error => rw [hrest] at h; cases h
          · cases hrest : phaseReachabilityFrom (index + 1) ⟨reach.toOrdered, used.toOrdered⟩ phases
                with
            | ok rest => rw [hrest] at h; cases h
            | error error' =>
                rw [hrest] at h
                cases h
                obtain ⟨phase, reason, hphase, hrefused⟩ := herror _ hrest
                exact ⟨phase, reason, hphase, by rw [hrefused]; rfl⟩
        · rw [hreach, hused, happly, happly']
          refine ⟨fun states h => (by cases h), fun error h => ?_⟩
          cases h
          exact ⟨index, reason, rfl, rfl⟩
      · rw [hreach, happly]
        refine ⟨fun states h => (by cases h), fun error h => ?_⟩
        cases h
        exact ⟨index, reason, rfl, rfl⟩

/-- The browser's fold of a recorded review gives the states of the command line's reader, as sorted
entries, and refuses at the phase where the reader refuses. -/
theorem foldRecordedPhaseReachability_write (phases : List RecordedPhase) :
    (∀ states, phaseReachability phases = .ok states →
      foldRecordedPhaseReachability (phases.map RecordedPhase.codec.write) =
        .ok (states.map PhaseReachability.folded)) ∧
    (∀ error, phaseReachability phases = .error error →
      ∃ phase reason, error = .invalidReachabilityDelta phase reason ∧
        foldRecordedPhaseReachability (phases.map RecordedPhase.codec.write) =
          .error (malformedPhase phase)) :=
  foldRecordedPhasesFrom_write phases 0 .empty .empty

end PgRoles.Explorer

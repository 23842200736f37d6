import PgRoles.Core.Approval
import PgRoles.Explorer.Reachability

/-!
# Findings about a simulated plan

Before each change is applied, the explorer says what authority the change needs and whether the
executor has it; after each phase it says whose reach changed. Operations that only the database can
judge are counted by phase and kind of change and worded at the end.
-/

set_option autoImplicit false

namespace PgRoles.Explorer

open Std PgRoles.Lib PgRoles.Core

/-! ## Phases -/

/-- The phases that a plan runs in. -/
inductive PlanPhase where
  | create
  | alter
  | grant
  | membershipRemove
  | membershipAdd
  | revoke
  | defaultPrivilegeRevoke
  | retire
  deriving DecidableEq, Repr

/-- The order of the phases. -/
def PlanPhase.rank : PlanPhase → Nat
  | .create => 0
  | .alter => 1
  | .grant => 2
  | .membershipRemove => 3
  | .membershipAdd => 4
  | .revoke => 5
  | .defaultPrivilegeRevoke => 6
  | .retire => 7

theorem PlanPhase.rank_injective : Function.Injective PlanPhase.rank := by
  intro a b h
  cases a <;> cases b <;> first | rfl | exact absurd h (by decide)

instance : Ord PlanPhase := ordOn PlanPhase.rank
instance : TransOrd PlanPhase := transOrd_ordOn _
instance : LawfulEqOrd PlanPhase := lawfulEqOrd_ordOn _ PlanPhase.rank_injective

/-- The phase of a change. -/
def phaseFor : Change → PlanPhase
  | .createRole .. | .createSchema .. => .create
  | .alterRole .. | .setComment .. | .alterSchemaOwner .. | .ensureSchemaOwnerPrivileges ..
  | .setPassword .. => .alter
  | .grant .. | .setDefaultPrivilege .. => .grant
  | .updateMemberOptions _ _ _ inherit admin _ =>
      if inherit = some false ∨ admin = some false then .membershipRemove else .membershipAdd
  | .removeMember .. => .membershipRemove
  | .addMember .. => .membershipAdd
  | .revoke .. => .revoke
  | .revokeDefaultPrivilege .. => .defaultPrivilegeRevoke
  | .reassignOwned .. | .dropOwned .. | .terminateSessions .. | .dropRole .. => .retire

/-- Add a change to the last group when it is of its phase. -/
def pushPhase (groups : List (PlanPhase × List Change)) (change : Change) :
    List (PlanPhase × List Change) :=
  match groups.getLast? with
  | some (phase, items) =>
      if phase = phaseFor change then groups.dropLast ++ [(phase, items ++ [change])]
      else groups ++ [(phaseFor change, [change])]
  | none => [(phaseFor change, [change])]

/-- Consecutive changes of one phase, together. -/
def groupedPhases (changes : List Change) : List (PlanPhase × List Change) :=
  changes.foldl pushPhase []

/-! ## Findings -/

/-- How serious a finding is. -/
inductive FindingSeverity where
  | info
  | warning
  | error
  deriving DecidableEq, Repr

/-- What a finding is about. -/
inductive FindingKind where
  | requiredRoleUnavailable
  | requiredRoleReachabilityUnknown
  | executorLosesAccess
  | membershipDisconnectsRole
  | roleBecomesReachable
  | databasePreflightRequired
  | superuserRequired
  | ownershipTransferChangesGrantor
  deriving DecidableEq, Repr

/-- A finding, and where in the plan it was made. -/
structure AuthorityFinding where
  kind : FindingKind
  severity : FindingSeverity
  message : String
  phase : Option PlanPhase := none
  changeIndex : Option Nat := none
  role : Option String := none
  /-- Every change that an aggregated finding covers, in plan order. -/
  changeIndices : List Nat := []
  deriving DecidableEq, Repr

/-- The positions of aggregated findings, by phase and kind of change. -/
abbrev PreflightIndex := BTreeMap (PlanPhase × String) Nat

/-- The findings so far. -/
structure Findings where
  findings : List AuthorityFinding := []
  preflight : PreflightIndex := ∅

/-- One more finding. -/
def Findings.push (f : Findings) (finding : AuthorityFinding) : Findings :=
  { f with findings := f.findings ++ [finding] }

/-- The change's variant name, as it appears in serialized plans. -/
def changeKind (change : Change) : String := change.variant

/-! ## The authority a change needs -/

/-- The role whose authority a change acts under, what is known about reaching it, and what that is
called. -/
def requiredRole (authority : AuthorityState) :
    Change → Option (String × BTreeMap String ReachabilityStatus × String)
  | .setDefaultPrivilege key _ | .revokeDefaultPrivilege key _ =>
      some (key.owner, authority.usageReachable, "USAGE")
  | .revoke _ _ (some grantor) => some (grantor, authority.setReachable, "SET ROLE")
  | .updateMemberOptions _ _ grantor _ _ _ | .removeMember _ _ (some grantor) =>
      some (grantor, authority.usageReachable, "USAGE")
  | _ => none

/-- The finding about an owner or a grantor that is not reached for certain. -/
def requiredRoleFinding (authority : AuthorityState) (phase : PlanPhase) (index : Nat)
    (change : Change) : Option AuthorityFinding :=
  match requiredRole authority change with
  | none => none
  | some (role, reach, name) =>
      let message := "required " ++ name ++ " authority for grantor or owner role " ++ role ++ " "
      match reach[role]?.getD authority.unseen with
      | .reachable => none
      | .unknown =>
          some { kind := .requiredRoleReachabilityUnknown, severity := .warning
                 message := message ++ "is not proven for this operation"
                 phase := some phase, changeIndex := some index, role := some role }
      | .unreachable =>
          some { kind := .requiredRoleUnavailable, severity := .error
                 message := message ++ "is unavailable for this operation"
                 phase := some phase, changeIndex := some index, role := some role }

/-- The role whose membership a change grants or revokes. -/
def membershipRole? : Change → Option String
  | .addMember role _ _ _ | .updateMemberOptions role _ _ _ _ _ | .removeMember role _ _ =>
      some role
  | _ => none

/-- The change revokes one grantor's membership. -/
def namesRemovedGrantor : Change → Bool
  | .removeMember _ _ (some _) => true
  | _ => false

/-- A finding where the executor may lack the authority over a role's memberships. -/
def adminOptionFinding (authority : AuthorityState) (phase : PlanPhase) (index : Nat)
    (role : String) : Option AuthorityFinding :=
  let required :=
    if 16 ≤ authority.pgMajorVersion then "ADMIN OPTION" else "CREATEROLE or ADMIN OPTION"
  match authority.membershipAuthority role with
  | .reachable => none
  | .unknown =>
      some { kind := .requiredRoleReachabilityUnknown, severity := .warning
             message := required ++ " for role " ++ role ++
               " is not proven; database preflight is required"
             phase := some phase, changeIndex := some index, role := some role }
  | .unreachable =>
      some { kind := .requiredRoleUnavailable, severity := .error
             message :=
               if 16 ≤ authority.pgMajorVersion then
                 "ADMIN OPTION for role " ++ role ++ " is unavailable; PostgreSQL 16 and later " ++
                   "require it to change membership, and CREATEROLE alone is not sufficient"
               else "CREATEROLE or ADMIN OPTION for role " ++ role ++ " is unavailable"
             phase := some phase, changeIndex := some index, role := some role }

/-- The finding about a change of memberships: a superuser role takes a superuser, and without a
grantor that is named the ADMIN option is needed. -/
def membershipFinding (authority : AuthorityState) (phase : PlanPhase) (index : Nat)
    (change : Change) : Option AuthorityFinding :=
  (membershipRole? change).bind fun role =>
    if (authority.graph.roles[role]?).any (·.superuser) then
      some { kind := .superuserRequired, severity := .error
             message := "membership in superuser role " ++ role ++
               " can only be granted or revoked by a superuser executor"
             phase := some phase, changeIndex := some index, role := some role }
    else if namesRemovedGrantor change then none
    else adminOptionFinding authority phase index role

/-- The finding about a schema that gets another owner. -/
def ownershipFinding (authority : AuthorityState) (phase : PlanPhase) (index : Nat) :
    Change → Option AuthorityFinding
  | .alterSchemaOwner name owner =>
      let previous := (authority.graph.schemas[name]?).bind (·.owner)
      let source := previous.elim "an owner outside the snapshot" ("role " ++ ·)
      some { kind := .ownershipTransferChangesGrantor, severity := .info
             message := "schema " ++ name ++ " ownership moves from " ++ source ++ " to role " ++
               owner ++ "; " ++ owner ++ " becomes the implicit grantor for privileges on schema " ++
               name ++ ", including entries " ++ previous.getD "the previous owner" ++ " granted"
             phase := some phase, changeIndex := some index, role := some owner }
  | _ => none

/-- The change needs privileges that only the database knows about. -/
def needsPreflight : Change → Bool
  | .setDefaultPrivilege .. | .revokeDefaultPrivilege .. | .addMember .. | .updateMemberOptions ..
  | .removeMember .. => false
  | _ => true

/-- Count a change under its phase and kind. -/
def notePreflight (phase : PlanPhase) (index : Nat) (change : Change) (f : Findings) : Findings :=
  match f.preflight[(phase, changeKind change)]? with
  | some position =>
      { f with findings := f.findings.modify position fun finding =>
          { finding with changeIndices := finding.changeIndices ++ [index] } }
  | none =>
      { findings := f.findings ++ [
          { kind := .databasePreflightRequired, severity := .warning, message := ""
            phase := some phase, changeIndex := some index, changeIndices := [index] }]
        preflight := f.preflight.insert (phase, changeKind change) f.findings.length }

/-- What one change needs, against the state before it. -/
def analyzeRequiredAuthority (change : Change) (phase : PlanPhase) (index : Nat)
    (authority : AuthorityState) (f : Findings) : Findings :=
  let privileged := if authority.isSuperuser then [] else
    (requiredRoleFinding authority phase index change).toList ++
      (membershipFinding authority phase index change).toList
  let f := (privileged ++ (ownershipFinding authority phase index change).toList).foldl
    Findings.push f
  if needsPreflight change then notePreflight phase index change f else f

/-! ## What a phase does to the executor's reach -/

/-- How a change of status is reported. -/
def reachChange : ReachabilityStatus → ReachabilityStatus →
    Option (FindingKind × FindingSeverity × String)
  | .reachable, .unreachable | .reachable, .unknown =>
      some (.executorLosesAccess, .warning, "loses proven access to")
  | .unknown, .unreachable => some (.membershipDisconnectsRole, .warning, "can no longer reach")
  | .unreachable, .reachable | .unknown, .reachable =>
      some (.roleBecomesReachable, .info, "can now reach")
  | _, _ => none

/-- The finding about one role; dropping a role is not a loss of access to it. -/
def reachFinding (phase : PlanPhase) (before after : BTreeMap String ReachabilityStatus)
    (dropped : BTreeSet String) (authorityGraphComplete : Bool) (role : String) :
    Option AuthorityFinding :=
  if dropped.contains role && !after.contains role then none
  else
    (reachChange (before[role]?.getD (unseenStatus authorityGraphComplete))
      (after[role]?.getD (unseenStatus authorityGraphComplete))).map fun r =>
        { kind := r.1, severity := r.2.1, message := "executor " ++ r.2.2 ++ " role " ++ role
          phase := some phase, role := some role }

/-- The findings of one phase: for each role, how what is known of it changed. -/
def compareReachability (phase : PlanPhase) (before after : BTreeMap String ReachabilityStatus)
    (dropped : BTreeSet String) (authorityGraphComplete : Bool) (f : Findings) : Findings :=
  let roles := (ExtTreeSet.ofList (before.keys ++ after.keys) compare).toList
  (roles.filterMap (reachFinding phase before after dropped authorityGraphComplete)).foldl
    Findings.push f

/-! ## Wording -/

/-- One message for all operations of a kind that no fact settles. -/
def preflightMessage (kind : String) (count : Nat) : String :=
  if count = 1 then
    "this " ++ kind ++ " operation requires database ownership or privilege preflight"
  else
    String.ofList (Nat.toDigits 10 count) ++ " " ++ kind ++
      " operations require database ownership or privilege preflight"

/-- Word the aggregated findings once every change is counted. -/
def finishPreflightFindings (f : Findings) : List AuthorityFinding :=
  f.preflight.toList.foldl (fun findings e => findings.modify e.2 fun finding =>
    { finding with message := preflightMessage e.1.2 finding.changeIndices.length }) f.findings

end PgRoles.Explorer

import PgRoles.Core.Change
import PgRoles.Core.Graph

/-!
# What the explorer knows about its executor

The explorer simulates a plan without a database. What it cannot establish from the graph and the
executor facts it was given stays unknown: an authority fact about a membership is allowed, denied
or unknown, and an explicit fact overrides what the graph shows, while an omitted one erases
nothing.
-/

set_option autoImplicit false

namespace PgRoles.Explorer

open Std PgRoles.Lib PgRoles.Core

/-- A fact about authority: known to hold, known not to hold, or unknown. -/
inductive SetRoleCapability where
  | allowed
  | denied
  | unknown
  deriving DecidableEq, Repr

/-- What the caller knows about one membership. -/
structure ExecutorMembershipFact where
  role : String
  member : String
  setRole : SetRoleCapability := .unknown
  /-- Whether privileges flow through the membership. -/
  inherit : SetRoleCapability := .unknown
  adminOption : SetRoleCapability := .unknown

/-- What the caller knows about the role that executes the plan. -/
structure ExecutorFacts where
  role : String
  /-- True wins over the graph; false defers to the attribute in the graph. -/
  superuser : Bool := false
  /-- A known fact wins over the graph; consulted before PostgreSQL 16 alone. -/
  createrole : SetRoleCapability := .unknown
  memberships : List ExecutorMembershipFact := []
  /-- The SET option that new memberships get. -/
  newMembershipSetRole : SetRoleCapability := .unknown
  /-- The authority over the roles that the plan creates. -/
  newRoleSetRole : SetRoleCapability := .unknown
  newRoleInherit : SetRoleCapability := .unknown
  newRoleAdminOption : SetRoleCapability := .unknown

/-- Facts about memberships, keyed by (granted role, member). -/
abbrev EdgeFacts := BTreeMap (String × String) SetRoleCapability

/-- A capability that is known. -/
def capability (value : Bool) : SetRoleCapability := if value then .allowed else .denied

/-- The SET ROLE fact of a membership without a known option. From PostgreSQL 16 on it proves
nothing; before, there is no option and every membership permits SET ROLE. -/
def membershipSetRoleDefault (pgMajorVersion : Nat) : SetRoleCapability :=
  if 16 ≤ pgMajorVersion then .unknown else .allowed

/-- Record a fact; an unknown one never erases what is known. -/
def mergeFact (facts : EdgeFacts) (key : String × String) (value : SetRoleCapability) :
    EdgeFacts :=
  if value = .unknown then
    if facts.contains key then facts else facts.insert key .unknown
  else facts.insert key value

/-- The SET ROLE, USAGE and ADMIN facts beside the graph they are about. -/
structure Simulated where
  graph : RoleGraph
  setRole : EdgeFacts := ∅
  usage : EdgeFacts := ∅
  adminOptions : EdgeFacts := ∅

/-- What the graph shows about the SET option of a membership. -/
def inspectedSet (graph : RoleGraph) (default : SetRoleCapability) (edge : MembershipEdge) :
    SetRoleCapability :=
  match graph.completeMembershipOptions edge.role edge.member with
  | some options => capability (options.toList.any (·.2.set))
  | none => default

/-- An option fact of a pair applies if any of its edges carries the option. -/
def noteOption (facts : EdgeFacts) (key : String × String) (carried : Bool) : EdgeFacts :=
  if carried then facts.insert key .allowed
  else if facts.contains key then facts else facts.insert key .denied

/-- Take in the facts of one edge of the graph. -/
def noteEdge (default : SetRoleCapability) (s : Simulated) (edge : MembershipEdge) : Simulated :=
  { s with
    setRole := s.setRole.insert edge.pair (inspectedSet s.graph default edge)
    usage := noteOption s.usage edge.pair edge.inherit
    adminOptions := noteOption s.adminOptions edge.pair edge.admin }

/-- Take in an executor fact. It says that the membership exists, so an unknown SET option is what
a membership proves on this version. -/
def noteFact (default : SetRoleCapability) (s : Simulated) (fact : ExecutorMembershipFact) :
    Simulated :=
  let key := (fact.role, fact.member)
  { s with
    setRole := mergeFact s.setRole key (if fact.setRole = .unknown then default else fact.setRole)
    usage := mergeFact s.usage key fact.inherit
    adminOptions := mergeFact s.adminOptions key fact.adminOption }

/-- The facts of the graph, with the explicit executor facts over them. -/
def initialEdgeFacts (graph : RoleGraph) (executor : ExecutorFacts) (pgMajorVersion : Nat) :
    Simulated :=
  let default := membershipSetRoleDefault pgMajorVersion
  executor.memberships.foldl (noteFact default)
    (graph.memberships.toList.foldl (noteEdge default) { graph := graph })

/-! ## Attributes of the executor -/

/-- The executor's attributes as they evolve through the plan. -/
structure ExecutorAttributes where
  superuser : Bool
  createrole : SetRoleCapability

/-- Explicit facts win over the attributes in the graph; omitted ones defer to it. -/
def ExecutorAttributes.initial (graph : RoleGraph) (executor : ExecutorFacts) :
    ExecutorAttributes where
  superuser := executor.superuser || (graph.roles[executor.role]?).any (·.superuser)
  createrole :=
    match executor.createrole with
    | .unknown => (graph.roles[executor.role]?).elim .unknown fun role => capability role.createrole
    | explicit => explicit

/-- The executor's attributes after one is set. -/
def ExecutorAttributes.applyAttribute (self : ExecutorAttributes) :
    RoleAttribute → ExecutorAttributes
  | .superuser value => { self with superuser := value }
  | .createrole value => { self with createrole := capability value }
  | _ => self

/-- Apply the plan's own changes to the executor's attributes. -/
def ExecutorAttributes.apply (self : ExecutorAttributes) (executor : ExecutorFacts) :
    Change → ExecutorAttributes
  | .alterRole name attributes =>
      if name = executor.role then attributes.foldl ExecutorAttributes.applyAttribute self else self
  | _ => self

/-- Does the attribute bear on which roles can be reached? -/
def RoleAttribute.affectsReachability : RoleAttribute → Bool
  | .superuser _ | .inherit _ => true
  | _ => false

/-- Whether a change can alter what the executor reaches. That depends on the set of roles, the
facts about memberships and the executor's superuser attribute; INHERIT is included to be safe. -/
def affectsReachability : Change → Bool
  | .createRole .. | .dropRole .. | .updateMemberOptions .. | .addMember ..
  | .removeMember .. => true
  | .alterRole _ attributes => attributes.any RoleAttribute.affectsReachability
  | _ => false

end PgRoles.Explorer

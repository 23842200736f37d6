import PgRoles.Core.Change
import PgRoles.Core.Graph

/-!
# Resolution of membership option intents

The diff states an option increase as an intent under a placeholder grantor. Before review every
option change is resolved against the inspected per-grantor options: a reduction keeps its grantor,
an increase is attributed to a grantor whose authority the executor can use, and both record what
they were resolved against.
-/

set_option autoImplicit false

namespace PgRoles.Core

open Std PgRoles.Lib

/-- The connected executor, and per role the grantors whose direct ADMIN authority it can use. -/
structure MembershipAuthority where
  executor : String
  usableGrantors : BTreeMap String (BTreeSet String)

/-- Option planning needs complete per-grantor options for the membership. -/
inductive MembershipOptionsError where
  | incompleteFacts (role member : String)
  deriving DecidableEq

/-- The options agree with the effective membership the graph reports for the pair. -/
def agreesWithEffective (current : RoleGraph) (role member : String)
    (options : BTreeMap String MembershipOptions) : Bool :=
  match current.memberships.toList.find? fun e => e.role == role && e.member == member with
  | some e =>
      e.inherit == options.toList.any (·.2.inherit) && e.admin == options.toList.any (·.2.admin)
  | none => false

/-- The complete options of a pair that also agree with its effective membership. -/
def provenOptions (current : RoleGraph) (role member : String) :
    Option (BTreeMap String MembershipOptions) :=
  (current.completeMembershipOptions role member).filter (agreesWithEffective current role member)

/-- The grantor of an increase: an existing executor edge, then another usable existing edge, then
the executor, then any usable grantor. Without a usable one the executor stands in for review. -/
def increaseGrantor (authority : MembershipAuthority) (role : String)
    (options : BTreeMap String MembershipOptions) : String :=
  match authority.usableGrantors[role]? with
  | none => authority.executor
  | some grantors =>
      if grantors.contains authority.executor && options.contains authority.executor then
        authority.executor
      else
        match grantors.toList.find? fun g => options.contains g with
        | some g => g
        | none =>
            if grantors.contains authority.executor then authority.executor
            else grantors.toList.head?.getD authority.executor

/-- What the reviewed options hold for the chosen grantor. -/
def expectedState (options : BTreeMap String MembershipOptions) (grantor : String) :
    MembershipExpectedState :=
  options[grantor]?.elim .absent .present

/-- The option change under a grantor, bound to the options it was resolved against. -/
def boundOptionChange (authority : MembershipAuthority)
    (options : BTreeMap String MembershipOptions) (role member grantor : String)
    (inherit admin : Option Bool) : Change :=
  .updateMemberOptions role member grantor inherit admin
    (some
      { executor := authority.executor
        setEffect := if options[grantor]?.isNone then .createFalse else .preserve
        expected := expectedState options grantor
        expectedEdges := options })

/-- Resolve one change; only option changes are touched. -/
def resolveMembershipOption (current : RoleGraph) (authority : MembershipAuthority) :
    Change → Except MembershipOptionsError Change
  | .updateMemberOptions role member grantor inherit admin _ =>
      match provenOptions current role member with
      | none => .error (.incompleteFacts role member)
      | some options =>
          if inherit = some true ∨ admin = some true then
            .ok (boundOptionChange authority options role member
              (increaseGrantor authority role options) inherit admin)
          else if options.contains grantor then
            .ok (boundOptionChange authority options role member grantor inherit admin)
          else .error (.incompleteFacts role member)
  | change => .ok change

/-- Resolve every option change of a plan, or fail on the first without proven options. -/
def resolveMembershipOptions (changes : List Change) (current : RoleGraph)
    (authority : MembershipAuthority) : Except MembershipOptionsError (List Change) :=
  changes.mapM (resolveMembershipOption current authority)

end PgRoles.Core

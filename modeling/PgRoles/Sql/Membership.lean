import PgRoles.Lib.Check
import PgRoles.Core.Change

/-!
# Membership statements

The statements a membership change renders to, and what PostgreSQL does with them. The catalog holds
one row per (role, member, grantor); a statement without a `GRANTED BY` clause acts on the row of
the grantor PostgreSQL attributes it to. A grant sets the options its `WITH` clause names, and gives
a new row PostgreSQL's defaults for the others.
-/

set_option autoImplicit false

namespace PgRoles.Sql

open Std PgRoles.Lib PgRoles.Core

/-! ## Statements -/

/-- A rendered membership statement; an absent option or grantor has no clause. -/
inductive MembershipStatement where
  | grantRole (role member : String) (inherit admin set : Option Bool) (grantor : Option String)
  | revokeRole (role member : String) (grantor : Option String)
  | revokeInheritOption (role member grantor : String)
  | revokeAdminOption (role member grantor : String)
  deriving DecidableEq

/-- `GRANT … WITH INHERIT …` and `GRANTED BY` need PostgreSQL 16. -/
def supportsGrantWithOptions (pgMajorVersion : Nat) : Bool := 16 ≤ pgMajorVersion

/-- Before PostgreSQL 16 the member's own attribute decides inheritance, so no clause names it. -/
def renderAddMember (pgMajorVersion : Nat) (role member : String) (inherit admin : Bool) :
    List MembershipStatement :=
  [.grantRole role member (if supportsGrantWithOptions pgMajorVersion then some inherit else none)
    (if admin then some true else none) none none]

/-- The statement that removes a member, under its grantor where the server has that. -/
def renderRemoveMember (pgMajorVersion : Nat) (role member : String) (grantor : Option String) :
    List MembershipStatement :=
  [.revokeRole role member (if supportsGrantWithOptions pgMajorVersion then grantor else none)]

/-- The binding says that the change creates its edge. -/
def createsEdge (binding : Option MembershipOptionBinding) : Bool :=
  binding.any fun b => b.setEffect == .createFalse

/-- Reductions first, then one grant of the increases. A new edge contributes only the increases. -/
def renderUpdateMemberOptions (role member grantor : String) (inherit admin : Option Bool)
    (binding : Option MembershipOptionBinding) : List MembershipStatement :=
  (if inherit = some false then [.revokeInheritOption role member grantor] else []) ++
  (if admin = some false then [.revokeAdminOption role member grantor] else []) ++
  (if inherit = some true ∨ admin = some true then
    [.grantRole role member
      (if inherit = some true then some true
        else if createsEdge binding && inherit.isNone then some false else none)
      (if admin = some true then some true else none)
      (if createsEdge binding then some false else none) (some grantor)]
  else [])

/-- The membership statements of a change. -/
def renderMembership (pgMajorVersion : Nat) : Change → List MembershipStatement
  | .addMember role member inherit admin =>
      renderAddMember pgMajorVersion role member inherit admin
  | .updateMemberOptions role member grantor inherit admin binding =>
      renderUpdateMemberOptions role member grantor inherit admin binding
  | .removeMember role member grantor => renderRemoveMember pgMajorVersion role member grantor
  | _ => []

/-! ## What the renderer refuses -/

/-- Why the statements of a membership's options are not rendered. -/
inductive SqlRenderError where
  | unsupportedMembershipOptions
  | unattributedMembershipReplacement
  | emptyMembershipOptions
  | mixedMembershipOptions
  | invalidMembershipExpectation
  | unresolvedMembershipOptions
  deriving DecidableEq

/-- The binding expects what its own edges do not hold for the grantor. -/
def expectationMismatch (grantor : String) (b : MembershipOptionBinding) : Bool :=
  b.expectedEdges.isEmpty ||
    match b.expected with
    | .absent => b.expectedEdges.contains grantor
    | .present options => b.expectedEdges[grantor]? != some options

/-- An option change needs PostgreSQL 16, one direction, and a consistent binding. -/
def validateMembershipOptions (pgMajorVersion : Nat) : Change → Except SqlRenderError Unit
  | .updateMemberOptions _ _ grantor inherit admin binding => do
      let reduces := inherit == some false || admin == some false
      let increases := inherit == some true || admin == some true
      let expectsAbsent := binding.any fun b => b.expected == .absent
      rejectIf (!supportsGrantWithOptions pgMajorVersion) .unsupportedMembershipOptions
      rejectIf (reduces && increases) .mixedMembershipOptions
      rejectIf (inherit.isNone && admin.isNone) .emptyMembershipOptions
      rejectIf (binding.all fun b => b.executor.isEmpty) .unresolvedMembershipOptions
      rejectIf (binding.any (expectationMismatch grantor)) .invalidMembershipExpectation
      rejectIf (expectsAbsent != createsEdge binding) .invalidMembershipExpectation
      rejectIf (expectsAbsent && reduces) .invalidMembershipExpectation
  | _ => .ok ()

/-- The batch adds a member to the pair. -/
def addsMember (changes : List Change) (role member : String) : Bool :=
  changes.any fun
    | .addMember r m _ _ => r == role && m == member
    | _ => false

/-- The batch removes a membership without naming its grantor and adds it again. -/
def replacesUnattributed (changes : List Change) : Bool :=
  changes.any fun
    | .removeMember role member none => addsMember changes role member
    | _ => false

/-- The membership statements of a batch, unless the renderer refuses it. -/
def renderMemberships (pgMajorVersion : Nat) (changes : List Change) :
    Except SqlRenderError (List MembershipStatement) := do
  rejectIf (supportsGrantWithOptions pgMajorVersion && replacesUnattributed changes)
    .unattributedMembershipReplacement
  changes.forM (validateMembershipOptions pgMajorVersion)
  return changes.flatMap (renderMembership pgMajorVersion)

/-! ## The catalog -/

/-- Rows of `pg_auth_members`, keyed by (role, member, grantor). -/
abbrev MembershipCatalog : Type := BTreeMap (String × String × String) MembershipOptions

/-- What the server decides itself: whom a statement without `GRANTED BY` is attributed to, and the
INHERIT default of a new row, the member's own attribute. -/
structure ServerDefaults where
  attributedTo : String → String → String
  memberInherits : String → Bool

/-- A grant on one row. -/
def grantOptions (memberInherits : Bool) (inherit admin set : Option Bool)
    (row : Option MembershipOptions) : MembershipOptions :=
  match row with
  | some o => ⟨inherit.getD o.inherit, admin.getD o.admin, set.getD o.set⟩
  | none => ⟨inherit.getD memberInherits, admin.getD false, set.getD true⟩

/-- Execute one membership statement. -/
def execStatement (server : ServerDefaults) (catalog : MembershipCatalog) :
    MembershipStatement → MembershipCatalog
  | .grantRole role member inherit admin set grantor =>
      catalog.alter (role, member, grantor.getD (server.attributedTo role member)) fun row =>
        some (grantOptions (server.memberInherits member) inherit admin set row)
  | .revokeRole role member grantor =>
      catalog.erase (role, member, grantor.getD (server.attributedTo role member))
  | .revokeInheritOption role member grantor =>
      catalog.alter (role, member, grantor) (·.map fun o => { o with inherit := false })
  | .revokeAdminOption role member grantor =>
      catalog.alter (role, member, grantor) (·.map fun o => { o with admin := false })

/-- Execute the membership statements of a plan in plan order. -/
def execMemberships (server : ServerDefaults) (pgMajorVersion : Nat) (catalog : MembershipCatalog)
    (changes : List Change) : MembershipCatalog :=
  (changes.flatMap (renderMembership pgMajorVersion)).foldl (execStatement server) catalog

/-! ## One row of the catalog -/

/-- The row a statement acts on. -/
def statementRow (server : ServerDefaults) : MembershipStatement → String × String × String
  | .grantRole role member _ _ _ grantor =>
      (role, member, grantor.getD (server.attributedTo role member))
  | .revokeRole role member grantor =>
      (role, member, grantor.getD (server.attributedTo role member))
  | .revokeInheritOption role member grantor => (role, member, grantor)
  | .revokeAdminOption role member grantor => (role, member, grantor)

/-- What a statement does to its row. -/
def rowEffect (server : ServerDefaults) (row : Option MembershipOptions) :
    MembershipStatement → Option MembershipOptions
  | .grantRole _ member inherit admin set _ =>
      some (grantOptions (server.memberInherits member) inherit admin set row)
  | .revokeRole _ _ _ => none
  | .revokeInheritOption _ _ _ => row.map fun o => { o with inherit := false }
  | .revokeAdminOption _ _ _ => row.map fun o => { o with admin := false }

/-- A statement as one row sees it. -/
def rowStep (server : ServerDefaults) (key : String × String × String)
    (row : Option MembershipOptions) (s : MembershipStatement) : Option MembershipOptions :=
  if statementRow server s = key then rowEffect server row s else row

theorem getElem?_execStatement (server : ServerDefaults) (catalog : MembershipCatalog)
    (s : MembershipStatement) (key : String × String × String) :
    (execStatement server catalog s)[key]? = rowStep server key catalog[key]? s := by
  cases s with
  | grantRole role member inherit admin set grantor => exact getElem?_alter_eq _ _ _ _
  | revokeRole role member grantor => exact getElem?_erase_eq _ _ _
  | revokeInheritOption role member grantor => exact getElem?_alter_eq _ _ _ _
  | revokeAdminOption role member grantor => exact getElem?_alter_eq _ _ _ _

/-- A change as one row sees it. -/
def changeRow (server : ServerDefaults) (pgMajorVersion : Nat) (key : String × String × String)
    (row : Option MembershipOptions) (c : Change) : Option MembershipOptions :=
  (renderMembership pgMajorVersion c).foldl (rowStep server key) row

/-- A row after a plan is the plan folded over that row alone. -/
theorem getElem?_execMemberships (server : ServerDefaults) (pgMajorVersion : Nat)
    (catalog : MembershipCatalog) (changes : List Change) (key : String × String × String) :
    (execMemberships server pgMajorVersion catalog changes)[key]? =
      changes.foldl (changeRow server pgMajorVersion key) catalog[key]? := by
  rw [execMemberships, getElem?_foldl_of_pointwise (getElem?_execStatement server)]
  exact List.foldl_flatMap

/-- The pair a membership change is about. -/
def membershipPair : Change → Option (String × String)
  | .addMember role member _ _ => some (role, member)
  | .updateMemberOptions role member _ _ _ _ => some (role, member)
  | .removeMember role member _ => some (role, member)
  | _ => none

/-- A statement of a change acts on a row of the change's pair. -/
theorem pair_of_mem_renderMembership (server : ServerDefaults) {pgMajorVersion : Nat} {c : Change}
    {s : MembershipStatement} (hs : s ∈ renderMembership pgMajorVersion c) :
    membershipPair c = some ((statementRow server s).1, (statementRow server s).2.1) := by
  cases c <;> simp only [renderMembership, renderAddMember, renderRemoveMember,
    List.mem_singleton, List.not_mem_nil] at hs
  case addMember => subst hs; rfl
  case removeMember => subst hs; rfl
  case updateMemberOptions role member grantor inherit admin binding =>
    simp only [renderUpdateMemberOptions, List.mem_append] at hs
    rcases hs with (hs | hs) | hs <;>
    · split at hs
      · rw [List.mem_singleton.1 hs]
        rfl
      · exact absurd hs List.not_mem_nil

/-- A row of another pair does not see the change. -/
theorem changeRow_of_pair_ne {server : ServerDefaults} {pgMajorVersion : Nat}
    {role member g : String} {row : Option MembershipOptions} {c : Change}
    (h : membershipPair c ≠ some (role, member)) :
    changeRow server pgMajorVersion (role, member, g) row c = row := by
  apply foldl_eq_self_of_forall
  intro s hs row
  have hpair := pair_of_mem_renderMembership server hs
  rw [rowStep, if_neg]
  intro hrow
  rw [hrow] at hpair
  exact h hpair

end PgRoles.Sql

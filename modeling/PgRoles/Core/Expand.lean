import PgRoles.Lib.Utf8
import PgRoles.Core.Manifest

/-!
# Expansion of a manifest

Every binding of a profile to a schema becomes a role with concrete grants and default privileges;
these join the one-off declarations, and the whole is validated. The expanded manifest then becomes
the desired role graph.
-/

set_option autoImplicit false

namespace PgRoles.Core

open Std PgRoles.Lib

/-- A schema of the expanded manifest, with its owner. -/
structure ExpandedSchema where
  name : String
  owner : Option String
  deriving DecidableEq

/-- The fully expanded policy. -/
structure ExpandedManifest where
  schemas : List ExpandedSchema := []
  roles : List RoleDefinition := []
  grants : List Grant := []
  defaultPrivileges : List DefaultPrivilege := []
  memberships : List Membership := []
  deriving DecidableEq

/-! ## Profiles -/

/-- The pattern of a binding that writes none: `{schema}-{profile}`. -/
def defaultRolePattern : String := schemaPlaceholder ++ "-" ++ profilePlaceholder

/-- Substitute the schema and the profile name; the schema goes first. -/
def substitutePlaceholders (value schema profile : String) : String :=
  replaceText (replaceText value schemaPlaceholder schema) profilePlaceholder profile

/-- What one profile bound to one schema expands to. -/
structure ProfileExpansion where
  role : RoleDefinition
  grants : List Grant
  defaultPrivileges : List DefaultPrivilege

/-- The naming pattern of a binding. -/
def bindingPattern (m : PolicyManifest) (binding : SchemaBinding) : String :=
  (binding.rolePattern.or m.rolePattern).getD defaultRolePattern

/-- The role that a profile gives a schema. -/
def profileRole (name : String) (binding : SchemaBinding) (profileName : String)
    (profile : Profile) : RoleDefinition :=
  { name := name
    login := profile.login
    inherit := profile.inherit
    comment := some ("Generated from profile '" ++ profileName ++ "' for schema '" ++
      binding.name ++ "'")
    config := profile.config.map fun _ value =>
      substitutePlaceholders value binding.name profileName }

/-- Schema grants name the schema itself, every other grant an object in it. -/
def profileTarget (binding : SchemaBinding) (target : ProfileObjectTarget) : ObjectTarget :=
  match target.objectType with
  | .schema => ⟨.schema, none, some binding.name⟩
  | objectType => ⟨objectType, some binding.name, target.name⟩

/-- A profile's grant for the role and the schema that it is expanded to; an absent one is refused.
-/
def expandProfileGrant (roleName profileName : String) (binding : SchemaBinding)
    (grant : ProfileGrant) : Except ManifestError Grant := do
  rejectIf (grant.ensure == .absent) (.profileAbsentGrant profileName)
  return ⟨roleName, grant.privileges, profileTarget binding grant.object, .present⟩

/-- A profile's default privileges for the role that it is expanded to; absent ones are refused. -/
def expandProfileDefault (roleName profileName : String) (grant : DefaultPrivilegeGrant) :
    Except ManifestError DefaultPrivilegeGrant := do
  rejectIf (grant.ensure == .absent) (.profileAbsentDefaultPrivilege profileName)
  return ⟨some roleName, grant.privileges, grant.onType, .present⟩

/-- The default-privilege stanza that a profile gives a schema, or none where it lists no grants. -/
def profileDefaultPrivileges (m : PolicyManifest) (binding : SchemaBinding) (roleName : String)
    (profileName : String) (profile : Profile) :
    Except ManifestError (List DefaultPrivilege) := do
  if profile.defaultPrivileges.isEmpty then return []
  let grants ← profile.defaultPrivileges.mapM (expandProfileDefault roleName profileName)
  return [⟨binding.owner.or m.defaultOwner, some binding.name, none, grants⟩]

/-- Expand one profile of one binding. -/
def expandProfile (m : PolicyManifest) (binding : SchemaBinding) (profileName : String) :
    Except ManifestError ProfileExpansion := do
  match m.profiles[profileName]? with
  | none => .error (.undefinedProfile profileName binding.name)
  | some profile =>
      let pattern := bindingPattern m binding
      let roleName := substitutePlaceholders pattern binding.name profileName
      rejectIf (63 < roleName.utf8ByteSize)
        (.valueTooLong ("role name expanded from role_pattern \"" ++ pattern ++
          "\" for schema \"" ++ binding.name ++
          "\" (bytes; PostgreSQL identifiers are limited to 63 bytes)") roleName
          roleName.utf8ByteSize 63)
      let grants ← profile.grants.mapM (expandProfileGrant roleName profileName binding)
      let defaults ← profileDefaultPrivileges m binding roleName profileName profile
      return ⟨profileRole roleName binding profileName profile, grants, defaults⟩

/-- Expand every profile of every binding, in declaration order. -/
def expandBindings (m : PolicyManifest) : Except ManifestError (List ProfileExpansion) := do
  let expansions ← m.schemas.mapM fun binding => binding.profiles.mapM (expandProfile m binding)
  return expansions.flatten

/-! ## Validation -/

/-- Predefined roles can be referenced but not managed. -/
def validatePredefined (role : RoleDefinition) : Except ManifestError Unit :=
  rejectIf (isPredefinedRole role.name && !role.external) (.predefinedRoleNotExternal role.name)

/-- Names of the roles declared external. -/
def externalNames (roles : List RoleDefinition) : List String :=
  (roles.filter (·.external)).map (·.name)

/-- Ordinary roles are reconciled exhaustively anyway. -/
def validateExclusive (m : PolicyManifest) (membership : Membership) : Except ManifestError Unit :=
  rejectIf
    (membership.exclusive && !isPredefinedRole membership.role &&
      !(externalNames m.roles).contains membership.role)
    (.exclusiveMembershipOnManagedRole membership.role)

/-- Reject the first name that occurs a second time. -/
def rejectDuplicates (error : String → ManifestError) :
    List String → List String → Except ManifestError Unit
  | _, [] => .ok ()
  | seen, name :: names => do
      rejectIf (seen.contains name) (error name)
      rejectDuplicates error (name :: seen) names

/-- The word reserved for the PUBLIC pseudo-role. -/
def rejectReserved (value : Option String) (context : String) : Except ManifestError Unit :=
  rejectIf (value == some publicRoleName) (.reservedPublicName context)

/-- The name PUBLIC is refused wherever a role has to be named. -/
def validatePublicReservation (m : PolicyManifest) (roles : List RoleDefinition)
    (schemas : List ExpandedSchema) (defaultPrivileges : List DefaultPrivilege)
    (memberships : List Membership) : Except ManifestError Unit := do
  rejectReserved m.defaultOwner "default_owner"
  roles.forM fun role => rejectReserved (some role.name) "a role name"
  schemas.forM fun schema => rejectReserved schema.owner "a schema owner"
  defaultPrivileges.forM fun d => rejectReserved d.owner "a default privilege owner"
  memberships.forM fun membership => do
    rejectReserved (some membership.role) "a membership role"
    membership.members.forM fun member => rejectReserved (some member.name) "a membership member"
  m.retirements.forM fun retirement => do
    rejectReserved (some retirement.role) "a retirement role"
    rejectReserved retirement.reassignOwnedTo "a retirement ownership target"

/-- A grant on a database has to name it. -/
def validateDatabaseGrantTargets (grants : List Grant) : Except ManifestError Unit :=
  rejectIf (grants.any fun grant => grant.object.objectType == .database && grant.object.name.isNone)
    .databaseGrantMissingName

/-- Default privileges exist for these types only; schemas have global ones alone. -/
def allowedDefaultType : DefaultPrivilegeScope → ObjectType → Bool
  | _, .database | _, .view | _, .materializedView => false
  | .schema _, .schema => false
  | _, _ => true

/-- Every type that a stanza grants on is one that its scope allows. -/
def validateDefaultPrivilegeScope (d : DefaultPrivilege) : Except ManifestError Unit := do
  let scope ← d.resolvedScope
  d.grant.forM fun grant =>
    rejectIf (!allowedDefaultType scope grant.onType)
      (.invalidDefaultPrivilegeOnType grant.onType.display scope.display)

/-- A target as an error message spells it. -/
def describeObjectTarget (target : ObjectTarget) : String :=
  match target.schema, target.name with
  | some schema, some name =>
      target.objectType.display ++ " \"" ++ schema ++ "\".\"" ++ name ++ "\""
  | some schema, none => target.objectType.display ++ " in schema \"" ++ schema ++ "\""
  | none, some name => target.objectType.display ++ " \"" ++ name ++ "\""
  | none, none => target.objectType.display

/-! ### Present and absent together -/

/-- What one privilege of one grant asserts something about. -/
abbrev GrantAssertionKey : Type :=
  String × ObjectType × Option String × Option String × Privilege

instance instTransOrdSelector : TransOrd (String × ObjectType × String × Privilege) :=
  instTransOrdProd

/-- The selectors of one (grantee, type, schema, privilege) seen so far. -/
structure SelectorFlags where
  wildPresent : Bool := false
  wildAbsent : Bool := false
  namedPresent : Bool := false
  namedAbsent : Bool := false

/-- The flags after one more selector with its `ensure`. -/
def SelectorFlags.mark (flags : SelectorFlags) (wild : Bool) (ensure : Ensure) : SelectorFlags :=
  match wild, ensure with
  | true, .present => { flags with wildPresent := true }
  | true, .absent => { flags with wildAbsent := true }
  | false, .present => { flags with namedPresent := true }
  | false, .absent => { flags with namedAbsent := true }

/-- Do a wildcard and a named selector ask for opposite things? -/
def SelectorFlags.conflict (flags : SelectorFlags) : Bool :=
  (flags.wildPresent && flags.namedAbsent) || (flags.wildAbsent && flags.namedPresent)

/-- The assertions seen so far. -/
structure AssertionState where
  assertions : BTreeMap GrantAssertionKey Ensure := ∅
  selectors : BTreeMap (String × ObjectType × String × Privilege) SelectorFlags := ∅

/-- What one privilege of a grant asserts something about. -/
def assertionKey (grant : Grant) (privilege : Privilege) : GrantAssertionKey :=
  (grant.role, grant.object.objectType, grant.object.schema, grant.object.name, privilege)

/-- Note one assertion; it must not contradict an earlier one, nor may a wildcard and a named
selector differ. -/
def noteAssertion (state : AssertionState) (entry : Grant × Privilege) :
    Except ManifestError AssertionState := do
  let grant := entry.1
  let privilege := entry.2
  rejectIf ((state.assertions[assertionKey grant privilege]?).any (· != grant.ensure))
    (.conflictingGrantEnsure
      ("for \"" ++ grant.role ++ "\" on " ++ describeObjectTarget grant.object)
      privilege.display)
  let assertions := state.assertions.insert (assertionKey grant privilege) grant.ensure
  match grant.object.schema, grant.object.name with
  | some schema, some name =>
      let key := (grant.role, grant.object.objectType, schema, privilege)
      let flags := ((state.selectors[key]?).getD {}).mark (name == wildcardName) grant.ensure
      rejectIf flags.conflict
        (.conflictingWildcardEnsure
          ("for \"" ++ grant.role ++ "\" on " ++ grant.object.objectType.display ++
            " in schema \"" ++ schema ++ "\"")
          privilege.display)
      return ⟨assertions, state.selectors.insert key flags⟩
  | _, _ => return ⟨assertions, state.selectors⟩

/-- The assertions of the grants, privilege by privilege. -/
def grantAssertions (grants : List Grant) : List (Grant × Privilege) :=
  grants.flatMap fun grant => grant.privileges.map fun privilege => (grant, privilege)

/-- What one privilege of one default-privilege entry asserts something about. -/
abbrev DefaultAssertionKey : Type :=
  String × DefaultPrivilegeScope × String × ObjectType × Privilege

/-- The owner a default-privilege declaration is keyed by. -/
def defaultPrivilegeOwner (defaultOwner : Option String) (d : DefaultPrivilege) : String :=
  (d.owner.or defaultOwner).getD "postgres"

/-- One default-privilege assertion with what its error describes. -/
structure DefaultAssertion where
  key : DefaultAssertionKey
  ensure : Ensure

/-- The assertions of one declaration; entries without a role are skipped. -/
def defaultAssertions (defaultOwner : Option String) (d : DefaultPrivilege) :
    Except ManifestError (List DefaultAssertion) := do
  let scope ← d.resolvedScope
  return d.grant.flatMap fun grant =>
    match grant.role with
    | none => []
    | some grantee => grant.privileges.map fun privilege =>
        ⟨(defaultPrivilegeOwner defaultOwner d, scope, grantee, grant.onType, privilege),
          grant.ensure⟩

/-- One more assertion on default privileges; an opposite one on the same key is refused. -/
def noteDefaultAssertion (state : BTreeMap DefaultAssertionKey Ensure)
    (assertion : DefaultAssertion) :
    Except ManifestError (BTreeMap DefaultAssertionKey Ensure) := do
  let (owner, scope, grantee, onType, privilege) := assertion.key
  rejectIf ((state[assertion.key]?).any (· != assertion.ensure))
    (.conflictingDefaultPrivilegeEnsure
      ("for owner \"" ++ owner ++ "\" (" ++ scope.display ++ ", " ++ onType.display ++ " to \"" ++
        grantee ++ "\")")
      privilege.display)
  return state.insert assertion.key assertion.ensure

/-- Note the assertions of one declaration. -/
def noteDefaultPrivilege (defaultOwner : Option String)
    (state : BTreeMap DefaultAssertionKey Ensure) (d : DefaultPrivilege) :
    Except ManifestError (BTreeMap DefaultAssertionKey Ensure) := do
  let assertions ← defaultAssertions defaultOwner d
  assertions.foldlM noteDefaultAssertion state

/-- Reject an assertion made both present and absent, and a wildcard that contradicts a named
selector: grants apply before revokes, so such a pair would never converge. -/
def validateEnsureConflicts (defaultOwner : Option String) (grants : List Grant)
    (defaultPrivileges : List DefaultPrivilege) : Except ManifestError Unit := do
  let _ ← (grantAssertions grants).foldlM noteAssertion {}
  let _ ← defaultPrivileges.foldlM (noteDefaultPrivilege defaultOwner) ∅
  return ()

/-! ### Roles and retirements -/

/-- Retirements are of different roles, none of them desired, and none of them reassigns to itself.
-/
def validateRetirements (desiredRoles : List String) :
    List String → List RoleRetirement → Except ManifestError Unit
  | _, [] => .ok ()
  | seen, retirement :: retirements => do
      rejectIf (seen.contains retirement.role) (.duplicateRetirement retirement.role)
      rejectIf (desiredRoles.contains retirement.role)
        (.retirementRoleStillDesired retirement.role)
      rejectIf (retirement.reassignOwnedTo == some retirement.role)
        (.retirementSelfReassign retirement.role)
      validateRetirements desiredRoles (retirement.role :: seen) retirements

/-- An unsigned number as the standard library parses it: digits after an optional plus sign. -/
def parseUnsigned (chars : List Char) : Option Nat :=
  let digits := if chars.head? == some '+' then chars.tail else chars
  if digits.isEmpty || !digits.all isAsciiDigit then none
  else some (digits.foldl (fun n c => 10 * n + (c.toNat - '0'.toNat)) 0)

/-- The byte of an ASCII character. -/
def asciiByte (c : Char) : UInt8 := UInt8.ofNat c.toNat

/-- The date fields parse, with the year from 1970 on. -/
def dateFieldsValid (year month day : List Char) : Bool :=
  (parseUnsigned year).any (1970 ≤ ·) && (parseUnsigned month).any (fun m => 1 ≤ m && m ≤ 12) &&
    (parseUnsigned day).any (fun d => 1 ≤ d && d ≤ 31)

/-- The time fields parse, without a leap second. -/
def timeFieldsValid (hour minute second : List Char) : Bool :=
  (parseUnsigned hour).any (· ≤ 23) && (parseUnsigned minute).any (· ≤ 59) &&
    (parseUnsigned second).any (· ≤ 59)

/-- The check of a timestamp on its bytes; there is no result where a slice splits a character. -/
def isValidIso8601TimestampBytes (value : String) : Option Bool :=
  let chars := value.toList
  let bytes := textBytes chars
  if bytes.length ≠ 20 then some false
  else if bytes[4]? ≠ some (asciiByte '-') ∨ bytes[7]? ≠ some (asciiByte '-') ∨
      bytes[10]? ≠ some (asciiByte 'T') then some false
  else do
    let year ← sliceBytes chars 0 4
    let month ← sliceBytes chars 5 7
    let day ← sliceBytes chars 8 10
    if dateFieldsValid year month day = false then return false
    if bytes[13]? ≠ some (asciiByte ':') ∨ bytes[16]? ≠ some (asciiByte ':') then return false
    -- All three slices are taken before any of them is parsed.
    let hour ← sliceBytes chars 11 13
    let minute ← sliceBytes chars 14 16
    let second ← sliceBytes chars 17 19
    if timeFieldsValid hour minute second = false then return false
    let zone ← sliceBytes chars 19 20
    return zone == ['Z']

/-- The exact form `YYYY-MM-DDTHH:MM:SSZ`, with each field in range. The source stops at a slice that
splits a character; expansion here refuses the text, as it does any other form. -/
def isValidIso8601Timestamp (value : String) : Bool :=
  isValidIso8601TimestampBytes value == some true

/-- Letter- or underscore-led identifier segments separated by dots. -/
def isValidConfigParameterName (name : String) : Bool :=
  !name.isEmpty && (name.toList.splitOn '.').all fun segment =>
    match segment with
    | [] => false
    | c :: cs =>
        (isAsciiLower c || isAsciiUpper c || c == '_') &&
          cs.all fun c => isAsciiLower c || isAsciiUpper c || isAsciiDigit c || c == '_'

/-- The membership is declared. -/
def declaresMember (memberships : List Membership) (role member : String) : Bool :=
  memberships.any fun membership =>
    membership.role == role && membership.members.any fun spec => spec.name == member

/-- A `role` setting whose target is declared here must be backed by a declared membership. -/
def validateConfigEntry (desiredRoles : List String) (memberships : List Membership)
    (role : RoleDefinition) (entry : String × String) : Except ManifestError Unit := do
  rejectIf (!isValidConfigParameterName entry.1) (.invalidConfigParameter role.name entry.1)
  rejectIf
    (toAsciiLowercase entry.1 == "role" && desiredRoles.contains entry.2 &&
      !declaresMember memberships entry.2 role.name)
    (.setRoleWithoutMembership role.name entry.2)

/-! ## Expansion -/

/-- The expansion before it is validated. -/
def mergeExpansions (m : PolicyManifest) (expansions : List ProfileExpansion) :
    ExpandedManifest :=
  { schemas := m.schemas.map fun binding => ⟨binding.name, binding.owner.or m.defaultOwner⟩
    roles := expansions.map (·.role) ++ m.roles
    grants := expansions.flatMap (·.grants) ++ m.grants
    defaultPrivileges :=
      (expansions.flatMap (·.defaultPrivileges) ++ m.defaultPrivileges).map fun d =>
        { d with owner := d.owner.or m.defaultOwner }
    memberships := m.memberships }

/-- The checks of the merged expansion, in order. -/
def validateExpanded (m : PolicyManifest) (e : ExpandedManifest) : Except ManifestError Unit := do
  validatePublicReservation m e.roles e.schemas e.defaultPrivileges e.memberships
  validateDatabaseGrantTargets e.grants
  e.defaultPrivileges.forM validateDefaultPrivilegeScope
  validateEnsureConflicts m.defaultOwner e.grants e.defaultPrivileges
  rejectDuplicates .duplicateRole [] (e.roles.map (·.name))
  validateRetirements (e.roles.map (·.name)) [] m.retirements
  e.roles.forM fun role =>
    rejectIf (role.password.isSome && role.login != some true) (.passwordWithoutLogin role.name)
  e.roles.forM fun role =>
    rejectIf (role.passwordValidUntil.any fun value => !isValidIso8601Timestamp value)
      (.invalidValidUntil role.name (role.passwordValidUntil.getD ""))
  e.roles.forM fun role =>
    role.config.toList.forM (validateConfigEntry (e.roles.map (·.name)) e.memberships role)

/-- Top-level default privileges name their grantee. -/
def validateDefaultPrivilegeRoles (d : DefaultPrivilege) : Except ManifestError Unit :=
  d.grant.forM fun grant =>
    match grant.role with
    | some _ => .ok ()
    | none => do
        let scope ← d.resolvedScope
        .error (.missingDefaultPrivilegeRole scope.display)

/-- Expand and validate a manifest. -/
def expandManifest (m : PolicyManifest) : Except ManifestError ExpandedManifest := do
  validateBounds m
  m.roles.forM validatePredefined
  m.memberships.forM (validateExclusive m)
  rejectDuplicates .duplicateSchema [] (m.schemas.map (·.name))
  let expansions ← expandBindings m
  m.defaultPrivileges.forM validateDefaultPrivilegeRoles
  validateExpanded m (mergeExpansions m expansions)
  return mergeExpansions m expansions

/-! ## The desired graph -/

/-- The state a role definition asks for; parameter names are lowercased and list values put into
canonical form. -/
def RoleState.fromDefinition (d : RoleDefinition) : RoleState :=
  { login := d.login.getD false
    superuser := d.superuser.getD false
    createdb := d.createdb.getD false
    createrole := d.createrole.getD false
    inherit := d.inherit.getD true
    replication := d.replication.getD false
    bypassrls := d.bypassrls.getD false
    connectionLimit := d.connectionLimit.getD (-1)
    comment := d.comment
    passwordValidUntil := d.passwordValidUntil
    config := ExtTreeMap.ofList
      (d.config.toList.map fun e =>
        let name := toAsciiLowercase e.1
        (name, if isListQuoteParameter name then canonicalizeListGucValue e.2 else e.2)) compare }

/-- The key of a grant of the expanded manifest. -/
def grantKeyFromManifest (grant : Grant) : GrantKey :=
  ⟨.parse grant.role, grant.object.objectType, grant.object.schema, grant.object.name⟩

/-- The grants with one ensure, as keyed privilege sets. -/
def grantEntries (ensure : Ensure) (grants : List Grant) : List (GrantKey × Finset Privilege) :=
  (grants.filter (·.ensure == ensure)).map fun grant =>
    (grantKeyFromManifest grant, grant.privileges.toFinset)

/-- One default-privilege entry under its resolved key. -/
structure DefaultPrivilegeEntry where
  key : DefaultPrivKey
  ensure : Ensure
  privileges : Finset Privilege

/-- The entries of a declaration under their resolved keys. -/
def defaultPrivilegeEntries (defaultOwner : Option String) (d : DefaultPrivilege) :
    Except ManifestError (List DefaultPrivilegeEntry) := do
  let scope ← d.resolvedScope
  d.grant.mapM fun grant =>
    match grant.role with
    | none => .error (.missingDefaultPrivilegeRole scope.display)
    | some role =>
        .ok ⟨⟨defaultPrivilegeOwner defaultOwner d, scope, grant.onType, .parse role⟩,
          grant.ensure, grant.privileges.toFinset⟩

/-- The entries with one ensure, as keyed privilege sets. -/
def entriesWith (ensure : Ensure) (entries : List DefaultPrivilegeEntry) :
    List (DefaultPrivKey × Finset Privilege) :=
  (entries.filter (·.ensure == ensure)).map fun e => (e.key, e.privileges)

/-- The membership edges of the declarations. -/
def membershipEdges (memberships : List Membership) : List MembershipEdge :=
  memberships.flatMap fun membership =>
    membership.members.map fun member =>
      ⟨membership.role, member.name, member.inheritOption, member.adminOption⟩

/-- The desired graph of an expanded manifest. -/
def RoleGraph.fromExpanded (e : ExpandedManifest) (defaultOwner : Option String) :
    Except ManifestError RoleGraph := do
  let entries ← e.defaultPrivileges.mapM (defaultPrivilegeEntries defaultOwner)
  return {
    roles := ExtTreeMap.ofList (e.roles.map fun d => (d.name, .fromDefinition d)) compare
    schemas := ExtTreeMap.ofList (e.schemas.map fun s =>
      (s.name, ⟨s.owner, s.owner.elim ∅ defaultSchemaOwnerPrivileges⟩)) compare
    grants := extendEntries ∅ (grantEntries .present e.grants)
    grantAbsences := extendEntries ∅ (grantEntries .absent e.grants)
    defaultPrivileges := extendEntries ∅ (entriesWith .present entries.flatten)
    defaultPrivilegeAbsences := extendEntries ∅ (entriesWith .absent entries.flatten)
    memberships := ExtTreeSet.ofList (membershipEdges e.memberships) compare
    exclusiveMembershipRoles :=
      ExtTreeSet.ofList ((e.memberships.filter (·.exclusive)).map (·.role)) compare }

end PgRoles.Core

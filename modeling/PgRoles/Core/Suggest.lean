import PgRoles.Lib.Grouping
import PgRoles.Core.Diff
import PgRoles.Core.Expand

/-!
# Suggestion of profiles

A flat manifest is refactored into one with reusable profiles: roles that hold the same in their own
schema, under names of one pattern, become a profile bound to those schemas. The result is expanded
again and compared with the input through the diff engine; where they differ in anything but
comments, the input is returned as it was.

The reasons for which a suggestion is given up hold the data of their texts, not the texts.
-/

set_option autoImplicit false

namespace PgRoles.Core.Suggest

open Std PgRoles.Lib

/-! ## Options and report -/

/-- The object names of each schema and type. -/
abbrev Inventory : Type := BTreeMap (String × ObjectType) (BTreeSet String)

/-- What steers a suggestion. -/
structure SuggestOptions where
  /-- Distinct schemas a cluster spans before it becomes a profile. -/
  minSchemas : Nat := 2
  /-- Every object of the live database, when it was introspected. -/
  fullInventory : Option Inventory := none

/-- A profile that was extracted, with the role it stands for in each schema. -/
structure SuggestedProfile where
  profileName : String
  rolePattern : String
  schemaToRole : BTreeMap String String

/-- What an inventory that claims to be complete lacks. -/
inductive IncompleteInventory where
  | missingEntry (schema : String) (objectType : ObjectType) (granted : Nat)
  | missingName (schema : String) (objectType : ObjectType) (name : String)

/-- Why a candidate is not the policy it was made from. -/
inductive RoundTripError where
  | originalExpand (error : ManifestError)
  | originalGraph (error : ManifestError)
  | candidateExpand (error : ManifestError)
  | candidateGraph (error : ManifestError)
  | structural (changes : List Change)

/-- Why a role was not promoted. -/
inductive SkipReason where
  | multiSchema (role : String) (schemas : List String)
  | schemaNotDeclared (role schema : String)
  | ownerMismatch (role schema : String)
  | uniqueAttributes (role : String)
  | unrepresentableGrant (role : String)
  | soleSchema (role schema : String)
  | noUniformPattern (roles : List String)
  | schemaPatternConflict (schema winningPattern : String) (droppedRoles : List String)
  | roundTripFailure (reason : RoundTripError)
  | incompleteFullInventory (reason : IncompleteInventory)

/-- The manifest with the profiles that were found, the roles that were skipped, and whether the
round trip succeeded. -/
structure SuggestReport where
  manifest : PolicyManifest
  profiles : List SuggestedProfile
  skipped : List SkipReason
  roundTripOk : Bool

/-! ## Inventories -/

/-- The object a grant names: wildcards, schemas and databases are no objects of a schema. -/
def namedObject? (grant : Grant) : Option ((String × ObjectType) × String) :=
  match grant.object.objectType with
  | .schema | .database => none
  | objectType =>
      match grant.object.schema, grant.object.name with
      | some schema, some name =>
          if name = wildcardName then none else some ((schema, objectType), name)
      | _, _ => none

/-- The scope of a wildcard grant. -/
def wildcardScope? (grant : Grant) : Option (String × ObjectType) :=
  match grant.object.objectType with
  | .schema | .database => none
  | objectType =>
      match grant.object.schema, grant.object.name with
      | some schema, some name => if name = wildcardName then some (schema, objectType) else none
      | _, _ => none

/-- Add a name to the inventory of a scope. -/
def addName (inventory : Inventory) (entry : (String × ObjectType) × String) : Inventory :=
  inventory.alter entry.1 fun o => some ((o.getD ∅).insert entry.2)

/-- The objects that the flat grants name. -/
def buildInventory (m : PolicyManifest) : Inventory :=
  (m.grants.filterMap namedObject?).foldl addName ∅

/-- The live inventory has every object that the manifest's grants name under the key. -/
def validateEntry (fullInventory : Inventory) (entry : (String × ObjectType) × BTreeSet String) :
    Except IncompleteInventory Unit :=
  match fullInventory[entry.1]? with
  | none => .error (.missingEntry entry.1.1 entry.1.2 entry.2.size)
  | some names =>
      match entry.2.toList.find? fun name => !names.contains name with
      | some missing => .error (.missingName entry.1.1 entry.1.2 missing)
      | none => .ok ()

/-- Every object that a grant names is in the complete inventory. -/
def validateFullInventory (grantInventory fullInventory : Inventory) :
    Except IncompleteInventory Unit :=
  grantInventory.toList.forM (validateEntry fullInventory)

/-- Replace a wildcard by one grant per object of its scope; a scope that is not in the inventory
keeps it. -/
def expandWildcard (inventory : Inventory) (grant : Grant) : List Grant :=
  match wildcardScope? grant with
  | none => [grant]
  | some scope =>
      match inventory[scope]? with
      | some names => names.toList.map fun name =>
          { grant with object := { grant.object with name := some name } }
      | none => [grant]

/-- Each wildcard grant as a grant on every object of the inventory. -/
def expandWildcards (grants : List Grant) (inventory : Inventory) : List Grant :=
  grants.flatMap (expandWildcard inventory)

/-! ## Collapse of full coverage -/

/-- The order that privileges are compared and written in. -/
def privilegeSortKey : Privilege → Nat
  | .select => 0
  | .insert => 1
  | .update => 2
  | .delete => 3
  | .truncate => 4
  | .references => 5
  | .trigger => 6
  | .execute => 7
  | .usage => 8
  | .create => 9
  | .connect => 10
  | .temporary => 11

/-- Drop the elements that repeat the one before. -/
def dedupRuns {α : Type} [DecidableEq α] : List α → List α
  | [] => []
  | [a] => [a]
  | a :: b :: l => if a = b then dedupRuns (b :: l) else a :: dedupRuns (b :: l)

/-- The privileges sorted, each once. -/
def canonicalPrivs (privileges : List Privilege) : List Privilege :=
  dedupRuns (privileges.insertionSort fun a b => privilegeSortKey a ≤ privilegeSortKey b)

/-- The grants that name objects, by scope and each with its position. Scopes with a wildcard are
left out. -/
def grantBuckets (grants : List Grant) : BTreeMap (String × ObjectType) (List (Grant × Nat)) :=
  let hasWildcard := grants.filterMap wildcardScope?
  (groupInto (grants.zipIdx.filterMap fun e =>
    (namedObject? e.1).map fun named => (named.1, e))).filter fun scope _ =>
      !hasWildcard.contains scope

/-- The wildcard that stands for a bucket, when its grants have the same privileges and name every
object of the scope. -/
def collapseBucket (inventory : Inventory) (scope : String × ObjectType)
    (bucket : List (Grant × Nat)) : Option Grant :=
  match bucket with
  | [] => none
  | first :: rest =>
      let firstPrivs := canonicalPrivs first.1.privileges
      let allSame := rest.all fun e => canonicalPrivs e.1.privileges == firstPrivs
      let covered : BTreeSet String :=
        ExtTreeSet.ofList ((first :: rest).filterMap fun e => e.1.object.name) compare
      if allSame && inventory[scope]? == some covered then
        some ⟨first.1.role, firstPrivs, ⟨scope.2, some scope.1, some wildcardName⟩, .present⟩
      else none

/-- Replace the grants of one role that cover a scope by a wildcard. -/
def collapseFullCoverageGrants (grants : List Grant) (inventory : Inventory) : List Grant :=
  let collapsed := (grantBuckets grants).toList.filterMap fun e =>
    (collapseBucket inventory e.1 e.2).map fun wildcard => (e.2.map (·.2), wildcard)
  let toRemove := collapsed.flatMap (·.1)
  ((grants.zipIdx.filter fun e => !toRemove.contains e.2).map (·.1)) ++ collapsed.map (·.2)

/-! ## Signatures -/

/-- A grant relative to its schema. -/
structure SignatureGrant where
  objectType : ObjectType
  name : Option String
  privileges : List Privilege
  deriving DecidableEq

/-- The fields that signature grants are ordered by. -/
def SignatureGrant.fields (a : SignatureGrant) : ObjectType × Option String × List Privilege :=
  (a.objectType, a.name, a.privileges)

theorem SignatureGrant.fields_injective : Function.Injective SignatureGrant.fields := by
  rintro ⟨t, n, p⟩ ⟨t', n', p'⟩ h
  simp only [SignatureGrant.fields, Prod.mk.injEq] at h
  obtain ⟨rfl, rfl, rfl⟩ := h
  rfl

instance : Ord SignatureGrant := ordOn SignatureGrant.fields
instance : TransOrd SignatureGrant := transOrd_ordOn _
instance : LawfulEqOrd SignatureGrant := lawfulEqOrd_ordOn _ SignatureGrant.fields_injective

/-- A default privilege relative to its schema. -/
structure SignatureDefault where
  onType : ObjectType
  privileges : List Privilege
  deriving DecidableEq

/-- The fields that signature defaults are ordered by. -/
def SignatureDefault.fields (a : SignatureDefault) : ObjectType × List Privilege :=
  (a.onType, a.privileges)

theorem SignatureDefault.fields_injective : Function.Injective SignatureDefault.fields := by
  rintro ⟨t, p⟩ ⟨t', p'⟩ h
  simp only [SignatureDefault.fields, Prod.mk.injEq] at h
  obtain ⟨rfl, rfl⟩ := h
  rfl

instance : Ord SignatureDefault := ordOn SignatureDefault.fields
instance : TransOrd SignatureDefault := transOrd_ordOn _
instance : LawfulEqOrd SignatureDefault := lawfulEqOrd_ordOn _ SignatureDefault.fields_injective

/-- What a role holds, relative to its schema. -/
structure RoleSignature where
  grants : List SignatureGrant
  defaults : List SignatureDefault
  deriving DecidableEq

/-- The fields that signatures are ordered by. -/
def RoleSignature.fields (a : RoleSignature) : List SignatureGrant × List SignatureDefault :=
  (a.grants, a.defaults)

theorem RoleSignature.fields_injective : Function.Injective RoleSignature.fields := by
  rintro ⟨a, b⟩ ⟨a', b'⟩ h
  simp only [RoleSignature.fields, Prod.mk.injEq] at h
  obtain ⟨rfl, rfl⟩ := h
  rfl

instance : Ord RoleSignature := ordOn RoleSignature.fields
instance : TransOrd RoleSignature := transOrd_ordOn _
instance : LawfulEqOrd RoleSignature := lawfulEqOrd_ordOn _ RoleSignature.fields_injective

/-- A default privilege of a role, with its owner and schema. -/
structure RoleDefault where
  owner : String
  schema : String
  grant : DefaultPrivilegeGrant

/-- Sort by a total comparison. -/
def sortBy {α : Type} (order : α → α → Ordering) (l : List α) : List α :=
  l.insertionSort fun a b => (order a b).isLE

/-- A grant without its schema; a grant on the schema itself loses its name too. -/
def signatureGrant (schema : String) (grant : Grant) : SignatureGrant :=
  { objectType := grant.object.objectType
    name := match grant.object.objectType with
      | .schema => if grant.object.name = some schema then none else grant.object.name
      | _ => grant.object.name
    privileges := canonicalPrivs grant.privileges }

/-- A default privilege without its schema and grantee. -/
def signatureDefault (d : RoleDefault) : SignatureDefault :=
  ⟨d.grant.onType, canonicalPrivs d.grant.privileges⟩

/-- What a role is granted in one schema, in a form that does not name the schema. -/
def computeSignature (grants : List Grant) (defaults : List RoleDefault) (schema : String) :
    RoleSignature :=
  { grants := dedupRuns (sortBy compare (grants.map (signatureGrant schema)))
    defaults := dedupRuns (sortBy compare (defaults.map signatureDefault)) }

/-! ## Patterns -/

/-- The patterns tried first, in this order. -/
def patternPriority : List String :=
  [schemaPlaceholder ++ "-" ++ profilePlaceholder, schemaPlaceholder ++ "_" ++ profilePlaceholder,
    profilePlaceholder ++ "-" ++ schemaPlaceholder, profilePlaceholder ++ "_" ++ schemaPlaceholder]

/-- What follows the text, when the other starts with it. -/
def stripPrefixText (text start : String) : Option String :=
  if start.toList.isPrefixOf text.toList then
    some (String.ofList (text.toList.drop start.toList.length))
  else none

/-- What comes before the text, when the other ends in it. -/
def stripSuffixText (text tail : String) : Option String :=
  if tail.toList.isSuffixOf text.toList then
    some (String.ofList (text.toList.take (text.toList.length - tail.toList.length)))
  else none

/-- The text, unless it is empty. -/
def nonEmpty? (text : String) : Option String := if text.isEmpty then none else some text

/-- What follows the schema and a separator, or what comes before them. -/
def matchPattern (pattern roleName schema : String) : Option String :=
  if pattern = schemaPlaceholder ++ "-" ++ profilePlaceholder then
    ((stripPrefixText roleName schema).bind (stripPrefixText · "-")).bind nonEmpty?
  else if pattern = schemaPlaceholder ++ "_" ++ profilePlaceholder then
    ((stripPrefixText roleName schema).bind (stripPrefixText · "_")).bind nonEmpty?
  else if pattern = profilePlaceholder ++ "-" ++ schemaPlaceholder then
    ((stripSuffixText roleName schema).bind (stripSuffixText · "-")).bind nonEmpty?
  else if pattern = profilePlaceholder ++ "_" ++ schemaPlaceholder then
    ((stripSuffixText roleName schema).bind (stripSuffixText · "_")).bind nonEmpty?
  else none

/-- The comment that expansion writes for a profile's role. -/
def isAutoProfileComment (comment : String) : Bool :=
  startsWithText comment "Generated from profile '" && containsText comment "' for schema '" &&
    (stripSuffixText comment "'").isSome

/-- A name that a profile can have: letters, digits, hyphens and underscores, not at either end. -/
def isValidIdentifier (text : String) : Bool :=
  !text.isEmpty &&
    text.toList.all (fun c =>
      isAsciiLower c || isAsciiUpper c || isAsciiDigit c || c == '_' || c == '-') &&
    !startsWithText text "-" && !startsWithText text "_"

/-! ## Classification -/

/-- A role that a profile can stand for. -/
structure Eligible where
  roleName : String
  schema : String
  signature : RoleSignature
  login : Option Bool
  inherit : Option Bool

/-- The grants of each role, collapsed where the complete inventory is known. -/
def roleGrants (m : PolicyManifest) (collapseInventory : Option Inventory) :
    BTreeMap String (List Grant) :=
  let buckets := groupInto (m.grants.map fun grant => (grant.role, grant))
  match collapseInventory with
  | none => buckets
  | some inventory => buckets.map fun _ grants => collapseFullCoverageGrants grants inventory

/-- The schema-scoped default privileges of one declaration, by role. -/
def schemaDefaults (m : PolicyManifest) (d : DefaultPrivilege) : List (String × RoleDefault) :=
  match d.resolvedScope with
  | .ok (.schema schema) =>
      d.grant.filterMap fun grant => grant.role.map fun role =>
        (role, ⟨(d.owner.or m.defaultOwner).getD "", schema, grant⟩)
  | _ => []

/-- The default privileges of schemas, by the role they are for. -/
def roleDefaults (m : PolicyManifest) : BTreeMap String (List RoleDefault) :=
  groupInto (m.defaultPrivileges.flatMap (schemaDefaults m))

/-- The owner of each schema, which defaults to the manifest's. -/
def schemaOwners (m : PolicyManifest) : BTreeMap String (Option String) :=
  ExtTreeMap.ofList (m.schemas.map fun s => (s.name, s.owner.or m.defaultOwner)) compare

/-- The role sets something a profile cannot express, or a comment of its own. -/
def hasUniqueAttributes (d : RoleDefinition) : Bool :=
  d.superuser.isSome || d.createdb.isSome || d.createrole.isSome || d.replication.isSome ||
    d.bypassrls.isSome || d.connectionLimit.isSome || d.password.isSome ||
    d.passwordValidUntil.isSome || !d.config.isEmpty ||
    d.comment.any fun comment => !isAutoProfileComment comment

/-- The schema a grant is relative to. -/
def grantSchema? (grant : Grant) : Option String :=
  match grant.object.objectType with
  | .schema => grant.object.name
  | .database => none
  | _ => grant.object.schema

/-- A grant that no profile can express: an absence, or one outside of schemas. -/
def unrepresentable (grant : Grant) : Bool :=
  grant.ensure == .absent || (grantSchema? grant).isNone

/-- The role is denied a default privilege. -/
def roleHasAbsentDefaultPrivilege (m : PolicyManifest) (role : String) : Bool :=
  m.defaultPrivileges.any fun d =>
    d.grant.any fun grant => grant.role == some role && grant.ensure == .absent

/-- The role has a default privilege of global scope. -/
def roleHasGlobalDefaultPrivilege (m : PolicyManifest) (role : String) : Bool :=
  m.defaultPrivileges.any fun d =>
    (match d.resolvedScope with
      | .ok .global => true
      | _ => false) &&
    d.grant.any fun grant => grant.role == some role

/-- The schemas a role touches. -/
def schemasSeen (grants : List Grant) (defaults : List RoleDefault) : BTreeSet String :=
  ExtTreeSet.ofList (grants.filterMap grantSchema? ++ defaults.map (·.schema)) compare

/-- A role with its grants and default privileges is eligible, or skipped for a reason, or has
nothing to promote. -/
def classify (m : PolicyManifest) (grants : List Grant) (defaults : List RoleDefault)
    (d : RoleDefinition) : Except (Option SkipReason) Eligible := do
  rejectIf (hasUniqueAttributes d) (some (.uniqueAttributes d.name))
  rejectIf (grants.any unrepresentable) (some (.unrepresentableGrant d.name))
  rejectIf (roleHasGlobalDefaultPrivilege m d.name || roleHasAbsentDefaultPrivilege m d.name)
    (some (.unrepresentableGrant d.name))
  match (schemasSeen grants defaults).toList with
  | [] => .error none
  | [schema] =>
      match (schemaOwners m)[schema]? with
      | none => .error (some (.schemaNotDeclared d.name schema))
      | some owner =>
          rejectIf (defaults.any fun x => some x.owner != owner)
            (some (.ownerMismatch d.name schema)) >>= fun _ =>
          .ok ⟨d.name, schema, computeSignature grants defaults schema, d.login, d.inherit⟩
  | schemas => .error (some (.multiSchema d.name schemas))

/-- The classification of each role, in order. -/
def classifyRoles (m : PolicyManifest) (grants : BTreeMap String (List Grant)) :
    List (Except (Option SkipReason) Eligible) :=
  m.roles.map fun d =>
    classify m (grants[d.name]?.getD []) ((roleDefaults m)[d.name]?.getD []) d

/-! ## Clusters -/

/-- Roles of one cluster share the signature and the two attributes a profile can set. -/
abbrev ClusterKey : Type := RoleSignature × Option Bool × Option Bool

instance instTransOrdClusterKey : TransOrd ClusterKey := instTransOrdProd

/-- Eligible roles with one signature and one pair of options; larger clusters first. -/
def clusterEntries (eligible : List Eligible) : List (ClusterKey × List Eligible) :=
  sortBy (fun a b => (compare b.2.length a.2.length).then (compare a.1 b.1))
    (groupInto (eligible.map fun el => ((el.signature, el.login, el.inherit), el))).toList

/-- The first member of each schema. -/
def uniqueBySchema : List String → List Eligible → List Eligible
  | _, [] => []
  | seen, el :: els =>
      if seen.contains el.schema then uniqueBySchema seen els
      else el :: uniqueBySchema (el.schema :: seen) els

/-- What the clusters handled so far have claimed. -/
structure ClusterState where
  schemaPattern : BTreeMap String String := ∅
  schemaProfiles : BTreeMap String (List String) := ∅
  profilesOut : BTreeMap String Profile := ∅
  suggested : List SuggestedProfile := []
  taken : BTreeSet String := ∅
  clustered : BTreeSet String := ∅
  skipped : List SkipReason := []

/-- The profile name that every member's role has under the pattern, when it is a free one. -/
def viableName (m : PolicyManifest) (state : ClusterState) (members : List Eligible)
    (pattern : String) : Option String :=
  match members.mapM fun el => matchPattern pattern el.roleName el.schema with
  | none => none
  | some names =>
      match (ExtTreeSet.ofList names compare : BTreeSet String).toList with
      | [name] =>
          if !isValidIdentifier name || state.taken.contains name || m.profiles.contains name then
            none
          else some name
      | _ => none

/-- A schema of the members that is committed to another pattern. -/
def blockedBySchema (state : ClusterState) (members : List Eligible) (pattern : String) :
    Option (String × String) :=
  members.findSome? fun el =>
    (state.schemaPattern[el.schema]?.filter (· ≠ pattern)).map fun committed =>
      (el.schema, committed)

/-- The first pattern that is viable and free; failing that, the first conflict. -/
def choosePattern (m : PolicyManifest) (state : ClusterState) (members : List Eligible) :
    List String → Option (String × String) → Option (String × String) × Option (String × String)
  | [], conflict => (none, conflict)
  | pattern :: patterns, conflict =>
      match viableName m state members pattern, blockedBySchema state members pattern with
      | some name, none => (some (pattern, name), conflict)
      | some _, some found => choosePattern m state members patterns (conflict.or (some found))
      | none, _ => choosePattern m state members patterns conflict

/-- Schema grants name no object; the profile is bound to the schema. -/
def profileGrantOf (grant : Grant) : ProfileGrant :=
  { privileges := canonicalPrivs grant.privileges
    object := match grant.object.objectType with
      | .schema => ⟨.schema, none⟩
      | objectType => ⟨objectType, grant.object.name⟩ }

/-- A default privilege as a profile writes it. -/
def profileDefaultOf (d : RoleDefault) : DefaultPrivilegeGrant :=
  { privileges := canonicalPrivs d.grant.privileges, onType := d.grant.onType }

/-- The profile that a role's grants and defaults are read from. -/
def buildProfile (login inherit : Option Bool) (grants : List Grant)
    (defaults : List RoleDefault) : Profile :=
  { login := login
    inherit := inherit
    grants := sortBy (fun a b => compare (a.object.objectType, a.object.name)
      (b.object.objectType, b.object.name)) (grants.map profileGrantOf)
    defaultPrivileges := sortBy (fun a b => compare a.onType b.onType)
      (defaults.map profileDefaultOf) }

/-- Claim the schema of a member for the profile. -/
def commitMember (pattern profileName : String) (state : ClusterState) (el : Eligible) :
    ClusterState :=
  { state with
    schemaPattern := state.schemaPattern.insert el.schema pattern
    schemaProfiles := pushGroup state.schemaProfiles el.schema profileName
    clustered := state.clustered.insert el.roleName }

/-- Commit a cluster to a pattern; the profile is built from its first member. -/
def commitCluster (grants : BTreeMap String (List Grant))
    (defaults : BTreeMap String (List RoleDefault)) (key : ClusterKey) (members : List Eligible)
    (pattern profileName : String) (state : ClusterState) : ClusterState :=
  match members with
  | [] => state
  | representative :: _ =>
      let committed := members.foldl (commitMember pattern profileName) state
      { committed with
        profilesOut := committed.profilesOut.insert profileName
          (buildProfile key.2.1 key.2.2 (grants[representative.roleName]?.getD [])
            (defaults[representative.roleName]?.getD []))
        taken := committed.taken.insert profileName
        suggested := committed.suggested ++
          [⟨profileName, pattern,
            ExtTreeMap.ofList (members.map fun el => (el.schema, el.roleName)) compare⟩] }

/-- Leave the cluster out, for the given reasons. -/
def skipCluster (state : ClusterState) (reasons : List SkipReason) : ClusterState :=
  { state with skipped := state.skipped ++ reasons }

/-- Handle one cluster. -/
def processCluster (m : PolicyManifest) (minSchemas : Nat) (grants : BTreeMap String (List Grant))
    (state : ClusterState) (entry : ClusterKey × List Eligible) : ClusterState :=
  let distinctSchemas : BTreeSet String :=
    ExtTreeSet.ofList (entry.2.map (·.schema)) compare
  if distinctSchemas.size < minSchemas then
    skipCluster state (entry.2.map fun el => .soleSchema el.roleName el.schema)
  else
    let members := uniqueBySchema [] entry.2
    match choosePattern m state members patternPriority none with
    | (some (pattern, profileName), _) =>
        commitCluster grants (roleDefaults m) entry.1 members pattern profileName state
    | (none, some (schema, winningPattern)) =>
        skipCluster state
          [.schemaPatternConflict schema winningPattern (members.map (·.roleName))]
    | (none, none) => skipCluster state [.noUniformPattern (members.map (·.roleName))]

/-! ## The candidate -/

/-- The schema with the profiles that were found bound to it, and its pattern. -/
def candidateSchema (state : ClusterState) (s : SchemaBinding) : SchemaBinding :=
  { name := s.name
    profiles := sortBy compare (state.schemaProfiles[s.name]?.getD [])
    rolePattern := state.schemaPattern[s.name]?.or s.rolePattern
    owner := s.owner }

/-- What a declaration says about the roles that stay flat. -/
def keptDefault (state : ClusterState) (d : DefaultPrivilege) : Option DefaultPrivilege :=
  let kept := d.grant.filter fun grant =>
    match grant.role with
    | some role => !state.clustered.contains role
    | none => true
  if kept.isEmpty then none else some { d with grant := kept }

/-- The manifest with the extracted profiles. -/
def candidateManifest (m : PolicyManifest) (state : ClusterState) : PolicyManifest :=
  { rolePattern := m.rolePattern
    defaultOwner := m.defaultOwner
    profiles := state.profilesOut
    schemas := sortBy (fun a b => compare a.name b.name) (m.schemas.map (candidateSchema state))
    roles := m.roles.filter fun d => !state.clustered.contains d.name
    grants := m.grants.filter fun grant => !state.clustered.contains grant.role
    defaultPrivileges := m.defaultPrivileges.filterMap (keptDefault state)
    memberships := m.memberships
    retirements := m.retirements }

/-- The expansion with its wildcard grants read over the inventory. -/
def withWildcardsExpanded (e : ExpandedManifest) (inventory : Inventory) : ExpandedManifest :=
  { e with grants := expandWildcards e.grants inventory }

/-- The change sets a comment. -/
def isSetComment : Change → Bool
  | .setComment _ _ => true
  | _ => false

/-- Both manifests expand to graphs that differ in comments alone. -/
def checkRoundTrip (original candidate : PolicyManifest) (inventory : Inventory) :
    Except RoundTripError Unit := do
  let e ← (expandManifest original).mapError .originalExpand
  let g ← (RoleGraph.fromExpanded (withWildcardsExpanded e inventory)
    original.defaultOwner).mapError .originalGraph
  let e' ← (expandManifest candidate).mapError .candidateExpand
  let g' ← (RoleGraph.fromExpanded (withWildcardsExpanded e' inventory)
    candidate.defaultOwner).mapError .candidateGraph
  let unacceptable := (diff g g').filter fun c => !isSetComment c
  rejectIf (!unacceptable.isEmpty) (.structural unacceptable)

/-! ## The suggester -/

/-- The complete inventory, where it was given and is not provably incomplete. -/
def collapseInventory (m : PolicyManifest) (opts : SuggestOptions) :
    Except IncompleteInventory (Option Inventory) :=
  match opts.fullInventory with
  | none => .ok none
  | some fullInventory =>
      (validateFullInventory (buildInventory m) fullInventory).map fun _ => some fullInventory

/-- The inventory in use, and why a given one is not. -/
def usedInventory (m : PolicyManifest) (opts : SuggestOptions) :
    Option Inventory × List SkipReason :=
  match collapseInventory m opts with
  | .ok inventory => (inventory, [])
  | .error reason => (none, [.incompleteFullInventory reason])

/-- The roles that can be generated from a profile. -/
def eligibleRoles (m : PolicyManifest) (inventory : Option Inventory) : List Eligible :=
  (classifyRoles m (roleGrants m inventory)).filterMap fun x => x.toOption

/-- The reasons of the roles that cannot. -/
def skippedRoles (m : PolicyManifest) (inventory : Option Inventory) : List SkipReason :=
  (classifyRoles m (roleGrants m inventory)).filterMap fun x =>
    match x with
    | .ok _ => none
    | .error reason => reason

/-- What the clusters claim, largest first. -/
def clusterRoles (m : PolicyManifest) (minSchemas : Nat) (inventory : Option Inventory)
    (skipped : List SkipReason) : ClusterState :=
  (clusterEntries (eligibleRoles m inventory)).foldl
    (processCluster m minSchemas (roleGrants m inventory)) { skipped := skipped }

/-- Run the suggester; where anything goes wrong the manifest is returned as it was. -/
def suggestProfiles (m : PolicyManifest) (opts : SuggestOptions) : SuggestReport :=
  if !m.profiles.isEmpty then ⟨m, [], [], true⟩
  else
    let used := usedInventory m opts
    let state := clusterRoles m opts.minSchemas used.1 (used.2 ++ skippedRoles m used.1)
    let candidate := candidateManifest m state
    match checkRoundTrip m candidate (used.1.getD (buildInventory m)) with
    | .ok _ => ⟨candidate, state.suggested, state.skipped, true⟩
    | .error reason => ⟨m, [], state.skipped ++ [.roundTripFailure reason], false⟩

end PgRoles.Core.Suggest

import PgRoles.Core.Approval

/-!
# The visual graph

The graph a diagram is drawn from. Roles are nodes; a member that is no role of the graph is an
external principal, and so is PUBLIC where something addresses it. The grants to a role are collapsed
by object type and schema or database to one edge, and default-privilege rules are nodes between
their owners and their grantees. Edges are made from the relations of the graph on their own, without
a look at the nodes.
-/

set_option autoImplicit false

namespace PgRoles.Core

open Std PgRoles.Lib

/-! ## Nodes and edges -/

/-- What a node stands for. -/
inductive NodeKind where
  | role
  | externalPrincipal
  | grantTarget
  | defaultPrivilegeTarget
  deriving DecidableEq, Repr

/-- A node of the graph; attributes that do not apply to its kind are absent. -/
structure VisualNode where
  id : String
  label : String
  kind : NodeKind
  managed : Option Bool := none
  login : Option Bool := none
  privileges : List String := []
  comment : Option String := none
  deriving DecidableEq, Repr

/-- The kinds of edges, in the order in which edges between the same nodes are sorted. -/
inductive EdgeKind where
  | membership
  | grant
  | defaultPrivilege
  deriving DecidableEq, Repr

/-- The order of the kinds of edges. -/
def EdgeKind.rank : EdgeKind → Nat
  | .membership => 0
  | .grant => 1
  | .defaultPrivilege => 2

/-- An edge from the node of one id to the node of another. -/
structure VisualEdge where
  source : String
  target : String
  kind : EdgeKind
  label : String
  deriving DecidableEq, Repr

/-- Where the graph data came from. -/
inductive VisualSource where
  | desired
  | current
  deriving DecidableEq, Repr

/-- Where a graph comes from, and how much is in it. -/
structure VisualMeta where
  source : VisualSource
  roleCount : Nat
  grantCount : Nat
  defaultPrivilegeCount : Nat
  membershipCount : Nat
  collapsed : Bool
  deriving DecidableEq, Repr

/-- The nodes and edges that are drawn of a role graph. -/
structure VisualGraph where
  schemaVersion : String
  info : VisualMeta
  nodes : List VisualNode
  edges : List VisualEdge
  deriving DecidableEq, Repr

/-- The version of the graph's form. -/
def visualGraphSchemaVersion : String := "pgroles.visual_graph.v1"

/-! ## Ids and labels -/

/-- The id of the node of a managed role. -/
def roleNodeId (name : String) : String := "role:" ++ name

/-- The id of the node of a role that is not managed. -/
def externalNodeId (name : String) : String := "external:" ++ name

/-- Node id for the grantee of a grant or default-privilege edge. PUBLIC is a pseudo-role and no
role of a graph. -/
def granteeNodeId (grantee : String) : String :=
  if grantee = publicRoleName then externalNodeId grantee else roleNodeId grantee

/-- Key for a collapsed grant group. -/
structure CollapsedGrantKey where
  role : String
  objectType : ObjectType
  /-- The schema, or the name of the schema or database the grant is on. -/
  scope : String
  deriving DecidableEq, Repr

/-- The fields that collapsed keys are ordered by. -/
def CollapsedGrantKey.fields (k : CollapsedGrantKey) : String × ObjectType × String :=
  (k.role, k.objectType, k.scope)

theorem CollapsedGrantKey.fields_injective : Function.Injective CollapsedGrantKey.fields := by
  rintro ⟨r, t, s⟩ ⟨r', t', s'⟩ h
  simp only [CollapsedGrantKey.fields, Prod.mk.injEq] at h
  obtain ⟨rfl, rfl, rfl⟩ := h
  rfl

instance : Ord CollapsedGrantKey := ordOn CollapsedGrantKey.fields
instance : TransOrd CollapsedGrantKey := transOrd_ordOn _
instance : LawfulEqOrd CollapsedGrantKey :=
  lawfulEqOrd_ordOn _ CollapsedGrantKey.fields_injective

/-- The id of the node of a grant target; a schema or database is its own object. -/
def grantTargetNodeId (objectType : ObjectType) (scope : String) : String :=
  match objectType with
  | .schema => "grant:schema:" ++ scope ++ ":" ++ scope
  | .database => "grant:database:" ++ scope ++ ":" ++ scope
  | _ => "grant:" ++ objectType.display ++ ":" ++ scope ++ ":*"

/-- The id of the node that a collapsed grant leads to. -/
def CollapsedGrantKey.nodeId (k : CollapsedGrantKey) : String :=
  grantTargetNodeId k.objectType k.scope

/-- The label of that node, with the objects of a type as one. -/
def CollapsedGrantKey.label (k : CollapsedGrantKey) : String :=
  match k.objectType with
  | .schema => k.scope ++ ".schema"
  | .database => k.scope ++ ".database"
  | _ => k.scope ++ "." ++ k.objectType.display ++ "s[*]"

/-- The scope a grant is collapsed under. -/
def collapsedScope (key : GrantKey) : String :=
  match key.objectType with
  | .schema => (key.name.or key.schema).getD "public"
  | .database => key.name.getD "db"
  | _ => key.schema.getD "public"

/-- The key with all objects of its scope taken as one. -/
def collapsedKey (key : GrantKey) : CollapsedGrantKey :=
  ⟨key.role.asStr, key.objectType, collapsedScope key⟩

/-- Group grants by role, object type and scope. -/
def collapseGrants (grants : BTreeMap GrantKey (Finset Privilege)) :
    BTreeMap CollapsedGrantKey (Finset Privilege) :=
  extendEntries ∅ (grants.toList.map fun e => (collapsedKey e.1, e.2))

/-- How the global scope is labelled. -/
def globalScopeLabel : String := "(global)"

/-- The schema of a default privilege, or the global label. -/
def DefaultPrivKey.scopeLabel (key : DefaultPrivKey) : String :=
  key.scope.schema?.getD globalScopeLabel

/-- The id of the node of a default privilege. -/
def defaultPrivNodeId (key : DefaultPrivKey) : String :=
  "default:" ++ key.owner ++ ":" ++ key.scopeLabel ++ ":" ++ key.onType.display ++ ":" ++
    key.grantee.asStr

/-- The label of the node of a default privilege. -/
def DefaultPrivKey.nodeLabel (key : DefaultPrivKey) : String :=
  "defaults: " ++ key.owner ++ " -> " ++ key.scopeLabel ++ "." ++ key.onType.display ++ "s"

/-- The label of a membership, with the options that are not the usual ones. -/
def membershipLabel (inherit admin : Bool) : String :=
  ", ".intercalate (["member"] ++ (if inherit then [] else ["NOINHERIT"]) ++
    (if admin then ["ADMIN"] else []))

/-- The texts of the privileges, in their order. -/
def privilegeTexts (privileges : Finset Privilege) : List String :=
  (Privilege.inOrder.filter (· ∈ privileges)).map Privilege.display

/-! ## Building -/

/-- The nodes so far, and their ids. -/
structure VisualNodes where
  nodes : List VisualNode := []
  nodeIds : BTreeSet String := ∅

/-- The nodes with one more. -/
def VisualNodes.add (s : VisualNodes) (node : VisualNode) : VisualNodes :=
  { nodes := s.nodes ++ [node], nodeIds := s.nodeIds.insert node.id }

/-- Add a node unless its id is taken. -/
def VisualNodes.addNew (s : VisualNodes) (node : VisualNode) : VisualNodes :=
  if s.nodeIds.contains node.id then s else s.add node

/-- The node of a managed role. -/
def roleNode (name : String) (state : RoleState) : VisualNode :=
  { id := roleNodeId name, label := name, kind := .role, managed := some true
    login := some state.login, comment := state.comment }

/-- The node of a role that is not managed. -/
def externalNode (name : String) : VisualNode :=
  { id := externalNodeId name, label := name, kind := .externalPrincipal, managed := some false }

/-- The node of the objects of a collapsed key. -/
def grantTargetNode (key : CollapsedGrantKey) (privileges : Finset Privilege) : VisualNode :=
  { id := key.nodeId, label := key.label, kind := .grantTarget
    privileges := privilegeTexts privileges }

/-- The node of a default privilege. -/
def defaultPrivNode (key : DefaultPrivKey) (privileges : Finset Privilege) : VisualNode :=
  { id := defaultPrivNodeId key, label := key.nodeLabel, kind := .defaultPrivilegeTarget
    privileges := privilegeTexts privileges }

/-- Something is granted to PUBLIC, or by default. -/
def addressesPublic (graph : RoleGraph) : Bool :=
  graph.grants.keys.any (·.role.isPublic) ||
    graph.defaultPrivileges.keys.any (·.grantee.isPublic)

/-- The texts in their order. -/
def sortTexts (texts : List String) : List String :=
  texts.mergeSort fun a b => (compare a b).isLE

/-- Merge privileges into a node. -/
def VisualNode.mergePrivileges (node : VisualNode) (privileges : Finset Privilege) : VisualNode :=
  { node with privileges := sortTexts ((privilegeTexts privileges).foldl
      (fun held text => if held.contains text then held else held ++ [text]) node.privileges) }

/-- Apply a function to the first node of an id. -/
def updateFirst (id : String) (f : VisualNode → VisualNode) : List VisualNode → List VisualNode
  | [] => []
  | node :: nodes => if node.id = id then f node :: nodes else node :: updateFirst id f nodes

/-- Add the target of collapsed grants, or merge their privileges into it. -/
def VisualNodes.addGrantTarget (s : VisualNodes) (e : CollapsedGrantKey × Finset Privilege) :
    VisualNodes :=
  if s.nodeIds.contains e.1.nodeId then
    { s with nodes := updateFirst e.1.nodeId (·.mergePrivileges e.2) s.nodes }
  else s.add (grantTargetNode e.1 e.2)

/-- The nodes, in the order in which they are made. -/
def visualNodes (graph : RoleGraph) : VisualNodes :=
  let s := graph.roles.toList.foldl (fun s e => s.add (roleNode e.1 e.2)) ({} : VisualNodes)
  let s := graph.memberships.toList.foldl (fun s edge =>
    if edge.member ∈ graph.roles then s else s.addNew (externalNode edge.member)) s
  let s := if addressesPublic graph then s.addNew (externalNode publicRoleName) else s
  let s := (collapseGrants graph.grants).toList.foldl VisualNodes.addGrantTarget s
  graph.defaultPrivileges.toList.foldl (fun s e => s.addNew (defaultPrivNode e.1 e.2)) s

/-- The edge of a membership, from the member to the role. -/
def membershipEdge (graph : RoleGraph) (edge : MembershipEdge) : VisualEdge :=
  { source := if edge.member ∈ graph.roles then roleNodeId edge.member
      else externalNodeId edge.member
    target := roleNodeId edge.role, kind := .membership
    label := membershipLabel edge.inherit edge.admin }

/-- The edge of a grant, from the grantee to the objects. -/
def grantEdge (e : CollapsedGrantKey × Finset Privilege) : VisualEdge :=
  { source := granteeNodeId e.1.role, target := e.1.nodeId, kind := .grant
    label := ",".intercalate (privilegeTexts e.2) }

/-- The edge of a default privilege, from its rule to the grantee. -/
def defaultPrivilegeEdge (e : DefaultPrivKey × Finset Privilege) : VisualEdge :=
  { source := defaultPrivNodeId e.1, target := granteeNodeId e.1.grantee.asStr
    kind := .defaultPrivilege, label := ",".intercalate (privilegeTexts e.2) }

/-- The edges, in the order in which they are made. -/
def visualEdges (graph : RoleGraph) : List VisualEdge :=
  graph.memberships.toList.map (membershipEdge graph) ++
    (collapseGrants graph.grants).toList.map grantEdge ++
    graph.defaultPrivileges.toList.map defaultPrivilegeEdge

/-- The nodes in the order of their ids. -/
def sortNodes (nodes : List VisualNode) : List VisualNode :=
  nodes.mergeSort fun a b => (compare a.id b.id).isLE

/-- The edges in the order of their ends and kinds. -/
def sortEdges (edges : List VisualEdge) : List VisualEdge :=
  edges.mergeSort fun a b =>
    (compare (a.source, a.target, a.kind.rank) (b.source, b.target, b.kind.rank)).isLE

/-- Build a visual graph from a role graph; nodes and edges are sorted for deterministic output. -/
def buildVisualGraph (graph : RoleGraph) (source : VisualSource) : VisualGraph :=
  { schemaVersion := visualGraphSchemaVersion
    info :=
      { source := source
        roleCount := graph.roles.size
        grantCount := graph.grants.size
        defaultPrivilegeCount := graph.defaultPrivileges.size
        membershipCount := graph.memberships.size
        collapsed := true }
    nodes := sortNodes (visualNodes graph).nodes
    edges := sortEdges (visualEdges graph) }

end PgRoles.Core

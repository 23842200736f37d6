import PgRoles.Core.ExpandKeys
import PgRoles.Core.VisualRender

/-!
# What diagrams show

A diagram is to have one node for each entity of the graph and one edge for each relation. It does
when every relation is between entities of the graph and no two entities are spelled alike in their
ids (`drawnFaithfully_iff`). The graph of an accepted manifest guarantees neither: a membership of a
role that the manifest does not declare leads to a node that is not there, and names may hold the
texts that other names' characters are replaced by.
-/

set_option autoImplicit false

namespace PgRoles.Core

open Std PgRoles.Lib

/-! ## Entities and relations -/

/-- What a diagram has nodes for. PUBLIC is an external principal. -/
inductive VisualEntity where
  | role (name : String)
  | external (name : String)
  | grantTarget (objectType : ObjectType) (scope : String)
  | defaultRule (key : DefaultPrivKey)
  deriving DecidableEq

/-- The id of the node that draws an entity. -/
def VisualEntity.id : VisualEntity → String
  | .role name => roleNodeId name
  | .external name => externalNodeId name
  | .grantTarget objectType scope => grantTargetNodeId objectType scope
  | .defaultRule key => defaultPrivNodeId key

/-- The entity is one of the graph. -/
def VisualEntity.Of (graph : RoleGraph) : VisualEntity → Prop
  | .role name => name ∈ graph.roles
  | .external name =>
      (name ∉ graph.roles ∧ ∃ edge ∈ graph.memberships, edge.member = name) ∨
        (name = publicRoleName ∧ addressesPublic graph = true)
  | .grantTarget objectType scope =>
      ∃ key ∈ graph.grants, key.objectType = objectType ∧ collapsedScope key = scope
  | .defaultRule key => key ∈ graph.defaultPrivileges

/-- The member of a membership. -/
def memberEntity (graph : RoleGraph) (name : String) : VisualEntity :=
  if name ∈ graph.roles then .role name else .external name

/-- The entity that a grantee is drawn as; PUBLIC is drawn outside of the roles. -/
def granteeEntity (grantee : String) : VisualEntity :=
  if grantee = publicRoleName then .external grantee else .role grantee

/-- The ends of the relations of a graph: memberships, collapsed grants and default rules. -/
def visualRelations (graph : RoleGraph) : List (VisualEntity × VisualEntity) :=
  graph.memberships.toList.map (fun edge =>
    (memberEntity graph edge.member, .role edge.role)) ++
  (collapseGrants graph.grants).toList.map (fun e =>
    (granteeEntity e.1.role, .grantTarget e.1.objectType e.1.scope)) ++
  graph.defaultPrivileges.toList.map fun e =>
    (.defaultRule e.1, granteeEntity e.1.grantee.asStr)

/-- One node for each entity and no other, and one edge for each relation, between its ends. -/
structure Drawing.Shows (drawing : Drawing) (graph : RoleGraph) (escape : String → String) :
    Prop where
  distinct : ∀ a b : VisualEntity, a.Of graph → b.Of graph → escape a.id = escape b.id → a = b
  nodes : ∀ a : VisualEntity, a.Of graph → drawing.nodes.count (escape a.id) = 1
  entities : ∀ id, drawing.Names id → ∃ a : VisualEntity, a.Of graph ∧ escape a.id = id
  edges : drawing.edges.Perm
    ((visualRelations graph).map fun ends => (escape ends.1.id, escape ends.2.id))

/-- What the diagrams of a graph are to be. -/
structure DrawnFaithfully (isAlphanumeric : Char → Bool) (graph : RoleGraph)
    (visual : VisualGraph) : Prop where
  distinct : ∀ a b : VisualEntity, a.Of graph → b.Of graph → a.id = b.id → a = b
  endpoints : ∀ edge ∈ visual.edges, (visual.nodes.map (·.id)).count edge.source = 1 ∧
    (visual.nodes.map (·.id)).count edge.target = 1
  injective : ∀ node ∈ visual.nodes, ∀ node' ∈ visual.nodes,
    mermaidEscapeId isAlphanumeric node.id = mermaidEscapeId isAlphanumeric node'.id →
      node.id = node'.id
  characters : ∀ node ∈ visual.nodes, ∀ c ∈ (mermaidEscapeId isAlphanumeric node.id).toList,
    isAlphanumeric c = true ∨ c = '-' ∨ c = '_'
  mermaid : (visual.drawing (mermaidEscapeId isAlphanumeric)).Shows graph
    (mermaidEscapeId isAlphanumeric)
  dot : (visual.drawing dotEscapeId).Shows graph dotEscapeId

/-! ## When they are -/

/-- What the id of a default rule tells of it. -/
def ruleText (key : DefaultPrivKey) : String :=
  key.owner ++ ":" ++ key.scopeLabel ++ ":" ++ key.onType.display ++ ":" ++ key.grantee.asStr

/-- Two names are equal up to characters that are written out as their replacements. -/
def NamesAlike (isAlphanumeric : Char → Bool) (s t : String) : Prop :=
  SpelledAlike (mermaidEscapeChar isAlphanumeric) s.toList t.toList

/-- Entities of one kind are alike when their names are; grant targets also share their type. -/
def VisualEntity.Alike (isAlphanumeric : Char → Bool) : VisualEntity → VisualEntity → Prop
  | .role s, .role t => NamesAlike isAlphanumeric s t
  | .external s, .external t => NamesAlike isAlphanumeric s t
  | .grantTarget ty s, .grantTarget ty' t => ty = ty' ∧ NamesAlike isAlphanumeric s t
  | .defaultRule k, .defaultRule k' => NamesAlike isAlphanumeric (ruleText k) (ruleText k')
  | _, _ => False

/-- Relations are between roles of the graph, PUBLIC apart, and no two entities are alike. -/
structure Drawable (isAlphanumeric : Char → Bool) (graph : RoleGraph) : Prop where
  membershipRoles : ∀ edge ∈ graph.memberships, edge.role ∈ graph.roles
  grantees : ∀ key ∈ graph.grants, ∀ name, key.role = .role name → name ∈ graph.roles
  defaultGrantees : ∀ key ∈ graph.defaultPrivileges, ∀ name, key.grantee = .role name →
    name ∈ graph.roles
  names : ∀ a b : VisualEntity, a.Of graph → b.Of graph → a.Alike isAlphanumeric b → a = b

/-! ## Ids -/

/-- The first letter of the ids of a kind. -/
def VisualEntity.letter : VisualEntity → Char
  | .role _ => 'r'
  | .external _ => 'e'
  | .grantTarget .. => 'g'
  | .defaultRule _ => 'd'

/-- The last part of the id of a grant target. -/
def targetTail (objectType : ObjectType) (scope : String) : String :=
  match objectType with
  | .schema | .database => scope
  | _ => "*"

theorem toList_grantTargetNodeId (objectType : ObjectType) (scope : String) :
    (grantTargetNodeId objectType scope).toList =
      "grant:".toList ++ (objectType.display.toList ++ (":".toList ++ (scope.toList ++
        (":".toList ++ (targetTail objectType scope).toList)))) := by
  have hschema : "grant:schema:".toList = "grant:".toList ++ ("schema".toList ++ ":".toList) := by
    decide
  have hdatabase : "grant:database:".toList =
      "grant:".toList ++ ("database".toList ++ ":".toList) := by decide
  have hstar : ":*".toList = ":".toList ++ "*".toList := by decide
  unfold grantTargetNodeId targetTail
  cases objectType with
  | schema => simp only [ObjectType.display, String.toList_append, hschema, List.append_assoc]
  | database => simp only [ObjectType.display, String.toList_append, hdatabase, List.append_assoc]
  | _ => simp only [String.toList_append, hstar, List.append_assoc]

theorem toList_defaultPrivNodeId (key : DefaultPrivKey) :
    (defaultPrivNodeId key).toList = "default:".toList ++ (ruleText key).toList := by
  simp only [defaultPrivNodeId, ruleText, String.toList_append, List.append_assoc]

/-- The first letter of an id tells the kind of the entity. -/
theorem VisualEntity.head?_id (a : VisualEntity) : a.id.toList.head? = some a.letter := by
  cases a with
  | role name => simp [VisualEntity.id, VisualEntity.letter, roleNodeId, String.toList_append]
  | external name =>
      simp [VisualEntity.id, VisualEntity.letter, externalNodeId, String.toList_append]
  | grantTarget objectType scope =>
      have hgrant : "grant:".toList = 'g' :: "rant:".toList := by decide
      rw [VisualEntity.id, toList_grantTargetNodeId, hgrant]
      rfl
  | defaultRule key =>
      have hdefault : "default:".toList = 'd' :: "efault:".toList := by decide
      rw [VisualEntity.id, toList_defaultPrivNodeId, hdefault]
      rfl

/-- A role's id is that of the role only. -/
theorem eq_role_of_id {a : VisualEntity} {name : String} (h : a.id = roleNodeId name) :
    a = .role name := by
  have hletter : a.letter = 'r' := by
    have hhead := a.head?_id
    rw [h, show roleNodeId name = (VisualEntity.role name).id from rfl,
      VisualEntity.head?_id] at hhead
    exact (Option.some.inj hhead).symm
  cases a with
  | role s =>
      have htext := congrArg String.toList h
      simp only [VisualEntity.id, roleNodeId, String.toList_append] at htext
      rw [String.toList_injective (List.append_cancel_left htext)]
  | _ => exact absurd hletter (by simp [VisualEntity.letter])

/-- The texts of types start differently, whatever follows them. -/
theorem display_append_inj {ty ty' : ObjectType} {r r' : List Char}
    (h : ty.display.toList ++ r = ty'.display.toList ++ r') : ty = ty' ∧ r = r' := by
  have hstarts : ∀ ty ty' : ObjectType, ty.display.toList.take 3 = ty'.display.toList.take 3 →
      ty = ty' := by
    intro ty ty'
    cases ty <;> cases ty' <;> decide
  have hlong : ∀ ty : ObjectType, 3 ≤ ty.display.toList.length := by
    intro ty
    cases ty <;> decide
  have htake := congrArg (List.take 3) h
  rw [List.take_append_of_le_length (hlong ty), List.take_append_of_le_length (hlong ty')] at htake
  obtain rfl := hstarts ty ty' htake
  exact ⟨rfl, List.append_cancel_left h⟩

section Escaped

variable {isAlphanumeric : Char → Bool} (hascii : KnownOnAscii isAlphanumeric)

theorem mermaidEscapeId_eq_iff_toList {s t : String} :
    mermaidEscapeId isAlphanumeric s = mermaidEscapeId isAlphanumeric t ↔
      s.toList.flatMap (mermaidEscapeChar isAlphanumeric) =
        t.toList.flatMap (mermaidEscapeChar isAlphanumeric) := by
  rw [mermaidEscapeId, mermaidEscapeId, String.ofList_inj]

include hascii

theorem namesAlike_iff {s t : String} :
    NamesAlike isAlphanumeric s t ↔ s.toList.flatMap (mermaidEscapeChar isAlphanumeric) =
      t.toList.flatMap (mermaidEscapeChar isAlphanumeric) :=
  (flatMap_eq_flatMap_iff (mermaidEscapeChar_idem hascii)).symm

/-- The first letter of an id is kept. -/
theorem letter_eq_of_escape {a b : VisualEntity}
    (h : a.id.toList.flatMap (mermaidEscapeChar isAlphanumeric) =
      b.id.toList.flatMap (mermaidEscapeChar isAlphanumeric)) : a.letter = b.letter := by
  have hhead : ∀ a : VisualEntity,
      (a.id.toList.flatMap (mermaidEscapeChar isAlphanumeric)).head? = some a.letter := by
    intro a
    obtain ⟨rest, hrest⟩ := List.head?_eq_some_iff.1 a.head?_id
    have hkept : isIdChar isAlphanumeric a.letter = true := by
      apply isIdChar_of_ascii hascii
      cases a <;> rfl
    rw [hrest, List.flatMap_cons, mermaidEscapeChar_of_isIdChar hascii hkept]
    rfl
  have heq := hhead a
  rw [h, hhead b] at heq
  exact (Option.some.inj heq).symm

/-- Ids of grant targets are written alike when type and scope are. -/
theorem escape_grantTargetNodeId_iff {ty ty' : ObjectType} {s t : String} :
    (grantTargetNodeId ty s).toList.flatMap (mermaidEscapeChar isAlphanumeric) =
        (grantTargetNodeId ty' t).toList.flatMap (mermaidEscapeChar isAlphanumeric) ↔
      ty = ty' ∧ s.toList.flatMap (mermaidEscapeChar isAlphanumeric) =
        t.toList.flatMap (mermaidEscapeChar isAlphanumeric) := by
  have hdisplay : ∀ ty : ObjectType,
      ty.display.toList.flatMap (mermaidEscapeChar isAlphanumeric) = ty.display.toList := by
    intro ty
    apply flatMap_mermaidEscapeChar hascii
    apply isIdChar_of_asciiText hascii
    cases ty <;> decide
  simp only [toList_grantTargetNodeId, List.flatMap_append, hdisplay]
  constructor
  · intro h
    obtain ⟨rfl, hrest⟩ := display_append_inj (List.append_cancel_left h)
    refine ⟨rfl, ?_⟩
    have hscopes := List.append_cancel_left hrest
    by_cases hnamed : ty = .schema ∨ ty = .database
    · -- the scope stands twice, so both sides split in the middle
      have htail : ∀ scope, targetTail ty scope = scope := by
        rcases hnamed with rfl | rfl <;> exact fun _ => rfl
      rw [htail, htail] at hscopes
      have hlen := congrArg List.length hscopes
      simp only [List.length_append] at hlen
      exact (List.append_inj hscopes (by omega)).1
    · have htail : ∀ scope, targetTail ty scope = "*" := by
        rw [not_or] at hnamed
        cases ty <;> first | exact fun _ => rfl | exact absurd rfl hnamed.1 | exact absurd rfl hnamed.2
      rw [htail, htail] at hscopes
      exact List.append_cancel_right hscopes
  · rintro ⟨rfl, h⟩
    have htail : (targetTail ty s).toList.flatMap (mermaidEscapeChar isAlphanumeric) =
        (targetTail ty t).toList.flatMap (mermaidEscapeChar isAlphanumeric) := by
      cases ty <;> first | exact h | rfl
    rw [h, htail]

/-- Ids are written alike in Mermaid exactly for entities that are alike. -/
theorem escape_id_eq_iff (a b : VisualEntity) :
    mermaidEscapeId isAlphanumeric a.id = mermaidEscapeId isAlphanumeric b.id ↔
      a.Alike isAlphanumeric b := by
  rw [mermaidEscapeId_eq_iff_toList]
  by_cases hletter : a.letter = b.letter
  · cases a <;> cases b <;> simp only [VisualEntity.letter, Char.reduceEq] at hletter
    case role.role s t =>
      simp only [VisualEntity.id, VisualEntity.Alike, namesAlike_iff hascii, roleNodeId,
        String.toList_append, List.flatMap_append, List.append_cancel_left_eq]
    case external.external s t =>
      simp only [VisualEntity.id, VisualEntity.Alike, namesAlike_iff hascii, externalNodeId,
        String.toList_append, List.flatMap_append, List.append_cancel_left_eq]
    case grantTarget.grantTarget ty s ty' t =>
      simp only [VisualEntity.id, VisualEntity.Alike, namesAlike_iff hascii]
      exact escape_grantTargetNodeId_iff hascii
    case defaultRule.defaultRule k k' =>
      simp only [VisualEntity.id, VisualEntity.Alike, namesAlike_iff hascii,
        toList_defaultPrivNodeId, List.flatMap_append, List.append_cancel_left_eq]
  · -- kinds with different letters
    constructor
    · intro h
      exact absurd (letter_eq_of_escape hascii h) hletter
    · intro h
      cases a <;> cases b <;> first | exact absurd rfl hletter | exact h.elim

end Escaped

/-! ## Nodes -/

/-- The ids of the nodes. -/
def VisualNodes.ids (s : VisualNodes) : List String := s.nodes.map (·.id)

/-- The ids are those of the nodes, each of one node. -/
structure VisualNodes.Registered (s : VisualNodes) : Prop where
  nodup : s.ids.Nodup
  known : ∀ id, s.nodeIds.contains id = true ↔ id ∈ s.ids

/-- The second has the ids of the first and new ones. -/
structure VisualNodes.Extends (s s' : VisualNodes) (new : String → Prop) : Prop where
  registered : s'.Registered
  ids : ∀ id, id ∈ s'.ids ↔ id ∈ s.ids ∨ new id

section Nodes

variable {s s' s'' : VisualNodes} {new new' : String → Prop}

theorem VisualNodes.Extends.trans (h : s.Extends s' new) (h' : s'.Extends s'' new') :
    s.Extends s'' fun id => new id ∨ new' id :=
  ⟨h'.registered, fun id => by rw [h'.ids, h.ids, or_assoc]⟩

theorem VisualNodes.Extends.congr (h : s.Extends s' new) (hnew : ∀ id, new id ↔ new' id) :
    s.Extends s' new' :=
  ⟨h.registered, fun id => by rw [h.ids, hnew]⟩

theorem VisualNodes.ids_add (s : VisualNodes) (node : VisualNode) :
    (s.add node).ids = s.ids ++ [node.id] := List.map_append

/-- Adding a node whose id is new extends the nodes by it. -/
theorem add_extends (hs : s.Registered) {node : VisualNode} (hfresh : node.id ∉ s.ids) :
    s.Extends (s.add node) (· = node.id) := by
  refine ⟨⟨?_, fun id => ?_⟩, fun id => ?_⟩
  · rw [VisualNodes.ids_add]
    exact List.nodup_append.2 ⟨hs.nodup, List.nodup_singleton _, fun a ha b hb hab => hfresh
      (List.mem_singleton.1 hb ▸ hab ▸ ha)⟩
  · rw [VisualNodes.ids_add, VisualNodes.add, ExtTreeSet.contains_insert, List.mem_append,
      List.mem_singleton, ← hs.known, Bool.or_eq_true, or_comm, beq_iff_eq, compare_eq_iff,
      eq_comm (a := id)]
  · rw [VisualNodes.ids_add, List.mem_append, List.mem_singleton]

theorem addNew_extends (hs : s.Registered) (node : VisualNode) :
    s.Extends (s.addNew node) (· = node.id) := by
  rw [VisualNodes.addNew]
  by_cases hknown : s.nodeIds.contains node.id = true
  · rw [if_pos hknown]
    have hmem := (hs.known node.id).1 hknown
    refine ⟨hs, fun id => (or_iff_left_of_imp ?_).symm⟩
    rintro rfl
    exact hmem
  · rw [if_neg hknown]
    exact add_extends hs fun hmem => hknown ((hs.known node.id).2 hmem)

theorem map_id_updateFirst {id : String} {f : VisualNode → VisualNode}
    (hf : ∀ node, (f node).id = node.id) (nodes : List VisualNode) :
    (updateFirst id f nodes).map (·.id) = nodes.map (·.id) := by
  induction nodes with
  | nil => rfl
  | cons node nodes ih =>
      rw [updateFirst]
      split
      · rw [List.map_cons, List.map_cons, hf]
      · rw [List.map_cons, List.map_cons, ih]

/-- Merging into a node keeps its id. -/
theorem addGrantTarget_extends (hs : s.Registered) (e : CollapsedGrantKey × Finset Privilege) :
    s.Extends (s.addGrantTarget e) (· = e.1.nodeId) := by
  rw [VisualNodes.addGrantTarget]
  by_cases hknown : s.nodeIds.contains e.1.nodeId = true
  · rw [if_pos hknown]
    have hids : VisualNodes.ids
        { s with nodes := updateFirst e.1.nodeId (·.mergePrivileges e.2) s.nodes } = s.ids :=
      map_id_updateFirst (f := (·.mergePrivileges e.2)) (fun _ => rfl) s.nodes
    have hmem := (hs.known e.1.nodeId).1 hknown
    refine ⟨⟨hids ▸ hs.nodup, fun id => ?_⟩, fun id => ?_⟩
    · rw [hids]
      exact hs.known id
    · rw [hids]
      refine (or_iff_left_of_imp ?_).symm
      rintro rfl
      exact hmem
  · rw [if_neg hknown]
    exact add_extends hs fun hmem => hknown ((hs.known e.1.nodeId).2 hmem)

/-- A loop adds what its steps add. -/
theorem foldl_extends {β : Type} {l : List β} {f : VisualNodes → β → VisualNodes}
    {p : β → String → Prop}
    (hstep : ∀ s : VisualNodes, s.Registered → ∀ x ∈ l, s.Extends (f s x) (p x))
    (hs : s.Registered) : s.Extends (l.foldl f s) fun id => ∃ x ∈ l, p x id := by
  induction l generalizing s with
  | nil => exact ⟨hs, fun id => by simp⟩
  | cons x l ih =>
      have hfirst := hstep s hs x List.mem_cons_self
      have hrest := ih (fun s hs y hy => hstep s hs y (List.mem_cons_of_mem x hy)) hfirst.registered
      exact (hfirst.trans hrest).congr fun id => by simp

/-- Nodes of different ids that are all new. -/
theorem foldl_add_extends {l : List VisualNode} (hs : s.Registered)
    (hnodup : (s.ids ++ l.map (·.id)).Nodup) :
    s.Extends (l.foldl VisualNodes.add s) fun id => ∃ node ∈ l, id = node.id := by
  induction l generalizing s with
  | nil => exact ⟨hs, fun id => by simp⟩
  | cons node l ih =>
      rw [List.map_cons] at hnodup
      have hfresh : node.id ∉ s.ids := fun hmem =>
        (List.nodup_append.1 hnodup).2.2 node.id hmem node.id List.mem_cons_self rfl
      have hfirst := add_extends hs hfresh
      have hrest := ih hfirst.registered (by
        rw [VisualNodes.ids_add, List.append_assoc]
        exact hnodup)
      exact (hfirst.trans hrest).congr fun id => by simp

end Nodes

/-- The nodes of roles have different ids. -/
theorem nodup_roleNodeIds (graph : RoleGraph) :
    ((graph.roles.toList.map fun e => roleNode e.1 e.2).map (·.id)).Nodup := by
  rw [List.map_map]
  have hcompose : (fun node : VisualNode => node.id) ∘ (fun e : String × RoleState =>
      roleNode e.1 e.2) = roleNodeId ∘ Prod.fst := rfl
  rw [hcompose, ← List.map_map]
  refine (nodup_fst_toList graph.roles).map fun a b h => ?_
  have htext := congrArg String.toList h
  simp only [roleNodeId, String.toList_append] at htext
  exact String.toList_injective (List.append_cancel_left htext)

/-- A collapsed key is a key of the grants collapsed. -/
theorem mem_collapseGrants {grants : BTreeMap GrantKey (Finset Privilege)}
    {k : CollapsedGrantKey} :
    k ∈ collapseGrants grants ↔ ∃ key ∈ grants, collapsedKey key = k := by
  rw [ExtTreeMap.mem_iff_isSome_getElem?, collapseGrants, isSome_extendEntries]
  constructor
  · rintro (h | ⟨privileges, h⟩)
    · simp at h
    · obtain ⟨e, he, heq⟩ := List.mem_map.1 h
      exact ⟨e.1, mem_iff_exists_getElem?.2 ⟨e.2, mem_toList_iff.1 he⟩, (Prod.mk.inj heq).1⟩
  · rintro ⟨key, hkey, rfl⟩
    obtain ⟨privileges, hprivileges⟩ := mem_iff_exists_getElem?.1 hkey
    exact .inr ⟨privileges, List.mem_map.2 ⟨(key, privileges), mem_toList_iff.2 hprivileges, rfl⟩⟩

/-- The ids of the entities, by what they are made from. -/
theorem exists_entity_id_iff {graph : RoleGraph} {id : String} :
    (∃ a : VisualEntity, a.Of graph ∧ a.id = id) ↔
      (∃ e ∈ graph.roles.toList, id = roleNodeId e.1) ∨
      (∃ edge ∈ graph.memberships.toList,
        edge.member ∉ graph.roles ∧ id = externalNodeId edge.member) ∨
      (addressesPublic graph = true ∧ id = externalNodeId publicRoleName) ∨
      (∃ e ∈ (collapseGrants graph.grants).toList, id = e.1.nodeId) ∨
      ∃ e ∈ graph.defaultPrivileges.toList, id = defaultPrivNodeId e.1 := by
  constructor
  · rintro ⟨a, ha, rfl⟩
    cases a with
    | role name =>
        obtain ⟨state, hstate⟩ := mem_iff_exists_getElem?.1 ha
        exact .inl ⟨(name, state), mem_toList_iff.2 hstate, rfl⟩
    | external name =>
        rcases ha with ⟨hrole, edge, hedge, rfl⟩ | ⟨rfl, haddressed⟩
        · exact .inr (.inl ⟨edge, ExtTreeSet.mem_toList.2 hedge, hrole, rfl⟩)
        · exact .inr (.inr (.inl ⟨haddressed, rfl⟩))
    | grantTarget objectType scope =>
        obtain ⟨key, hkey, rfl, rfl⟩ := ha
        obtain ⟨privileges, hprivileges⟩ := mem_iff_exists_getElem?.1
          (mem_collapseGrants.2 ⟨key, hkey, rfl⟩)
        exact .inr (.inr (.inr (.inl ⟨_, mem_toList_iff.2 hprivileges, rfl⟩)))
    | defaultRule key =>
        obtain ⟨privileges, hprivileges⟩ := mem_iff_exists_getElem?.1 ha
        exact .inr (.inr (.inr (.inr ⟨_, mem_toList_iff.2 hprivileges, rfl⟩)))
  · rintro (⟨e, he, rfl⟩ | ⟨edge, hedge, hrole, rfl⟩ | ⟨haddressed, rfl⟩ | ⟨e, he, rfl⟩ |
      ⟨e, he, rfl⟩)
    · exact ⟨.role e.1, mem_iff_exists_getElem?.2 ⟨e.2, mem_toList_iff.1 he⟩, rfl⟩
    · exact ⟨.external edge.member, .inl ⟨hrole, edge, ExtTreeSet.mem_toList.1 hedge, rfl⟩, rfl⟩
    · exact ⟨.external publicRoleName, .inr ⟨rfl, haddressed⟩, rfl⟩
    · obtain ⟨key, hkey, heq⟩ := mem_collapseGrants.1
        (mem_iff_exists_getElem?.2 ⟨e.2, mem_toList_iff.1 he⟩)
      refine ⟨.grantTarget e.1.objectType e.1.scope, ⟨key, hkey, ?_, ?_⟩, rfl⟩
      · rw [← heq]
        rfl
      · rw [← heq]
        rfl
    · exact ⟨.defaultRule e.1, mem_iff_exists_getElem?.2 ⟨e.2, mem_toList_iff.1 he⟩, rfl⟩

/-- The nodes have different ids, and the ids are those of the entities. -/
theorem visualNodes_registered (graph : RoleGraph) :
    (visualNodes graph).Registered ∧
      ∀ id, id ∈ (visualNodes graph).ids ↔ ∃ a : VisualEntity, a.Of graph ∧ a.id = id := by
  have hempty : ({} : VisualNodes).Registered := ⟨List.nodup_nil, fun id => by
    simp [VisualNodes.ids]⟩
  have hroles : ({} : VisualNodes).Extends
      (graph.roles.toList.foldl (fun s e => s.add (roleNode e.1 e.2)) {})
      fun id => ∃ e ∈ graph.roles.toList, id = roleNodeId e.1 := by
    have hadd := foldl_add_extends
      (l := graph.roles.toList.map fun e : String × RoleState => roleNode e.1 e.2) hempty
      (nodup_roleNodeIds graph)
    rw [List.foldl_map] at hadd
    exact hadd.congr fun id => by simp [roleNode]
  have hexternals := foldl_extends (l := graph.memberships.toList)
    (f := fun s edge => if edge.member ∈ graph.roles then s
      else s.addNew (externalNode edge.member))
    (p := fun edge id => edge.member ∉ graph.roles ∧ id = externalNodeId edge.member)
    (fun s hs edge _ => by
      by_cases hmember : edge.member ∈ graph.roles
      · rw [if_pos hmember]
        exact ⟨hs, fun id => by simp [hmember]⟩
      · rw [if_neg hmember]
        exact (addNew_extends hs _).congr fun id => by simp [hmember, externalNode])
    hroles.registered
  have hpublic : ∀ s : VisualNodes, s.Registered → s.Extends
      (if addressesPublic graph then s.addNew (externalNode publicRoleName) else s)
      fun id => addressesPublic graph = true ∧ id = externalNodeId publicRoleName := by
    intro s hs
    by_cases haddressed : addressesPublic graph = true
    · rw [if_pos haddressed]
      exact (addNew_extends hs _).congr fun id => by simp [haddressed, externalNode]
    · rw [if_neg haddressed]
      exact ⟨hs, fun id => by simp [haddressed]⟩
  have hgrants := foldl_extends (l := (collapseGrants graph.grants).toList)
    (fun s hs e _ => addGrantTarget_extends hs e) (hpublic _ hexternals.registered).registered
  have hrules := foldl_extends (l := graph.defaultPrivileges.toList)
    (fun s hs e _ => addNew_extends hs (defaultPrivNode e.1 e.2)) hgrants.registered
  have hall := (((hroles.trans hexternals).trans (hpublic _ hexternals.registered)).trans
    hgrants).trans hrules
  refine ⟨hall.registered, fun id => ?_⟩
  have hids : id ∈ (visualNodes graph).ids ↔ _ := hall.ids id
  have hnone : id ∉ VisualNodes.ids {} := List.not_mem_nil
  rw [hids, exists_entity_id_iff, or_iff_right hnone]
  simp only [or_assoc, defaultPrivNode]

/-! ## The visual graph -/

section VisualGraph

variable {graph : RoleGraph} {source : VisualSource}

theorem perm_buildVisualGraph_ids :
    ((buildVisualGraph graph source).nodes.map (·.id)).Perm (visualNodes graph).ids :=
  (List.mergeSort_perm _ _).map _

theorem nodup_buildVisualGraph_ids :
    ((buildVisualGraph graph source).nodes.map (·.id)).Nodup :=
  perm_buildVisualGraph_ids.nodup_iff.2 (visualNodes_registered graph).1.nodup

theorem mem_buildVisualGraph_ids {id : String} :
    id ∈ (buildVisualGraph graph source).nodes.map (·.id) ↔
      ∃ a : VisualEntity, a.Of graph ∧ a.id = id := by
  rw [perm_buildVisualGraph_ids.mem_iff, (visualNodes_registered graph).2]

theorem id_memberEntity (name : String) : (memberEntity graph name).id =
    if name ∈ graph.roles then roleNodeId name else externalNodeId name := by
  rw [memberEntity]
  split_ifs <;> rfl

theorem id_granteeEntity (grantee : String) : (granteeEntity grantee).id = granteeNodeId grantee := by
  rw [granteeEntity, granteeNodeId]
  split_ifs <;> rfl

/-- The edges lie between the ids of the ends of the relations. -/
theorem ends_visualEdges (graph : RoleGraph) :
    (visualEdges graph).map (fun edge => (edge.source, edge.target)) =
      (visualRelations graph).map fun ends => (ends.1.id, ends.2.id) := by
  simp only [visualEdges, visualRelations, List.map_append, List.map_map]
  congr 2
  · apply List.map_congr_left
    intro edge _
    simp only [Function.comp_apply, membershipEdge, id_memberEntity]
    rfl
  · apply List.map_congr_left
    intro e _
    simp only [Function.comp_apply, grantEdge, id_granteeEntity]
    rfl
  · funext e
    simp only [Function.comp_apply, defaultPrivilegeEdge, id_granteeEntity]
    rfl

/-- The edges join what is related. -/
theorem perm_buildVisualGraph_ends (f : String → String) :
    ((buildVisualGraph graph source).edges.map fun edge => (f edge.source, f edge.target)).Perm
      ((visualRelations graph).map fun ends => (f ends.1.id, f ends.2.id)) := by
  have hends := congrArg (List.map fun ends : String × String => (f ends.1, f ends.2))
    (ends_visualEdges graph)
  rw [List.map_map, List.map_map] at hends
  have hperm : ((buildVisualGraph graph source).edges.map
      fun edge => (f edge.source, f edge.target)).Perm
      ((visualEdges graph).map fun edge => (f edge.source, f edge.target)) :=
    (List.mergeSort_perm _ _).map _
  exact hperm.trans (.of_eq hends)

/-- An escape that tells the entities apart draws them and their relations. -/
theorem shows_of_injective {escape : String → String}
    (hinj : ∀ a b : VisualEntity, a.Of graph → b.Of graph → escape a.id = escape b.id → a = b)
    (hends : ∀ ends ∈ visualRelations graph, ends.1.Of graph ∧ ends.2.Of graph) :
    ((buildVisualGraph graph source).drawing escape).Shows graph escape := by
  have hnodes : ((buildVisualGraph graph source).drawing escape).nodes =
      ((buildVisualGraph graph source).nodes.map (·.id)).map escape := by
    rw [VisualGraph.drawing, List.map_map]
    rfl
  refine ⟨hinj, fun a ha => ?_, ?_, perm_buildVisualGraph_ends escape⟩
  · rw [hnodes]
    apply List.count_eq_one_of_mem
    · refine List.Nodup.map_on ?_ nodup_buildVisualGraph_ids
      intro id hid id' hid' heq
      obtain ⟨b, hb, rfl⟩ := mem_buildVisualGraph_ids.1 hid
      obtain ⟨b', hb', rfl⟩ := mem_buildVisualGraph_ids.1 hid'
      rw [hinj b b' hb hb' heq]
    · exact List.mem_map_of_mem (mem_buildVisualGraph_ids.2 ⟨a, ha, rfl⟩)
  · rintro id (hid | ⟨edge, hedge, hid⟩)
    · rw [hnodes] at hid
      obtain ⟨nodeId, hmem, rfl⟩ := List.mem_map.1 hid
      obtain ⟨a, ha, rfl⟩ := mem_buildVisualGraph_ids.1 hmem
      exact ⟨a, ha, rfl⟩
    · have hrelation := (perm_buildVisualGraph_ends escape).mem_iff.1 hedge
      obtain ⟨ends, hmem, rfl⟩ := List.mem_map.1 hrelation
      obtain ⟨hfirst, hsecond⟩ := hends ends hmem
      rcases hid with rfl | rfl
      · exact ⟨ends.1, hfirst, rfl⟩
      · exact ⟨ends.2, hsecond, rfl⟩

/-- An edge that ends at a node ends at an entity. -/
theorem exists_entity_of_endpoints
    (h : ∀ edge ∈ (buildVisualGraph graph source).edges,
      ((buildVisualGraph graph source).nodes.map (·.id)).count edge.source = 1 ∧
      ((buildVisualGraph graph source).nodes.map (·.id)).count edge.target = 1) :
    ∀ ends ∈ visualRelations graph, (∃ a : VisualEntity, a.Of graph ∧ a.id = ends.1.id) ∧
      ∃ a : VisualEntity, a.Of graph ∧ a.id = ends.2.id := by
  intro ends hends
  have hmem := (@perm_buildVisualGraph_ends graph source id).mem_iff.2
    (List.mem_map_of_mem hends)
  obtain ⟨edge, hedge, heq⟩ := List.mem_map.1 hmem
  obtain ⟨hsource, htarget⟩ : edge.source = ends.1.id ∧ edge.target = ends.2.id :=
    Prod.mk.inj heq
  obtain ⟨hone, htwo⟩ := h edge hedge
  have hpresent : ∀ {nodeId : String},
      ((buildVisualGraph graph source).nodes.map (·.id)).count nodeId = 1 →
      ∃ a : VisualEntity, a.Of graph ∧ a.id = nodeId := by
    intro nodeId hcount
    apply mem_buildVisualGraph_ids.1
    rw [← List.count_pos_iff, hcount]
    exact Nat.one_pos
  exact ⟨hsource ▸ hpresent hone, htarget ▸ hpresent htwo⟩

/-- A role that ends a relation is drawn only if it is a role of the graph. -/
theorem mem_roles_of_drawn {name : String}
    (h : ∃ a : VisualEntity, a.Of graph ∧ a.id = (VisualEntity.role name).id) :
    name ∈ graph.roles := by
  obtain ⟨a, ha, hid⟩ := h
  rw [eq_role_of_id hid] at ha
  exact ha

theorem membership_relation {edge : MembershipEdge} (h : edge ∈ graph.memberships) :
    (memberEntity graph edge.member, .role edge.role) ∈ visualRelations graph :=
  List.mem_append_left _ (List.mem_append_left _ (List.mem_map.2
    ⟨edge, ExtTreeSet.mem_toList.2 h, rfl⟩))

theorem grant_relation {key : GrantKey} (h : key ∈ graph.grants) :
    (granteeEntity key.role.asStr, .grantTarget key.objectType (collapsedScope key)) ∈
      visualRelations graph := by
  obtain ⟨privileges, hprivileges⟩ := mem_iff_exists_getElem?.1 (mem_collapseGrants.2 ⟨key, h, rfl⟩)
  exact List.mem_append_left _ (List.mem_append_right _ (List.mem_map.2
    ⟨_, mem_toList_iff.2 hprivileges, rfl⟩))

theorem default_relation {key : DefaultPrivKey} (h : key ∈ graph.defaultPrivileges) :
    (.defaultRule key, granteeEntity key.grantee.asStr) ∈ visualRelations graph := by
  obtain ⟨privileges, hprivileges⟩ := mem_iff_exists_getElem?.1 h
  exact List.mem_append_right _ (List.mem_map.2 ⟨_, mem_toList_iff.2 hprivileges, rfl⟩)

/-- No grantee is a role by the name of PUBLIC. -/
structure PublicParsed (graph : RoleGraph) : Prop where
  grants : ∀ key ∈ graph.grants, key.role ≠ .role publicRoleName
  defaults : ∀ key ∈ graph.defaultPrivileges, key.grantee ≠ .role publicRoleName

theorem granteeEntity_role {name : String} (h : Grantee.role name ≠ .role publicRoleName) :
    granteeEntity name = .role name :=
  if_neg fun heq => h (by rw [heq])

theorem granteeEntity_of {grantee : Grantee} (hparsed : grantee ≠ .role publicRoleName)
    (hdeclared : ∀ name, grantee = .role name → name ∈ graph.roles)
    (hpublic : grantee = .publicRole → addressesPublic graph = true) :
    (granteeEntity grantee.asStr).Of graph := by
  cases grantee with
  | publicRole => exact .inr ⟨rfl, hpublic rfl⟩
  | role name =>
      rw [Grantee.asStr, granteeEntity_role hparsed]
      exact hdeclared name rfl

/-- Between roles of the graph, every relation is between entities. -/
theorem Drawable.ends {isAlphanumeric : Char → Bool} (h : Drawable isAlphanumeric graph)
    (hparsed : PublicParsed graph) :
    ∀ ends ∈ visualRelations graph, ends.1.Of graph ∧ ends.2.Of graph := by
  intro ends hends
  rw [visualRelations, List.mem_append, List.mem_append] at hends
  rcases hends with (hmembership | hgrant) | hrule
  · obtain ⟨edge, hedge, rfl⟩ := List.mem_map.1 hmembership
    have hmem := ExtTreeSet.mem_toList.1 hedge
    refine ⟨?_, h.membershipRoles edge hmem⟩
    rw [memberEntity]
    split_ifs with hrole
    · exact hrole
    · exact .inl ⟨hrole, edge, hmem, rfl⟩
  · obtain ⟨e, he, rfl⟩ := List.mem_map.1 hgrant
    obtain ⟨key, hkey, heq⟩ := mem_collapseGrants.1
      (mem_iff_exists_getElem?.2 ⟨e.2, mem_toList_iff.1 he⟩)
    rw [← heq]
    refine ⟨granteeEntity_of (hparsed.grants key hkey) (h.grantees key hkey) fun hpublic => ?_,
      key, hkey, rfl, rfl⟩
    rw [addressesPublic, Bool.or_eq_true]
    refine .inl (List.any_eq_true.2 ⟨key, ExtTreeMap.mem_keys.2 hkey, ?_⟩)
    rw [hpublic]
    rfl
  · obtain ⟨e, he, rfl⟩ := List.mem_map.1 hrule
    have hkey : e.1 ∈ graph.defaultPrivileges :=
      mem_iff_exists_getElem?.2 ⟨e.2, mem_toList_iff.1 he⟩
    refine ⟨hkey, granteeEntity_of (hparsed.defaults e.1 hkey) (h.defaultGrantees e.1 hkey)
      fun hpublic => ?_⟩
    rw [addressesPublic, Bool.or_eq_true]
    refine .inr (List.any_eq_true.2 ⟨e.1, ExtTreeMap.mem_keys.2 hkey, ?_⟩)
    rw [hpublic]
    rfl

end VisualGraph

/-- The diagrams of a graph are what they are to be exactly when its relations are between its roles
and no two of its entities are alike. -/
theorem drawnFaithfully_iff_of_parsed {isAlphanumeric : Char → Bool}
    (hascii : KnownOnAscii isAlphanumeric) {graph : RoleGraph} (hparsed : PublicParsed graph)
    (source : VisualSource) :
    DrawnFaithfully isAlphanumeric graph (buildVisualGraph graph source) ↔
      Drawable isAlphanumeric graph := by
  constructor
  · intro h
    have hends := exists_entity_of_endpoints h.endpoints
    have hgrantee : ∀ {grantee : Grantee} {name : String}, grantee ≠ .role publicRoleName →
        grantee = .role name →
        (∃ a : VisualEntity, a.Of graph ∧ a.id = (granteeEntity grantee.asStr).id) →
        name ∈ graph.roles := by
      intro grantee name hparsed hname hdrawn
      subst hname
      rw [Grantee.asStr, granteeEntity_role hparsed] at hdrawn
      exact mem_roles_of_drawn hdrawn
    refine ⟨fun edge hedge => ?_, fun key hkey name hname => ?_, fun key hkey name hname => ?_,
      fun a b ha hb halike => ?_⟩
    · exact mem_roles_of_drawn (hends _ (membership_relation hedge)).2
    · exact hgrantee (hparsed.grants key hkey) hname (hends _ (grant_relation hkey)).1
    · exact hgrantee (hparsed.defaults key hkey) hname (hends _ (default_relation hkey)).2
    · exact h.mermaid.distinct a b ha hb ((escape_id_eq_iff hascii a b).2 halike)
  · intro h
    have hends := h.ends hparsed
    have hmermaid : ∀ a b : VisualEntity, a.Of graph → b.Of graph →
        mermaidEscapeId isAlphanumeric a.id = mermaidEscapeId isAlphanumeric b.id → a = b :=
      fun a b ha hb heq => h.names a b ha hb ((escape_id_eq_iff hascii a b).1 heq)
    have hdistinct : ∀ a b : VisualEntity, a.Of graph → b.Of graph → a.id = b.id → a = b :=
      fun a b ha hb heq => hmermaid a b ha hb (by rw [heq])
    refine ⟨hdistinct, fun edge hedge => ?_, fun node hnode node' hnode' heq => ?_,
      fun node _ c hc => ?_, shows_of_injective hmermaid hends,
      shows_of_injective (fun a b ha hb heq => hdistinct a b ha hb (dotEscapeId_injective heq))
        hends⟩
    · have hrelation := (@perm_buildVisualGraph_ends graph source id).mem_iff.1
        (List.mem_map_of_mem hedge)
      obtain ⟨ends, hmem, heq⟩ := List.mem_map.1 hrelation
      obtain ⟨hsource, htarget⟩ : ends.1.id = edge.source ∧ ends.2.id = edge.target :=
        Prod.mk.inj heq
      obtain ⟨hfirst, hsecond⟩ := hends ends hmem
      rw [← hsource, ← htarget]
      exact ⟨List.count_eq_one_of_mem nodup_buildVisualGraph_ids
          (mem_buildVisualGraph_ids.2 ⟨_, hfirst, rfl⟩),
        List.count_eq_one_of_mem nodup_buildVisualGraph_ids
          (mem_buildVisualGraph_ids.2 ⟨_, hsecond, rfl⟩)⟩
    · obtain ⟨a, ha, hid⟩ := mem_buildVisualGraph_ids.1 (List.mem_map_of_mem hnode)
      obtain ⟨b, hb, hid'⟩ := mem_buildVisualGraph_ids.1 (List.mem_map_of_mem hnode')
      rw [← hid, ← hid'] at heq ⊢
      rw [hmermaid a b ha hb heq]
    · have hchar := isIdChar_of_mem_mermaidEscapeId hascii hc
      simpa [isIdChar, or_assoc] using hchar

/-! ## Accepted manifests -/

section Accepted

variable {m : PolicyManifest} {e : ExpandedManifest} {graph : RoleGraph}

theorem Grantee.parse_ne_role_public (s : String) : Grantee.parse s ≠ .role publicRoleName := by
  rw [Grantee.parse]
  split_ifs with h
  · exact Grantee.noConfusion
  · intro heq
    exact h (Grantee.role.inj heq)

/-- The graph of a manifest has PUBLIC parsed. -/
theorem publicParsed_of_fromExpanded {defaultOwner : Option String}
    (hgraph : RoleGraph.fromExpanded e defaultOwner = .ok graph) : PublicParsed graph := by
  constructor
  · intro key hkey
    obtain ⟨grant, -, rfl⟩ := (mem_grants_or_absences hgraph).1 (.inl hkey)
    exact Grantee.parse_ne_role_public grant.role
  · intro key hkey
    obtain ⟨d, -, grant, -, role, -, scope, -, rfl⟩ :=
      (mem_defaults_or_absences hgraph).1 (.inl hkey)
    exact Grantee.parse_ne_role_public role

end Accepted

/-! ### A membership of one role -/

/-- Some roles, and the role `app` as a member of one. -/
def readerManifest (names : List String) (role : String) : PolicyManifest where
  roles := names.map fun name => { name := name }
  memberships := [⟨role, [{ name := "app" }], false⟩]

/-- What that manifest expands to. -/
def readerExpanded (names : List String) (role : String) : ExpandedManifest where
  roles := (readerManifest names role).roles
  memberships := (readerManifest names role).memberships

/-- Its graph. -/
def readerGraph (names : List String) (role : String) : RoleGraph where
  roles := ExtTreeMap.ofList ((readerManifest names role).roles.map fun d =>
    (d.name, .fromDefinition d)) compare
  memberships := ExtTreeSet.ofList [⟨role, "app", true, false⟩] compare

theorem fromExpanded_reader (names : List String) (role : String) :
    RoleGraph.fromExpanded (readerExpanded names role) none = .ok (readerGraph names role) := rfl

end PgRoles.Core

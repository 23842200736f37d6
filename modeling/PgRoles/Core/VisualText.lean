import PgRoles.Lib.QuotedText
import PgRoles.Core.VisualRender

/-!
# Reading diagrams

The rendered texts draw what their statements name. A DOT text is cut into statements at the
semicolons outside of quotes: one that starts with a quoted id is a node, or an edge when an arrow and
another id follow. A Mermaid text has one statement on each line: an id, and for an edge another one
at the end. Read so, the text of a graph gives its drawing, whatever the names are (`readDot_renderDot`)
or, for Mermaid, where no label breaks the line (`readMermaid_renderMermaid`).
-/

set_option autoImplicit false

namespace PgRoles.Core

open Std PgRoles.Lib

/-! ## Statements -/

/-- A statement of a diagram, with its ids as they are written. -/
inductive DrawingStatement where
  | node (id : String)
  | edge (source target : String)
  deriving DecidableEq, Repr

/-- The id of a statement that draws a node. -/
def DrawingStatement.node? : DrawingStatement → Option String
  | .node id => some id
  | .edge .. => none

/-- The two ids of a statement that draws an edge. -/
def DrawingStatement.edge? : DrawingStatement → Option (String × String)
  | .node _ => none
  | .edge source target => some (source, target)

/-- What statements draw. -/
def drawingOf (statements : List DrawingStatement) : Drawing :=
  ⟨statements.filterMap DrawingStatement.node?, statements.filterMap DrawingStatement.edge?⟩

/-- The statements of a graph, nodes first. -/
def VisualGraph.statements (escape : String → String) (graph : VisualGraph) :
    List DrawingStatement :=
  (graph.nodes.map fun node => .node (escape node.id)) ++
    graph.edges.map fun edge => .edge (escape edge.source) (escape edge.target)

/-- The drawing's own statements show the drawing. -/
theorem drawingOf_statements (escape : String → String) (graph : VisualGraph) :
    drawingOf (graph.statements escape) = graph.drawing escape := by
  simp [drawingOf, VisualGraph.statements, VisualGraph.drawing, List.filterMap_map,
    DrawingStatement.node?, DrawingStatement.edge?, Function.comp_def]

/-! ## DOT -/

/-- An id with its quotes. -/
def quotedId (body : List Char) : String := String.ofList ('"' :: (body ++ ['"']))

/-- A statement by what comes after its first id: an arrow and another id, or attributes. -/
def dotStatementOf (id : List Char) : List Char → DrawingStatement
  | ' ' :: '-' :: '>' :: ' ' :: '"' :: rest => .edge (quotedId id) (quotedId (quotedToken rest).1)
  | _ => .node (quotedId id)

/-- Read one statement of a DOT text; settings and braces do not start with an id. -/
def readDotStatement (text : List Char) : Option DrawingStatement :=
  match text.dropWhile Char.isWhitespace with
  | '"' :: rest => some (dotStatementOf (quotedToken rest).1 (quotedToken rest).2)
  | _ => none

/-- The statements of a DOT text. -/
def dotStatements (text : List Char) : List DrawingStatement :=
  (splitUnquoted ';' false text).filterMap readDotStatement

/-- What a DOT text draws. -/
def readDot (text : String) : Drawing := drawingOf (dotStatements text.toList)

section Dot

/-- A text with its quotes and backslashes escaped. -/
def dotBody (text : String) : List Char :=
  replaceChar '"' "\\\"" (replaceChar '\\' "\\\\" text.toList)

/-- An escaped id stays inside its quotes. -/
theorem quotedBody_dotBody (text : String) : QuotedBody (dotBody text) := by
  unfold dotBody replaceChar
  rw [List.flatMap_assoc]
  refine quotedBody_flatMap (fun c => ?_) _
  by_cases hslash : c = '\\'
  · subst hslash
    exact .escaped '\\' .nil
  · by_cases hquote : c = '"'
    · subst hquote
      exact .escaped '"' .nil
    · simpa [hslash, hquote] using QuotedBody.plain hslash hquote .nil

/-- An escaped label stays inside its quotes. -/
theorem quotedBody_dotEscapeLabel (label : String) : QuotedBody (dotEscapeLabel label).toList := by
  rw [dotEscapeLabel, String.toList_ofList]
  unfold replaceChar
  rw [List.flatMap_assoc, List.flatMap_assoc]
  refine quotedBody_flatMap (fun c => ?_) _
  by_cases hslash : c = '\\'
  · subst hslash
    exact .escaped '\\' .nil
  · by_cases hquote : c = '"'
    · subst hquote
      exact .escaped '"' .nil
    · by_cases hline : c = '\n'
      · subst hline
        exact .escaped 'n' .nil
      · simpa [hslash, hquote, hline] using QuotedBody.plain hslash hquote .nil

/-- The attributes of a node statement. -/
def dotNodeAttributes (node : VisualNode) : List Char :=
  " [label=\"".toList ++ ((dotEscapeLabel node.label).toList ++ ("\" shape=".toList ++
    ((dotShape node).toList ++ (" style=\"".toList ++ ((dotStyle node).toList ++
      ("\" fillcolor=\"".toList ++ ((dotFillColor node).toList ++ "\"]".toList)))))))

theorem attributes_close : ("\"];\n" : String).toList = "\"]".toList ++ ";\n".toList := by decide

/-- A node's statement is its id, its attributes and a semicolon. -/
theorem dotNodeLine_toList (node : VisualNode) :
    (dotNodeLine node).toList =
      "  ".toList ++ ((dotEscapeId node.id).toList ++ (dotNodeAttributes node ++ ";\n".toList)) := by
  unfold dotNodeLine dotNodeAttributes
  simp only [String.toList_append, attributes_close]
  simp only [List.append_assoc]

theorem quoteState_label : quoteState ';' false " [label=\"".toList = some true := by decide
theorem quoteState_shape : quoteState ';' true "\" shape=".toList = some false := by decide
theorem quoteState_style : quoteState ';' false " style=\"".toList = some true := by decide
theorem quoteState_color : quoteState ';' true "\" fillcolor=\"".toList = some true := by decide
theorem quoteState_close : quoteState ';' true "\"]".toList = some false := by decide

theorem quoteState_dotShape (node : VisualNode) :
    quoteState ';' false (dotShape node).toList = some false := by
  unfold dotShape
  cases node.kind <;> (try split_ifs) <;> rfl

theorem quoteState_dotStyle (node : VisualNode) :
    quoteState ';' true (dotStyle node).toList = some true := by
  unfold dotStyle
  cases node.kind <;> rfl

theorem quoteState_dotFillColor (node : VisualNode) :
    quoteState ';' true (dotFillColor node).toList = some true := by
  unfold dotFillColor
  cases node.kind <;> (try split_ifs) <;> rfl

/-- The attributes of a node close the quotes that they open. -/
theorem quoteState_dotNodeAttributes (node : VisualNode) :
    quoteState ';' false (dotNodeAttributes node) = some false := by
  unfold dotNodeAttributes
  rw [quoteState_append quoteState_label,
    quoteState_append (quotedBody_dotEscapeLabel node.label).quoteState,
    quoteState_append quoteState_shape, quoteState_append (quoteState_dotShape node),
    quoteState_append quoteState_style, quoteState_append (quoteState_dotStyle node),
    quoteState_append quoteState_color, quoteState_append (quoteState_dotFillColor node),
    quoteState_close]

/-- An id in quotes closes them. -/
theorem quoteState_dotEscapeId (id : String) :
    quoteState ';' false (dotEscapeId id).toList = some false := by
  rw [dotEscapeId, String.toList_ofList]
  exact quoteState_append (quotedBody_dotBody id).quoteState ['"']

theorem quoteState_arrow : quoteState ';' false " -> ".toList = some false := by decide

/-- The line style of an edge. -/
def dotEdgeStyle (edge : VisualEdge) : String :=
  match edge.kind with
  | .membership | .grant => "solid"
  | .defaultPrivilege => "dashed"

/-- The color of an edge. -/
def dotEdgeColor (edge : VisualEdge) : String :=
  match edge.kind with
  | .membership => "#1e3a5f"
  | .grant => "#374151"
  | .defaultPrivilege => "#0d9488"

/-- The attributes of an edge statement. -/
def dotEdgeAttributes (edge : VisualEdge) : List Char :=
  " [label=\"".toList ++ ((dotEscapeLabel edge.label).toList ++ ("\" style=".toList ++
    ((dotEdgeStyle edge).toList ++ (" color=\"".toList ++ ((dotEdgeColor edge).toList ++
      ("\" fontcolor=\"".toList ++ ((dotEdgeColor edge).toList ++ "\"]".toList)))))))

theorem dotEdgeLine_eq (edge : VisualEdge) :
    dotEdgeLine edge = "  " ++ dotEscapeId edge.source ++ " -> " ++ dotEscapeId edge.target ++
      " [label=\"" ++ dotEscapeLabel edge.label ++ "\" style=" ++ dotEdgeStyle edge ++
        " color=\"" ++ dotEdgeColor edge ++ "\" fontcolor=\"" ++ dotEdgeColor edge ++
          "\"];\n" := rfl

/-- An edge's statement is its two ids, its attributes and a semicolon. -/
theorem dotEdgeLine_toList (edge : VisualEdge) :
    (dotEdgeLine edge).toList =
      "  ".toList ++ ((dotEscapeId edge.source).toList ++ (" -> ".toList ++
        ((dotEscapeId edge.target).toList ++ (dotEdgeAttributes edge ++ ";\n".toList)))) := by
  unfold dotEdgeAttributes
  simp only [dotEdgeLine_eq, String.toList_append, attributes_close]
  simp only [List.append_assoc]

theorem quoteState_edgeStyle : quoteState ';' true "\" style=".toList = some false := by decide
theorem quoteState_edgeColor : quoteState ';' false " color=\"".toList = some true := by decide
theorem quoteState_fontColor : quoteState ';' true "\" fontcolor=\"".toList = some true := by decide

theorem quoteState_dotEdgeStyle (edge : VisualEdge) :
    quoteState ';' false (dotEdgeStyle edge).toList = some false := by
  unfold dotEdgeStyle
  cases edge.kind <;> rfl

theorem quoteState_dotEdgeColor (edge : VisualEdge) :
    quoteState ';' true (dotEdgeColor edge).toList = some true := by
  unfold dotEdgeColor
  cases edge.kind <;> rfl

/-- The attributes of an edge close the quotes that they open. -/
theorem quoteState_dotEdgeAttributes (edge : VisualEdge) :
    quoteState ';' false (dotEdgeAttributes edge) = some false := by
  unfold dotEdgeAttributes
  rw [quoteState_append quoteState_label,
    quoteState_append (quotedBody_dotEscapeLabel edge.label).quoteState,
    quoteState_append quoteState_edgeStyle, quoteState_append (quoteState_dotEdgeStyle edge),
    quoteState_append quoteState_edgeColor, quoteState_append (quoteState_dotEdgeColor edge),
    quoteState_append quoteState_fontColor, quoteState_append (quoteState_dotEdgeColor edge),
    quoteState_close]

/-! ## Reading DOT back -/

/-- Blank characters before a statement are skipped, and cut nothing. -/
structure Blank (text : List Char) : Prop where
  state : quoteState ';' false text = some false
  spaces : ∀ c ∈ text, c.isWhitespace = true

theorem Blank.append {a b : List Char} (ha : Blank a) (hb : Blank b) : Blank (a ++ b) where
  state := (quoteState_append ha.state b).trans hb.state
  spaces c hc := (List.mem_append.1 hc).elim (ha.spaces c) (hb.spaces c)

theorem blank_indent : Blank "  ".toList :=
  ⟨by decide, List.all_eq_true.1 (by decide : "  ".toList.all Char.isWhitespace = true)⟩

theorem blank_newline : Blank "\n".toList :=
  ⟨by decide, List.all_eq_true.1 (by decide : "\n".toList.all Char.isWhitespace = true)⟩

/-- A text is read from its first visible character on. -/
theorem readDotStatement_blank {blank : List Char} (h : Blank blank) (text : List Char) :
    readDotStatement (blank ++ text) = readDotStatement text := by
  unfold readDotStatement
  rw [List.dropWhile_append_of_pos h.spaces]

/-- An escaped id is read up to its closing quote. -/
theorem quotedToken_dotEscapeId (id : String) (rest : List Char) :
    (dotEscapeId id).toList ++ rest = '"' :: (dotBody id ++ '"' :: rest) := by
  rw [dotEscapeId, String.toList_ofList, dotBody, List.cons_append, List.append_assoc]
  rfl

/-- A statement that starts with an id is told by what comes after it. -/
theorem readDotStatement_dotEscapeId (id : String) (rest : List Char) :
    readDotStatement ((dotEscapeId id).toList ++ rest) =
      some (dotStatementOf (dotBody id) rest) := by
  rw [quotedToken_dotEscapeId, readDotStatement, List.dropWhile_cons_of_neg (by decide)]
  change some (dotStatementOf (quotedToken (dotBody id ++ '"' :: rest)).1
    (quotedToken (dotBody id ++ '"' :: rest)).2) = _
  rw [(quotedBody_dotBody id).quotedToken]

theorem readDotStatement_node (node : VisualNode) :
    readDotStatement ((dotEscapeId node.id).toList ++ dotNodeAttributes node) =
      some (.node (dotEscapeId node.id)) := by
  rw [readDotStatement_dotEscapeId]
  rfl

/-- An edge's statement is read as the edge. -/
theorem readDotStatement_edge (edge : VisualEdge) :
    readDotStatement ((dotEscapeId edge.source).toList ++ (" -> ".toList ++
        ((dotEscapeId edge.target).toList ++ dotEdgeAttributes edge))) =
      some (.edge (dotEscapeId edge.source) (dotEscapeId edge.target)) := by
  rw [readDotStatement_dotEscapeId, quotedToken_dotEscapeId edge.target]
  change some (DrawingStatement.edge (quotedId (dotBody edge.source))
    (quotedId (quotedToken (dotBody edge.target ++ '"' :: dotEdgeAttributes edge)).1)) = _
  rw [(quotedBody_dotBody edge.target).quotedToken]
  rfl

/-- A statement that ends in a semicolon is read before the text after it. -/
theorem dotStatements_cons {blank text : List Char} {statement : DrawingStatement}
    (hblank : Blank blank) (htext : quoteState ';' false text = some false)
    (hread : readDotStatement text = some statement) (rest : List Char) :
    dotStatements (blank ++ (text ++ ';' :: rest)) = statement :: dotStatements rest := by
  have hstate : quoteState ';' false (blank ++ text) = some false :=
    (quoteState_append hblank.state text).trans htext
  have hstatement : readDotStatement (blank ++ text) = some statement :=
    (readDotStatement_blank hblank text).trans hread
  rw [← List.append_assoc, dotStatements, splitUnquoted_sep (by decide) hstate,
    List.filterMap_cons_some hstatement, dotStatements]

theorem statement_close : ";\n".toList = ';' :: "\n".toList := by decide

/-- Lines of one statement each are read one by one. -/
theorem exists_dotStatements_lines {α : Type} (line : α → List Char) {text : α → List Char}
    {statement : α → DrawingStatement}
    (hline : ∀ a, line a = "  ".toList ++ (text a ++ ";\n".toList))
    (hstate : ∀ a, quoteState ';' false (text a) = some false)
    (hread : ∀ a, readDotStatement (text a) = some (statement a)) (items : List α)
    {blank : List Char} (hblank : Blank blank) (rest : List Char) :
    ∃ blank', Blank blank' ∧ dotStatements (blank ++ (items.flatMap line ++ rest)) =
      items.map statement ++ dotStatements (blank' ++ rest) := by
  induction items generalizing blank with
  | nil => exact ⟨blank, hblank, rfl⟩
  | cons a items ih =>
      obtain ⟨blank', hblank', hrest⟩ := ih blank_newline
      refine ⟨blank', hblank', ?_⟩
      have hfirst := dotStatements_cons (hblank.append blank_indent) (hstate a) (hread a)
        ("\n".toList ++ (items.flatMap line ++ rest))
      rw [List.flatMap_cons, hline, statement_close, List.map_cons, List.cons_append, ← hrest,
        ← hfirst]
      simp only [List.append_assoc, List.cons_append]

theorem header_toList : (("digraph roles \x7b\n" : String).toList ++ ("  rankdir=LR;\n".toList ++
    ("  node [fontname=\"sans-serif\" fontsize=10];\n".toList ++
      ("  edge [fontname=\"sans-serif\" fontsize=9];\n".toList ++ "\n".toList)))) =
    "digraph roles \x7b\n  rankdir=LR".toList ++ ';' ::
      ("\n  node [fontname=\"sans-serif\" fontsize=10]".toList ++ ';' ::
        ("\n  edge [fontname=\"sans-serif\" fontsize=9]".toList ++ ';' :: "\n\n".toList)) := by
  decide

theorem quoteState_digraph :
    quoteState ';' false "digraph roles \x7b\n  rankdir=LR".toList = some false := by decide
theorem quoteState_nodeDefaults : quoteState ';' false
    "\n  node [fontname=\"sans-serif\" fontsize=10]".toList = some false := by decide
theorem quoteState_edgeDefaults : quoteState ';' false
    "\n  edge [fontname=\"sans-serif\" fontsize=9]".toList = some false := by decide
theorem quoteState_brace : quoteState ';' false "\x7d\n".toList = some false := by decide

/-- The opening line draws nothing. -/
theorem readDotStatement_digraph :
    readDotStatement "digraph roles \x7b\n  rankdir=LR".toList = none := by decide

/-- Nor do the defaults of nodes. -/
theorem readDotStatement_nodeDefaults : readDotStatement
    "\n  node [fontname=\"sans-serif\" fontsize=10]".toList = none := by decide
theorem readDotStatement_edgeDefaults : readDotStatement
    "\n  edge [fontname=\"sans-serif\" fontsize=9]".toList = none := by decide
theorem readDotStatement_brace : readDotStatement "\x7d\n".toList = none := by decide

theorem blank_lines : Blank "\n\n".toList :=
  ⟨by decide, List.all_eq_true.1 (by decide : "\n\n".toList.all Char.isWhitespace = true)⟩

/-- A setting is passed over. -/
theorem dotStatements_skip {text : List Char} (hstate : quoteState ';' false text = some false)
    (hread : readDotStatement text = none) (rest : List Char) :
    dotStatements (text ++ ';' :: rest) = dotStatements rest := by
  rw [dotStatements, splitUnquoted_sep (by decide) hstate, List.filterMap_cons_none hread,
    dotStatements]

/-- The closing brace is the last piece. -/
theorem dotStatements_brace {blank : List Char} (h : Blank blank) :
    dotStatements (blank ++ "\x7d\n".toList) = [] := by
  have hstate := (quoteState_append h.state "\x7d\n".toList).trans quoteState_brace
  have hread := (readDotStatement_blank h "\x7d\n".toList).trans readDotStatement_brace
  have hsplit := splitUnquoted_append hstate []
  rw [List.append_nil] at hsplit
  rw [dotStatements, hsplit, splitUnquoted, prependText, List.append_nil,
    List.filterMap_cons_none hread, List.filterMap_nil]

/-- The text of a graph: the header, a line for each node and each edge, and the brace. -/
theorem renderDot_toList (graph : VisualGraph) :
    (renderDot graph).toList =
      "digraph roles \x7b\n  rankdir=LR".toList ++ ';' ::
        ("\n  node [fontname=\"sans-serif\" fontsize=10]".toList ++ ';' ::
          ("\n  edge [fontname=\"sans-serif\" fontsize=9]".toList ++ ';' :: ("\n\n".toList ++
            (graph.nodes.flatMap (fun node => (dotNodeLine node).toList) ++ ("\n".toList ++
              (graph.edges.flatMap (fun edge => (dotEdgeLine edge).toList) ++
                "\x7d\n".toList)))))) := by
  unfold renderDot
  rw [String.toList_join]
  simp only [List.flatMap_append, List.flatMap_map, List.flatMap_cons, List.flatMap_nil,
    List.append_nil, List.append_assoc]
  have hheader := congrArg (fun header => header ++
    (graph.nodes.flatMap (fun node => (dotNodeLine node).toList) ++ ("\n".toList ++
      (graph.edges.flatMap (fun edge => (dotEdgeLine edge).toList) ++ "\x7d\n".toList))))
    header_toList
  simp only [List.append_assoc, List.cons_append] at hheader
  exact hheader

/-- The DOT text of a graph draws the graph, whatever its names are. -/
theorem readDot_renderDot (graph : VisualGraph) :
    readDot (renderDot graph) = graph.drawing dotEscapeId := by
  have hnode : ∀ node, quoteState ';' false
      ((dotEscapeId node.id).toList ++ dotNodeAttributes node) = some false := fun node =>
    (quoteState_append (quoteState_dotEscapeId node.id) _).trans
      (quoteState_dotNodeAttributes node)
  have hedge : ∀ edge : VisualEdge, quoteState ';' false ((dotEscapeId edge.source).toList ++
      (" -> ".toList ++ ((dotEscapeId edge.target).toList ++ dotEdgeAttributes edge))) =
        some false := by
    intro edge
    rw [quoteState_append (quoteState_dotEscapeId edge.source),
      quoteState_append quoteState_arrow, quoteState_append (quoteState_dotEscapeId edge.target)]
    exact quoteState_dotEdgeAttributes edge
  obtain ⟨blank, hblank, hnodes⟩ := exists_dotStatements_lines
    (fun node => (dotNodeLine node).toList)
    (fun node => by rw [dotNodeLine_toList, List.append_assoc]) hnode readDotStatement_node
    graph.nodes blank_lines ("\n".toList ++
      (graph.edges.flatMap (fun edge => (dotEdgeLine edge).toList) ++ "\x7d\n".toList))
  obtain ⟨blank', hblank', hedges⟩ := exists_dotStatements_lines
    (fun edge => (dotEdgeLine edge).toList)
    (fun edge => by simp only [dotEdgeLine_toList, List.append_assoc]) hedge readDotStatement_edge
    graph.edges (hblank.append blank_newline) "\x7d\n".toList
  rw [readDot, renderDot_toList, dotStatements_skip quoteState_digraph readDotStatement_digraph,
    dotStatements_skip quoteState_nodeDefaults readDotStatement_nodeDefaults,
    dotStatements_skip quoteState_edgeDefaults readDotStatement_edgeDefaults, hnodes,
    ← List.append_assoc blank, hedges, dotStatements_brace hblank', List.append_nil]
  exact drawingOf_statements dotEscapeId graph

end Dot

/-! ## Mermaid -/

/-- Read one line of a Mermaid text: an id, and after a blank the other end of an edge. -/
def readMermaidLine (isAlphanumeric : Char → Bool) : List Char → Option DrawingStatement
  | ' ' :: ' ' :: rest =>
      let id := String.ofList (rest.takeWhile (isIdChar isAlphanumeric))
      match rest.dropWhile (isIdChar isAlphanumeric) with
      | ' ' :: more => some (.edge id (String.ofList (more.rtakeWhile (isIdChar isAlphanumeric))))
      | _ => some (.node id)
  | _ => none

/-- The statements of a Mermaid text, one a line. -/
def mermaidStatements (isAlphanumeric : Char → Bool) (text : List Char) : List DrawingStatement :=
  (splitUnquoted '\n' false text).filterMap (readMermaidLine isAlphanumeric)

/-- What a Mermaid text draws. -/
def readMermaid (isAlphanumeric : Char → Bool) (text : String) : Drawing :=
  drawingOf (mermaidStatements isAlphanumeric text.toList)

section Mermaid

variable {isAlphanumeric : Char → Bool} (hascii : KnownOnAscii isAlphanumeric)

/-- A text of a Mermaid line: nothing in it is a quote or ends the line. -/
def IsLineText (text : List Char) : Prop := ∀ c ∈ text, c ≠ '"' ∧ c ≠ '\n'

instance (text : List Char) : Decidable (IsLineText text) :=
  decidable_of_iff (text.all fun c => c != '"' && c != '\n') (by simp [IsLineText])

theorem IsLineText.append {a b : List Char} (ha : IsLineText a) (hb : IsLineText b) :
    IsLineText (a ++ b) :=
  fun c hc => (List.mem_append.1 hc).elim (ha c) (hb c)

theorem IsLineText.cons {c : Char} {a : List Char} (hc : c ≠ '"' ∧ c ≠ '\n')
    (ha : IsLineText a) : IsLineText (c :: a) :=
  List.forall_mem_cons.2 ⟨hc, ha⟩

/-- Quotes in labels are replaced, so a label breaks a line only where its text does. -/
theorem isLineText_mermaidEscapeLabel {label : String} (h : '\n' ∉ label.toList) :
    IsLineText (mermaidEscapeLabel label).toList := by
  intro c hc
  rw [mermaidEscapeLabel, String.toList_ofList] at hc
  obtain ⟨d, hd, hc⟩ := List.mem_flatMap.1 (List.mem_of_mem_filter hc)
  by_cases hquote : d = '"'
  · rw [if_pos hquote] at hc
    exact (by decide : IsLineText "#quot;".toList) c hc
  · rw [if_neg hquote, List.mem_singleton] at hc
    subst hc
    exact ⟨hquote, fun hline => h (hline ▸ hd)⟩

/-- The brackets of a node, with its label in them. -/
def mermaidShape (node : VisualNode) : List Char :=
  let label := (mermaidEscapeLabel node.label).toList
  match node.kind with
  | .role =>
      if node.login = some true then '[' :: (label ++ "]".toList)
      else '(' :: ("[".toList ++ (label ++ "])".toList))
  | .externalPrincipal => '\x7b' :: ("\x7b".toList ++ (label ++ "\x7d\x7d".toList))
  | .grantTarget => '[' :: ("/".toList ++ (label ++ "/]".toList))
  | .defaultPrivilegeTarget => '[' :: ("\\".toList ++ (label ++ "\\]".toList))

/-- A node's line is its id between an indent and its shape. -/
theorem mermaidNodeLine_toList (escape : String → String) (node : VisualNode) :
    (mermaidNodeLine escape node).toList =
      ' ' :: ' ' :: ((escape node.id).toList ++ (mermaidShape node ++ ['\n'])) := by
  have hindent : "  ".toList = [' ', ' '] := by decide
  have hend : "\n".toList = ['\n'] := by decide
  have hlogin : "[".toList = ['['] := by decide
  have hrole : "([".toList = '(' :: "[".toList := by decide
  have hexternal : "\x7b\x7b".toList = '\x7b' :: "\x7b".toList := by decide
  have htarget : "[/".toList = '[' :: "/".toList := by decide
  have hdefault : "[\\".toList = '[' :: "\\".toList := by decide
  unfold mermaidNodeLine mermaidShape
  simp only [String.toList_append, hindent, hend, List.append_assoc, List.cons_append,
    List.nil_append]
  cases node.kind with
  | role =>
      split_ifs
      · simp only [String.toList_append, hlogin, List.append_assoc, List.cons_append,
          List.nil_append]
      · simp only [String.toList_append, hrole, List.append_assoc, List.cons_append]
  | externalPrincipal =>
      simp only [String.toList_append, hexternal, List.append_assoc, List.cons_append]
  | grantTarget => simp only [String.toList_append, htarget, List.append_assoc, List.cons_append]
  | defaultPrivilegeTarget =>
      simp only [String.toList_append, hdefault, List.append_assoc, List.cons_append]

/-- Brackets start with a character that no id has and that is no blank. -/
theorem exists_mermaidShape (node : VisualNode) :
    ∃ c rest, mermaidShape node = c :: rest ∧ c ∈ ['[', '(', '\x7b'] := by
  unfold mermaidShape
  cases node.kind <;> (try split_ifs) <;> exact ⟨_, _, rfl, by decide⟩

/-- The shape of a node stays on its line where the label does. -/
theorem isLineText_mermaidShape {node : VisualNode} (h : '\n' ∉ node.label.toList) :
    IsLineText (mermaidShape node) := by
  have hlabel := isLineText_mermaidEscapeLabel h
  have htext : ∀ left right : List Char, IsLineText left → IsLineText right →
      IsLineText (left ++ ((mermaidEscapeLabel node.label).toList ++ right)) :=
    fun left right hleft hright => hleft.append (hlabel.append hright)
  unfold mermaidShape
  generalize (mermaidEscapeLabel node.label).toList = label at hlabel htext ⊢
  cases node.kind with
  | role =>
      split_ifs
      · exact htext ['['] "]".toList (by decide) (by decide)
      · exact htext ('(' :: "[".toList) "])".toList (by decide) (by decide)
  | externalPrincipal =>
      exact htext ('\x7b' :: "\x7b".toList) "\x7d\x7d".toList (by decide) (by decide)
  | grantTarget => exact htext ('[' :: "/".toList) "/]".toList (by decide) (by decide)
  | defaultPrivilegeTarget =>
      exact htext ('[' :: "\\".toList) "\\]".toList (by decide) (by decide)

/-- The arrow of an edge, with its label. -/
def mermaidArrow (edge : VisualEdge) : List Char :=
  (match edge.kind with
    | .membership | .grant => "-->"
    | .defaultPrivilege => "-.->").toList ++
  (if (mermaidEscapeLabel edge.label).isEmpty then ""
    else "|" ++ mermaidEscapeLabel edge.label ++ "|").toList

/-- An edge's line is its two ids around an arrow. -/
theorem mermaidEdgeLine_toList (escape : String → String) (edge : VisualEdge) :
    (mermaidEdgeLine escape edge).toList =
      ' ' :: ' ' :: ((escape edge.source).toList ++ (' ' :: (mermaidArrow edge ++
        (' ' :: ((escape edge.target).toList ++ ['\n']))))) := by
  unfold mermaidEdgeLine mermaidArrow
  simp only [String.toList_append, List.append_assoc]
  rfl

/-- The arrow of an edge stays on its line where the label does. -/
theorem isLineText_mermaidArrow {edge : VisualEdge} (h : '\n' ∉ edge.label.toList) :
    IsLineText (mermaidArrow edge) := by
  have hlabel := isLineText_mermaidEscapeLabel h
  unfold mermaidArrow
  refine IsLineText.append ?_ ?_
  · cases edge.kind <;> (dsimp only; decide)
  · split_ifs
    · exact fun c hc => absurd hc (List.not_mem_nil)
    · rw [String.toList_append, String.toList_append]
      exact ((by decide : IsLineText "|".toList).append hlabel).append (by decide)

/-- A line is read up to its end. -/
theorem mermaidStatements_cons {text : List Char} {statement : DrawingStatement}
    (htext : IsLineText text) (hread : readMermaidLine isAlphanumeric text = some statement)
    (rest : List Char) :
    mermaidStatements isAlphanumeric (text ++ '\n' :: rest) =
      statement :: mermaidStatements isAlphanumeric rest := by
  rw [mermaidStatements, splitUnquoted_sep (by decide) (quoteState_plain htext),
    List.filterMap_cons_some hread, mermaidStatements]

/-- Lines of one statement each are read one by one. -/
theorem mermaidStatements_lines {α : Type} {line : α → List Char} {text : α → List Char}
    {statement : α → DrawingStatement} (hline : ∀ a, line a = text a ++ ['\n']) {items : List α}
    (htext : ∀ a ∈ items, IsLineText (text a))
    (hread : ∀ a ∈ items, readMermaidLine isAlphanumeric (text a) = some (statement a))
    (rest : List Char) :
    mermaidStatements isAlphanumeric (items.flatMap line ++ rest) =
      items.map statement ++ mermaidStatements isAlphanumeric rest := by
  induction items with
  | nil => rfl
  | cons a items ih =>
      have hrest := ih (fun b hb => htext b (List.mem_cons_of_mem a hb))
        fun b hb => hread b (List.mem_cons_of_mem a hb)
      rw [List.flatMap_cons, hline, List.append_assoc, List.append_assoc, List.singleton_append,
        mermaidStatements_cons (htext a List.mem_cons_self) (hread a List.mem_cons_self), hrest,
        List.map_cons, List.cons_append]

/-- The text of a graph: the header and a line for each node and each edge. -/
theorem renderMermaid_toList (graph : VisualGraph) :
    (renderMermaid isAlphanumeric graph).toList = "graph LR".toList ++ '\n' ::
      (graph.nodes.flatMap (fun node =>
          (mermaidNodeLine (mermaidEscapeId isAlphanumeric) node).toList) ++
        (graph.edges.flatMap (fun edge =>
          (mermaidEdgeLine (mermaidEscapeId isAlphanumeric) edge).toList) ++ [])) := by
  have hheader : "graph LR\n".toList = "graph LR".toList ++ ['\n'] := by decide
  unfold renderMermaid
  rw [String.toList_join]
  simp only [List.flatMap_cons, List.flatMap_append, List.flatMap_map, hheader, List.append_nil,
    List.append_assoc, List.singleton_append]

/-- The header draws nothing. -/
theorem mermaidStatements_header (rest : List Char) :
    mermaidStatements isAlphanumeric ("graph LR".toList ++ '\n' :: rest) =
      mermaidStatements isAlphanumeric rest := by
  have htext : IsLineText "graph LR".toList := by decide
  have hread : readMermaidLine isAlphanumeric "graph LR".toList = none := rfl
  rw [mermaidStatements, splitUnquoted_sep (by decide) (quoteState_plain htext),
    List.filterMap_cons_none hread, mermaidStatements]

include hascii

/-- No id has a blank, a bracket, a quote or a line break in it. -/
theorem isIdChar_punctuation {c : Char} (h : c ∈ [' ', '[', '(', '\x7b', '"', '\n']) :
    isIdChar isAlphanumeric c = false := by
  have hother : ([' ', '[', '(', '\x7b', '"', '\n'].all fun d =>
      d.toNat < 128 && !(d.isAlphanum || d == '-' || d == '_')) = true := by decide
  have hc := List.all_eq_true.1 hother c h
  rw [Bool.and_eq_true, decide_eq_true_eq, Bool.not_eq_true'] at hc
  rw [isIdChar, hascii c hc.1]
  exact hc.2

/-- An id is read up to the first character that no id has. -/
theorem readMermaidLine_id (id : String) {c : Char} (hc : isIdChar isAlphanumeric c = false)
    (rest : List Char) :
    readMermaidLine isAlphanumeric
        (' ' :: ' ' :: ((mermaidEscapeId isAlphanumeric id).toList ++ c :: rest)) =
      if c = ' ' then
        some (.edge (mermaidEscapeId isAlphanumeric id)
          (String.ofList (rest.rtakeWhile (isIdChar isAlphanumeric))))
      else some (.node (mermaidEscapeId isAlphanumeric id)) := by
  have hid : ∀ d ∈ (mermaidEscapeId isAlphanumeric id).toList, isIdChar isAlphanumeric d = true :=
    fun d hd => isIdChar_of_mem_mermaidEscapeId hascii hd
  have htake : ((mermaidEscapeId isAlphanumeric id).toList ++ c :: rest).takeWhile
      (isIdChar isAlphanumeric) = (mermaidEscapeId isAlphanumeric id).toList := by
    rw [List.takeWhile_append_of_pos hid, List.takeWhile_cons_of_neg (by simp [hc]),
      List.append_nil]
  have hdrop : ((mermaidEscapeId isAlphanumeric id).toList ++ c :: rest).dropWhile
      (isIdChar isAlphanumeric) = c :: rest := by
    rw [List.dropWhile_append_of_pos hid, List.dropWhile_cons_of_neg (by simp [hc])]
  rw [readMermaidLine, htake, hdrop, String.ofList_toList]
  split_ifs with hblank
  · subst hblank
    rfl
  · split
    · next hcons => exact absurd (List.cons.inj hcons).1 hblank
    · rfl

/-- A node's line is read as the node. -/
theorem readMermaidLine_node (node : VisualNode) :
    readMermaidLine isAlphanumeric (' ' :: ' ' ::
        ((mermaidEscapeId isAlphanumeric node.id).toList ++ mermaidShape node)) =
      some (.node (mermaidEscapeId isAlphanumeric node.id)) := by
  obtain ⟨c, rest, hshape, hc⟩ := exists_mermaidShape node
  have hblank : c ≠ ' ' := by
    rintro rfl
    simp at hc
  have hpunctuation : c ∈ [' ', '[', '(', '\x7b', '"', '\n'] := by
    simp only [List.mem_cons, List.not_mem_nil, or_false] at hc ⊢
    tauto
  rw [hshape, readMermaidLine_id hascii node.id (isIdChar_punctuation hascii hpunctuation),
    if_neg hblank]

/-- An edge's line is read as the edge. -/
theorem readMermaidLine_edge (edge : VisualEdge) :
    readMermaidLine isAlphanumeric (' ' :: ' ' ::
        ((mermaidEscapeId isAlphanumeric edge.source).toList ++ (' ' :: (mermaidArrow edge ++
          (' ' :: (mermaidEscapeId isAlphanumeric edge.target).toList))))) =
      some (.edge (mermaidEscapeId isAlphanumeric edge.source)
        (mermaidEscapeId isAlphanumeric edge.target)) := by
  have hblank : isIdChar isAlphanumeric ' ' = false := isIdChar_punctuation hascii (by simp)
  have htarget : (mermaidArrow edge ++
      (' ' :: (mermaidEscapeId isAlphanumeric edge.target).toList)).rtakeWhile
        (isIdChar isAlphanumeric) = (mermaidEscapeId isAlphanumeric edge.target).toList := by
    have hid : ∀ c ∈ (mermaidEscapeId isAlphanumeric edge.target).toList.reverse,
        isIdChar isAlphanumeric c = true :=
      fun c hc => isIdChar_of_mem_mermaidEscapeId hascii (List.mem_reverse.1 hc)
    rw [List.rtakeWhile, List.reverse_append, List.reverse_cons, List.append_assoc,
      List.takeWhile_append_of_pos hid, List.singleton_append,
      List.takeWhile_cons_of_neg (by simp [hblank]), List.append_nil, List.reverse_reverse]
  rw [readMermaidLine_id hascii edge.source hblank, if_pos rfl, htarget, String.ofList_toList]

/-- An escaped id stays on its line. -/
theorem isLineText_mermaidEscapeId (id : String) :
    IsLineText (mermaidEscapeId isAlphanumeric id).toList := by
  intro c hc
  have hid := isIdChar_of_mem_mermaidEscapeId hascii hc
  refine ⟨?_, ?_⟩
  all_goals
    rintro rfl
    rw [isIdChar_punctuation hascii (by simp)] at hid
    cases hid

/-- The Mermaid text of a graph draws the graph when no label breaks its line. -/
theorem readMermaid_renderMermaid {graph : VisualGraph}
    (hnodes : ∀ node ∈ graph.nodes, '\n' ∉ node.label.toList)
    (hedges : ∀ edge ∈ graph.edges, '\n' ∉ edge.label.toList) :
    readMermaid isAlphanumeric (renderMermaid isAlphanumeric graph) =
      graph.drawing (mermaidEscapeId isAlphanumeric) := by
  have hblank : ' ' ≠ '"' ∧ ' ' ≠ '\n' := by decide
  have hnodeLine : ∀ node ∈ graph.nodes, IsLineText (' ' :: ' ' ::
      ((mermaidEscapeId isAlphanumeric node.id).toList ++ mermaidShape node)) := fun node hnode =>
    .cons hblank (.cons hblank ((isLineText_mermaidEscapeId hascii node.id).append
      (isLineText_mermaidShape (hnodes node hnode))))
  have hedgeLine : ∀ edge ∈ graph.edges, IsLineText (' ' :: ' ' ::
      ((mermaidEscapeId isAlphanumeric edge.source).toList ++ (' ' :: (mermaidArrow edge ++
        (' ' :: (mermaidEscapeId isAlphanumeric edge.target).toList))))) := fun edge hedge =>
    .cons hblank (.cons hblank ((isLineText_mermaidEscapeId hascii edge.source).append
      (.cons hblank ((isLineText_mermaidArrow (hedges edge hedge)).append
        (.cons hblank (isLineText_mermaidEscapeId hascii edge.target))))))
  rw [readMermaid, renderMermaid_toList, mermaidStatements_header,
    mermaidStatements_lines
      (fun node => by
        rw [mermaidNodeLine_toList, List.cons_append, List.cons_append, List.append_assoc])
      hnodeLine fun node _ => readMermaidLine_node hascii node,
    mermaidStatements_lines
      (fun edge => by
        simp only [mermaidEdgeLine_toList, List.cons_append, List.append_assoc])
      hedgeLine fun edge _ => readMermaidLine_edge hascii edge,
    show mermaidStatements isAlphanumeric [] = [] from rfl, List.append_nil]
  exact drawingOf_statements (mermaidEscapeId isAlphanumeric) graph

end Mermaid

end PgRoles.Core

import PgRoles.Lib.Spelling
import PgRoles.Core.Guc
import PgRoles.Core.Visual

/-!
# Diagrams

The visual graph as a Mermaid flowchart and as Graphviz DOT: one statement for each node and one for
each edge. A diagram names its nodes by ids; DOT quotes them, Mermaid allows letters, digits, hyphens
and underscores only, so other characters are replaced. A diagram has a node for every id that a
statement names, also where only an edge names it (`Drawing.Names`).

Which characters count as letters and digits is Unicode's to say; the model takes it as a parameter
that is known on ASCII (`KnownOnAscii`).
-/

set_option autoImplicit false

namespace PgRoles.Core

open Std PgRoles.Lib

/-! ## Escapes -/

/-- The classification of characters is the usual one on ASCII. -/
def KnownOnAscii (isAlphanumeric : Char → Bool) : Prop :=
  ∀ c : Char, c.toNat < 128 → isAlphanumeric c = c.isAlphanum

/-- Two hexadecimal digits at least. -/
def hexDigits (n : Nat) : List Char :=
  List.replicate (2 - (Nat.toDigits 16 n).length) '0' ++ Nat.toDigits 16 n

/-- What a character is written as in a Mermaid id. -/
def mermaidEscapeChar (isAlphanumeric : Char → Bool) (c : Char) : List Char :=
  if c = ':' then "__".toList
  else if c = '.' then "_d_".toList
  else if c = '@' then "_at_".toList
  else if c = '*' then "_star_".toList
  else if c = ' ' then "_sp_".toList
  else if c = '/' then "_sl_".toList
  else if c = '\\' then "_bs_".toList
  else if isAlphanumeric c || c == '-' || c == '_' then [c]
  else "_x".toList ++ hexDigits c.toNat ++ "_".toList

/-- An id for Mermaid: what is not alphanumeric is escaped. -/
def mermaidEscapeId (isAlphanumeric : Char → Bool) (id : String) : String :=
  String.ofList (id.toList.flatMap (mermaidEscapeChar isAlphanumeric))

/-- Replace a character by a text everywhere. -/
def replaceChar (c : Char) (text : String) (s : List Char) : List Char :=
  s.flatMap fun d => if d = c then text.toList else [d]

/-- A label for Mermaid: quotes are escaped and brackets left out. -/
def mermaidEscapeLabel (label : String) : String :=
  String.ofList ((replaceChar '"' "#quot;" label.toList).filter fun c => c ≠ '[' && c ≠ ']')

/-- An id for DOT: in quotes, with quotes and backslashes escaped. -/
def dotEscapeId (id : String) : String :=
  String.ofList ('"' :: (replaceChar '"' "\\\"" (replaceChar '\\' "\\\\" id.toList) ++ ['"']))

/-- A label for DOT: quotes, backslashes and line breaks are escaped. -/
def dotEscapeLabel (label : String) : String :=
  String.ofList (replaceChar '\n' "\\n"
    (replaceChar '"' "\\\"" (replaceChar '\\' "\\\\" label.toList)))

/-! ## Mermaid -/

/-- A node with its label in the brackets of its kind. -/
def mermaidNodeLine (escape : String → String) (node : VisualNode) : String :=
  let label := mermaidEscapeLabel node.label
  let shape := match node.kind with
    | .role => if node.login = some true then "[" ++ label ++ "]" else "([" ++ label ++ "])"
    | .externalPrincipal => "\x7b\x7b" ++ label ++ "\x7d\x7d"
    | .grantTarget => "[/" ++ label ++ "/]"
    | .defaultPrivilegeTarget => "[\\" ++ label ++ "\\]"
  "  " ++ escape node.id ++ shape ++ "\n"

/-- An edge's statement; default privileges are drawn dotted. -/
def mermaidEdgeLine (escape : String → String) (edge : VisualEdge) : String :=
  let label := mermaidEscapeLabel edge.label
  let arrow := match edge.kind with
    | .membership | .grant => "-->"
    | .defaultPrivilege => "-.->"
  "  " ++ escape edge.source ++ " " ++ arrow ++
    (if label.isEmpty then "" else "|" ++ label ++ "|") ++ " " ++ escape edge.target ++ "\n"

/-- Render the graph as Mermaid flowchart syntax. -/
def renderMermaid (isAlphanumeric : Char → Bool) (graph : VisualGraph) : String :=
  let escape := mermaidEscapeId isAlphanumeric
  String.join ("graph LR\n" :: (graph.nodes.map (mermaidNodeLine escape) ++
    graph.edges.map (mermaidEdgeLine escape)))

/-! ## Graphviz -/

/-- The shape of a node: a role that can log in is a box. -/
def dotShape (node : VisualNode) : String :=
  match node.kind with
  | .role => if node.login = some true then "box" else "ellipse"
  | .externalPrincipal => "hexagon"
  | .grantTarget => "note"
  | .defaultPrivilegeTarget => "component"

/-- The style of a node: an external principal is dashed. -/
def dotStyle (node : VisualNode) : String :=
  match node.kind with
  | .externalPrincipal => "dashed,filled"
  | _ => "filled"

/-- The colour of a node by its kind. -/
def dotFillColor (node : VisualNode) : String :=
  match node.kind with
  | .role => if node.login = some true then "#e0f2fe" else "#f0fdf4"
  | .externalPrincipal => "#fef3c7"
  | .grantTarget => "#f5f5f4"
  | .defaultPrivilegeTarget => "#f0fdfa"

/-- A node's statement. -/
def dotNodeLine (node : VisualNode) : String :=
  "  " ++ dotEscapeId node.id ++ " [label=\"" ++ dotEscapeLabel node.label ++ "\" shape=" ++
    dotShape node ++ " style=\"" ++ dotStyle node ++ "\" fillcolor=\"" ++ dotFillColor node ++
    "\"];\n"

/-- An edge's statement; default privileges are drawn dashed. -/
def dotEdgeLine (edge : VisualEdge) : String :=
  let style := match edge.kind with
    | .membership | .grant => "solid"
    | .defaultPrivilege => "dashed"
  let color := match edge.kind with
    | .membership => "#1e3a5f"
    | .grant => "#374151"
    | .defaultPrivilege => "#0d9488"
  "  " ++ dotEscapeId edge.source ++ " -> " ++ dotEscapeId edge.target ++ " [label=\"" ++
    dotEscapeLabel edge.label ++ "\" style=" ++ style ++ " color=\"" ++ color ++
    "\" fontcolor=\"" ++ color ++ "\"];\n"

/-- Render the graph as Graphviz DOT. -/
def renderDot (graph : VisualGraph) : String :=
  String.join (["digraph roles \x7b\n", "  rankdir=LR;\n",
    "  node [fontname=\"sans-serif\" fontsize=10];\n",
    "  edge [fontname=\"sans-serif\" fontsize=9];\n", "\n"] ++
    graph.nodes.map dotNodeLine ++ ["\n"] ++ graph.edges.map dotEdgeLine ++ ["\x7d\n"])

/-! ## What is drawn -/

/-- The ids of the node statements of a diagram, and the ends of its edge statements. -/
structure Drawing where
  nodes : List String
  edges : List (String × String)

/-- What the statements of a rendering draw, with ids escaped. -/
def VisualGraph.drawing (escape : String → String) (graph : VisualGraph) : Drawing :=
  ⟨graph.nodes.map fun node => escape node.id,
    graph.edges.map fun edge => (escape edge.source, escape edge.target)⟩

/-- The diagram has a node of the id: a statement names it. -/
def Drawing.Names (drawing : Drawing) (id : String) : Prop :=
  id ∈ drawing.nodes ∨ ∃ edge ∈ drawing.edges, edge.1 = id ∨ edge.2 = id

/-! ## Mermaid ids -/

/-- A digit of a number is one of the sixteen. -/
theorem exists_digitChar_of_mem_toDigits {n : Nat} {c : Char} (h : c ∈ Nat.toDigits 16 n) :
    ∃ k, k < 16 ∧ Nat.digitChar k = c := by
  induction n using Nat.strong_induction_on with
  | _ n ih =>
      rw [Nat.toDigits_eq_if (by decide)] at h
      split at h
      · next hlt => exact ⟨n, hlt, (List.mem_singleton.1 h).symm⟩
      · next hge =>
          rcases List.mem_append.1 h with hhigh | hlow
          · exact ih (n / 16) (by omega) hhigh
          · exact ⟨n % 16, by omega, (List.mem_singleton.1 hlow).symm⟩

section Mermaid

variable {isAlphanumeric : Char → Bool} (hascii : KnownOnAscii isAlphanumeric)

/-- The characters of Mermaid ids. -/
def isIdChar (isAlphanumeric : Char → Bool) (c : Char) : Bool :=
  isAlphanumeric c || c == '-' || c == '_'

/-- Those of them in ASCII. -/
def isAsciiIdChar (c : Char) : Bool :=
  c.toNat < 128 && (c.isAlphanum || c == '-' || c == '_')

include hascii

theorem isIdChar_of_ascii {c : Char} (h : isAsciiIdChar c = true) :
    isIdChar isAlphanumeric c = true := by
  rw [isAsciiIdChar, Bool.and_eq_true, decide_eq_true_eq] at h
  rw [isIdChar, hascii c h.1]
  exact h.2

theorem isIdChar_of_asciiText {s : List Char} (h : s.all isAsciiIdChar = true) :
    ∀ c ∈ s, isIdChar isAlphanumeric c = true :=
  fun c hc => isIdChar_of_ascii hascii (List.all_eq_true.1 h c hc)

/-- A character of an id stands for itself. -/
theorem mermaidEscapeChar_of_isIdChar {c : Char} (h : isIdChar isAlphanumeric c = true) :
    mermaidEscapeChar isAlphanumeric c = [c] := by
  have hspecial : ∀ d ∈ [':', '.', '@', '*', ' ', '/', '\\'], c ≠ d := by
    rintro d hd rfl
    have hother : ([':', '.', '@', '*', ' ', '/', '\\'].all fun d =>
        d.toNat < 128 && !(d.isAlphanum || d == '-' || d == '_')) = true := by decide
    have hc := List.all_eq_true.1 hother c hd
    rw [Bool.and_eq_true, decide_eq_true_eq, Bool.not_eq_true'] at hc
    rw [isIdChar, hascii c hc.1, hc.2] at h
    cases h
  simp only [List.forall_mem_cons] at hspecial
  obtain ⟨h₁, h₂, h₃, h₄, h₅, h₆, h₇, -⟩ := hspecial
  rw [mermaidEscapeChar, if_neg h₁, if_neg h₂, if_neg h₃, if_neg h₄, if_neg h₅, if_neg h₆,
    if_neg h₇]
  exact if_pos h

theorem isIdChar_of_mem_hexDigits {n : Nat} {c : Char} (h : c ∈ hexDigits n) :
    isIdChar isAlphanumeric c = true := by
  have hdigit : ∀ k, k < 16 → isAsciiIdChar (Nat.digitChar k) = true := by decide
  rcases List.mem_append.1 h with hzero | hdigits
  · rw [List.eq_of_mem_replicate hzero]
    exact isIdChar_of_ascii hascii (hdigit 0 (by decide))
  · obtain ⟨k, hk, rfl⟩ := exists_digitChar_of_mem_toDigits hdigits
    exact isIdChar_of_ascii hascii (hdigit k hk)

/-- A replacement has characters of ids only. -/
theorem isIdChar_of_mem_mermaidEscapeChar {c d : Char}
    (h : d ∈ mermaidEscapeChar isAlphanumeric c) : isIdChar isAlphanumeric d = true := by
  have hofText : ∀ text : String, text.toList.all isAsciiIdChar = true → d ∈ text.toList →
      isIdChar isAlphanumeric d = true :=
    fun text htext hd => isIdChar_of_asciiText hascii htext d hd
  rw [mermaidEscapeChar] at h
  split_ifs at h with h₁ h₂ h₃ h₄ h₅ h₆ h₇ hkept
  iterate 7 exact hofText _ (by decide) h
  · rw [List.mem_singleton.1 h]
    exact hkept
  · rw [List.mem_append, List.mem_append] at h
    rcases h with (hopen | hhex) | hclose
    · exact hofText "_x" (by decide) hopen
    · exact isIdChar_of_mem_hexDigits hascii hhex
    · exact hofText "_" (by decide) hclose

/-- A text of characters of ids stands for itself. -/
theorem flatMap_mermaidEscapeChar {s : List Char}
    (h : ∀ c ∈ s, isIdChar isAlphanumeric c = true) :
    s.flatMap (mermaidEscapeChar isAlphanumeric) = s := by
  rw [List.flatMap_congr fun c hc => mermaidEscapeChar_of_isIdChar hascii (h c hc),
    List.flatMap_singleton']

/-- What a replacement is written as is the replacement. -/
theorem mermaidEscapeChar_idem (c : Char) :
    (mermaidEscapeChar isAlphanumeric c).flatMap (mermaidEscapeChar isAlphanumeric) =
      mermaidEscapeChar isAlphanumeric c :=
  flatMap_mermaidEscapeChar hascii fun _ hd => isIdChar_of_mem_mermaidEscapeChar hascii hd

/-- Mermaid ids have characters of ids only. -/
theorem isIdChar_of_mem_mermaidEscapeId {id : String} {c : Char}
    (h : c ∈ (mermaidEscapeId isAlphanumeric id).toList) : isIdChar isAlphanumeric c = true := by
  rw [mermaidEscapeId, String.toList_ofList] at h
  obtain ⟨d, -, hd⟩ := List.mem_flatMap.1 h
  exact isIdChar_of_mem_mermaidEscapeChar hascii hd

end Mermaid

/-! ## DOT ids -/

/-- Reads a quoted text up to its closing quote. -/
def unquoteDot : List Char → List Char
  | '\\' :: c :: rest => c :: unquoteDot rest
  | '"' :: _ => []
  | c :: rest => c :: unquoteDot rest
  | [] => []

theorem unquoteDot_escaped (s : List Char) :
    unquoteDot (replaceChar '"' "\\\"" (replaceChar '\\' "\\\\" s) ++ ['"']) = s := by
  induction s with
  | nil => rfl
  | cons c s ih =>
      rw [replaceChar, replaceChar] at ih ⊢
      rw [List.flatMap_cons, List.flatMap_append]
      by_cases hslash : c = '\\'
      · subst hslash
        exact congrArg (List.cons '\\') ih
      · rw [if_neg hslash]
        by_cases hquote : c = '"'
        · subst hquote
          exact congrArg (List.cons '"') ih
        · rw [List.flatMap_singleton, if_neg hquote, List.append_assoc, List.singleton_append,
            unquoteDot, ih]
          · exact fun _ _ hc => absurd hc hslash
          · exact fun hc => absurd hc hquote

/-- DOT ids tell apart whatever they quote. -/
theorem dotEscapeId_injective : Function.Injective dotEscapeId := by
  intro a b h
  have hquoted := congrArg (fun id => unquoteDot id.toList.tail) h
  simp only [dotEscapeId, String.toList_ofList, List.tail_cons, unquoteDot_escaped] at hquoted
  exact String.toList_injective hquoted

end PgRoles.Core

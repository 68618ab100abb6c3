import Std.Data.String.ToNat
import JavaAtlas.Graph.Dot
import JavaAtlas.Proofs.Dependency
import JavaAtlas.Proofs.Text.Parts

/-!
# The DOT text of a graph tells the graph

A reader of DOT goes through a text one character at a time. Outside of quotes it finds words and marks; between
quotes it takes everything for text, line feeds and semicolons too, up to a quote without a backslash in front of
it. Read in this way the text of a graph has one statement for each node, in which the name of the node is one
quoted token whatever characters it is made of, then one statement for each edge, and no others. So no name can end
its label or bring a statement about, and two graphs with one text have the same nodes and the same edges.
-/

namespace JavaAtlas.Graph.Dot

/-! ### Reading DOT -/

/-- A token: a word, a text between quotes with its escapes undone, or any other mark. -/
inductive Token where
  | word (text : String)
  | quoted (text : String)
  | mark (c : Char)
deriving DecidableEq

/-- Where a reader stands: between two tokens, in a word, between quotes, or there behind a backslash; with what it
has read of the token so far. -/
inductive Stand where
  | between
  | inWord (read : List Char)
  | inQuotes (read : List Char)
  | behindSlash (read : List Char)

def isWordChar (c : Char) : Bool :=
  c.isAlphanum || c == '_'

def isBlank (c : Char) : Bool :=
  c == ' ' || c == '\n' || c == '\t' || c == '\r'

/-- The tokens that a character between two tokens completes, and where the reader stands behind it. -/
def opened (c : Char) : List Token × Stand :=
  if c == '"' then ([], .inQuotes [])
  else if isBlank c then ([], .between)
  else if isWordChar c then ([], .inWord [c])
  else ([.mark c], .between)

/-- The tokens that a character completes, and where the reader stands behind it. A backslash between quotes is an
escape only in front of a quote or of another backslash. -/
def Stand.step : Stand → Char → List Token × Stand
  | .between, c => opened c
  | .inWord read, c =>
    if isWordChar c then ([], .inWord (read ++ [c]))
    else (.word (String.ofList read) :: (opened c).1, (opened c).2)
  | .inQuotes read, c =>
    if c == '"' then ([.quoted (String.ofList read)], .between)
    else if c == '\\' then ([], .behindSlash read)
    else ([], .inQuotes (read ++ [c]))
  | .behindSlash read, c =>
    if c == '"' || c == '\\' then ([], .inQuotes (read ++ [c]))
    else ([], .inQuotes (read ++ ['\\', c]))

def tokensFrom : Stand → List Char → List Token
  | .inWord read, [] => [.word (String.ofList read)]
  | _, [] => []
  | stand, c :: rest => (stand.step c).1 ++ tokensFrom (stand.step c).2 rest

/-- The statements of a text: the tokens between two of its semicolons. -/
def statements (text : String) : List (List Token) :=
  (tokensFrom .between text.toList).splitOn (.mark ';')

/-! ### Stretches of text -/

variable {start middle stop : Stand} {chars more : List Char} {found later : List Token}

/-- A stretch of text gives some tokens and leads a reader from one stand to another, whatever follows. -/
def Reads (start : Stand) (chars : List Char) (found : List Token) (stop : Stand) : Prop :=
  ∀ rest, tokensFrom start (chars ++ rest) = found ++ tokensFrom stop rest

theorem Reads.nil (stand : Stand) : Reads stand [] [] stand :=
  fun _ => rfl

theorem Reads.append (h : Reads start chars found middle) (hmore : Reads middle more later stop) :
    Reads start (chars ++ more) (found ++ later) stop := by
  intro rest
  rw [List.append_assoc, h, hmore, List.append_assoc]

theorem Reads.flatMap {α : Type} {text : α → List Char} {found : α → List Token} (items : List α)
    (h : ∀ item, Reads start (text item) (found item) start) :
    Reads start (items.flatMap text) (items.flatMap found) start := by
  induction items with
  | nil => exact .nil start
  | cons item rest ih => exact (h item).append ih

theorem reads_singleton (stand : Stand) (c : Char) : Reads stand [c] (stand.step c).1 (stand.step c).2 := by
  intro rest
  cases stand <;> rfl

theorem reads_word (read : List Char) (h : ∀ c ∈ chars, isWordChar c = true) :
    Reads (.inWord read) chars [] (.inWord (read ++ chars)) := by
  induction chars generalizing read with
  | nil =>
    rw [List.append_nil]
    exact .nil _
  | cons c chars ih =>
    obtain ⟨hc, hchars⟩ := List.forall_mem_cons.1 h
    have hstep := reads_singleton (.inWord read) c
    rw [Stand.step, if_pos hc] at hstep
    have hread := hstep.append (ih (read ++ [c]) hchars)
    rwa [List.append_assoc] at hread

theorem reads_number (read : List Char) (number : Nat) :
    Reads (.inWord read) (toString number).toList [] (.inWord (read ++ (toString number).toList)) := by
  refine reads_word read fun c hc => ?_
  rw [Nat.toString_eq_ofList_toDigits, String.toList_ofList] at hc
  have hdigit := Nat.isDigit_of_mem_toDigits (by decide) (by decide) hc
  simp [isWordChar, Char.isAlphanum, hdigit]

/-- **An escaped name is read back as the name**, and the reader is between the quotes behind it as before. -/
theorem reads_escape (read : List Char) (name : String) :
    Reads (.inQuotes read) (escape name).toList [] (.inQuotes (read ++ name.toList)) := by
  rw [escape, String.toList_ofList]
  generalize name.toList = chars
  induction chars generalizing read with
  | nil =>
    rw [List.append_nil]
    exact .nil _
  | cons c chars ih =>
    rw [List.flatMap_cons]
    have hchar : Reads (.inQuotes read) (if c == '"' || c == '\\' then ['\\', c] else [c]) []
        (.inQuotes (read ++ [c])) := by
      by_cases hescaped : (c == '"' || c == '\\') = true
      · rw [if_pos hescaped]
        have hslash := reads_singleton (.inQuotes read) '\\'
        have hstep := reads_singleton (.behindSlash read) c
        rw [Stand.step, if_pos hescaped] at hstep
        exact hslash.append hstep
      · have hplain : ¬ (c == '"') = true ∧ ¬ (c == '\\') = true := by simpa using hescaped
        have hstep := reads_singleton (.inQuotes read) c
        rw [Stand.step, if_neg hplain.1, if_neg hplain.2] at hstep
        rwa [if_neg hescaped]
    have hread := hchar.append (ih (read ++ [c]))
    rwa [List.append_assoc] at hread

/-! ### Statements -/

def nodeWord (number : Nat) : Token :=
  .word ("n" ++ toString number)

def setting (key value : String) : List Token :=
  [.word key, .mark '=', .word value]

def nodeAttributes : NodeRole → List Token
  | .package => setting "shape" "box" ++ .mark ',' :: setting "style" "filled" ++ .mark ',' ::
      setting "fillcolor" "lightgrey"
  | .analysed => setting "shape" "ellipse"
  | .external => setting "shape" "ellipse" ++ .mark ',' :: setting "style" "dashed"

def edgeAttributes : EdgeLabel → List Token
  | .contains => setting "style" "dotted" ++ .mark ',' :: setting "arrowhead" "none"
  | .dependsOn (some kind) => [.word "label", .mark '=', .quoted kind.label]
  | .dependsOn none => []

/-- The statement for the node with a number: its name is one token, between quotes. -/
def nodeStatement (node : GraphNode) (number : Nat) : List Token :=
  [nodeWord number, .mark '[', .word "label", .mark '=', .quoted node.name, .mark ','] ++
    (nodeAttributes node.role ++ [.mark ']'])

def edgeStatement (edge : Edge) : List Token :=
  [nodeWord edge.source, .mark '-', .mark '>', nodeWord edge.target, .mark '['] ++
    (edgeAttributes edge.label ++ [.mark ']'])

def opening : List Token :=
  [.word "digraph", .word "dependencies", .mark '\x7b', .word "rankdir", .mark '=', .word "LR"]

/-- The statements of the text of a graph, with what opens and closes it. -/
def statementsOf (graph : Graph) : List (List Token) :=
  opening :: (graph.nodes.zipIdx.map fun entry => nodeStatement entry.1 entry.2) ++
    graph.edges.map edgeStatement ++ [[.mark '\x7d']]

/-! ### The text of a graph -/

theorem ofList_append_number (number : Nat) :
    Token.word (String.ofList ("n".toList ++ (toString number).toList)) = nodeWord number := by
  rw [nodeWord, ← String.toList_append, String.ofList_toList]

theorem reads_nodeWord (number : Nat)
    (hmore : ∀ read, Reads (.inWord read) more (.word (String.ofList read) :: later) stop) :
    Reads (.inWord "n".toList) ((toString number).toList ++ more) (nodeWord number :: later) stop := by
  have hword := hmore ("n".toList ++ (toString number).toList)
  rw [ofList_append_number] at hword
  exact (reads_number _ number).append hword

theorem reads_indented : Reads .between "    n".toList [] (.inWord "n".toList) :=
  fun _ => rfl

theorem reads_nodeStyle (role : NodeRole) :
    Reads .between ((nodeStyle role).toList ++ "];\n".toList) (nodeAttributes role ++ [.mark ']', .mark ';'])
      .between := by
  intro rest
  cases role <;> rfl

theorem reads_edgeStyle (label : EdgeLabel) :
    Reads .between ((edgeStyle label).toList ++ "];\n".toList) (edgeAttributes label ++ [.mark ']', .mark ';'])
      .between := by
  intro rest
  cases label with
  | contains => rfl
  | dependsOn kind? =>
    cases kind? with
    | none => rfl
    | some kind => cases kind <;> rfl

theorem toList_nodeLine (node : GraphNode) (number : Nat) : (nodeLine node number).toList =
    "    n".toList ++ ((toString number).toList ++ (" [label=\"".toList ++ ((escape node.name).toList ++
      ("\", ".toList ++ ((nodeStyle node.role).toList ++ "];\n".toList))))) := by
  show (("    n" ++ toString number ++ " [label=\"") ++ escape node.name ++ "\", " ++ nodeStyle node.role ++
    "];\n").toList = _
  simp only [String.toList_append, List.append_assoc]

theorem toList_edgeLine (edge : Edge) : (edgeLine edge).toList =
    "    n".toList ++ ((toString edge.source).toList ++ (" -> n".toList ++ ((toString edge.target).toList ++
      (" [".toList ++ ((edgeStyle edge.label).toList ++ "];\n".toList))))) := by
  show (("    n" ++ toString edge.source ++ " -> n" ++ toString edge.target ++ " [") ++ edgeStyle edge.label ++
    "];\n").toList = _
  simp only [String.toList_append, List.append_assoc]

theorem reads_nodeLine (node : GraphNode) (number : Nat) :
    Reads .between (nodeLine node number).toList (nodeStatement node number ++ [.mark ';']) .between := by
  have hopen : ∀ read, Reads (.inWord read) " [label=\"".toList
      [.word (String.ofList read), .mark '[', .word "label", .mark '='] (.inQuotes []) := fun _ _ => rfl
  have hclose : Reads (.inQuotes node.name.toList) "\", ".toList
      [.quoted (String.ofList node.name.toList), .mark ','] .between := fun _ => rfl
  rw [String.ofList_toList] at hclose
  have hname := (reads_escape [] node.name).append (hclose.append (reads_nodeStyle node.role))
  have hline := reads_indented.append (reads_nodeWord number fun read => (hopen read).append hname)
  rw [toList_nodeLine, nodeStatement, List.append_assoc, List.append_assoc]
  exact hline

theorem reads_edgeLine (edge : Edge) :
    Reads .between (edgeLine edge).toList (edgeStatement edge ++ [.mark ';']) .between := by
  have harrow : ∀ read, Reads (.inWord read) " -> n".toList
      [.word (String.ofList read), .mark '-', .mark '>'] (.inWord "n".toList) := fun _ _ => rfl
  have hopen : ∀ read, Reads (.inWord read) " [".toList [.word (String.ofList read), .mark '['] .between :=
    fun _ _ => rfl
  have htarget := reads_nodeWord edge.target fun read => (hopen read).append (reads_edgeStyle edge.label)
  have hline := reads_indented.append (reads_nodeWord edge.source fun read => (harrow read).append htarget)
  rw [toList_edgeLine, edgeStatement, List.append_assoc, List.append_assoc]
  exact hline

theorem toList_text (graph : Graph) : (text graph).toList =
    "digraph dependencies \x7b\n    rankdir=LR;\n".toList ++
      ((graph.nodes.zipIdx.flatMap fun entry => (nodeLine entry.1 entry.2).toList) ++
        ((graph.edges.flatMap fun edge => (edgeLine edge).toList) ++ "\x7d\n".toList)) := by
  unfold text
  simp only [String.toList_append, String.toList_join, List.flatMap_map, List.append_assoc]

theorem semicolon_not_mem_nodeStatement (node : GraphNode) (number : Nat) :
    Token.mark ';' ∉ nodeStatement node number := by
  have hattributes : Token.mark ';' ∉ nodeAttributes node.role ++ [.mark ']'] := by
    cases node.role <;> decide
  refine List.not_mem_append ?_ hattributes
  simp [nodeWord]

theorem semicolon_not_mem_edgeStatement (edge : Edge) : Token.mark ';' ∉ edgeStatement edge := by
  have hattributes : Token.mark ';' ∉ edgeAttributes edge.label ++ [.mark ']'] := by
    cases edge.label with
    | contains => decide
    | dependsOn kind? => cases kind? <;> simp [edgeAttributes]
  refine List.not_mem_append ?_ hattributes
  simp [nodeWord]

/-- **The statements of a text are those of its graph**, one for each node and one for each edge. -/
theorem statements_text (graph : Graph) : statements (text graph) = statementsOf graph := by
  have hopening : Reads .between "digraph dependencies \x7b\n    rankdir=LR;\n".toList (opening ++ [.mark ';'])
      .between := fun _ => rfl
  have hclosing : tokensFrom .between "\x7d\n".toList = [.mark '\x7d'] := rfl
  have hnodes := Reads.flatMap graph.nodes.zipIdx fun entry => reads_nodeLine entry.1 entry.2
  have hedges := Reads.flatMap graph.edges reads_edgeLine
  have hparts : ∀ part ∈ opening :: (graph.nodes.zipIdx.map fun entry => nodeStatement entry.1 entry.2) ++
      graph.edges.map edgeStatement, Token.mark ';' ∉ part := by
    intro part hpart
    rw [List.cons_append, List.mem_cons, List.mem_append, List.mem_map, List.mem_map] at hpart
    obtain rfl | ⟨entry, -, rfl⟩ | ⟨edge, -, rfl⟩ := hpart
    · decide
    · exact semicolon_not_mem_nodeStatement entry.1 entry.2
    · exact semicolon_not_mem_edgeStatement edge
  have hended := Text.splitOn_ended hparts [.mark '\x7d']
  rw [statements, toList_text, hopening, hnodes, hedges, hclosing, statementsOf]
  simp only [List.cons_append, List.flatMap_cons, List.flatMap_append, List.flatMap_map, List.append_assoc] at hended ⊢
  exact hended

example : statements (text ⟨[⟨"a\"];\n n7 [", .analysed⟩], [], []⟩) =
    [opening, nodeStatement ⟨"a\"];\n n7 [", .analysed⟩ 0, [.mark '\x7d']] := by
  decide

/-! ### Graphs with one text -/

theorem nodeWord_injective {number other : Nat} (h : nodeWord number = nodeWord other) : number = other := by
  have htexts := congrArg String.toList (Token.word.inj h)
  rw [String.toList_append, String.toList_append] at htexts
  exact Nat.repr_inj.1 (String.toList_injective (List.append_cancel_left htexts))

theorem nodeAttributes_injective {role other : NodeRole} (h : nodeAttributes role = nodeAttributes other) :
    role = other := by
  revert h
  cases role <;> cases other <;> decide

theorem edgeAttributes_injective {label other : EdgeLabel} (h : edgeAttributes label = edgeAttributes other) :
    label = other := by
  cases label with
  | contains =>
    cases other with
    | contains => rfl
    | dependsOn seen? => cases seen? <;> simp [edgeAttributes, setting] at h
  | dependsOn kind? =>
    cases other with
    | contains => cases kind? <;> simp [edgeAttributes, setting] at h
    | dependsOn seen? =>
      cases kind? with
      | none => cases seen? <;> simp [edgeAttributes] at h ⊢
      | some kind =>
        cases seen? with
        | none => simp [edgeAttributes] at h
        | some seen =>
          simp only [edgeAttributes, List.cons.injEq, Token.quoted.injEq, and_true, true_and] at h
          rw [DependencyKind.label_injective h]

theorem nodeStatement_injective {node other : GraphNode} {number place : Nat}
    (h : nodeStatement node number = nodeStatement other place) : (node, number) = (other, place) := by
  obtain ⟨hfront, hback⟩ := List.append_inj h rfl
  simp only [List.cons.injEq, Token.quoted.injEq, and_true, true_and] at hfront
  have hrole := nodeAttributes_injective (List.append_cancel_right hback)
  cases node
  cases other
  cases hrole
  cases hfront.2
  rw [nodeWord_injective hfront.1]

theorem edgeStatement_injective {edge other : Edge} (h : edgeStatement edge = edgeStatement other) : edge = other := by
  obtain ⟨hfront, hback⟩ := List.append_inj h rfl
  simp only [List.cons.injEq, and_true, true_and] at hfront
  have hlabel := edgeAttributes_injective (List.append_cancel_right hback)
  cases edge
  cases other
  cases hlabel
  cases nodeWord_injective hfront.1
  cases nodeWord_injective hfront.2
  rfl

/-- Is it the statement of a node? That of an edge goes on with an arrow where this one has a bracket. -/
def isNodeStatement : List Token → Bool
  | _ :: .mark '[' :: _ => true
  | _ => false

/-- The statements of nodes and those of edges are told apart, so the nodes can be picked out of both kinds. -/
theorem filter_isNodeStatement (nodes : List (GraphNode × Nat)) (edges : List Edge) :
    ((nodes.map fun entry => nodeStatement entry.1 entry.2) ++ edges.map edgeStatement).filter isNodeStatement =
      nodes.map fun entry => nodeStatement entry.1 entry.2 := by
  have hnodes := List.filter_eq_self.2 (List.forall_mem_map.2 fun (entry : GraphNode × Nat) (_ : entry ∈ nodes) =>
    show isNodeStatement (nodeStatement entry.1 entry.2) = true from rfl)
  have hedges := List.filter_eq_nil_iff.2 (List.forall_mem_map.2 fun (edge : Edge) (_ : edge ∈ edges) =>
    show ¬ isNodeStatement (edgeStatement edge) = true from Bool.false_ne_true)
  rw [List.filter_append, hnodes, hedges, List.append_nil]

theorem statements_injective {nodes others : List (GraphNode × Nat)} {edges more : List Edge}
    (h : (nodes.map fun entry => nodeStatement entry.1 entry.2) ++ edges.map edgeStatement =
      (others.map fun entry => nodeStatement entry.1 entry.2) ++ more.map edgeStatement) :
    nodes = others ∧ edges = more := by
  have hnodes := congrArg (List.filter isNodeStatement) h
  rw [filter_isNodeStatement, filter_isNodeStatement] at hnodes
  rw [hnodes] at h
  exact ⟨(List.map_inj_right fun _ _ => nodeStatement_injective).1 hnodes,
    (List.map_inj_right fun _ _ => edgeStatement_injective).1 (List.append_cancel_left h)⟩

/-- **The text of a graph tells its nodes and its edges**, whatever characters the names are made of. A reader finds
one statement for each node, with the name as one quoted token in it, one for each edge and no others; and graphs
have the same text exactly if they have the same nodes, with their names and roles, and the same edges, with their
ends and labels, in the same order. -/
theorem text_tells_graph :
    (∀ graph, statements (text graph) = statementsOf graph) ∧
    ∀ graph other, text graph = text other ↔ graph.nodes = other.nodes ∧ graph.edges = other.edges := by
  refine ⟨statements_text, fun graph other => ⟨fun h => ?_, fun h => by unfold text; rw [h.1, h.2]⟩⟩
  have hstatements : statementsOf graph = statementsOf other := by
    rw [← statements_text graph, h, statements_text]
  have hbody := List.append_cancel_right hstatements
  rw [List.cons_append, List.cons_append] at hbody
  obtain ⟨hnodes, hedges⟩ := statements_injective (List.cons.inj hbody).2
  refine ⟨?_, hedges⟩
  rw [← List.zipIdx_map_fst 0 graph.nodes, hnodes, List.zipIdx_map_fst]

end JavaAtlas.Graph.Dot

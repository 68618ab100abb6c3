import JavaAtlas.Graph

/-!
# Graphs in DOT

The text of a graph in the DOT language: one line for each node, then one for each edge. Nodes are numbered
in their order, so that a name stands nowhere but between the quotes of a label, where quotes and backslashes
are escaped.
-/

namespace JavaAtlas.Graph.Dot

/-- A name as it stands between the quotes of a label. -/
def escape (name : String) : String :=
  String.ofList (name.toList.flatMap fun c => if c == '"' || c == '\\' then ['\\', c] else [c])

/-- The look of a node: packages are boxes, external types are dashed. -/
def nodeStyle : NodeRole → String
  | .package => "shape=box, style=filled, fillcolor=lightgrey"
  | .analysed => "shape=ellipse"
  | .external => "shape=ellipse, style=dashed"

def edgeStyle : EdgeLabel → String
  | .contains => "style=dotted, arrowhead=none"
  | .dependsOn (some kind) => "label=\"" ++ kind.label ++ "\""
  | .dependsOn none => ""

def nodeLine (node : GraphNode) (number : Nat) : String :=
  s!"    n{number} [label=\"" ++ escape node.name ++ "\", " ++ nodeStyle node.role ++ "];\n"

def edgeLine (edge : Edge) : String :=
  s!"    n{edge.source} -> n{edge.target} [" ++ edgeStyle edge.label ++ "];\n"

def text (graph : Graph) : String :=
  "digraph dependencies \x7b\n    rankdir=LR;\n" ++
    String.join (graph.nodes.zipIdx.map fun entry => nodeLine entry.1 entry.2) ++
    String.join (graph.edges.map edgeLine) ++ "\x7d\n"

end JavaAtlas.Graph.Dot

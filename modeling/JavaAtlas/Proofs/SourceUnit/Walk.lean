import JavaAtlas.SourceUnit

/-!
# The walk over a unit

What the rest of the theory knows about the order in which nodes are visited: that the walk over a node meets
exactly the nodes reached from it through children, at any depth. Facts about all nodes of a unit are proved by
`Node.induction`, so the shapes of the nodes are looked at only here.
-/

namespace JavaAtlas

namespace Node

theorem induction {P : Node → Prop}
    (step : ∀ node : Node, (∀ child ∈ node.children, P child) → P node) : ∀ node, P node
  | .package name line => step _ fun child hchild => by simp [children] at hchild
  | .imported item => step _ fun child hchild => by simp [children] at hchild
  | .branch head below => step _ fun child hchild => induction step child
termination_by node => sizeOf node
decreasing_by
  have hsize := List.sizeOf_lt_of_mem (show child ∈ below from hchild)
  simp only [branch.sizeOf_spec]
  omega

/-- A node and the nodes below it: those that are reached by going from nodes to their children. -/
inductive Reaches : Node → Node → Prop where
  | self (node : Node) : Reaches node node
  | through {node child inner : Node} (hchild : child ∈ node.children)
      (hinner : Reaches child inner) : Reaches node inner

theorem walkAll_eq_flatMap (nodes : List Node) : walkAll nodes = nodes.flatMap walk := by
  induction nodes with
  | nil => rw [walkAll, List.flatMap_nil]
  | cons node rest ih => rw [walkAll, ih, List.flatMap_cons]

theorem mem_walkAll {inner : Node} {nodes : List Node} :
    inner ∈ walkAll nodes ↔ ∃ node ∈ nodes, inner ∈ walk node := by
  induction nodes with
  | nil => simp [walkAll]
  | cons node rest ih => simp [walkAll, ih]

theorem mem_walk {node inner : Node} :
    inner ∈ walk node ↔ inner = node ∨ ∃ child ∈ node.children, inner ∈ walk child := by
  cases node with
  | package name line => simp [walk, children]
  | imported item => simp [walk, children]
  | branch head below => simp [walk, children, mem_walkAll]

theorem mem_walk_iff_reaches {node inner : Node} : inner ∈ walk node ↔ node.Reaches inner := by
  constructor
  · induction node using Node.induction with
    | step node ih =>
      intro h
      rcases mem_walk.1 h with rfl | ⟨child, hchild, hinner⟩
      · exact .self inner
      · exact .through hchild (ih child hchild hinner)
  · intro h
    induction h with
    | self node => exact mem_walk.2 (Or.inl rfl)
    | through hchild _ ih => exact mem_walk.2 (Or.inr ⟨_, hchild, ih⟩)

end Node

namespace SourceUnit

/-- A unit holds the nodes at its top and all that are reached from them. -/
def Holds (unit : SourceUnit) (node : Node) : Prop :=
  ∃ top ∈ unit.nodes, top.Reaches node

theorem mem_walk {unit : SourceUnit} {node : Node} : node ∈ unit.walk ↔ unit.Holds node := by
  simp only [walk, Node.mem_walkAll, Node.mem_walk_iff_reaches, Holds]

end SourceUnit

end JavaAtlas

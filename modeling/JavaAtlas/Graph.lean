import JavaAtlas.Event
import JavaAtlas.Report

/-!
# Dependency graphs

A graph of packages, classes and the types outside, grown from observations: the report on a class or the
event for a file. Nodes keep the order in which their names came up, edges that in which they were drawn. An edge
knows the places of its ends among the nodes, and the graph the place of every name. Growing never removes
anything, never draws an edge twice, and never draws one from a node to itself; a name that was only referred to
becomes a class once it is observed as one.
-/

namespace JavaAtlas

/-- What a node of a graph stands for. An external type is referred to and was not observed itself. -/
inductive NodeRole where
  | package
  | analysed
  | external
deriving DecidableEq, Repr, Inhabited

/-- What an edge says: a package contains a class, or a class depends on a type, in a known role or not. -/
inductive EdgeLabel where
  | contains
  | dependsOn (kind? : Option DependencyKind)
deriving DecidableEq, Repr, Inhabited

def EdgeLabel.isDependency : EdgeLabel → Bool
  | .contains => false
  | .dependsOn _ => true

structure GraphNode where
  name : String
  role : NodeRole
deriving DecidableEq, Repr, Inhabited

structure Edge where
  source : Nat
  target : Nat
  label : EdgeLabel
deriving DecidableEq, Repr, Inhabited

/-- An analysed class with the types it depends on and the roles they play, where these are known. -/
structure Observation where
  className : String
  targets : List (String × Option DependencyKind)
deriving DecidableEq, Repr, Inhabited

namespace Observation

/-- The package in a class name: what stands before the last point, `default` without one. -/
def packageOf (className : String) : String :=
  match className.toList.reverse.dropWhile (· != '.') with
  | [] => "default"
  | _ :: package => String.ofList package.reverse

def ofReport (report : ClassReport) : Observation :=
  ⟨report.className, report.dependencies.toList.map fun entry => (entry.target, some entry.kind)⟩

def ofEvent (event : Event) : Observation :=
  ⟨event.className, event.imports.map fun name => (name, none)⟩

end Observation

/-- A graph: its nodes and its edges, each in the order of their appearance, and the places of the names. -/
structure Graph where
  nodes : List GraphNode
  edges : List Edge
  places : List (String × Nat)
deriving DecidableEq, Repr, Inhabited

namespace Graph

def empty : Graph :=
  ⟨[], [], []⟩

def place? (graph : Graph) (name : String) : Option Nat :=
  graph.places.lookup name

def nameAt? (graph : Graph) (place : Nat) : Option String :=
  graph.nodes[place]?.map GraphNode.name

def node? (graph : Graph) (name : String) : Option GraphNode :=
  (graph.place? name).bind (graph.nodes[·]?)

/-- A graph with one more node, which comes last. -/
def withNode (graph : Graph) (name : String) (role : NodeRole) : Graph :=
  { graph with
    nodes := graph.nodes ++ [⟨name, role⟩]
    places := (name, graph.nodes.length) :: graph.places }

/-- The place of a name, in a graph in which the name has a node. A node that is there already keeps its role. -/
def placed (graph : Graph) (name : String) (role : NodeRole) : Nat × Graph :=
  match graph.place? name with
  | some place => (place, graph)
  | none => (graph.nodes.length, graph.withNode name role)

/-- A graph in which the node at a place stands for an analysed class. -/
def markAnalysed (graph : Graph) (place : Nat) : Graph :=
  { graph with nodes := graph.nodes.modify place fun node => { node with role := .analysed } }

/-- A graph with an edge, unless it is there already or would lead from a node to itself. -/
def withEdge (graph : Graph) (edge : Edge) : Graph :=
  if edge.source == edge.target || graph.edges.contains edge then graph
  else { graph with edges := graph.edges ++ [edge] }

/-- The place of a class, in a graph in which the class stands inside its package. -/
def withClass (graph : Graph) (className : String) : Nat × Graph :=
  let package := graph.placed (Observation.packageOf className) .package
  let type := package.2.placed className .analysed
  (type.1, (type.2.markAnalysed type.1).withEdge ⟨package.1, type.1, .contains⟩)

/-- A graph in which the class at a place depends on a type. -/
def withTarget (source : Nat) (graph : Graph) (target : String × Option DependencyKind) : Graph :=
  let type := graph.placed target.1 .external
  type.2.withEdge ⟨source, type.1, .dependsOn target.2⟩

def add (graph : Graph) (observation : Observation) : Graph :=
  let type := graph.withClass observation.className
  observation.targets.foldl (withTarget type.1) type.2

def ofObservations (observations : List Observation) : Graph :=
  observations.foldl add empty

def ofProject (report : ProjectReport) : Graph :=
  ofObservations (report.classReports.map Observation.ofReport)

def ofEvents (events : List Event) : Graph :=
  ofObservations (events.map Observation.ofEvent)

/-- The names of the nodes that dependencies join to a name, in increasing order: those at one end of the edges
that have the name at the other. -/
def neighbours (graph : Graph) (name : String) (here there : Edge → Nat) : List String :=
  match graph.place? name with
  | none => []
  | some place =>
    let found := graph.edges.filter fun edge => edge.label.isDependency && here edge == place
    (OrderedSet.ofList (found.filterMap fun edge => graph.nameAt? (there edge))).toList

/-- The names of the types that a class depends on, in increasing order. -/
def dependenciesOf (graph : Graph) (name : String) : List String :=
  graph.neighbours name Edge.source Edge.target

/-- The names of the classes that depend on a type, in increasing order. -/
def dependentsOf (graph : Graph) (name : String) : List String :=
  graph.neighbours name Edge.target Edge.source

end Graph

end JavaAtlas

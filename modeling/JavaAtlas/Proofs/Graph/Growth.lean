import JavaAtlas.Graph
import Mathlib.Data.List.Nodup

/-!
# What a graph keeps while it grows

A name can play several parts in a graph: a class is called like a package, a type that was only referred to is
analysed later, a class without a package is called `default`. What is true of every graph all the same is kept by
each of the three ways in which a graph changes: a node for a new name, a node that becomes an analysed class, and
an edge. Two facts are not: a class that has just come up is not in its package yet, and a type that has just come
up is not referred to yet. These are said of one place at a time (`Settled`), so that the place at which a graph
is worked on can be left out until its edge is drawn.
-/

namespace JavaAtlas.Graph

open Observation (packageOf)

variable {graph later : Graph} {name className : String} {role : NodeRole} {place source : Nat} {edge : Edge}

/-! ### Well-formed graphs -/

def roleAt? (graph : Graph) (place : Nat) : Option NodeRole :=
  graph.nodes[place]?.map GraphNode.role

/-- The edges that lead from a package into the node at a place. -/
def containers (graph : Graph) (place : Nat) : List Edge :=
  graph.edges.filter fun edge => edge.label = .contains ∧ edge.target = place

/-- What holds of a graph whatever it was grown from. -/
structure WellFormed (graph : Graph) : Prop where
  /-- A name has the place of the node that bears it, and no place if no node does. -/
  place?_iff : ∀ name place, graph.place? name = some place ↔ graph.nameAt? place = some name
  names_nodup : (graph.nodes.map GraphNode.name).Nodup
  ends : ∀ edge ∈ graph.edges, edge.source < graph.nodes.length ∧ edge.target < graph.nodes.length
  no_loop : ∀ edge ∈ graph.edges, edge.source ≠ edge.target
  edges_nodup : graph.edges.Nodup
  dependent : ∀ edge ∈ graph.edges, edge.label.isDependency → graph.roleAt? edge.source = some .analysed
  contained : ∀ edge ∈ graph.edges, edge.label = .contains → graph.roleAt? edge.target = some .analysed
  /-- A class is in the package that its name names and in no other one, and not in itself. -/
  containers : ∀ className place, graph.nodes[place]? = some ⟨className, .analysed⟩ →
    ∃ package, graph.place? (packageOf className) = some package ∧
      graph.containers place = if package = place then [] else [⟨package, place, .contains⟩]
  /-- A type that was not analysed is there because something depends on it. -/
  external : ∀ place, graph.roleAt? place = some .external →
    ∃ edge ∈ graph.edges, edge.label.isDependency ∧ edge.target = place

/-! ### Facts that no change breaks -/

/-- What an edge joins: a package and a class that stands in it, or an analysed class and a type. -/
def Joins (graph : Graph) (edge : Edge) : Prop :=
  match edge.label with
  | .contains => ∃ className, graph.nodes[edge.target]? = some ⟨className, .analysed⟩ ∧
      graph.place? (packageOf className) = some edge.source
  | .dependsOn _ => (∃ className, graph.nodes[edge.source]? = some ⟨className, .analysed⟩) ∧
      edge.target < graph.nodes.length

structure Consistent (graph : Graph) : Prop where
  place?_iff : ∀ name place, graph.place? name = some place ↔ graph.nameAt? place = some name
  no_loop : ∀ edge ∈ graph.edges, edge.source ≠ edge.target
  edges_nodup : graph.edges.Nodup
  joins : ∀ edge ∈ graph.edges, graph.Joins edge

/-- The edge that the role of the node at a place calls for has been drawn. -/
structure Settled (graph : Graph) (place : Nat) : Prop where
  analysed : ∀ className, graph.nodes[place]? = some ⟨className, .analysed⟩ →
    ∃ package, graph.place? (packageOf className) = some package ∧
      (package = place ∨ ⟨package, place, .contains⟩ ∈ graph.edges)
  external : ∀ name, graph.nodes[place]? = some ⟨name, .external⟩ →
    ∃ edge ∈ graph.edges, edge.label.isDependency ∧ edge.target = place

/-- What holds of a graph between two changes. -/
structure Sound (graph : Graph) : Prop extends graph.Consistent where
  settled : ∀ place, graph.Settled place

/-- What the changes of a graph leave: places keep their names, and edges stay; only the role of a node may change,
and only to that of an analysed class. -/
structure Extends (later graph : Graph) : Prop where
  node : ∀ {place : Nat} {node : GraphNode}, graph.nodes[place]? = some node →
    later.nodes[place]? = some node ∨ later.nodes[place]? = some { node with role := .analysed }
  place : ∀ {name : String} {place : Nat}, graph.place? name = some place → later.place? name = some place
  edge : ∀ edge ∈ graph.edges, edge ∈ later.edges

namespace Extends

theorem refl (graph : Graph) : graph.Extends graph :=
  ⟨.inl, id, fun _ => id⟩

theorem trans {latest : Graph} (hlatest : latest.Extends later) (h : later.Extends graph) : latest.Extends graph where
  node hnode := by
    obtain hkept | hmarked := h.node hnode
    · exact hlatest.node hkept
    · exact .inr ((hlatest.node hmarked).elim id id)
  place hplace := hlatest.place (h.place hplace)
  edge edge hedge := hlatest.edge edge (h.edge edge hedge)

theorem analysed (h : later.Extends graph) (hnode : graph.nodes[place]? = some ⟨name, .analysed⟩) :
    later.nodes[place]? = some ⟨name, .analysed⟩ :=
  (h.node hnode).elim id id

theorem lt_length (h : later.Extends graph) (hplace : place < graph.nodes.length) :
    place < later.nodes.length := by
  obtain hnode | hnode := h.node (List.getElem?_eq_getElem hplace)
  · exact (List.getElem?_eq_some_iff.1 hnode).1
  · exact (List.getElem?_eq_some_iff.1 hnode).1

theorem joins (h : later.Extends graph) (hjoins : graph.Joins edge) : later.Joins edge := by
  rw [Joins] at hjoins ⊢
  split at hjoins
  · obtain ⟨className, hnode, hplace⟩ := hjoins
    exact ⟨className, h.analysed hnode, h.place hplace⟩
  · obtain ⟨⟨className, hnode⟩, htarget⟩ := hjoins
    exact ⟨⟨className, h.analysed hnode⟩, h.lt_length htarget⟩

theorem settled (h : later.Extends graph) (hnode : later.nodes[place]? = graph.nodes[place]?)
    (hsettled : graph.Settled place) : later.Settled place where
  analysed className hanalysed := by
    obtain ⟨package, hpackage, hdrawn⟩ := hsettled.analysed className (hnode ▸ hanalysed)
    exact ⟨package, h.place hpackage, hdrawn.imp_right (h.edge _)⟩
  external name hexternal := by
    obtain ⟨edge, hedge, hends⟩ := hsettled.external name (hnode ▸ hexternal)
    exact ⟨edge, h.edge edge hedge, hends⟩

end Extends

/-! ### Nodes -/

theorem nameAt?_eq_some_iff : graph.nameAt? place = some name ↔ ∃ role, graph.nodes[place]? = some ⟨name, role⟩ := by
  rw [nameAt?, Option.map_eq_some_iff]
  constructor
  · rintro ⟨node, hnode, rfl⟩
    exact ⟨node.role, hnode⟩
  · rintro ⟨role, hnode⟩
    exact ⟨_, hnode, rfl⟩

theorem roleAt?_eq_some_iff : graph.roleAt? place = some role ↔ ∃ name, graph.nodes[place]? = some ⟨name, role⟩ := by
  rw [roleAt?, Option.map_eq_some_iff]
  constructor
  · rintro ⟨node, hnode, rfl⟩
    exact ⟨node.name, hnode⟩
  · rintro ⟨name, hnode⟩
    exact ⟨_, hnode, rfl⟩

theorem place?_withNode (other : String) : (graph.withNode name role).place? other =
    if other = name then some graph.nodes.length else graph.place? other := by
  rw [place?, withNode, List.lookup_cons]
  by_cases h : other = name
  · simp [h]
  · rw [beq_false_of_ne h, if_neg h]
    rfl

theorem nodes_withNode (hplace : place ≠ graph.nodes.length) :
    (graph.withNode name role).nodes[place]? = graph.nodes[place]? := by
  rw [withNode, List.getElem?_append]
  split
  · rfl
  · rw [List.getElem?_eq_none (by simp only [List.length_singleton]; omega), List.getElem?_eq_none (by omega)]

theorem nodes_withNode_length : (graph.withNode name role).nodes[graph.nodes.length]? = some ⟨name, role⟩ :=
  List.getElem?_concat_length

theorem extends_withNode (hname : graph.place? name = none) : (graph.withNode name role).Extends graph where
  node {place node} hnode := by
    have hplace := (List.getElem?_eq_some_iff.1 hnode).1
    rw [nodes_withNode (Nat.ne_of_lt hplace)]
    exact .inl hnode
  place {other place} hplace := by
    have hother : other ≠ name := by
      rintro rfl
      rw [hname] at hplace
      exact nomatch hplace
    rw [place?_withNode, if_neg hother]
    exact hplace
  edge _ hedge := hedge

theorem Consistent.withNode (h : graph.Consistent) (hname : graph.place? name = none) :
    (graph.withNode name role).Consistent where
  place?_iff other place := by
    rw [place?_withNode, nameAt?]
    by_cases hplace : place = graph.nodes.length
    · subst hplace
      rw [nodes_withNode_length]
      by_cases hother : other = name
      · simp [hother]
      · have hfree := h.place?_iff other graph.nodes.length
        rw [nameAt?, List.getElem?_eq_none (Nat.le_refl _)] at hfree
        simp [hother, hfree, Ne.symm hother]
    · rw [nodes_withNode hplace, ← nameAt?]
      by_cases hother : other = name
      · have hfree := h.place?_iff name place
        rw [hname] at hfree
        simpa [hother, Ne.symm hplace] using hfree
      · rw [if_neg hother]
        exact h.place?_iff other place
  no_loop := h.no_loop
  edges_nodup := h.edges_nodup
  joins edge hedge := (extends_withNode hname).joins (h.joins edge hedge)

theorem placed_cases (graph : Graph) (name : String) (role : NodeRole) :
    (∃ place, graph.place? name = some place ∧ graph.placed name role = (place, graph)) ∨
    (graph.place? name = none ∧ graph.placed name role = (graph.nodes.length, graph.withNode name role)) := by
  rw [placed]
  cases h : graph.place? name with
  | some place => exact .inl ⟨place, rfl, rfl⟩
  | none => exact .inr ⟨rfl, rfl⟩

theorem Consistent.placed (h : graph.Consistent) (name : String) (role : NodeRole) :
    (graph.placed name role).2.Consistent := by
  obtain ⟨place, -, heq⟩ | ⟨hname, heq⟩ := placed_cases graph name role
  · rw [heq]
    exact h
  · rw [heq]
    exact h.withNode hname

theorem extends_placed (graph : Graph) (name : String) (role : NodeRole) :
    (graph.placed name role).2.Extends graph := by
  obtain ⟨place, -, heq⟩ | ⟨hname, heq⟩ := placed_cases graph name role
  · rw [heq]
    exact .refl graph
  · rw [heq]
    exact extends_withNode hname

theorem place?_placed (graph : Graph) (name : String) (role : NodeRole) :
    (graph.placed name role).2.place? name = some (graph.placed name role).1 := by
  obtain ⟨place, hplace, heq⟩ | ⟨-, heq⟩ := placed_cases graph name role
  · rw [heq]
    exact hplace
  · rw [heq, place?_withNode, if_pos rfl]

/-- Only the place of the name itself may be unsettled after a node has been made for it. -/
theorem settled_placed (h : ∀ place, graph.Settled place) (hplace : place ≠ (graph.placed name role).1) :
    (graph.placed name role).2.Settled place := by
  obtain ⟨seen, -, heq⟩ | ⟨hname, heq⟩ := placed_cases graph name role
  · rw [heq]
    exact h place
  · rw [heq] at hplace ⊢
    exact (extends_withNode hname).settled (nodes_withNode hplace) (h place)

theorem settled_placed_package (h : ∀ place, graph.Settled place) (name : String) (place : Nat) :
    (graph.placed name .package).2.Settled place := by
  by_cases hplace : place = (graph.placed name .package).1
  · obtain ⟨seen, -, heq⟩ | ⟨hname, heq⟩ := placed_cases graph name .package
    · rw [heq]
      exact h place
    · rw [heq] at hplace ⊢
      subst hplace
      exact ⟨fun _ hnode => by simp [nodes_withNode_length] at hnode,
        fun _ hnode => by simp [nodes_withNode_length] at hnode⟩
  · exact settled_placed h hplace

/-! ### Roles -/

theorem nodes_markAnalysed (graph : Graph) (place other : Nat) : (graph.markAnalysed place).nodes[other]? =
    if place = other then graph.nodes[other]?.map fun node => { node with role := .analysed }
    else graph.nodes[other]? := by
  rw [markAnalysed, List.getElem?_modify]
  split
  · rfl
  · exact Option.map_id'

theorem nameAt?_markAnalysed (graph : Graph) (place other : Nat) :
    (graph.markAnalysed place).nameAt? other = graph.nameAt? other := by
  rw [nameAt?, nodes_markAnalysed]
  split
  · rw [Option.map_map]
    rfl
  · rfl

theorem extends_markAnalysed (graph : Graph) (place : Nat) : (graph.markAnalysed place).Extends graph where
  node {other node} hnode := by
    rw [nodes_markAnalysed, hnode]
    split
    · exact .inr rfl
    · exact .inl rfl
  place hplace := hplace
  edge _ hedge := hedge

theorem Consistent.markAnalysed (h : graph.Consistent) (place : Nat) : (graph.markAnalysed place).Consistent where
  place?_iff name other := by
    rw [nameAt?_markAnalysed]
    exact h.place?_iff name other
  no_loop := h.no_loop
  edges_nodup := h.edges_nodup
  joins edge hedge := (extends_markAnalysed graph place).joins (h.joins edge hedge)

theorem settled_markAnalysed {other : Nat} (h : graph.Settled other) (hother : other ≠ place) :
    (graph.markAnalysed place).Settled other := by
  refine (extends_markAnalysed graph place).settled ?_ h
  rw [nodes_markAnalysed, if_neg (Ne.symm hother)]

/-! ### Edges -/

theorem withEdge_cases (graph : Graph) (edge : Edge) :
    ((edge.source = edge.target ∨ edge ∈ graph.edges) ∧ graph.withEdge edge = graph) ∨
    (edge.source ≠ edge.target ∧ edge ∉ graph.edges ∧
      graph.withEdge edge = { graph with edges := graph.edges ++ [edge] }) := by
  rw [withEdge]
  by_cases h : edge.source = edge.target ∨ edge ∈ graph.edges
  · rw [if_pos (by simpa using h)]
    exact .inl ⟨h, rfl⟩
  · rw [if_neg (by simpa using h)]
    exact .inr ⟨fun heq => h (.inl heq), fun hmem => h (.inr hmem), rfl⟩

theorem nodes_withEdge (graph : Graph) (edge : Edge) : (graph.withEdge edge).nodes = graph.nodes := by
  obtain ⟨-, heq⟩ | ⟨-, -, heq⟩ := withEdge_cases graph edge
  · rw [heq]
  · rw [heq]

theorem place?_withEdge (graph : Graph) (edge : Edge) (name : String) :
    (graph.withEdge edge).place? name = graph.place? name := by
  obtain ⟨-, heq⟩ | ⟨-, -, heq⟩ := withEdge_cases graph edge
  · rw [heq]
  · rw [heq]
    rfl

theorem mem_edges_withEdge {other : Edge} (graph : Graph) (edge : Edge) :
    other ∈ (graph.withEdge edge).edges ↔
      other ∈ graph.edges ∨ (other = edge ∧ edge.source ≠ edge.target) := by
  obtain ⟨hold, heq⟩ | ⟨hends, -, heq⟩ := withEdge_cases graph edge
  · rw [heq, iff_self_or]
    rintro ⟨rfl, hends⟩
    exact hold.resolve_left hends
  · rw [heq, List.mem_append, List.mem_singleton, and_iff_left hends]

theorem extends_withEdge (graph : Graph) (edge : Edge) : (graph.withEdge edge).Extends graph where
  node hnode := .inl (by rw [nodes_withEdge]; exact hnode)
  place hplace := by rw [place?_withEdge]; exact hplace
  edge _ hedge := (mem_edges_withEdge graph edge).2 (.inl hedge)

theorem Consistent.withEdge (h : graph.Consistent) (hjoins : graph.Joins edge) :
    (graph.withEdge edge).Consistent where
  place?_iff name place := by
    rw [place?_withEdge, nameAt?, nodes_withEdge]
    exact h.place?_iff name place
  no_loop other hother := by
    obtain hother | ⟨rfl, hends⟩ := (mem_edges_withEdge graph edge).1 hother
    · exact h.no_loop other hother
    · exact hends
  edges_nodup := by
    obtain ⟨-, heq⟩ | ⟨-, hnew, heq⟩ := withEdge_cases graph edge
    · rw [heq]
      exact h.edges_nodup
    · rw [heq]
      exact List.nodup_append.2 ⟨h.edges_nodup, List.nodup_singleton edge,
        fun other hother last hlast => by
          obtain rfl := List.mem_singleton.1 hlast
          exact ne_of_mem_of_not_mem hother hnew⟩
  joins other hother := by
    obtain hother | ⟨rfl, -⟩ := (mem_edges_withEdge graph edge).1 hother
    · exact (extends_withEdge graph edge).joins (h.joins other hother)
    · exact (extends_withEdge graph other).joins hjoins

theorem settled_withEdge (h : graph.Settled place) (edge : Edge) : (graph.withEdge edge).Settled place :=
  (extends_withEdge graph edge).settled (by rw [nodes_withEdge]) h

/-! ### Observations -/

theorem Consistent.nodes_markAnalysed (h : graph.Consistent) (hplace : graph.place? className = some place) :
    (graph.markAnalysed place).nodes[place]? = some ⟨className, .analysed⟩ := by
  obtain ⟨role, hnode⟩ := nameAt?_eq_some_iff.1 ((h.place?_iff className place).1 hplace)
  rw [Graph.nodes_markAnalysed, if_pos rfl, hnode]
  rfl

/-- A class is settled by the edge from its package, which is not drawn if the class is its own package. -/
theorem settled_withEdge_contains (hnode : graph.nodes[place]? = some ⟨className, .analysed⟩)
    (hpackage : graph.place? (packageOf className) = some source) :
    (graph.withEdge ⟨source, place, .contains⟩).Settled place where
  analysed other hother := by
    rw [nodes_withEdge, hnode] at hother
    obtain ⟨rfl, -⟩ := GraphNode.mk.inj (Option.some.inj hother)
    refine ⟨source, (place?_withEdge _ _ _).trans hpackage, ?_⟩
    by_cases hself : source = place
    · exact .inl hself
    · exact .inr ((mem_edges_withEdge _ _).2 (.inr ⟨rfl, hself⟩))
  external other hother := by
    rw [nodes_withEdge, hnode] at hother
    exact nomatch (GraphNode.mk.inj (Option.some.inj hother)).2

theorem Sound.withClass (h : graph.Sound) (className : String) :
    (graph.withClass className).2.Sound ∧
      (graph.withClass className).2.nodes[(graph.withClass className).1]? = some ⟨className, .analysed⟩ := by
  rw [Graph.withClass]
  -- The node of the package calls for no edge: every place is still settled.
  have hconsistent := h.toConsistent.placed (packageOf className) .package
  have hpackage := place?_placed graph (packageOf className) .package
  have hsettled := settled_placed_package h.settled (packageOf className)
  generalize graph.placed (packageOf className) .package = package at *
  -- The node of the class does: its place is left out until the edge is drawn.
  have hothers : ∀ place, place ≠ (package.2.placed className .analysed).1 →
      (package.2.placed className .analysed).2.Settled place := fun place => settled_placed hsettled
  have hplace := place?_placed package.2 className .analysed
  replace hpackage := (extends_placed package.2 className .analysed).place hpackage
  replace hconsistent := hconsistent.placed className .analysed
  generalize package.2.placed className .analysed = type at *
  have hnode := hconsistent.nodes_markAnalysed hplace
  refine ⟨⟨(hconsistent.markAnalysed type.1).withEdge ⟨className, hnode, hpackage⟩, fun place => ?_⟩, ?_⟩
  · by_cases hself : place = type.1
    · subst hself
      exact settled_withEdge_contains hnode hpackage
    · exact settled_withEdge (settled_markAnalysed (hothers place hself) hself) _
  · dsimp only
    rw [nodes_withEdge]
    exact hnode

/-- A type that has just come up has another place than the class that refers to it, and so its edge is drawn. -/
theorem settled_withEdge_dependsOn {kind? : Option DependencyKind} (hsource : source < graph.nodes.length) :
    ((graph.withNode name .external).withEdge ⟨source, graph.nodes.length, .dependsOn kind?⟩).Settled
      graph.nodes.length where
  analysed other hother := by
    rw [nodes_withEdge, nodes_withNode_length] at hother
    exact nomatch (GraphNode.mk.inj (Option.some.inj hother)).2
  external other hother :=
    ⟨_, (mem_edges_withEdge _ _).2 (.inr ⟨rfl, Nat.ne_of_lt hsource⟩), rfl, rfl⟩

theorem Sound.withTarget (h : graph.Sound) (hsource : graph.nodes[source]? = some ⟨className, .analysed⟩)
    (target : String × Option DependencyKind) :
    (withTarget source graph target).Sound ∧
      (withTarget source graph target).nodes[source]? = some ⟨className, .analysed⟩ := by
  have hconsistent := h.toConsistent.placed target.1 .external
  have hkept := (extends_placed graph target.1 .external).analysed hsource
  obtain ⟨role, hnode⟩ := nameAt?_eq_some_iff.1
    ((hconsistent.place?_iff _ _).1 (place?_placed graph target.1 .external))
  rw [Graph.withTarget]
  refine ⟨⟨hconsistent.withEdge ⟨⟨className, hkept⟩, (List.getElem?_eq_some_iff.1 hnode).1⟩, fun place => ?_⟩, ?_⟩
  · by_cases hplace : place = (graph.placed target.1 .external).1
    · obtain ⟨seen, -, heq⟩ | ⟨-, heq⟩ := placed_cases graph target.1 .external
      · rw [heq]
        exact settled_withEdge (h.settled place) _
      -- The type has just come up, so that nothing else refers to it.
      · rw [heq] at hplace ⊢
        subst hplace
        exact settled_withEdge_dependsOn (List.getElem?_eq_some_iff.1 hsource).1
    · exact settled_withEdge (settled_placed h.settled hplace) _
  · rw [nodes_withEdge]
    exact hkept

theorem Sound.foldl_withTarget (targets : List (String × Option DependencyKind)) {graph : Graph} (h : graph.Sound)
    (hsource : graph.nodes[source]? = some ⟨className, .analysed⟩) :
    (targets.foldl (Graph.withTarget source) graph).Sound := by
  induction targets generalizing graph with
  | nil => exact h
  | cons target rest ih =>
    obtain ⟨hnext, hkept⟩ := h.withTarget hsource target
    exact ih hnext hkept

theorem Sound.add (h : graph.Sound) (observation : Observation) : (graph.add observation).Sound := by
  obtain ⟨hclass, hnode⟩ := h.withClass observation.className
  exact hclass.foldl_withTarget observation.targets hnode

theorem sound_empty : Sound empty where
  place?_iff name place := by
    rw [nameAt?]
    exact ⟨nofun, nofun⟩
  no_loop := nofun
  edges_nodup := List.nodup_nil
  joins := nofun
  settled place := ⟨nofun, nofun⟩

theorem sound_foldl_add (observations : List Observation) {graph : Graph} (h : graph.Sound) :
    (observations.foldl add graph).Sound := by
  induction observations generalizing graph with
  | nil => exact h
  | cons observation rest ih => exact ih (h.add observation)

/-! ### Every graph is well-formed -/

namespace Consistent

theorem lt_length (h : graph.Consistent) (hplace : graph.place? name = some place) : place < graph.nodes.length := by
  obtain ⟨role, hnode⟩ := nameAt?_eq_some_iff.1 ((h.place?_iff name place).1 hplace)
  exact (List.getElem?_eq_some_iff.1 hnode).1

theorem names_nodup (h : graph.Consistent) : (graph.nodes.map GraphNode.name).Nodup := by
  rw [List.nodup_iff_getElem?_ne_getElem?]
  intro first second hlt hlength heq
  rw [List.length_map] at hlength
  rw [List.getElem?_map, List.getElem?_map] at heq
  have hsecond : graph.nameAt? second = some graph.nodes[second].name := by
    rw [nameAt?, List.getElem?_eq_getElem hlength, Option.map_some]
  have hfirst : graph.nameAt? first = some graph.nodes[second].name := heq.trans hsecond
  have hplace := (h.place?_iff _ _).2 hfirst
  rw [(h.place?_iff _ _).2 hsecond] at hplace
  have hplaces := Option.some.inj hplace
  omega

theorem ends (h : graph.Consistent) (hedge : edge ∈ graph.edges) :
    edge.source < graph.nodes.length ∧ edge.target < graph.nodes.length := by
  have hjoins := h.joins edge hedge
  rw [Joins] at hjoins
  split at hjoins
  · obtain ⟨className, hnode, hpackage⟩ := hjoins
    exact ⟨h.lt_length hpackage, (List.getElem?_eq_some_iff.1 hnode).1⟩
  · obtain ⟨⟨className, hnode⟩, htarget⟩ := hjoins
    exact ⟨(List.getElem?_eq_some_iff.1 hnode).1, htarget⟩

theorem mem_containers_iff (h : graph.Consistent) (hnode : graph.nodes[place]? = some ⟨className, .analysed⟩)
    (hpackage : graph.place? (packageOf className) = some source) :
    edge ∈ graph.containers place ↔ edge = ⟨source, place, .contains⟩ ∧ edge ∈ graph.edges := by
  rw [containers, List.mem_filter, decide_eq_true_iff]
  constructor
  · intro ⟨hedge, hlabel, htarget⟩
    refine ⟨?_, hedge⟩
    have hjoins := h.joins edge hedge
    rw [Joins, hlabel, htarget, hnode] at hjoins
    obtain ⟨other, hother, hsource⟩ := hjoins
    obtain ⟨rfl, -⟩ := GraphNode.mk.inj (Option.some.inj hother)
    rw [hpackage] at hsource
    rw [Option.some.inj hsource, ← hlabel, ← htarget]
  · rintro ⟨rfl, hedge⟩
    exact ⟨hedge, rfl, rfl⟩

end Consistent

/-- A class that is settled has one container, or none if it is its own package. -/
theorem Sound.containers_eq (h : graph.Sound) (hnode : graph.nodes[place]? = some ⟨className, .analysed⟩) :
    ∃ package, graph.place? (packageOf className) = some package ∧
      graph.containers place = if package = place then [] else [⟨package, place, .contains⟩] := by
  obtain ⟨package, hpackage, hdrawn⟩ := (h.settled place).analysed className hnode
  refine ⟨package, hpackage, ?_⟩
  split
  case isTrue hself =>
    refine List.eq_nil_iff_forall_not_mem.2 fun edge hedge => ?_
    obtain ⟨rfl, hmem⟩ := (h.mem_containers_iff hnode hpackage).1 hedge
    exact h.no_loop _ hmem hself
  case isFalse hself =>
    refine List.perm_singleton.1 ((List.perm_ext_iff_of_nodup (h.edges_nodup.filter _)
      (List.nodup_singleton _)).2 fun edge => ?_)
    rw [List.mem_singleton]
    refine (h.mem_containers_iff hnode hpackage).trans (and_iff_left_of_imp ?_)
    rintro rfl
    exact hdrawn.resolve_left hself

theorem Sound.wellFormed (h : graph.Sound) : graph.WellFormed where
  place?_iff := h.place?_iff
  names_nodup := h.names_nodup
  ends _ hedge := h.ends hedge
  no_loop := h.no_loop
  edges_nodup := h.edges_nodup
  dependent edge hedge hlabel := by
    have hjoins := h.joins edge hedge
    rw [Joins] at hjoins
    split at hjoins
    · next hcontains => simp [hcontains, EdgeLabel.isDependency] at hlabel
    · exact roleAt?_eq_some_iff.2 hjoins.1
  contained edge hedge hlabel := by
    have hjoins := h.joins edge hedge
    rw [Joins, hlabel] at hjoins
    obtain ⟨className, hnode, -⟩ := hjoins
    exact roleAt?_eq_some_iff.2 ⟨className, hnode⟩
  containers _ _ hnode := h.containers_eq hnode
  external place hrole := by
    obtain ⟨name, hnode⟩ := roleAt?_eq_some_iff.1 hrole
    exact (h.settled place).external name hnode

/-- **Every graph is well-formed**, whatever was observed and in whatever order. -/
theorem graphs_wellFormed :
    (∀ observations, (ofObservations observations).WellFormed) ∧
    (∀ report, (ofProject report).WellFormed) ∧ ∀ events, (ofEvents events).WellFormed := by
  have hall : ∀ observations, (ofObservations observations).WellFormed :=
    fun observations => (sound_foldl_add observations sound_empty).wellFormed
  exact ⟨hall, fun _ => hall _, fun _ => hall _⟩

/-- The package `p` comes up as a package, as a target and as a class; a class called `default` is its own package. -/
example :
    ofEvents [⟨"p.A", ["p", "q.B", "p.A"]⟩, ⟨"default", []⟩, ⟨"p", ["p.A"]⟩] =
      { nodes := [⟨"p", .analysed⟩, ⟨"p.A", .analysed⟩, ⟨"q.B", .external⟩, ⟨"default", .analysed⟩]
        edges := [⟨0, 1, .contains⟩, ⟨1, 0, .dependsOn none⟩, ⟨1, 2, .dependsOn none⟩, ⟨3, 0, .contains⟩,
          ⟨0, 1, .dependsOn none⟩]
        places := [("default", 3), ("q.B", 2), ("p.A", 1), ("p", 0)] } := by
  decide

end JavaAtlas.Graph

import JavaAtlas.Graph.Dot
import JavaAtlas.Proofs.Graph.Queries

/-!
# Findings that come again

A graph *records* an observation when nothing is left of it to be done: every name that it mentions has a place, its
class is marked as analysed, and its edges are drawn. Adding an observation records it, whatever the graph was before,
and what comes later leaves it recorded: places and edges stay, and the role of an analysed class is the one role that
never changes. An observation that is recorded finds every place, mark and edge where it looks for them, so adding it
leaves the whole graph as it is.
-/

namespace JavaAtlas

namespace Graph

open Observation (packageOf)

variable {graph later : Graph} {observation : Observation} {name className : String} {role : NodeRole}
  {place source : Nat} {edge : Edge} {target : String × Option DependencyKind}

/-! ### What is left to be done -/

/-- Nothing is left to be done for an edge: it is there, or it would lead from a node to itself. -/
def Drawn (graph : Graph) (edge : Edge) : Prop :=
  edge.source = edge.target ∨ edge ∈ graph.edges

def RecordsTarget (graph : Graph) (place : Nat) (target : String × Option DependencyKind) : Prop :=
  ∃ type, graph.place? target.1 = some type ∧ graph.Drawn ⟨place, type, .dependsOn target.2⟩

/-- A class that was analysed stands at a place, inside its package. -/
structure RecordsClass (graph : Graph) (className : String) (place : Nat) : Prop where
  place?_eq : graph.place? className = some place
  node_eq : graph.nodes[place]? = some ⟨className, .analysed⟩
  contained : ∃ package, graph.place? (packageOf className) = some package ∧ graph.Drawn ⟨package, place, .contains⟩

def Records (graph : Graph) (observation : Observation) : Prop :=
  ∃ place, graph.RecordsClass observation.className place ∧
    ∀ target ∈ observation.targets, graph.RecordsTarget place target

/-! ### What is recorded stays recorded -/

namespace Extends

theorem drawn (h : later.Extends graph) (hdrawn : graph.Drawn edge) : later.Drawn edge :=
  hdrawn.imp_right (h.edge edge)

theorem recordsTarget (h : later.Extends graph) (htarget : graph.RecordsTarget place target) :
    later.RecordsTarget place target := by
  obtain ⟨type, htype, hdrawn⟩ := htarget
  exact ⟨type, h.place htype, h.drawn hdrawn⟩

theorem recordsClass (h : later.Extends graph) (hclass : graph.RecordsClass className place) :
    later.RecordsClass className place where
  place?_eq := h.place hclass.place?_eq
  node_eq := h.analysed hclass.node_eq
  contained := by
    obtain ⟨package, hpackage, hdrawn⟩ := hclass.contained
    exact ⟨package, h.place hpackage, h.drawn hdrawn⟩

theorem records (h : later.Extends graph) (hrecords : graph.Records observation) : later.Records observation := by
  obtain ⟨place, hclass, htargets⟩ := hrecords
  exact ⟨place, h.recordsClass hclass, fun target hmem => h.recordsTarget (htargets target hmem)⟩

end Extends

theorem extends_withClass (graph : Graph) (className : String) : (graph.withClass className).2.Extends graph := by
  rw [withClass]
  have hpackage := extends_placed graph (packageOf className) .package
  have htype := (extends_placed (graph.placed (packageOf className) .package).2 className .analysed).trans hpackage
  exact (extends_withEdge _ _).trans ((extends_markAnalysed _ _).trans htype)

theorem extends_withTarget (source : Nat) (graph : Graph) (target : String × Option DependencyKind) :
    (withTarget source graph target).Extends graph :=
  (extends_withEdge _ _).trans (extends_placed graph target.1 .external)

theorem extends_foldl_withTarget (source : Nat) (targets : List (String × Option DependencyKind)) (graph : Graph) :
    (targets.foldl (withTarget source) graph).Extends graph := by
  induction targets generalizing graph with
  | nil => exact .refl graph
  | cons target rest ih => exact (ih (withTarget source graph target)).trans (extends_withTarget source graph target)

theorem extends_add (graph : Graph) (observation : Observation) : (graph.add observation).Extends graph :=
  (extends_foldl_withTarget _ _ _).trans (extends_withClass graph observation.className)

theorem extends_foldl_add (observations : List Observation) (graph : Graph) :
    (observations.foldl add graph).Extends graph := by
  induction observations generalizing graph with
  | nil => exact .refl graph
  | cons observation rest ih => exact (ih (graph.add observation)).trans (extends_add graph observation)

/-! ### What is added is recorded -/

theorem drawn_withEdge (graph : Graph) (edge : Edge) : (graph.withEdge edge).Drawn edge := by
  obtain ⟨hdrawn, heq⟩ | ⟨-, -, heq⟩ := withEdge_cases graph edge
  · rw [heq]
    exact hdrawn
  · rw [heq]
    exact .inr (List.mem_append_right _ (List.mem_singleton_self edge))

theorem Consistent.recordsClass_withClass (h : graph.Consistent) (className : String) :
    (graph.withClass className).2.RecordsClass className (graph.withClass className).1 := by
  rw [withClass]
  have hpackage := place?_placed graph (packageOf className) .package
  have hconsistent := h.placed (packageOf className) .package
  generalize graph.placed (packageOf className) .package = package at *
  have hplace := place?_placed package.2 className .analysed
  have hkept := (extends_placed package.2 className .analysed).place hpackage
  replace hconsistent := hconsistent.placed className .analysed
  generalize package.2.placed className .analysed = type at *
  refine ⟨?_, ?_, package.1, ?_, drawn_withEdge _ _⟩
  · exact (place?_withEdge ..).trans hplace
  · dsimp only
    rw [nodes_withEdge]
    exact hconsistent.nodes_markAnalysed hplace
  · exact (place?_withEdge ..).trans hkept

theorem recordsTarget_withTarget (source : Nat) (graph : Graph) (target : String × Option DependencyKind) :
    (withTarget source graph target).RecordsTarget source target :=
  ⟨_, (place?_withEdge ..).trans (place?_placed graph target.1 .external), drawn_withEdge _ _⟩

theorem recordsTarget_foldl_withTarget {targets : List (String × Option DependencyKind)} (hmem : target ∈ targets)
    (source : Nat) (graph : Graph) : (targets.foldl (withTarget source) graph).RecordsTarget source target := by
  induction targets generalizing graph with
  | nil => exact absurd hmem List.not_mem_nil
  | cons first rest ih =>
    rw [List.foldl_cons]
    obtain rfl | hmem := List.mem_cons.1 hmem
    · exact (extends_foldl_withTarget source rest _).recordsTarget (recordsTarget_withTarget source graph target)
    · exact ih hmem _

theorem Consistent.records_add (h : graph.Consistent) (observation : Observation) :
    (graph.add observation).Records observation := by
  refine ⟨(graph.withClass observation.className).1, ?_, fun target hmem => ?_⟩
  · exact (extends_foldl_withTarget _ _ _).recordsClass (h.recordsClass_withClass observation.className)
  · exact recordsTarget_foldl_withTarget hmem _ _

theorem records_ofObservations {observations : List Observation} (hmem : observation ∈ observations) :
    (ofObservations observations).Records observation := by
  obtain ⟨before, after, rfl⟩ := List.append_of_mem hmem
  have hrecords := (consistent_ofObservations before).records_add observation
  rw [ofObservations, List.foldl_append, List.foldl_cons]
  exact (extends_foldl_add after _).records hrecords

/-! ### What is recorded adds nothing -/

theorem placed_of_place? (h : graph.place? name = some place) (role : NodeRole) :
    graph.placed name role = (place, graph) := by
  rw [placed, h]

theorem markAnalysed_of_analysed (h : graph.nodes[place]? = some ⟨name, .analysed⟩) :
    graph.markAnalysed place = graph := by
  have hnodes : (graph.markAnalysed place).nodes = graph.nodes := by
    apply List.ext_getElem?
    intro other
    rw [nodes_markAnalysed]
    split
    · next hsame =>
      subst hsame
      rw [h]
      rfl
    · rfl
  calc graph.markAnalysed place
      = { graph with nodes := (graph.markAnalysed place).nodes } := rfl
    _ = graph := by rw [hnodes]

theorem withEdge_of_drawn (h : graph.Drawn edge) : graph.withEdge edge = graph := by
  obtain ⟨-, heq⟩ | ⟨hends, hnew, -⟩ := withEdge_cases graph edge
  · exact heq
  · exact (h.elim hends hnew).elim

theorem RecordsClass.withClass_eq (h : graph.RecordsClass className place) :
    graph.withClass className = (place, graph) := by
  obtain ⟨package, hpackage, hdrawn⟩ := h.contained
  rw [withClass, placed_of_place? hpackage, placed_of_place? h.place?_eq]
  dsimp only
  rw [markAnalysed_of_analysed h.node_eq, withEdge_of_drawn hdrawn]

theorem RecordsTarget.withTarget_eq (h : graph.RecordsTarget place target) : withTarget place graph target = graph := by
  obtain ⟨type, htype, hdrawn⟩ := h
  rw [withTarget, placed_of_place? htype]
  exact withEdge_of_drawn hdrawn

theorem foldl_withTarget_of_recordsTarget {targets : List (String × Option DependencyKind)}
    (h : ∀ target ∈ targets, graph.RecordsTarget place target) : targets.foldl (withTarget place) graph = graph := by
  induction targets with
  | nil => rfl
  | cons first rest ih =>
    obtain ⟨hfirst, hrest⟩ := List.forall_mem_cons.1 h
    rw [List.foldl_cons, hfirst.withTarget_eq, ih hrest]

theorem Records.add_eq (h : graph.Records observation) : graph.add observation = graph := by
  obtain ⟨place, hclass, htargets⟩ := h
  rw [add, hclass.withClass_eq]
  exact foldl_withTarget_of_recordsTarget htargets

/-- **A finding that comes again changes nothing.** However many other findings came in between, whatever parts they
gave to the names of the finding, the graph keeps its nodes at their places and in their roles, its edges in their
order and its table of places, and so its text. -/
theorem ofFindings_repeated {findings : List Finding} {finding : Finding} (hmem : finding ∈ findings) :
    ofFindings (findings ++ [finding]) = ofFindings findings ∧
      Dot.text (ofFindings (findings ++ [finding])) = Dot.text (ofFindings findings) := by
  have hrecords : (ofFindings findings).Records finding.observation :=
    records_ofObservations (List.mem_map_of_mem hmem)
  have hsame : ofFindings (findings ++ [finding]) = ofFindings findings :=
    calc ofFindings (findings ++ [finding])
        = (ofFindings findings).add finding.observation := by
          rw [ofFindings, List.map_append, ofObservations, List.foldl_append]
          rfl
      _ = ofFindings findings := hrecords.add_eq
  exact ⟨hsame, congrArg Dot.text hsame⟩

/-- A class `p.A` that depends on its own package and on a type `q`. -/
def overlappingReport : ClassReport :=
  ⟨"p.A", OrderedSet.ofList [⟨"p.A", "q", .field, "field q", 3⟩, ⟨"p.A", "p", .extended, "extends p", 1⟩]⟩

/-- The report, and two events that give its names other parts to play: `p` is a class, and `q` a package. -/
def overlappingFindings : List Finding :=
  [.inl overlappingReport, .inr ⟨"p", ["p.A"]⟩, .inr ⟨"q.B", ["p"]⟩]

theorem overlappingFindings_repeated : .inl overlappingReport ∈ overlappingFindings ∧
    (ofFindings overlappingFindings).edges.length = 7 ∧
    ofFindings (overlappingFindings ++ [.inl overlappingReport]) = ofFindings overlappingFindings ∧
      Dot.text (ofFindings (overlappingFindings ++ [.inl overlappingReport])) =
        Dot.text (ofFindings overlappingFindings) := by
  have hmem : .inl overlappingReport ∈ overlappingFindings := List.mem_cons_self
  exact ⟨hmem, by decide, ofFindings_repeated hmem⟩

end Graph

end JavaAtlas

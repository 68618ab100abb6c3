import JavaAtlas.Proofs.Graph.History

/-!
# The queries of a graph

What a class depends on, and which classes depend on a type, is asked of the edges of a graph by their places and
answered in names. The answers tell the history of the graph: they list, without repetition and in increasing order,
the names of which some report or event said it. Containment does not show in them, and a class is never its own
neighbour, since no edge leads from a node to itself.
-/

namespace JavaAtlas

theorem EdgeLabel.isDependency_iff {label : EdgeLabel} :
    label.isDependency = true ↔ ∃ kind?, label = .dependsOn kind? := by
  cases label with
  | contains => simp [EdgeLabel.isDependency]
  | dependsOn kind? => simp [EdgeLabel.isDependency]

namespace Graph

variable {graph : Graph} {name other : String} {here there : Edge → Nat}

/-! ### Neighbours -/

theorem mem_neighbours_iff (here there : Edge → Nat) : other ∈ graph.neighbours name here there ↔
    ∃ place, graph.place? name = some place ∧
      ∃ edge ∈ graph.edges, edge.label.isDependency ∧ here edge = place ∧ graph.nameAt? (there edge) = some other := by
  rw [neighbours]
  cases graph.place? name with
  | none => simp
  | some place =>
    simp only [Option.some.injEq, exists_eq_left']
    rw [← OrderedSet.mem_def, OrderedSet.mem_ofList, List.mem_filterMap]
    simp only [List.mem_filter, Bool.and_eq_true, beq_iff_eq, and_assoc]

theorem increasing_neighbours (graph : Graph) (name : String) (here there : Edge → Nat) :
    (graph.neighbours name here there).Pairwise (· < ·) := by
  rw [neighbours]
  cases graph.place? name with
  | none => exact List.Pairwise.nil
  | some place => exact (OrderedSet.increasing _).imp compareOfLessAndEq_eq_lt.1

/-- Two names that a dependency links, in a known role or not. -/
def Depends (graph : Graph) (source target : String) : Prop :=
  ∃ kind?, graph.Links source target (.dependsOn kind?)

theorem depends_iff {source target : String} : graph.Depends source target ↔
    ∃ edge ∈ graph.edges, edge.label.isDependency ∧
      graph.nameAt? edge.source = some source ∧ graph.nameAt? edge.target = some target := by
  constructor
  · rintro ⟨kind?, edge, hedge, hsource, htarget, hlabel⟩
    exact ⟨edge, hedge, EdgeLabel.isDependency_iff.2 ⟨kind?, hlabel⟩, hsource, htarget⟩
  · rintro ⟨edge, hedge, hdependency, hsource, htarget⟩
    obtain ⟨kind?, hlabel⟩ := EdgeLabel.isDependency_iff.1 hdependency
    exact ⟨kind?, edge, hedge, hsource, htarget, hlabel⟩

theorem Consistent.mem_dependenciesOf_iff (h : graph.Consistent) :
    other ∈ graph.dependenciesOf name ↔ graph.Depends name other := by
  rw [dependenciesOf, mem_neighbours_iff, depends_iff]
  simp only [h.place?_iff]
  constructor
  · rintro ⟨_, hname, edge, hedge, hdependency, rfl, hother⟩
    exact ⟨edge, hedge, hdependency, hname, hother⟩
  · rintro ⟨edge, hedge, hdependency, hname, hother⟩
    exact ⟨edge.source, hname, edge, hedge, hdependency, rfl, hother⟩

theorem Consistent.mem_dependentsOf_iff (h : graph.Consistent) :
    other ∈ graph.dependentsOf name ↔ graph.Depends other name := by
  rw [dependentsOf, mem_neighbours_iff, depends_iff]
  simp only [h.place?_iff]
  constructor
  · rintro ⟨_, hname, edge, hedge, hdependency, rfl, hother⟩
    exact ⟨edge, hedge, hdependency, hother, hname⟩
  · rintro ⟨edge, hedge, hdependency, hother, hname⟩
    exact ⟨edge.target, hname, edge, hedge, hdependency, rfl, hother⟩

/-! ### What was found -/

/-- What a graph is grown by: the report on a class, or the event for a file. -/
abbrev Finding := ClassReport ⊕ Event

namespace Finding

def observation : Finding → Observation
  | .inl report => .ofReport report
  | .inr event => .ofEvent event

/-- A finding names a type beside a class: as the target of a dependency in the report on the class, or as an import
in the event for it. -/
def Names (className type : String) : Finding → Prop
  | .inl report => report.className = className ∧ ∃ dependency ∈ report.dependencies, dependency.target = type
  | .inr event => event.className = className ∧ type ∈ event.imports

theorem names_iff {className type : String} (finding : Finding) : finding.Names className type ↔
    ∃ kind?, finding.observation.Says className type (.dependsOn kind?) := by
  cases finding with
  | inl report =>
    constructor
    · rintro ⟨rfl, dependency, hmem, rfl⟩
      exact ⟨some dependency.kind, rfl, List.mem_map.2 ⟨dependency, hmem, rfl⟩⟩
    · rintro ⟨kind?, rfl, hmem⟩
      obtain ⟨dependency, hdependency, heq⟩ := List.mem_map.1 hmem
      exact ⟨rfl, dependency, hdependency, congrArg Prod.fst heq⟩
  | inr event =>
    constructor
    · rintro ⟨rfl, hmem⟩
      exact ⟨none, rfl, List.mem_map.2 ⟨type, hmem, rfl⟩⟩
    · rintro ⟨kind?, rfl, hmem⟩
      obtain ⟨imported, himported, heq⟩ := List.mem_map.1 hmem
      obtain rfl : imported = type := congrArg Prod.fst heq
      exact ⟨rfl, himported⟩

end Finding

def ofFindings (findings : List Finding) : Graph :=
  ofObservations (findings.map Finding.observation)

theorem depends_ofFindings_iff {findings : List Finding} {className type : String} :
    (ofFindings findings).Depends className type ↔
      className ≠ type ∧ ∃ finding ∈ findings, finding.Names className type := by
  simp only [Depends, ofFindings, links_ofObservations_iff, List.mem_map, exists_exists_and_eq_and, Finding.names_iff]
  constructor
  · rintro ⟨kind?, hne, finding, hmem, hsays⟩
    exact ⟨hne, finding, hmem, kind?, hsays⟩
  · rintro ⟨hne, finding, hmem, kind?, hsays⟩
    exact ⟨kind?, hne, finding, hmem, hsays⟩

/-- **The queries answer the history of a graph.** After any findings the dependencies of a name are listed in
strictly increasing order, and are the other names that some finding names beside it as its class; the dependents of
a name are listed in the same order, and are the other names that some finding names as its class beside it. So the
two queries are converse to each other. -/
theorem queries_tell_history (findings : List Finding) (name : String) :
    ((ofFindings findings).dependenciesOf name).Pairwise (· < ·) ∧
    (∀ type, type ∈ (ofFindings findings).dependenciesOf name ↔
      type ≠ name ∧ ∃ finding ∈ findings, finding.Names name type) ∧
    ((ofFindings findings).dependentsOf name).Pairwise (· < ·) ∧
    (∀ className, className ∈ (ofFindings findings).dependentsOf name ↔
      className ≠ name ∧ ∃ finding ∈ findings, finding.Names className name) ∧
    ∀ other, other ∈ (ofFindings findings).dependenciesOf name ↔
      name ∈ (ofFindings findings).dependentsOf other := by
  have hconsistent : (ofFindings findings).Consistent := consistent_ofObservations _
  refine ⟨increasing_neighbours .., fun type => ?_, increasing_neighbours .., fun className => ?_, fun other => ?_⟩
  · rw [hconsistent.mem_dependenciesOf_iff, depends_ofFindings_iff, ne_comm]
  · rw [hconsistent.mem_dependentsOf_iff, depends_ofFindings_iff]
  · rw [hconsistent.mem_dependenciesOf_iff, hconsistent.mem_dependentsOf_iff]

/-- A class called like the package of another one: its import shows, that it contains a class does not. -/
example :
    let graph := ofFindings [.inr ⟨"p.A", ["p", "q.B", "p.A"]⟩, .inr ⟨"p", ["q.B"]⟩]
    graph.dependenciesOf "p" = ["q.B"] ∧ graph.dependentsOf "q.B" = ["p", "p.A"] ∧ graph.dependentsOf "p.A" = [] := by
  decide

end Graph

end JavaAtlas

import JavaAtlas.Proofs.Extraction.Candidates
import JavaAtlas.Proofs.OrderedSet
import JavaAtlas.Proofs.SourceUnit.Relined

/-!
# Reports on units on other lines

Lines are recorded and passed on, and nothing depends on them: a unit on other lines declares the same types and
imports, so every name means the same in it, and its report is the old one on other lines.
-/

namespace JavaAtlas

variable {f : Line → Line}

namespace Node

theorem walk_relined (node : Node) : (node.relined f).walk = node.walk.map (relined f) := by
  induction node using Node.induction with
  | step node ih =>
    cases node with
    | package name line => simp only [relined, walk, List.map_cons, List.map_nil]
    | imported item => simp only [relined, walk, List.map_cons, List.map_nil]
    | branch head below =>
      rw [relined, walk, walk, walkAll_eq_flatMap, walkAll_eq_flatMap, relinedAll_eq_map, List.flatMap_map,
        List.map_cons, List.map_flatMap, relined, relinedAll_eq_map]
      exact congrArg (_ :: ·) (List.flatMap_congr ih)

theorem declaredPaths_relined (node : Node) :
    ∀ outer, (node.relined f).declaredPaths outer = node.declaredPaths outer := by
  induction node using Node.induction with
  | step node ih =>
    intro outer
    cases node with
    | package name line => rfl
    | imported item => rfl
    | branch head below =>
      have hbelow (outer : Option String) :
          declaredPathsOfAll outer (below.map (relined f)) = declaredPathsOfAll outer below := by
        rw [declaredPathsOfAll_eq_flatMap, declaredPathsOfAll_eq_flatMap, List.flatMap_map]
        exact List.flatMap_congr fun child hchild => ih child hchild outer
      rw [relined, relinedAll_eq_map]
      cases head with
      | type header =>
        rw [Head.relined, declaredPaths, declaredPaths, hbelow]
        rfl
      | _ => simp only [Head.relined, declaredPaths, hbelow]

end Node

namespace SourceUnit

theorem walk_relined (unit : SourceUnit) : (unit.relined f).walk = unit.walk.map (Node.relined f) := by
  rw [walk, walk, Node.walkAll_eq_flatMap, Node.walkAll_eq_flatMap, relined, List.flatMap_map, List.map_flatMap]
  exact List.flatMap_congr fun node _ => Node.walk_relined node

theorem declaredTypes_relined (unit : SourceUnit) : (unit.relined f).declaredTypes = unit.declaredTypes := by
  rw [declaredTypes, declaredTypes, Node.declaredPathsOfAll_eq_flatMap, Node.declaredPathsOfAll_eq_flatMap, relined,
    List.flatMap_map]
  exact List.flatMap_congr fun node _ => Node.declaredPaths_relined node none

theorem package?_relined (unit : SourceUnit) : (unit.relined f).package? = unit.package? := by
  rw [package?, package?, relined, List.findSome?_map]
  refine congrArg (List.findSome? · _) (funext fun node => ?_)
  cases node <;> rfl

theorem imports_relined (unit : SourceUnit) : (unit.relined f).imports = unit.imports.map (Import.relined f) := by
  rw [imports, imports, relined, List.filterMap_map, List.map_filterMap]
  refine congrArg (List.filterMap · _) (funext fun node => ?_)
  cases node <;> rfl

theorem topTypes_relined (unit : SourceUnit) :
    (unit.relined f).topTypes =
      unit.topTypes.map fun type => (type.1.relined f, type.2.map (Node.relined f)) := by
  rw [topTypes, topTypes, relined, List.filterMap_map, List.map_filterMap]
  refine congrArg (List.filterMap · _) (funext fun node => ?_)
  cases node with
  | package name line => rfl
  | imported item => rfl
  | branch head below =>
    cases head with
    | type header =>
      rw [Function.comp_apply, Node.relined, Node.relinedAll_eq_map, Head.relined]
      cases hnested : header.nested <;> simp [TypeHeader.relined, hnested]
    | _ => rfl

theorem mainType?_relined (unit : SourceUnit) : (unit.relined f).mainType? = unit.mainType? := by
  rw [mainType?, mainType?, topTypes_relined, List.find?_map, Option.map_map]
  rfl

theorem className_relined (unit : SourceUnit) : (unit.relined f).className = unit.className := by
  rw [className, className, package?_relined, mainType?_relined]

end SourceUnit

theorem Scope.ofUnit_relined (unit : SourceUnit) : Scope.ofUnit (unit.relined f) = Scope.ofUnit unit := by
  simp only [ofUnit, SourceUnit.package?_relined, SourceUnit.declaredTypes_relined, SourceUnit.imports_relined,
    List.filter_map, List.map_map, Function.comp_def, Import.relined]

theorem WrittenType.written_relined (type : WrittenType) : (type.relined f).written = type.written := by
  cases type <;> rfl

theorem WrittenType.line_relined (type : WrittenType) : (type.relined f).line = f type.line := by
  cases type <;> rfl

theorem WrittenType.element_relined (type : WrittenType) : (type.relined f).element = type.element.relined f := by
  induction type with
  | array written line element ih => rw [relined, WrittenType.element, ih, WrittenType.element]
  | _ => rfl

def Dependency.relined (f : Line → Line) (dependency : Dependency) : Dependency :=
  { dependency with line := f dependency.line }

namespace Extraction

def Proposal.relined (f : Line → Line) (proposal : Proposal) : Proposal :=
  { proposal with line := f proposal.line }

variable {scope : Scope} {oracle : Oracle} {unit : SourceUnit}

theorem target?_relined (type : WrittenType) : target? scope oracle (type.relined f) = target? scope oracle type := by
  rw [target?, target?, WrittenType.element_relined]
  cases type.element <;> rfl

theorem proposal?_relined (kind : DependencyKind) (type : WrittenType) :
    proposal? scope oracle kind (type.relined f) = (proposal? scope oracle kind type).map (Proposal.relined f) := by
  rw [proposal?, proposal?, target?_relined, Option.map_map, WrittenType.written_relined, WrittenType.line_relined]
  rfl

theorem references_relined (node : Node) :
    references (node.relined f) = (references node).map fun reference => (reference.1, reference.2.relined f) := by
  cases node with
  | package name line => rfl
  | imported item => rfl
  | branch head below =>
    rw [Node.relined]
    cases head with
    | type header =>
      rw [Head.relined, references, references]
      have hkind : (header.relined f).isClassOrInterface = header.isClassOrInterface := rfl
      rw [hkind]
      split
      · simp only [TypeHeader.relined, List.map_append, List.map_map]
        rfl
      · rfl
    | field type names line =>
      rw [Head.relined, references, references]
      have hreference : (type.relined f).isReference = type.isReference := by cases type <;> rfl
      rw [hreference]
      split
      · simp
      · rfl
    | method name result parameters line => simp [Head.relined, references, Parameter.relined]
    | constructor name parameters line => rfl
    | creation type line => rfl

theorem importProposal?_relined (item : Import) :
    importProposal? (item.relined f) = (importProposal? item).map (Proposal.relined f) := by
  rw [importProposal?, importProposal?]
  have hkind : ((item.relined f).isStatic || (item.relined f).isWildcard) = (item.isStatic || item.isWildcard) := rfl
  rw [hkind]
  split <;> rfl

theorem proposals_relined (node : Node) :
    proposals scope oracle (node.relined f) = (proposals scope oracle node).map (Proposal.relined f) := by
  have hreferences : (references (node.relined f)).filterMap (fun reference =>
      proposal? scope oracle reference.1 reference.2) =
      ((references node).filterMap fun reference => proposal? scope oracle reference.1 reference.2).map
        (Proposal.relined f) := by
    rw [references_relined, List.filterMap_map, List.map_filterMap]
    refine congrArg (List.filterMap · _) (funext fun reference => ?_)
    rw [Function.comp_apply, proposal?_relined]
  cases node with
  | package name line => exact hreferences
  | imported item =>
    rw [Node.relined, proposals, proposals, importProposal?_relined]
    cases importProposal? item <;> rfl
  | branch head below => exact hreferences

theorem mem_extract_relined {dependency : Dependency} :
    dependency ∈ (extract oracle (unit.relined f)).dependencies ↔
      ∃ old ∈ (extract oracle unit).dependencies, dependency = old.relined f := by
  simp only [extract, mem_foldl_accept, ClassReport.new, OrderedSet.not_mem_empty, false_or, Scope.ofUnit_relined,
    SourceUnit.className_relined, SourceUnit.walk_relined, List.flatMap_map, proposals_relined, List.mem_flatMap,
    List.mem_map]
  constructor
  · rintro ⟨_, ⟨node, hnode, proposal, hproposal, rfl⟩, hallowed, rfl⟩
    exact ⟨_, ⟨proposal, ⟨node, hnode, hproposal⟩, hallowed, rfl⟩, rfl⟩
  · rintro ⟨_, ⟨proposal, ⟨node, hnode, hproposal⟩, hallowed, rfl⟩, rfl⟩
    exact ⟨_, ⟨node, hnode, proposal, hproposal, rfl⟩, hallowed, rfl⟩

/-- **The report on a unit on other lines is the old one on other lines**, in the same order if lines that are recorded
compare as before. -/
theorem extract_relined (oracle : Oracle) (unit : SourceUnit)
    (h : ∀ first ∈ (extract oracle unit).dependencies, ∀ second ∈ (extract oracle unit).dependencies,
      compare (f first.line) (f second.line) = compare first.line second.line) :
    (extract oracle (unit.relined f)).className = (extract oracle unit).className ∧
      (extract oracle (unit.relined f)).dependencies.toList =
        (extract oracle unit).dependencies.toList.map (Dependency.relined f) := by
  constructor
  · rw [extract, className_foldl_accept, extract, className_foldl_accept]
    exact SourceUnit.className_relined unit
  · refine OrderedSet.toList_eq_map ?_ fun dependency => mem_extract_relined
    intro first hfirst second hsecond hless
    have hline := h first hfirst second hsecond
    rw [Dependency.compare_def] at hless ⊢
    simpa only [Dependency.compareKeys, compareLex, compareOn, Dependency.relined, hline] using hless

end Extraction

end JavaAtlas

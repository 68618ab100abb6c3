import Mathlib.Data.List.Find
import JavaAtlas.Proofs.Extraction.Candidates
import JavaAtlas.Proofs.OrderedSet
import JavaAtlas.Proofs.SourceUnit.MemberOrder

/-!
# The order of members does not show

The table of declared types is filled in the order of the declarations, and its first entry for a name counts. Where
the simple names of the types differ, though, the entries for a name all come from one type, so that the order cannot
matter. A reordered unit hence gives every name the meaning that it had. Its nodes then propose the same dependencies
in another order, and a report is a set of them.
-/

namespace JavaAtlas

/-! ### The same scope -/

namespace Scope

variable {scope other : Scope} {unit reordered : SourceUnit} {oracle : Oracle}

/-- A scope is known by its package, its imports, and by what its declared types are found under. -/
structure Alike (scope other : Scope) : Prop where
  package : scope.package? = other.package?
  singleImports : scope.singleImports = other.singleImports
  wildcardPackages : scope.wildcardPackages = other.wildcardPackages
  localTypes : ∀ name, scope.localTypes.lookup name = other.localTypes.lookup name

theorem Alike.resolve_eq (h : Alike scope other) (oracle : Oracle) (name : String) :
    scope.resolve oracle name = other.resolve oracle name := by
  simp only [resolve, resolveDotted, resolveSimple, candidates, h.package, h.singleImports, h.wildcardPackages,
    h.localTypes]

theorem lastSegment_eq_of_answers {name path : String} (h : answers name path = true) :
    Name.lastSegment path = Name.lastSegment name := by
  rw [answers, Bool.or_eq_true, beq_iff_eq, beq_iff_eq] at h
  obtain rfl | rfl := h
  · exact (Name.lastSegment_eq_self (Name.point_not_mem_lastSegment path)).symm
  · rfl

/-- Only one declared type answers to a name. -/
theorem eq_of_answers (hnames : ∀ name ∈ unit.typeNames, '.' ∉ name.toList) (hdistinct : unit.typeNames.Nodup)
    {name path other : String} (hpath : path ∈ unit.declaredTypes) (hother : other ∈ unit.declaredTypes)
    (hanswers : answers name path = true) (hanother : answers name other = true) : path = other := by
  apply SourceUnit.eq_of_lastSegment_eq hnames hdistinct hpath hother
  rw [lastSegment_eq_of_answers hanswers, lastSegment_eq_of_answers hanother]

theorem alike_of_reordered (hnames : ∀ name ∈ unit.typeNames, '.' ∉ name.toList) (hdistinct : unit.typeNames.Nodup)
    (h : unit.Reordered reordered) : Alike (ofUnit unit) (ofUnit reordered) where
  package := h.package?_eq
  singleImports := by rw [ofUnit, ofUnit, h.imports_eq]
  wildcardPackages := by rw [ofUnit, ofUnit, h.imports_eq]
  localTypes name := by
    rw [localTypes_ofUnit, localTypes_ofUnit, lookup_localEntries, lookup_localEntries, h.package?_eq]
    congr 1
    refine List.find?_eq_find?_of_perm h.declaredTypes_perm ?_
    rintro path ⟨hpath, hanswers⟩ other ⟨hother, hanother⟩
    exact eq_of_answers hnames hdistinct hpath hother hanswers hanother

end Scope

/-! ### The same report -/

namespace Extraction

variable {oracle : Oracle} {scope other : Scope} {unit reordered : SourceUnit}

theorem shallow_proposals (scope : Scope) (oracle : Oracle) : Node.Shallow (proposals scope oracle) := by
  intro head below others
  cases head <;> rfl

theorem proposals_eq_of_alike (h : scope.Alike other) (oracle : Oracle) :
    proposals scope oracle = proposals other oracle := by
  have htarget : target? scope oracle = target? other oracle := by
    funext type
    simp only [target?, h.resolve_eq]
  funext node
  cases node with
  | imported item => rfl
  | _ => simp only [proposals, proposal?, htarget]

theorem foldl_accept_perm {proposals others : List Proposal} (h : proposals.Perm others) (report : ClassReport) :
    proposals.foldl accept report = others.foldl accept report := by
  have hclass : (proposals.foldl accept report).className = (others.foldl accept report).className := by
    rw [className_foldl_accept, className_foldl_accept]
  have hdependencies : (proposals.foldl accept report).dependencies = (others.foldl accept report).dependencies := by
    apply OrderedSet.eq_of_mem_iff
    intro dependency
    simp only [mem_foldl_accept, h.mem_iff]
  calc proposals.foldl accept report
      = ⟨(proposals.foldl accept report).className, (proposals.foldl accept report).dependencies⟩ := rfl
    _ = others.foldl accept report := by rw [hclass, hdependencies]

/-- **The order of members does not show in the report.** Whatever an oracle answers, a unit whose types have different
simple names gives the same report when children of its nodes change places at any depth, and nodes at its top as far
as the first package, the imports and the first class or interface allow it. -/
theorem extract_reordered (oracle : Oracle) (hnames : ∀ name ∈ unit.typeNames, '.' ∉ name.toList)
    (hdistinct : unit.typeNames.Nodup) (h : unit.Reordered reordered) :
    extract oracle unit = extract oracle reordered := by
  have hscope := Scope.alike_of_reordered hnames hdistinct h
  have hperm : (unit.walk.flatMap (proposals (Scope.ofUnit unit) oracle)).Perm
      (reordered.walk.flatMap (proposals (Scope.ofUnit reordered) oracle)) := by
    rw [proposals_eq_of_alike hscope]
    exact h.walk_perm (shallow_proposals _ oracle)
  rw [extract, extract, h.className_eq]
  exact foldl_accept_perm hperm _

def outerClass (members : List Node) : Node :=
  .branch (.type ⟨"A", .classType, false, [], [], 2⟩) members

def innerClass (members : List Node) : Node :=
  .branch (.type ⟨"Inner", .classType, true, [], [], 4⟩) members

/-- The field `B first;`. -/
def firstField : Node :=
  .branch (.field (.reference "B" 3 "B") ["first"] 3) []

/-- The methods `C m() { }` and `Inner n() { }`. -/
def innerMethods : List Node :=
  [.branch (.method "m" (.reference "C" 5 "C") [] 5) [], .branch (.method "n" (.reference "Inner" 6 "Inner") [] 6) []]

/-- The nodes of `package p; import q.B; … enum E { }` with a class in the middle. -/
def nodesAround (type : Node) : List Node :=
  [.package "p" 1, .imported ⟨"q.B", false, false, 1⟩, type, .branch (.type ⟨"E", .enumType, false, [], [], 7⟩) []]

def forwards : SourceUnit :=
  ⟨nodesAround (outerClass [firstField, innerClass innerMethods])⟩

/-- The same unit backwards, at every depth. -/
def backwards : SourceUnit :=
  ⟨(nodesAround (outerClass [innerClass innerMethods.reverse, firstField])).reverse⟩

theorem reordered_backwards : forwards.Reordered backwards := by
  have hinner : (outerClass [firstField, innerClass innerMethods]).Reordered
      (outerClass [firstField, innerClass innerMethods.reverse]) :=
    .inside _ [firstField] [] (.permuted _ (List.reverse_perm _).symm)
  have houter : (outerClass [firstField, innerClass innerMethods.reverse]).Reordered
      (outerClass [innerClass innerMethods.reverse, firstField]) :=
    .permuted _ (List.Perm.swap ..)
  refine ⟨nodesAround (outerClass [innerClass innerMethods.reverse, firstField]), ?_, (List.reverse_perm _).symm,
    rfl, rfl, rfl⟩
  exact .cons (.refl _) (.cons (.refl _) (.cons (hinner.trans houter) (.cons (.refl _) .nil)))

theorem backwards_extract :
    let oracle := Oracle.failing "down" "out of order"
    ((∀ name ∈ forwards.typeNames, '.' ∉ name.toList) ∧ forwards.typeNames.Nodup ∧ forwards.Reordered backwards) ∧
      (extract oracle forwards).dependencies.toList.length = 4 ∧
      extract oracle forwards = extract oracle backwards := by
  intro oracle
  have hnames : ∀ name ∈ forwards.typeNames, '.' ∉ name.toList := by decide
  have hdistinct : forwards.typeNames.Nodup := by decide
  refine ⟨⟨hnames, hdistinct, reordered_backwards⟩, by decide +kernel, ?_⟩
  exact extract_reordered oracle hnames hdistinct reordered_backwards

end Extraction

end JavaAtlas

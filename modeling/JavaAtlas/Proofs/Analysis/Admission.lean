import JavaAtlas.Proofs.Analysis.Contents
import JavaAtlas.Proofs.Exclusion
import JavaAtlas.Proofs.Extraction.Candidates
import JavaAtlas.Proofs.SourceUnit.Names

/-!
# What reports keep out

No report holds a dependency that says nothing: on a blank name, on `void` or a primitive type, on the standard
library, or of a class on itself. Exclusion looks at the trimmed target, and the target is kept as it is written,
so two facts are needed besides: the names of the standard library open and end without blanks, so trimming
uncovers none of them and hides none, and the name of a parsed unit has no blank that trimming could take.
-/

namespace JavaAtlas

open JavaAtlas.Text

/-- A dependency that the report on a class may hold. -/
structure Dependency.AdmittedFor (className : String) (dependency : Dependency) : Prop where
  source_eq : dependency.source = className
  not_blank : trimmed dependency.target ≠ ""
  not_void : trimmed dependency.target ≠ "void"
  not_primitive : trimmed dependency.target ∉ primitiveTypes
  not_platform : ∀ start ∈ Exclusion.excludedPackages, ¬ start.toList <+: dependency.target.toList
  not_self : dependency.target ≠ className

/-- A class report with a dependency, and none that it may not hold. -/
structure ClassReport.Sound (report : ClassReport) : Prop where
  nonempty : ∃ dependency, dependency ∈ report.dependencies
  admitted : ∀ dependency ∈ report.dependencies, dependency.AdmittedFor report.className

/-- A package report of sound class reports. -/
def PackageReport.Sound (report : PackageReport) : Prop :=
  ∀ classReport ∈ report.classReports, classReport.Sound

/-- A project report of sound package reports, each with a class report. -/
structure ProjectReport.Sound (report : ProjectReport) : Prop where
  nonempty : ∀ packageReport ∈ report.packageReports, packageReport.classReports ≠ []
  sound : ∀ packageReport ∈ report.packageReports, packageReport.Sound

namespace Extraction

variable {oracle : Oracle} {unit : SourceUnit} {source : String}

theorem admittedFor_of_mem_extract (hparse : SourceUnit.parse? source = some unit) {dependency : Dependency}
    (h : dependency ∈ (extract oracle unit).dependencies) : dependency.AdmittedFor unit.className := by
  simp only [extract, mem_foldl_accept, ClassReport.new, OrderedSet.not_mem_empty, false_or] at h
  obtain ⟨proposal, -, hexcludes, rfl⟩ := h
  obtain ⟨hblank, hvoid, hprimitive, hplatform, hself⟩ := Exclusion.excludes_eq_false_iff.1 hexcludes
  refine ⟨rfl, hblank, hvoid, hprimitive, ?_, ?_⟩
  · intro start hstart hfront
    exact hplatform start hstart (Exclusion.prefix_trimmed hstart hfront)
  · intro hsame
    -- A name without blanks is its own trimmed form, which exclusion compares.
    have htarget : proposal.target = unit.className := hsame
    have htrimmed : trimmed unit.className = unit.className :=
      trimmed_eq_self (SourceUnit.isBlank_of_mem_className hparse)
    rw [htarget] at hself
    exact hself htrimmed

end Extraction

namespace Analysis

open Steps

variable {workspace : Workspace} {order : CompletionOrder} {oracle : Oracle}
  {root directory path : String}

theorem sound_of_classTask {classReport : ClassReport}
    (h : (classTask workspace oracle path).result = .ok classReport)
    (hkept : classReport.isEmpty = false) : classReport.Sound := by
  obtain ⟨source, unit, -, hparse, rfl⟩ := classTask_eq_ok_iff.1 h
  refine ⟨?_, ?_⟩
  · exact (List.isEmpty_eq_false_iff_exists_mem.1 hkept)
  · intro dependency hmem
    have hname : (Extraction.extract oracle unit).className = unit.className :=
      Extraction.className_foldl_accept _ _
    rw [hname]
    exact Extraction.admittedFor_of_mem_extract hparse hmem

theorem sound_of_package {report : PackageReport}
    (h : packageReportInTurn workspace oracle directory = .ok report) : report.Sound := by
  intro classReport hmem
  obtain ⟨hkept, path, -, hresult⟩ := (mem_classReports_of_package h).1 hmem
  exact sound_of_classTask hresult hkept

/-- **Whatever is analysed, the reports are sound**: a project keeps no package without classes, a class report
that is kept holds a dependency, and all dependencies are ones it may hold. -/
theorem reports_sound (workspace : Workspace) (order : CompletionOrder) :
    (∀ root report, projectReport workspace order root = .ok report → report.Sound) ∧
      ∀ directory report, packageReport workspace order directory = .ok report → report.Sound := by
  refine ⟨?_, ?_⟩
  · intro root report h
    obtain ⟨directories, oracle, -, -, -, hpackages⟩ := exists_oracle_of_project h
    refine ⟨?_, ?_⟩
    · intro packageReport hmem
      exact List.isEmpty_eq_false_iff.1 ((hpackages packageReport).1 hmem).1
    · intro packageReport hmem
      obtain ⟨-, directory, -, hfound⟩ := (hpackages packageReport).1 hmem
      exact sound_of_package hfound
  · intro directory report h
    exact sound_of_package (packageReportBy_eq_ok_iff.1 h)

/-- The file `src/a/A.java`, which imports a type and refers to two that are excluded. -/
def importingWorkspace : Workspace :=
  .ofTree ((FileTree.bare ["home"]).write "src/a/A.java"
    (some "package a; import b.B; class A extends Object \x7b A next; \x7d")) {}

theorem importingWorkspace_sound :
    (∃ report, projectReport importingWorkspace .asStarted "src" = .ok report ∧ report.Sound ∧
        shownDependencies report.classReports = [("a.A", [⟨"a.A", "b.B", .imported, "import b.B;", 1⟩])]) ∧
      ∃ report, packageReport importingWorkspace .asStarted "src/a" = .ok report ∧ report.Sound ∧
        shownDependencies report.classReports = [("a.A", [⟨"a.A", "b.B", .imported, "import b.B;", 1⟩])] := by
  have hreports := reports_sound importingWorkspace .asStarted
  have hproject : ((projectReport importingWorkspace .asStarted "src").toOption.map fun report =>
      shownDependencies report.classReports) =
        some [("a.A", [⟨"a.A", "b.B", .imported, "import b.B;", 1⟩])] := by
    decide +kernel
  have hpackage : ((packageReport importingWorkspace .asStarted "src/a").toOption.map fun report =>
      shownDependencies report.classReports) =
        some [("a.A", [⟨"a.A", "b.B", .imported, "import b.B;", 1⟩])] := by
    decide +kernel
  obtain ⟨report, hreport, hdependencies⟩ := exists_ok_of_map_toOption hproject
  obtain ⟨found, hfound, hshown⟩ := exists_ok_of_map_toOption hpackage
  exact ⟨⟨report, hreport, hreports.1 "src" report hreport, hdependencies⟩,
    found, hfound, hreports.2 "src/a" found hfound, hshown⟩

end Analysis

end JavaAtlas

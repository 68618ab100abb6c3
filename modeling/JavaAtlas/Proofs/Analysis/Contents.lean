import JavaAtlas.Proofs.Analysis.Completion

/-!
# What reports hold

The members of a report, whatever the order in which its tasks ended. A package keeps the reports of its
sources that are not empty, and a project keeps the packages that keep any; so the class reports of a project
are those of the listed sources, each made with the oracle of the project, as far as they hold a dependency.
Whether there is a report at all can be decided.
-/

namespace JavaAtlas

namespace Analysis

open Steps

variable {workspace : Workspace} {order : CompletionOrder} {oracle : Oracle}
  {root directory path : String} {classReport : ClassReport}

theorem mem_classReports_of_package {report : PackageReport}
    (h : packageReportInTurn workspace oracle directory = .ok report) :
    classReport ∈ report.classReports ↔ classReport.isEmpty = false ∧
      ∃ path, Discovery.DirectlyIn workspace.tree workspace.extension directory path ∧
        (classTask workspace oracle path).result = .ok classReport := by
  simp only [packageReportInTurn, bind_eq_ok_iff, pure_eq_ok_iff] at h
  obtain ⟨sources, hsources, reports, hreports, rfl⟩ := h
  have hmem := mem_iff_of_mapM_eq_ok hreports classReport
  simp only [List.mem_filter, hmem, Bool.not_eq_true', Discovery.DirectlyIn, hsources, Except.ok.injEq]
  constructor
  · rintro ⟨⟨path, hpath, hresult⟩, hkept⟩
    exact ⟨hkept, path, ⟨sources, rfl, hpath⟩, hresult⟩
  · rintro ⟨hkept, path, ⟨_, rfl, hpath⟩, hresult⟩
    exact ⟨⟨path, hpath, hresult⟩, hkept⟩

/-- The packages of a project report, all made with one oracle. -/
theorem exists_oracle_of_project {report : ProjectReport}
    (h : projectReport workspace order root = .ok report) :
    ∃ directories oracle,
      Discovery.packageDirectories workspace.tree workspace.extension root = .ok directories ∧
      projectOracle workspace root = .ok oracle ∧
      (∀ directory ∈ directories, ∃ found, packageReportInTurn workspace oracle directory = .ok found) ∧
      ∀ packageReport, packageReport ∈ report.packageReports ↔ packageReport.isEmpty = false ∧
        ∃ directory ∈ directories, packageReportInTurn workspace oracle directory = .ok packageReport := by
  have hturn := projectReport_eq_ok_iff.1 h
  simp only [projectReportInTurn, bind_eq_ok_iff, pure_eq_ok_iff] at hturn
  obtain ⟨directories, hdirectories, oracle, horacle, reports, hreports, rfl⟩ := hturn
  refine ⟨directories, oracle, hdirectories, horacle, exists_mapM_eq_ok_iff.1 ⟨reports, hreports⟩, ?_⟩
  intro packageReport
  have hmem := mem_iff_of_mapM_eq_ok hreports packageReport
  simp only [List.mem_filter, hmem, Bool.not_eq_true']
  exact and_comm

/-- **The class reports of a project are those of its listed sources**, the empty ones left out. -/
theorem mem_classReports_iff {report : ProjectReport} (hreport : projectReport workspace order root = .ok report)
    (horacle : projectOracle workspace root = .ok oracle) :
    classReport ∈ report.classReports ↔ classReport.isEmpty = false ∧
      ∃ path, Listed workspace root path ∧
        (classTask workspace oracle path).result = .ok classReport := by
  obtain ⟨directories, other, hdirectories, hother, hall, hpackages⟩ := exists_oracle_of_project hreport
  cases horacle.symm.trans hother
  rw [ProjectReport.classReports, List.mem_flatMap]
  constructor
  · intro h
    obtain ⟨packageReport, hpackage, hclass⟩ := h
    obtain ⟨-, directory, hdirectory, hfound⟩ := (hpackages packageReport).1 hpackage
    obtain ⟨hkept, path, hpath, hresult⟩ := (mem_classReports_of_package hfound).1 hclass
    exact ⟨hkept, path, ⟨directories, hdirectories, directory, hdirectory, hpath⟩, hresult⟩
  · intro h
    obtain ⟨hkept, path, ⟨listed, hlisted, directory, hdirectory, hpath⟩, hresult⟩ := h
    cases hdirectories.symm.trans hlisted
    obtain ⟨packageReport, hfound⟩ := hall directory hdirectory
    have hclass := (mem_classReports_of_package hfound).2 ⟨hkept, path, hpath, hresult⟩
    have hnonempty : packageReport.isEmpty = false := by
      rw [PackageReport.isEmpty, List.isEmpty_eq_false_iff]
      exact List.ne_nil_of_mem hclass
    exact ⟨packageReport, (hpackages packageReport).2 ⟨hnonempty, directory, hdirectory, hfound⟩, hclass⟩

/-! ### When there are reports, decided -/

def listedPaths (workspace : Workspace) (root : String) : List String :=
  ((Discovery.packageDirectories workspace.tree workspace.extension root).toOption.getD []).flatMap
    fun directory =>
      (Discovery.directSources workspace.tree workspace.extension directory).toOption.getD []

theorem directlyIn_iff_mem :
    Discovery.DirectlyIn workspace.tree workspace.extension directory path ↔
      path ∈ (Discovery.directSources workspace.tree workspace.extension directory).toOption.getD [] := by
  unfold Discovery.DirectlyIn
  cases Discovery.directSources workspace.tree workspace.extension directory with
  | error failure => simp [Except.toOption]
  | ok found => simp [Except.toOption]

theorem listed_iff_mem : Listed workspace root path ↔ path ∈ listedPaths workspace root := by
  simp only [Listed, listedPaths, List.mem_flatMap, directlyIn_iff_mem]
  cases Discovery.packageDirectories workspace.tree workspace.extension root with
  | error failure => simp [Except.toOption]
  | ok directories => simp [Except.toOption]

def isWellFormed (workspace : Workspace) (path : String) : Bool :=
  match workspace.reader path with
  | .text source => (SourceUnit.parse? source).isSome
  | _ => false

theorem isWellFormed_iff : isWellFormed workspace path = true ↔ Parses workspace path := by
  unfold isWellFormed Parses
  cases workspace.reader path with
  | text source => simp [Option.isSome_iff_exists]
  | refused reason => simp
  | crashed report => simp

theorem exists_projectReport (order : CompletionOrder)
    (hroot : workspace.tree.isDirectory root = true)
    (h : ∀ path ∈ listedPaths workspace root, isWellFormed workspace path = true) :
    ∃ report, projectReport workspace order root = .ok report := by
  simp only [projectReport_eq_ok_iff, exists_projectReportInTurn_iff hroot]
  intro path hpath
  exact isWellFormed_iff.1 (h path (listed_iff_mem.1 hpath))

end Analysis

end JavaAtlas

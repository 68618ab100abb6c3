import JavaAtlas.Analysis
import JavaAtlas.FileTree.Edit
import JavaAtlas.Proofs.Discovery.Listings
import JavaAtlas.Proofs.Schedule

/-!
# Project reports do not depend on the order of completion

The sources of a package are analysed side by side, and so are the packages of a project. Each of the two
joins has the values that its tasks have in turn, so a project report is the one that is put together source
by source and package by package, and there is one exactly when every listed source is read and well formed.
Without a report the failure is that of a listed source: the packages and the index of a directory can always
be listed, so nothing else can fail.
-/

namespace JavaAtlas

namespace Analysis

open Steps

variable {workspace : Workspace} {oracle : Oracle} {order : CompletionOrder}
  {root directory path : String} {failure : Failure}

/-! ### One source -/

/-- A source is read and well formed. -/
def Parses (workspace : Workspace) (path : String) : Prop :=
  ∃ source unit, workspace.reader path = .text source ∧ SourceUnit.parse? source = some unit

/-- How a source fails: it cannot be read, it is not well formed, or its reader breaks down. -/
inductive FailsWith (workspace : Workspace) (path : String) : Failure → Prop where
  | refused {reason : String} (hread : workspace.reader path = .refused reason) :
    FailsWith workspace path (.unreadable path reason)
  | illFormed {source : String} (hread : workspace.reader path = .text source)
    (hparse : SourceUnit.parse? source = none) : FailsWith workspace path (.unparseableAt path)
  | crashed {report : String} (hread : workspace.reader path = .crashed report) :
    FailsWith workspace path (.crash report)

theorem classTask_eq_ok_iff {report : ClassReport} :
    (classTask workspace oracle path).result = .ok report ↔
      ∃ source unit, workspace.reader path = .text source ∧ SourceUnit.parse? source = some unit ∧
        Extraction.extract oracle unit = report := by
  unfold classTask
  cases hread : workspace.reader path with
  | text source =>
    cases hparse : SourceUnit.parse? source with
    | some unit => simp [Schedule.Completion.result, hparse]
    | none => simp [Schedule.Completion.result, hparse]
  | refused reason => simp [Schedule.Completion.result]
  | crashed report => simp [Schedule.Completion.result]

theorem exists_classTask_eq_ok_iff (oracle : Oracle) :
    (∃ report, (classTask workspace oracle path).result = .ok report) ↔ Parses workspace path := by
  simp only [classTask_eq_ok_iff]
  constructor
  · rintro ⟨report, source, unit, hread, hparse, -⟩
    exact ⟨source, unit, hread, hparse⟩
  · rintro ⟨source, unit, hread, hparse⟩
    exact ⟨_, source, unit, hread, hparse, rfl⟩

theorem failsWith_of_classTask
    (h : (classTask workspace oracle path).result = .error failure) :
    FailsWith workspace path failure := by
  unfold classTask at h
  cases hread : workspace.reader path with
  | text source =>
    rw [hread] at h
    cases hparse : SourceUnit.parse? source with
    | some unit => simp [Schedule.Completion.result, hparse] at h
    | none =>
      simp only [Schedule.Completion.result, hparse, Except.error.injEq] at h
      exact h ▸ .illFormed hread hparse
  | refused reason =>
    simp only [hread, Schedule.Completion.result, Except.error.injEq] at h
    exact h ▸ .refused hread
  | crashed report =>
    simp only [hread, Schedule.Completion.result, Except.error.injEq] at h
    exact h ▸ .crashed hread

/-! ### One package -/

/-- The report on the sources directly inside a directory, put together one source after the other. -/
def packageReportInTurn (workspace : Workspace) (oracle : Oracle) (directory : String) :
    Except Failure PackageReport := do
  let sources ← Discovery.directSources workspace.tree workspace.extension directory
  let reports ← sources.mapM fun path => (classTask workspace oracle path).result
  return {
    packageName := Discovery.inferPackageName workspace.tree workspace.extension directory
    classReports := reports.filter fun report => !report.isEmpty }

theorem packageReportBy_eq_ok_iff {report : PackageReport} :
    packageReportBy workspace order oracle directory = .ok report ↔
      packageReportInTurn workspace oracle directory = .ok report := by
  have hjoin (sources : List String) :=
    Schedule.join_arrange_eq_ok_iff
      (order.ofSources_perm directory (sources.map (classTask workspace oracle)).length)
  simp only [packageReportBy, packageReportInTurn, bind_eq_ok_iff, hjoin, List.mapM_map,
    Function.comp_def]

theorem exists_packageReportInTurn_iff {sources : List String}
    (hsources : Discovery.directSources workspace.tree workspace.extension directory = .ok sources) :
    (∃ report, packageReportInTurn workspace oracle directory = .ok report) ↔
      ∀ path ∈ sources, Parses workspace path := by
  simp only [packageReportInTurn, bind_eq_ok_iff, pure_eq_ok_iff, hsources,
    ← exists_classTask_eq_ok_iff oracle, ← exists_mapM_eq_ok_iff]
  constructor
  · rintro ⟨report, found, hfound, reports, hreports, -⟩
    cases hfound
    exact ⟨reports, hreports⟩
  · rintro ⟨reports, hreports⟩
    exact ⟨_, sources, rfl, reports, hreports, rfl⟩

theorem exists_of_packageReportBy_eq_error {sources : List String}
    (hsources : Discovery.directSources workspace.tree workspace.extension directory = .ok sources)
    (h : packageReportBy workspace order oracle directory = .error failure) :
    ∃ path ∈ sources, FailsWith workspace path failure := by
  rw [packageReportBy, hsources] at h
  rcases bind_eq_error_iff.1 h with hlisting | ⟨found, hfound, hrest⟩
  · cases hlisting
  · cases hfound
    rcases bind_eq_error_iff.1 hrest with hjoin | ⟨reports, -, hpure⟩
    · obtain ⟨task, htask, hfailure⟩ := Schedule.exists_of_join_arrange_eq_error hjoin
      obtain ⟨path, hpath, rfl⟩ := List.mem_map.1 htask
      exact ⟨path, hpath, failsWith_of_classTask hfailure⟩
    · exact absurd hpure pure_ne_error

/-! ### The project -/

/-- A source is listed for a project: it stands directly inside one of the package directories. -/
def Listed (workspace : Workspace) (root path : String) : Prop :=
  ∃ directories, Discovery.packageDirectories workspace.tree workspace.extension root = .ok directories ∧
    ∃ directory ∈ directories, Discovery.DirectlyIn workspace.tree workspace.extension directory path

/-- The report on all packages below a root, put together one package after the other. -/
def projectReportInTurn (workspace : Workspace) (root : String) : Except Failure ProjectReport := do
  let directories ← Discovery.packageDirectories workspace.tree workspace.extension root
  let oracle ← projectOracle workspace root
  let reports ← directories.mapM (packageReportInTurn workspace oracle)
  return {
    projectName := Discovery.directoryName workspace.tree root
    packageReports := reports.filter fun report => !report.isEmpty }

theorem exists_projectOracle (hroot : workspace.tree.isDirectory root = true) :
    ∃ oracle, projectOracle workspace root = .ok oracle := by
  obtain ⟨found, hfound⟩ := (Discovery.exists_sources_iff workspace.extension).2 hroot
  simp only [projectOracle, SourceIndex.ofRoot, bind_eq_ok_iff, pure_eq_ok_iff]
  exact ⟨_, _, ⟨found, hfound, rfl⟩, rfl⟩

theorem projectReport_eq_ok_iff {report : ProjectReport} :
    projectReport workspace order root = .ok report ↔
      projectReportInTurn workspace root = .ok report := by
  have hjoin (oracle : Oracle) (directories : List String) :=
    Schedule.join_arrange_eq_ok_iff
      (order.ofPackages_perm (directories.map fun directory =>
        Schedule.Completion.finished (packageReportBy workspace order oracle directory)).length)
  have hpackages (oracle : Oracle) (directories : List String) (reports : List PackageReport) :
      directories.mapM (packageReportBy workspace order oracle) = .ok reports ↔
        directories.mapM (packageReportInTurn workspace oracle) = .ok reports :=
    mapM_eq_ok_congr fun _ _ => packageReportBy_eq_ok_iff
  simp only [projectReport, projectReportInTurn, bind_eq_ok_iff, hjoin, List.mapM_map,
    Function.comp_def, Schedule.Completion.result, hpackages]

theorem exists_projectReportInTurn_iff (hroot : workspace.tree.isDirectory root = true) :
    (∃ report, projectReportInTurn workspace root = .ok report) ↔
      ∀ path, Listed workspace root path → Parses workspace path := by
  obtain ⟨directories, hdirectories⟩ :=
    (Discovery.exists_packageDirectories_iff workspace.extension).2 hroot
  obtain ⟨oracle, horacle⟩ := exists_projectOracle hroot
  have hpackages : (∃ report, projectReportInTurn workspace root = .ok report) ↔
      ∀ directory ∈ directories, ∃ report,
        packageReportInTurn workspace oracle directory = .ok report := by
    rw [← exists_mapM_eq_ok_iff, projectReportInTurn, hdirectories, horacle]
    simp only [bind_eq_ok_iff, pure_eq_ok_iff]
    constructor
    · rintro ⟨report, found, hfound, other, hother, reports, hreports, -⟩
      cases hfound
      cases hother
      exact ⟨reports, hreports⟩
    · rintro ⟨reports, hreports⟩
      exact ⟨_, directories, rfl, oracle, rfl, reports, hreports, rfl⟩
  rw [hpackages]
  constructor
  · rintro h path ⟨found, hfound, directory, hdirectory, sources, hsources, hpath⟩
    cases hdirectories.symm.trans hfound
    exact (exists_packageReportInTurn_iff hsources).1 (h directory hdirectory) path hpath
  · intro h directory hdirectory
    obtain ⟨-, sources, hsources, -⟩ := Discovery.exists_directlyIn_of_mem hdirectories hdirectory
    refine (exists_packageReportInTurn_iff hsources).2 fun path hpath => ?_
    exact h path ⟨directories, hdirectories, directory, hdirectory, sources, hsources, hpath⟩

theorem exists_of_projectReport_eq_error (hroot : workspace.tree.isDirectory root = true)
    (h : projectReport workspace order root = .error failure) :
    ∃ path, Listed workspace root path ∧ FailsWith workspace path failure := by
  obtain ⟨directories, hdirectories⟩ :=
    (Discovery.exists_packageDirectories_iff workspace.extension).2 hroot
  obtain ⟨oracle, horacle⟩ := exists_projectOracle hroot
  -- The listing and the index succeed, so the failure is that of the join of the packages.
  rw [projectReport, hdirectories, horacle] at h
  rcases bind_eq_error_iff.1 h with hlisting | ⟨found, hfound, hrest⟩
  · cases hlisting
  cases hfound
  rcases bind_eq_error_iff.1 hrest with hindex | ⟨found, hfound, hrest⟩
  · cases hindex
  cases hfound
  rcases bind_eq_error_iff.1 hrest with hjoin | ⟨reports, -, hpure⟩
  · obtain ⟨task, htask, hfailure⟩ := Schedule.exists_of_join_arrange_eq_error hjoin
    obtain ⟨directory, hdirectory, rfl⟩ := List.mem_map.1 htask
    obtain ⟨-, sources, hsources, -⟩ := Discovery.exists_directlyIn_of_mem hdirectories hdirectory
    obtain ⟨path, hpath, hfails⟩ := exists_of_packageReportBy_eq_error hsources hfailure
    exact ⟨path, ⟨directories, hdirectories, directory, hdirectory, sources, hsources, hpath⟩, hfails⟩
  · exact absurd hpure pure_ne_error

/-- **A project report is the same in every order of completion.** There is one exactly when each listed
source is read and well formed, it is the one put together in turn, and otherwise the failure is that of a
listed source. -/
theorem projectReport_any_order (hroot : workspace.tree.isDirectory root = true)
    (order : CompletionOrder) :
    ((∃ report, projectReport workspace order root = .ok report) ↔
      ∀ path, Listed workspace root path → Parses workspace path) ∧
    (∀ report, projectReport workspace order root = .ok report ↔
      projectReportInTurn workspace root = .ok report) ∧
    (∀ failure, projectReport workspace order root = .error failure →
      ∃ path, Listed workspace root path ∧ FailsWith workspace path failure) := by
  refine ⟨?_, fun report => projectReport_eq_ok_iff,
    fun failure => exists_of_projectReport_eq_error hroot⟩
  simp only [projectReport_eq_ok_iff, exists_projectReportInTurn_iff hroot]

/-- A project with a well-formed source, an ill-formed one, and one whose reader breaks down. -/
def mixedWorkspace : Workspace where
  tree :=
    (((FileTree.bare ["home"]).write "src/a/A.java" (some "class A \x7b\x7d")).write
      "src/b/B.java" (some "class")).write "src/b/C.java" (some "class C \x7b\x7d")
  reader path :=
    if path == "src/a/A.java" then .text "class A \x7b\x7d"
    else if path == "src/b/B.java" then .text "class"
    else .crashed
  settings := {}

/-- A project with one source, which shows a dependency. -/
def singleWorkspace : Workspace :=
  .ofTree ((FileTree.bare ["home"]).write "src/a/A.java" (some "package a; class A \x7b b.B next; \x7d")) {}

def shownDependencies (reports : List ClassReport) : List (String × List Dependency) :=
  reports.map fun found => (found.className, found.dependencies.toList)

/-- A reader of the first project breaks down; the second has a report, which holds a dependency. -/
theorem mixed_and_single_any_order :
    (mixedWorkspace.tree.isDirectory "src" = true ∧
      ((∃ report, projectReport mixedWorkspace .asStarted "src" = .ok report) ↔
        ∀ path, Listed mixedWorkspace "src" path → Parses mixedWorkspace path) ∧
      (∀ report, projectReport mixedWorkspace .asStarted "src" = .ok report ↔
        projectReportInTurn mixedWorkspace "src" = .ok report) ∧
      (∀ failure, projectReport mixedWorkspace .asStarted "src" = .error failure →
        ∃ path, Listed mixedWorkspace "src" path ∧ FailsWith mixedWorkspace path failure)) ∧
    ∃ report, projectReport singleWorkspace .asStarted "src" = .ok report ∧
      projectReportInTurn singleWorkspace "src" = .ok report ∧
      (∀ path, Listed singleWorkspace "src" path → Parses singleWorkspace path) ∧
      shownDependencies report.classReports = [("a.A", [⟨"a.A", "b.B", .field, "field b.B", 1⟩])] := by
  refine ⟨⟨by decide, projectReport_any_order (by decide) .asStarted⟩, ?_⟩
  have hroot : singleWorkspace.tree.isDirectory "src" = true := by
    decide
  obtain ⟨hparses, hturn, -⟩ := projectReport_any_order hroot .asStarted
  have hshown : ((projectReport singleWorkspace .asStarted "src").toOption.map fun report =>
      shownDependencies report.classReports) = some [("a.A", [⟨"a.A", "b.B", .field, "field b.B", 1⟩])] := by
    decide +kernel
  obtain ⟨report, hreport, hdependencies⟩ := exists_ok_of_map_toOption hshown
  exact ⟨report, hreport, (hturn report).1 hreport, hparses.1 ⟨report, hreport⟩, hdependencies⟩

end Analysis

end JavaAtlas

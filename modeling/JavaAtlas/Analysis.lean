import JavaAtlas.Extraction
import JavaAtlas.Oracle.Platform
import JavaAtlas.Schedule
import JavaAtlas.SourceIndex
import JavaAtlas.Workspace

/-!
# Analyses

The reports on a source file, on the sources directly inside a directory, and on all packages below a root.
The sources of a directory are analysed side by side, and so are the packages of a project; an order of
completion says which ends when. Reports keep the order of the listings whatever that order is, classes
without dependencies and packages without classes are left out, and one failure fails the whole.
-/

namespace JavaAtlas

/-- In which order the tasks of an analysis end: for the sources of each directory, and for the packages,
an arrangement of the places at which the tasks were started. -/
structure CompletionOrder where
  ofSources : String → Nat → List Nat
  ofPackages : Nat → List Nat
  ofSources_perm : ∀ directory tasks, (ofSources directory tasks).Perm (List.range tasks)
  ofPackages_perm : ∀ tasks, (ofPackages tasks).Perm (List.range tasks)

/-- The order in which tasks end as they were started. -/
def CompletionOrder.asStarted : CompletionOrder where
  ofSources _ tasks := List.range tasks
  ofPackages tasks := List.range tasks
  ofSources_perm _ _ := List.Perm.refl _
  ofPackages_perm _ := List.Perm.refl _

namespace Analysis

/-- How the analysis of the source at a path ends, with types resolved by an oracle. -/
def classTask (workspace : Workspace) (oracle : Oracle) (path : String) :
    Schedule.Completion ClassReport :=
  match workspace.reader path with
  | .text source =>
    match SourceUnit.parse? source with
    | some unit => .finished (.ok (Extraction.extract oracle unit))
    | none => .finished (.error (.unparseableAt path))
  | .refused reason => .finished (.error (.unreadable path reason))
  | .crashed report => .crashed report

/-- The report on the file to which a path leads, with types resolved by the platform alone. -/
def classReport (workspace : Workspace) (path : String) : Except Failure ClassReport :=
  if workspace.tree.isFile path then (classTask workspace Oracle.platform path).result
  else .error (.invalidPath path)

/-- The report on the sources directly inside a directory, with types resolved by an oracle. -/
def packageReportBy (workspace : Workspace) (order : CompletionOrder) (oracle : Oracle)
    (directory : String) : Except Failure PackageReport := do
  let sources ← Discovery.directSources workspace.tree workspace.extension directory
  let tasks := sources.map (classTask workspace oracle)
  let reports ← Schedule.join (Schedule.arrange (order.ofSources directory tasks.length) tasks)
  return {
    packageName := Discovery.inferPackageName workspace.tree workspace.extension directory
    classReports := reports.filter fun report => !report.isEmpty }

/-- The report on the sources directly inside a directory, with types resolved by the platform alone. -/
def packageReport (workspace : Workspace) (order : CompletionOrder) (directory : String) :
    Except Failure PackageReport :=
  packageReportBy workspace order Oracle.platform directory

/-- The oracle for the sources below a root: the platform, then the sources themselves. -/
def projectOracle (workspace : Workspace) (root : String) : Except Failure Oracle := do
  let index ← SourceIndex.ofRoot workspace.tree workspace.extension root
  return Oracle.combined [Oracle.platform, index.oracle]

def projectReport (workspace : Workspace) (order : CompletionOrder) (root : String) :
    Except Failure ProjectReport := do
  let directories ← Discovery.packageDirectories workspace.tree workspace.extension root
  let oracle ← projectOracle workspace root
  let tasks := directories.map fun directory =>
    Schedule.Completion.finished (packageReportBy workspace order oracle directory)
  let reports ← Schedule.join (Schedule.arrange (order.ofPackages tasks.length) tasks)
  return {
    projectName := Discovery.directoryName workspace.tree root
    packageReports := reports.filter fun report => !report.isEmpty }

/-- The reports on a source, a directory and a root, one after the other, up to the first failure. -/
def reportChain (workspace : Workspace) (order : CompletionOrder)
    (path directory root : String) : Except Failure ReportChain := do
  let classReport ← classReport workspace path
  let packageReport ← packageReport workspace order directory
  let projectReport ← projectReport workspace order root
  return ⟨classReport, packageReport, projectReport⟩

end Analysis

end JavaAtlas

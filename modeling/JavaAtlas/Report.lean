import JavaAtlas.Dependency
import JavaAtlas.OrderedSet

/-!
# Reports

The dependencies of one class, of the classes of a package, and of the packages of a project, and their
texts. The dependencies of a class form a set and are always shown in order; classes and packages keep
the order in which they were found.
-/

namespace JavaAtlas

structure ClassReport where
  className : String
  dependencies : OrderedSet Dependency
deriving DecidableEq, Inhabited

structure PackageReport where
  packageName : String
  classReports : List ClassReport
deriving DecidableEq, Inhabited

structure ProjectReport where
  projectName : String
  packageReports : List PackageReport
deriving DecidableEq, Inhabited

/-- The reports of one source, one directory and one root together. -/
structure ReportChain where
  classReport : ClassReport
  packageReport : PackageReport
  projectReport : ProjectReport
deriving DecidableEq, Inhabited

namespace ClassReport

def new (className : String) : ClassReport :=
  ⟨className, OrderedSet.empty⟩

/-- A report with one more dependency, which may be in it already. -/
def add (report : ClassReport) (dependency : Dependency) : ClassReport :=
  { report with dependencies := report.dependencies.insert dependency }

def size (report : ClassReport) : Nat :=
  report.dependencies.size

def isEmpty (report : ClassReport) : Bool :=
  report.dependencies.toList.isEmpty

def dependencyLine (dependency : Dependency) : String :=
  s!"  - {dependency.kind.label}: {dependency.target}\n"

/-- The text on a class with some dependencies: two lines of heading, then a line for each dependency. -/
def textOf (className : String) (dependencies : List Dependency) : String :=
  s!"Class: {className}\nDependencies:\n" ++ String.join (dependencies.map dependencyLine)

def text (report : ClassReport) : String :=
  textOf report.className report.dependencies.toList

end ClassReport

namespace PackageReport

def isEmpty (report : PackageReport) : Bool :=
  report.classReports.isEmpty

def dependencyCount (report : PackageReport) : Nat :=
  (report.classReports.map ClassReport.size).foldr (· + ·) 0

/-- The text on a package: a line of heading, then the texts of its classes with blank lines between. -/
def textOf (packageName : String) (classTexts : List String) : String :=
  s!"Package: {packageName}\n" ++ "\n".intercalate classTexts

def text (report : PackageReport) : String :=
  textOf report.packageName (report.classReports.map ClassReport.text)

end PackageReport

namespace ProjectReport

def isEmpty (report : ProjectReport) : Bool :=
  report.packageReports.isEmpty

def classReports (report : ProjectReport) : List ClassReport :=
  report.packageReports.flatMap PackageReport.classReports

def dependencyCount (report : ProjectReport) : Nat :=
  (report.packageReports.map PackageReport.dependencyCount).foldr (· + ·) 0

/-- The text on a project: a line of heading, then the texts of its packages with blank lines between. -/
def textOf (projectName : String) (packageTexts : List String) : String :=
  s!"Project: {projectName}\n" ++ "\n".intercalate packageTexts

def text (report : ProjectReport) : String :=
  textOf report.projectName (report.packageReports.map PackageReport.text)

end ProjectReport

end JavaAtlas

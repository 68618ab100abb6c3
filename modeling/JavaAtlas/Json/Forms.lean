import JavaAtlas.Event
import JavaAtlas.Failure
import JavaAtlas.Json.Value
import JavaAtlas.Report
import JavaAtlas.Version

/-!
# The JSON forms of reports

How dependencies, reports, events and failures are written as documents and read from values. Dependencies are
written in order, so that one report has one document. Reports also come in a *listed* form, which keeps a
list of dependencies as it was given; only a listed project carries its number of dependencies.
-/

namespace JavaAtlas.Json

/-! ## Dependencies -/

def dependencyDocument (dependency : Dependency) : Document :=
  .record [("source_type", .text dependency.source), ("target_type", .text dependency.target),
    ("kind", .text dependency.kind.label), ("snippet", .text dependency.snippet),
    ("line", .natural dependency.line.toNat)]

def kindOf? (value : Value) : Option DependencyKind :=
  value.asVariant?.bind DependencyKind.ofLabel?

def dependencyOf? (value : Value) : Option Dependency := do
  match ← value.asRecord? ["source_type", "target_type", "kind", "snippet", "line"] with
  | [source, target, kind, snippet, line] =>
    return {
      source := ← source.asText?, target := ← target.asText?, kind := ← kindOf? kind
      snippet := ← snippet.asText?, line := UInt32.ofNat (← line.asNatural? UInt32.size) }
  | _ => none

/-! ## Listed reports -/

structure ListedClass where
  className : String
  dependencies : List Dependency
deriving DecidableEq, Inhabited

structure ListedPackage where
  packageName : String
  classReports : List ListedClass
deriving DecidableEq, Inhabited

/-- A project with listed packages and a number of dependencies. -/
structure ListedProject where
  projectName : String
  dependencyCount : Nat
  packageReports : List ListedPackage
deriving DecidableEq, Inhabited

/-- The listed form of the report on a class, with its dependencies in order. -/
def ListedClass.ofReport (report : ClassReport) : ListedClass :=
  ⟨report.className, report.dependencies.toList⟩

def ListedPackage.ofReport (report : PackageReport) : ListedPackage :=
  ⟨report.packageName, report.classReports.map ListedClass.ofReport⟩

def ListedProject.ofReport (report : ProjectReport) : ListedProject :=
  ⟨report.projectName, report.dependencyCount, report.packageReports.map ListedPackage.ofReport⟩

def ListedClass.document (listed : ListedClass) : Document :=
  .record [("class_name", .text listed.className),
    ("dependencies", .list (listed.dependencies.map dependencyDocument))]

def ListedPackage.document (listed : ListedPackage) : Document :=
  .record [("package_name", .text listed.packageName),
    ("class_reports", .list (listed.classReports.map ListedClass.document))]

def ListedProject.document (listed : ListedProject) : Document :=
  .record [("project_name", .text listed.projectName),
    ("dependency_count", .natural listed.dependencyCount),
    ("package_reports", .list (listed.packageReports.map ListedPackage.document))]

def ListedClass.ofValue? (value : Value) : Option ListedClass := do
  match ← value.asRecord? ["class_name", "dependencies"] with
  | [name, dependencies] => return ⟨← name.asText?, ← dependencies.asList? dependencyOf?⟩
  | _ => none

def ListedPackage.ofValue? (value : Value) : Option ListedPackage := do
  match ← value.asRecord? ["package_name", "class_reports"] with
  | [name, classes] => return ⟨← name.asText?, ← classes.asList? ListedClass.ofValue?⟩
  | _ => none

def ListedProject.ofValue? (value : Value) : Option ListedProject := do
  match ← value.asRecord? ["project_name", "dependency_count", "package_reports"] with
  | [name, count, packages] =>
    return ⟨← name.asText?, ← count.asNatural? UInt64.size, ← packages.asList? ListedPackage.ofValue?⟩
  | _ => none

/-! ## Reports -/

def classDocument (report : ClassReport) : Document :=
  (ListedClass.ofReport report).document

def packageDocument (report : PackageReport) : Document :=
  (ListedPackage.ofReport report).document

def projectDocument (report : ProjectReport) : Document :=
  (ListedProject.ofReport report).document

def chainDocument (chain : ReportChain) : Document :=
  .record [("class", classDocument chain.classReport),
    ("package", packageDocument chain.packageReport),
    ("project", projectDocument chain.projectReport)]

/-- The report on a class that a value describes. Repeated dependencies count once. -/
def classReportOf? (value : Value) : Option ClassReport :=
  (ListedClass.ofValue? value).map fun listed =>
    ⟨listed.className, OrderedSet.ofList listed.dependencies⟩

def packageReportOf? (value : Value) : Option PackageReport := do
  match ← value.asRecord? ["package_name", "class_reports"] with
  | [name, classes] => return ⟨← name.asText?, ← classes.asList? classReportOf?⟩
  | _ => none

/-- The report on a project that a value describes; a number of dependencies beside it is not looked at. -/
def projectReportOf? (value : Value) : Option ProjectReport := do
  match ← value.asRecord? ["project_name", "package_reports"] with
  | [name, packages] => return ⟨← name.asText?, ← packages.asList? packageReportOf?⟩
  | _ => none

/-! ## Events -/

def eventDocument (event : Event) : Document :=
  .record [("class_name", .text event.className), ("imports", .list (event.imports.map .text))]

def eventOf? (value : Value) : Option Event := do
  match ← value.asRecord? ["class_name", "imports"] with
  | [name, imports] => return ⟨← name.asText?, ← imports.asList? Value.asText?⟩
  | _ => none

/-- The document that closes a stream, with the number of its events. -/
def summaryDocument (files : Nat) : Document :=
  .record [("files", .natural files)]

/-! ## Failures -/

/-- What is told about a failure: its wording and its kind. -/
structure ErrorResponse where
  error : String
  kind : FailureKind
deriving DecidableEq, Inhabited

def ErrorResponse.ofFailure (failure : Failure) : ErrorResponse :=
  ⟨failure.message, failure.kind⟩

def ErrorResponse.document (response : ErrorResponse) : Document :=
  .record [("error", .text response.error), ("kind", .text response.kind.label)]

def failureKindOf? (value : Value) : Option FailureKind :=
  value.asVariant?.bind FailureKind.ofLabel?

def ErrorResponse.ofValue? (value : Value) : Option ErrorResponse := do
  match ← value.asRecord? ["error", "kind"] with
  | [error, kind] => return ⟨← error.asText?, ← failureKindOf? kind⟩
  | _ => none

/-! ## Health -/

/-- The document that tells that the program is up, and its version. -/
def healthDocument : Document :=
  .record [("status", .text "ok"), ("version", .text version)]

end JavaAtlas.Json

import JavaAtlas.Json.Forms

/-!
# Reports as they are gathered

The dependencies of a class are gathered in a set without an order of its own: it gives its members out in some
order, and in another one after the next addition. A gathered report holds its dependencies in the order in which
its set gives them out. To be shown they are sorted by kind, target, line and snippet; the sorting does not look
at the source, and what it cannot tell apart stays in the order in which it came.
-/

namespace JavaAtlas

namespace Dependency

/-- The order in which dependencies are shown: the first difference in kind, target, line and snippet decides. -/
def compareShown : Dependency → Dependency → Ordering :=
  compareLex (compareOn (·.kind)) (compareLex (compareOn (·.target)) (compareLex
    (compareOn (·.line)) (compareOn (·.snippet))))

/-- Dependencies in the order in which they are shown. -/
def shown (members : List Dependency) : List Dependency :=
  members.mergeSort fun a b => (compareShown a b).isLE

end Dependency

/-- A report on a class, with its dependencies in the order in which their set gives them out. -/
structure GatheredClass where
  className : String
  members : List Dependency
  nodup : members.Nodup

structure GatheredPackage where
  packageName : String
  classes : List GatheredClass

structure GatheredProject where
  projectName : String
  packages : List GatheredPackage

namespace GatheredClass

def new (className : String) : GatheredClass :=
  ⟨className, [], .nil⟩

/-- A dependency is added to a report, which may hold it already; afterwards the set may have any order. -/
def Adds (dependency : Dependency) (before after : GatheredClass) : Prop :=
  after.className = before.className ∧
    ∀ other, other ∈ after.members ↔ other = dependency ∨ other ∈ before.members

/-- What a report on a class may have become when some dependencies have been added one after the other. -/
inductive Gathers (className : String) : List Dependency → GatheredClass → Prop where
  | new : Gathers className [] (.new className)
  | add {added : List Dependency} {dependency : Dependency} {before after : GatheredClass}
      (hbefore : Gathers className added before) (hadds : Adds dependency before after) :
      Gathers className (added ++ [dependency]) after

def shown (gathered : GatheredClass) : List Dependency :=
  Dependency.shown gathered.members

def text (gathered : GatheredClass) : String :=
  ClassReport.textOf gathered.className gathered.shown

def listed (gathered : GatheredClass) : Json.ListedClass :=
  ⟨gathered.className, gathered.shown⟩

/-- The report that is gathered, whatever the order of its set. -/
def report (gathered : GatheredClass) : ClassReport :=
  ⟨gathered.className, OrderedSet.ofList gathered.members⟩

end GatheredClass

namespace GatheredPackage

def text (gathered : GatheredPackage) : String :=
  PackageReport.textOf gathered.packageName (gathered.classes.map GatheredClass.text)

def listed (gathered : GatheredPackage) : Json.ListedPackage :=
  ⟨gathered.packageName, gathered.classes.map GatheredClass.listed⟩

def report (gathered : GatheredPackage) : PackageReport :=
  ⟨gathered.packageName, gathered.classes.map GatheredClass.report⟩

def dependencyCount (gathered : GatheredPackage) : Nat :=
  (gathered.classes.map (·.members.length)).foldr (· + ·) 0

end GatheredPackage

namespace GatheredProject

def text (gathered : GatheredProject) : String :=
  ProjectReport.textOf gathered.projectName (gathered.packages.map GatheredPackage.text)

def listed (gathered : GatheredProject) : Json.ListedProject where
  projectName := gathered.projectName
  dependencyCount := (gathered.packages.map GatheredPackage.dependencyCount).foldr (· + ·) 0
  packageReports := gathered.packages.map GatheredPackage.listed

def report (gathered : GatheredProject) : ProjectReport :=
  ⟨gathered.projectName, gathered.packages.map GatheredPackage.report⟩

end GatheredProject

end JavaAtlas

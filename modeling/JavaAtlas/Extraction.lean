import JavaAtlas.Exclusion
import JavaAtlas.Report
import JavaAtlas.Resolution

/-!
# Extraction of dependencies

From a source unit to the report on it. Every node of the unit proposes dependencies by its kind: an import
its name, a class or an interface the types it extends and implements, a field its type, a method its
result and its parameters, a creation the type it creates. What exclusion does not suppress goes into the
report.
-/

namespace JavaAtlas.Extraction

/-- A dependency that a node proposes, before exclusion. -/
structure Proposal where
  kind : DependencyKind
  target : String
  snippet : String
  line : Line
deriving DecidableEq, Repr, Inhabited

/-- The name of the target that a written type refers to, decided by its innermost element: what a reference
resolves to, and its text if that is unknown or the oracle fails. Forms that are no type have no target. -/
def target? (scope : Scope) (oracle : Oracle) (type : WrittenType) : Option String :=
  match type.element with
  | .reference written _ name =>
    match scope.resolve oracle name with
    | .ok (some full) => some full
    | _ => some written
  | .void .. => some "void"
  | .primitive written _ => some written
  | .array .. => none
  | .other .. => none

/-- What a type in some role proposes. -/
def proposal? (scope : Scope) (oracle : Oracle) (kind : DependencyKind) (type : WrittenType) :
    Option Proposal :=
  (target? scope oracle type).map fun target =>
    { kind, target, snippet := s!"{kind.lead} {type.written}", line := type.line }

/-- The types that a node refers to, each with the role it plays. A field whose type is an array refers to
none, and the parameters of a constructor do not count. -/
def references : Node → List (DependencyKind × WrittenType)
  | .branch (.type header) _ =>
    if header.isClassOrInterface then
      header.extended.map (.extended, ·) ++ header.implemented.map (.implemented, ·)
    else []
  | .branch (.field type names _) _ =>
    if type.isReference then names.map fun _ => (.field, type) else []
  | .branch (.method _ result parameters _) _ =>
    (.methodReturn, result) :: parameters.map fun parameter => (.methodParameter, parameter.type)
  | .branch (.creation type _) _ => [(.instantiated, type)]
  | _ => []

def importProposal? (item : Import) : Option Proposal :=
  if item.isStatic || item.isWildcard then none
  else
    some {
      kind := .imported, target := item.name, snippet := s!"import {item.name};"
      line := item.line }

/-- What a node proposes, apart from the nodes below it. -/
def proposals (scope : Scope) (oracle : Oracle) : Node → List Proposal
  | .imported item => (importProposal? item).toList
  | node => (references node).filterMap fun reference =>
    proposal? scope oracle reference.1 reference.2

/-- A report with the dependency that a proposal makes, unless it is excluded. -/
def accept (report : ClassReport) (proposal : Proposal) : ClassReport :=
  if Exclusion.excludes proposal.target report.className then report
  else
    report.add {
      source := report.className, target := proposal.target, kind := proposal.kind
      snippet := proposal.snippet, line := proposal.line }

/-- The report on a unit, with types resolved by an oracle. -/
def extract (oracle : Oracle) (unit : SourceUnit) : ClassReport :=
  (unit.walk.flatMap (proposals (Scope.ofUnit unit) oracle)).foldl accept
    (ClassReport.new unit.className)

end JavaAtlas.Extraction

import JavaAtlas.Oracle
import JavaAtlas.SourceUnit
import JavaAtlas.Text.Blank

/-!
# Resolution of type names

Which fully qualified type a name means inside a source unit. Types that the unit declares come first, then
single-type imports; both are taken at their word. Everything else is a guess that an oracle must confirm:
the same package, each wildcard import in order, and `java.lang`. A dotted name is resolved through its
first segment, and if that fails it may be a fully qualified name already.
-/

namespace JavaAtlas

open JavaAtlas.Text

namespace Name

def lastSegment (name : String) : String :=
  String.ofList (name.toList.reverse.takeWhile (· != '.')).reverse

/-- A dotted name cut at its first point; none if it has none. -/
def splitFirst? (name : String) : Option (String × String) :=
  match name.toList.dropWhile (· != '.') with
  | [] => none
  | _ :: rest => some (String.ofList (name.toList.takeWhile (· != '.')), String.ofList rest)

end Name

/-- The names visible inside one unit. In the two tables the first entry of a name counts. -/
structure Scope where
  package? : Option String
  singleImports : List (String × String)
  wildcardPackages : List String
  localTypes : List (String × String)
deriving Repr, Inhabited

namespace Scope

/-- The scope of a unit. A type that it declares is visible by its simple name and by its path. -/
def ofUnit (unit : SourceUnit) : Scope :=
  let usable := unit.imports.filter fun item => !item.isStatic
  { package? := unit.package?
    singleImports :=
      (usable.filter fun item => !item.isWildcard).map fun item =>
        (Name.lastSegment item.name, item.name)
    wildcardPackages := (usable.filter fun item => item.isWildcard).map fun item => item.name
    localTypes :=
      unit.declaredTypes.flatMap fun path =>
        let full := SourceUnit.qualify unit.package? path
        [(Name.lastSegment path, full), (path, full)] }

/-- The guesses for a simple name that an oracle has to confirm, in order. -/
def candidates (scope : Scope) (simple : String) : List String :=
  SourceUnit.qualify scope.package? simple ::
    scope.wildcardPackages.map (fun package => package ++ "." ++ simple) ++
    ["java.lang." ++ simple]

/-- The first of some guesses that an oracle knows. A failure of the oracle ends the search. -/
def firstKnown (oracle : Oracle) : List String → Except OracleFailure (Option String)
  | [] => .ok none
  | candidate :: rest =>
    match oracle.knows candidate with
    | .error failure => .error failure
    | .ok true => .ok (some candidate)
    | .ok false => firstKnown oracle rest

def resolveSimple (scope : Scope) (oracle : Oracle) (simple : String) :
    Except OracleFailure (Option String) :=
  match scope.localTypes.lookup simple with
  | some full => .ok (some full)
  | none =>
    match scope.singleImports.lookup simple with
    | some full => .ok (some full)
    | none => firstKnown oracle (scope.candidates simple)

/-- The type that a dotted name means, given its first segment and the rest. -/
def resolveDotted (scope : Scope) (oracle : Oracle) (name head rest : String) :
    Except OracleFailure (Option String) :=
  match scope.resolveSimple oracle head with
  | .error failure => .error failure
  | .ok (some full) => .ok (some (full ++ "." ++ rest))
  | .ok none => firstKnown oracle [name]

/-- The type that a name means, none if it is unknown. Blanks around the name do not count. -/
def resolve (scope : Scope) (oracle : Oracle) (name : String) :
    Except OracleFailure (Option String) :=
  let name := trimmed name
  if name == "" then .ok none
  else
    match scope.localTypes.lookup name with
    | some full => .ok (some full)
    | none =>
      match Name.splitFirst? name with
      | some (head, rest) => scope.resolveDotted oracle name head rest
      | none => scope.resolveSimple oracle name

end Scope

end JavaAtlas

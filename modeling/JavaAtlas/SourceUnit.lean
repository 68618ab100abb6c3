import JavaAtlas.Line

/-!
# Source units

What a Java source file declares, as far as dependencies are concerned: its package and imports, its type
declarations with their members, and the objects its code creates. Everything else a file holds has been
dropped, with the parts of it that matter moved up to where it stood. After the types come the questions
that are asked of a unit: its package, its main type and its own name, and the paths of all types that
it declares.
-/

namespace JavaAtlas

/-- A type as it is written in a source: the text, the line it starts on, and what its form says about it.
The name of a reference is the written text without type arguments and annotations. -/
inductive WrittenType where
  | reference (written : String) (line : Line) (name : String)
  | primitive (written : String) (line : Line)
  | void (written : String) (line : Line)
  | array (written : String) (line : Line) (element : WrittenType)
  | other (written : String) (line : Line)
deriving DecidableEq, Repr, Inhabited

namespace WrittenType

/-- The text of a type, with single blanks inside. -/
def written : WrittenType → String
  | .reference text _ _ | .primitive text _ | .void text _ | .array text _ _ | .other text _ => text

def line : WrittenType → Line
  | .reference _ n _ | .primitive _ n | .void _ n | .array _ n _ | .other _ n => n

def isReference : WrittenType → Bool
  | .reference .. => true
  | _ => false

/-- The type of the innermost elements of an array; any other type itself. -/
def element : WrittenType → WrittenType
  | .array _ _ inner => inner.element
  | type => type

end WrittenType

inductive TypeKind where
  | classType
  | interfaceType
  | enumType
  | recordType
  | annotationType
deriving DecidableEq, Repr, Inhabited

/-- An import: the name of a type, or of a package for a wildcard, or of a member for a static import. -/
structure Import where
  name : String
  isStatic : Bool
  isWildcard : Bool
  line : Line
deriving DecidableEq, Repr, Inhabited

structure Parameter where
  name : String
  type : WrittenType
deriving DecidableEq, Repr, Inhabited

/-- A type declaration without its members. It is nested when it stands directly in the body of another. -/
structure TypeHeader where
  name : String
  kind : TypeKind
  nested : Bool
  extended : List WrittenType
  implemented : List WrittenType
  line : Line
deriving DecidableEq, Repr, Inhabited

def TypeHeader.isClassOrInterface (header : TypeHeader) : Bool :=
  header.kind == .classType || header.kind == .interfaceType

/-- What a node with children stands for: a type over its members, a field over its initial values, a method
or a constructor over its body, a created object over its arguments and its class body. -/
inductive Head where
  | type (header : TypeHeader)
  | field (type : WrittenType) (names : List String) (line : Line)
  | method (name : String) (result : WrittenType) (parameters : List Parameter) (line : Line)
  | constructor (name : String) (parameters : List Parameter) (line : Line)
  | creation (type : WrittenType) (line : Line)
deriving DecidableEq, Repr, Inhabited

def Head.line : Head → Line
  | .type header => header.line
  | .field _ _ n | .method _ _ _ n | .constructor _ _ n | .creation _ n => n

inductive Node where
  | package (name : String) (line : Line)
  | imported (item : Import)
  | branch (head : Head) (children : List Node)
deriving Repr, Inhabited

namespace Node

def children : Node → List Node
  | .branch _ below => below
  | _ => []

def line : Node → Line
  | .package _ n => n
  | .imported item => item.line
  | .branch head _ => head.line

mutual

/-- A node and all nodes below it, each before the nodes below it. -/
def walk : Node → List Node
  | .package name n => [.package name n]
  | .imported item => [.imported item]
  | .branch head below => .branch head below :: walkAll below

def walkAll : List Node → List Node
  | [] => []
  | node :: rest => walk node ++ walkAll rest

end

/-- The path of a type, given that of the declaration around it: a nested type is reached through it, any
other type is not. -/
def pathOf (outer : Option String) (header : TypeHeader) : String :=
  match outer with
  | some path => if header.nested then path ++ "." ++ header.name else header.name
  | none => header.name

mutual

/-- The paths of the types that a node declares, each after the paths of the types inside it. -/
def declaredPaths (outer : Option String) : Node → List String
  | .branch (.type header) below =>
    declaredPathsOfAll (some (pathOf outer header)) below ++ [pathOf outer header]
  | .branch _ below => declaredPathsOfAll outer below
  | _ => []

def declaredPathsOfAll (outer : Option String) : List Node → List String
  | [] => []
  | node :: rest => declaredPaths outer node ++ declaredPathsOfAll outer rest

end

end Node

/-- A source unit: the nodes at the top of a source file. -/
structure SourceUnit where
  nodes : List Node
deriving Repr, Inhabited

namespace SourceUnit

def qualify (package : Option String) (name : String) : String :=
  match package with
  | some package => package ++ "." ++ name
  | none => name

/-- The package that a unit declares first. -/
def package? (unit : SourceUnit) : Option String :=
  unit.nodes.findSome? fun
    | .package name _ => some name
    | _ => none

def imports (unit : SourceUnit) : List Import :=
  unit.nodes.filterMap fun
    | .imported item => some item
    | _ => none

/-- The types at the top of a unit, with their members. -/
def topTypes (unit : SourceUnit) : List (TypeHeader × List Node) :=
  unit.nodes.filterMap fun
    | .branch (.type header) members => if header.nested then none else some (header, members)
    | _ => none

/-- The name of the first class or interface at the top of a unit. -/
def mainType? (unit : SourceUnit) : Option String :=
  (unit.topTypes.find? fun type => type.1.isClassOrInterface).map fun type => type.1.name

/-- The name of a unit: its main type inside its package, `UnknownClass` where it has no main type. -/
def className (unit : SourceUnit) : String :=
  qualify unit.package? (unit.mainType?.getD "UnknownClass")

/-- The paths of all types that a unit declares, relative to its package. -/
def declaredTypes (unit : SourceUnit) : List String :=
  Node.declaredPathsOfAll none unit.nodes

def walk (unit : SourceUnit) : List Node :=
  Node.walkAll unit.nodes

end SourceUnit

end JavaAtlas

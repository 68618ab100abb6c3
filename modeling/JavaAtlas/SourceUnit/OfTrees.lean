import JavaAtlas.SourceUnit
import JavaAtlas.Syntax.Java
import JavaAtlas.Syntax.Scan
import JavaAtlas.Text.Blank

/-!
# From syntax trees to units

What each part of a syntax tree adds to a unit. Headers, declarations and creations become nodes; every
other part only passes on what is found below it, so an object that is created anywhere in a body, an
initial value, an argument or an annotation of a local variable is still found. Of a part that becomes a
node only what the node shows is looked at: nothing is found in the modifiers, the type parameters or the
parameters of a declaration.

A node starts where its modifiers start. A type written with annotations in front starts after them.
-/

namespace JavaAtlas.SourceUnit

open JavaAtlas.Syntax JavaAtlas.Text

abbrev JavaTree := ParseTree Part

/-- The line of a source text with a given number. -/
def lineOf (trees : List JavaTree) : Line :=
  UInt32.ofNat (ParseTree.firstLine trees)

/-- The source of some neighbouring trees with single blanks. -/
def writtenText (trees : List JavaTree) : String :=
  String.ofList (squeezed (ParseTree.sourceOf trees))

/-- The first name marked among some trees; empty if there is none. -/
def nameIn (trees : List JavaTree) : String :=
  match ParseTree.firstLabelled .name trees with
  | some leaves => String.ofList (ParseTree.sourceOf leaves)
  | none => ""

/-- The dotted name marked among some trees, without blanks; a comment inside it stays. -/
def qualifiedNameIn (trees : List JavaTree) : String :=
  match ParseTree.firstLabelled .qualifiedName trees with
  | some leaves => String.ofList (unspaced (ParseTree.sourceOf leaves))
  | none => ""

/-! ## Types -/

/-- The name of a reference: the names of its segments, joined by points. -/
def erasedName (segments : List JavaTree) : String :=
  ".".intercalate
    ((ParseTree.allLabelled .name segments).map fun leaves =>
      String.ofList (ParseTree.sourceOf leaves))

/-- A type that is no array, from the trees that spell it. -/
def simpleType : JavaTree → WrittenType
  | .node .named segments =>
    .reference (writtenText segments) (lineOf segments) (erasedName segments)
  | .node .primitive leaves => .primitive (writtenText leaves) (lineOf leaves)
  | .node .void leaves => .void (writtenText leaves) (lineOf leaves)
  | tree => .other (writtenText [tree]) (lineOf [tree])

/-- A type from the trees that spell it: annotations, a type, and dimensions if it is an array. -/
def writtenType : List JavaTree → WrittenType
  | .node .annotationUse _ :: rest => writtenType rest
  | [simple] => simpleType simple
  | [simple, .node .dimensions dimensions] =>
    let spelled := [simple, .node .dimensions dimensions]
    .array (writtenText spelled) (lineOf spelled) (simpleType simple)
  | trees => .other (writtenText trees) (lineOf trees)

def typeIn (trees : List JavaTree) : WrittenType :=
  writtenType ((ParseTree.firstLabelled .typeUse trees).getD [])

def typesUnder (label : Part) (trees : List JavaTree) : List WrittenType :=
  (ParseTree.allLabelled .typeUse ((ParseTree.firstLabelled label trees).getD [])).map writtenType

/-- The name of a parameter, which stands in a declarator if the parameter takes any number of values. -/
def parameterName (trees : List JavaTree) : String :=
  nameIn ((ParseTree.firstLabelled .declarator trees).getD trees)

def parametersIn (trees : List JavaTree) : List Parameter :=
  let listed := (ParseTree.firstLabelled .parameters trees).getD []
  (ParseTree.allLabelled .parameter listed).map fun parts =>
    { name := parameterName parts, type := typeIn parts }

def variablesIn (trees : List JavaTree) : List String :=
  (ParseTree.allLabelled .declarator trees).map nameIn

/-! ## Nodes -/

def kindOf : Part → Option TypeKind
  | .classType => some .classType
  | .interfaceType => some .interfaceType
  | .enumType => some .enumType
  | .recordType => some .recordType
  | .annotationType => some .annotationType
  | _ => none

def packageNode (trees : List JavaTree) : Node :=
  .package (qualifiedNameIn trees) (lineOf trees)

def importNode (trees : List JavaTree) : Node :=
  .imported {
    name := qualifiedNameIn trees
    isStatic := trees.any (ParseTree.isLeaf (.word "static"))
    isWildcard := trees.any (ParseTree.isLeaf (.symbol "*"))
    line := lineOf trees }

/-- The head of the node that a declaration becomes, given the line it starts on and whether it stands
directly in the body of a type. -/
def declaredHead (start : Line) (nested : Bool) (label : Part) (trees : List JavaTree) :
    Option Head :=
  match label, kindOf label with
  | _, some kind =>
    some (.type {
      name := nameIn trees, kind, nested, line := start
      extended := typesUnder .extended trees
      implemented := typesUnder .implemented trees })
  | .field, none => some (.field (typeIn trees) (variablesIn trees) start)
  | .method, none => some (.method (nameIn trees) (typeIn trees) (parametersIn trees) start)
  | .constructor, none => some (.constructor (nameIn trees) (parametersIn trees) start)
  | _, none => none

def isTypeBody (label : Part) : Bool :=
  label == .typeBody

mutual

/-- The nodes that a tree adds to a unit. The tree may stand directly in the body of a type, and it may
belong to a declaration whose modifiers start on an earlier line. -/
def nodesOf (nested : Bool) (start : Option Line) : JavaTree → List Node
  | .leaf _ => []
  | .node .packageHeader trees => [packageNode trees]
  | .node .importHeader trees => [importNode trees]
  | .node .declaration trees => declaredNodes nested (lineOf trees) trees
  | .node .chain trees => chainNodes (lineOf trees) [] trees
  | .node .creation trees =>
    [.branch (.creation (typeIn trees) (lineOf trees)) (creationNodes false trees)]
  | .node label trees =>
    match start.bind fun line => declaredHead line nested label trees with
    | some head => [.branch head (partNodes trees)]
    | none => nodesOfAll (isTypeBody label) trees

def nodesOfAll (nested : Bool) : List JavaTree → List Node
  | [] => []
  | tree :: rest => nodesOf nested none tree ++ nodesOfAll nested rest

/-- The nodes of a declaration: its modifiers add none. -/
def declaredNodes (nested : Bool) (start : Line) : List JavaTree → List Node
  | [] => []
  | .node .modifiers _ :: rest => declaredNodes nested start rest
  | tree :: rest => nodesOf nested (some start) tree ++ declaredNodes nested start rest

/-- The nodes below a declaration: those of its body, or of the initial values of its variables. -/
def partNodes : List JavaTree → List Node
  | [] => []
  | .node .typeBody trees :: rest => nodesOfAll true trees ++ partNodes rest
  | .node .block trees :: rest => nodesOfAll false trees ++ partNodes rest
  | .node .declarator trees :: rest => initialNodes trees ++ partNodes rest
  | _ :: rest => partNodes rest

def initialNodes : List JavaTree → List Node
  | [] => []
  | .node .initialValue trees :: rest => nodesOfAll false trees ++ initialNodes rest
  | _ :: rest => initialNodes rest

/-- The nodes of a chain of links, given those found so far: an inner creation takes them as its own and
starts where the chain starts. -/
def chainNodes (start : Line) (found : List Node) : List JavaTree → List Node
  | [] => found
  | .node .innerCreation trees :: rest =>
    chainNodes start
      [.branch (.creation (typeIn trees) start) (found ++ creationNodes false trees)] rest
  | tree :: rest => chainNodes start (found ++ nodesOf false none tree) rest

/-- The nodes below a creation, from all its parts but the type it names and type arguments before it. -/
def creationNodes (typeSeen : Bool) : List JavaTree → List Node
  | [] => []
  | .node .typeUse trees :: rest =>
    if typeSeen then nodesOfAll false trees ++ creationNodes true rest else creationNodes true rest
  | .node .typeArguments trees :: rest =>
    if typeSeen then nodesOfAll false trees ++ creationNodes true rest
    else creationNodes typeSeen rest
  | tree :: rest => nodesOf false none tree ++ creationNodes typeSeen rest

end

/-- The unit that the trees of a whole source make up. -/
def ofTrees (trees : List JavaTree) : SourceUnit :=
  ⟨nodesOfAll false trees⟩

/-- The unit that a source text declares; none if the text is not well formed. -/
def parse? (source : String) : Option SourceUnit := do
  let tokens ← scan source.toList
  let trees ← javaGrammar.parse? tokens
  return ofTrees trees

end JavaAtlas.SourceUnit

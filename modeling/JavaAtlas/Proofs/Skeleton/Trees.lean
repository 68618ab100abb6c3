import JavaAtlas.Proofs.Skeleton.Printing
import JavaAtlas.SourceUnit.OfTrees

/-!
# The trees of printed skeletons

The syntax trees that the printed form of a skeleton has, token by token: the gap in front of each is empty, a blank, or
the line feed that opens a line, and no line but the last of a declaration is left open. Every function here has a line
to put its tokens on and, where it may matter, the gap in front of the first of them.
-/

namespace JavaAtlas.Skeleton

open JavaAtlas.Syntax JavaAtlas.SourceUnit

/-! ### Tokens and lists -/

def wordToken (gap : List Char) (line : Nat) (spelling : String) : Token :=
  ⟨.word spelling, gap, spelling.toList, line⟩

def symbolToken (gap : List Char) (line : Nat) (spelling : String) : Token :=
  ⟨.symbol spelling, gap, spelling.toList, line⟩

def wordLeaf (gap : List Char) (line : Nat) (spelling : String) : JavaTree :=
  .leaf (wordToken gap line spelling)

def symbolLeaf (gap : List Char) (line : Nat) (spelling : String) : JavaTree :=
  .leaf (symbolToken gap line spelling)

/-- The trees of some items, each behind a mark. -/
def markedTrees {α : Type} (mark : JavaTree) (treeOf : α → JavaTree) (items : List α) : List JavaTree :=
  items.flatMap fun item => [mark, treeOf item]

/-- The trees of some items with commas between, and a blank behind each comma. -/
def commaTrees {α : Type} (line : Nat) (treeOf : List Char → α → JavaTree) (gap : List Char) : List α → List JavaTree
  | [] => []
  | first :: rest => treeOf gap first :: markedTrees (symbolLeaf [] line ",") (treeOf [' ']) rest

/-! ### Names and types -/

def Name.tree (line : Nat) (gap : List Char) (name : Name) : JavaTree :=
  .node .name [wordLeaf gap line name.text]

def Name.leaf (line : Nat) (gap : List Char) (name : Name) : JavaTree :=
  wordLeaf gap line name.text

def Dotted.parts (line : Nat) (treeOf : List Char → Name → JavaTree) (gap : List Char) (name : Dotted) : List JavaTree :=
  treeOf gap name.first :: markedTrees (symbolLeaf [] line ".") (treeOf []) name.rest

/-- A dotted name in a header. -/
def Dotted.qualifiedTree (line : Nat) (gap : List Char) (name : Dotted) : JavaTree :=
  .node .qualifiedName (name.parts line (Name.leaf line) gap)

/-- A dotted name that stands for a type. -/
def Dotted.typeTree (line : Nat) (gap : List Char) (name : Dotted) : JavaTree :=
  .node .named (name.parts line (Name.tree line) gap)

/-- A dotted name where a type is used. -/
def Dotted.useTree (line : Nat) (gap : List Char) (name : Dotted) : JavaTree :=
  .node .typeUse [name.typeTree line gap]

def Base.tree (line : Nat) (gap : List Char) : Base → JavaTree
  | .named name => name.typeTree line gap
  | .primitive word _ => .node .primitive [wordLeaf gap line word]

def dimensionTrees (line : Nat) : Nat → List JavaTree
  | 0 => []
  | n + 1 =>
    [.node .dimensions ((List.replicate (n + 1) ()).flatMap fun _ => [symbolLeaf [] line "[", symbolLeaf [] line "]"])]

def TypeForm.tree (line : Nat) (gap : List Char) (type : TypeForm) : JavaTree :=
  .node .typeUse (type.base.tree line gap :: dimensionTrees line type.dimensions)

def resultTree (line : Nat) (gap : List Char) : Option TypeForm → JavaTree
  | none => .node .typeUse [.node .void [wordLeaf gap line "void"]]
  | some type => type.tree line gap

/-! ### Parts of declarations -/

def declaratorTree (line : Nat) (gap : List Char) (name : Name) : JavaTree :=
  .node .declarator [name.tree line gap]

def ParameterForm.tree (line : Nat) (gap : List Char) (parameter : ParameterForm) : JavaTree :=
  .node .parameter [parameter.type.tree line gap, parameter.name.tree line [' ']]

def parametersTree (line : Nat) (parameters : List ParameterForm) : JavaTree :=
  .node .parameters
    (symbolLeaf [] line "(" :: (commaTrees line (ParameterForm.tree line) [] parameters ++ [symbolLeaf [] line ")"]))

/-- The chain of links that is a single instantiation with the given arguments. -/
def creationTree (line : Nat) (gap : List Char) (type : Dotted) (arguments : List JavaTree) : JavaTree :=
  .node .chain
    [.node .creation
      (wordLeaf gap line "new" :: type.useTree line [' '] :: symbolLeaf [] line "(" ::
        (arguments ++ [symbolLeaf [] line ")"]))]

/-- A tree at its place, behind a gap. -/
def placed (gap : List Char) (treeOf : List Char → JavaTree) : JavaTree :=
  treeOf gap

/-- The chains of some instantiations on one line, each given the gap in front of it. -/
def Creations.chains (line : Nat) : Creations → List (List Char → JavaTree)
  | .none => []
  | .new type arguments rest =>
    (creationTree line · type (commaTrees line placed [] (arguments.chains line))) ::
      rest.chains line

def argumentTrees (line : Nat) (arguments : Creations) : List JavaTree :=
  commaTrees line placed [] (arguments.chains line)

/-- Instantiations as statements, each on a line of its own. -/
def Creations.statements (line : Nat) : Creations → List JavaTree
  | .none => []
  | .new type arguments rest =>
    creationTree line ['\n'] type (argumentTrees line arguments) :: symbolLeaf [] line ";" :: rest.statements (line + 1)

/-- A block that opens on one line and closes on a later one. -/
def blockTree (label : Part) (line last : Nat) (inside : List JavaTree) : JavaTree :=
  .node label (symbolLeaf [' '] line "\x7b" :: (inside ++ [symbolLeaf ['\n'] last "\x7d"]))

def bodyTree (line : Nat) (body : Creations) : JavaTree :=
  blockTree .block line (line + 1 + body.lines.length) (body.statements (line + 1))

/-- The end of a method: a body, or a semicolon in place of one. -/
def methodEnd (line : Nat) : Option Creations → JavaTree
  | none => symbolLeaf [] line ";"
  | some body => bodyTree line body

def clauseTrees (label : Part) (word : String) (line : Nat) : List Dotted → List JavaTree
  | [] => []
  | types => [.node label (wordLeaf [' '] line word :: commaTrees line (Dotted.useTree line) [' '] types)]

def Header.label : Header → Part
  | .classType .. => .classType
  | .interfaceType .. => .interfaceType

def Header.trees (line : Nat) (gap : List Char) : Header → List JavaTree
  | .classType name extended implemented =>
    wordLeaf gap line "class" :: name.tree line [' '] ::
      (clauseTrees .extended "extends" line extended.toList ++ clauseTrees .implemented "implements" line implemented)
  | .interfaceType name extended =>
    wordLeaf gap line "interface" :: name.tree line [' '] :: clauseTrees .extended "extends" line extended

/-! ### Declarations -/

def declarationTree (label : Part) (parts : List JavaTree) : JavaTree :=
  .node .declaration [.node label parts]

/-- The declaration of a type whose members are printed on the given number of lines. -/
def typeTree (line : Nat) (gap : List Char) (header : Header) (height : Nat) (members : List JavaTree) : JavaTree :=
  declarationTree header.label
    (header.trees line gap ++ [blockTree .typeBody line (line + 1 + height) members])

def Members.trees {isClass : Bool} (line : Nat) : Members isClass → List JavaTree
  | .none => []
  | .field type first others rest =>
    declarationTree .field
      (type.tree line ['\n'] ::
        (commaTrees line (declaratorTree line) [' '] (first :: others) ++ [symbolLeaf [] line ";"])) ::
      rest.trees (line + 1)
  | .method result name parameters body rest =>
    declarationTree .method
      [resultTree line ['\n'] result, name.tree line [' '], parametersTree line parameters, methodEnd line body] ::
      rest.trees (line + (methodLines (resultText result ++ " " ++ signature name parameters) body).length)
  | .constructor name parameters body rest =>
    declarationTree .constructor [name.tree line ['\n'], parametersTree line parameters, bodyTree line body] ::
      rest.trees (line + (blockLines (signature name parameters) body.lines).length)
  | .nested header inside rest =>
    typeTree line ['\n'] header inside.lines.length (inside.trees (line + 1)) ::
      rest.trees (line + (blockLines header.text inside.lines).length)

/-! ### The top of a source -/

def Item.tree (line : Nat) (gap : List Char) : Item → JavaTree
  | .package name =>
    .node .packageHeader [wordLeaf gap line "package", name.qualifiedTree line [' '], symbolLeaf [] line ";"]
  | .imported item =>
    .node .importHeader
      (wordLeaf gap line "import" ::
        ((if item.isStatic then [wordLeaf [' '] line "static"] else []) ++
          (item.name.qualifiedTree line [' '] ::
            ((if item.isWildcard then [symbolLeaf [] line ".", symbolLeaf [] line "*"] else []) ++
              [symbolLeaf [] line ";"]))))
  | .type header members => typeTree line gap header members.lines.length (members.trees (line + 1))

/-- The trees of some items from a line on. The gap is that of the first; the others open lines of their own. -/
def itemTrees (line : Nat) (gap : List Char) : List Item → List JavaTree
  | [] => []
  | item :: rest => item.tree line gap :: itemTrees (line + item.lines.length) ['\n'] rest

def trees (skeleton : Skeleton) : List JavaTree :=
  itemTrees 1 [] skeleton.items

end JavaAtlas.Skeleton

import JavaAtlas.SourceUnit
import JavaAtlas.Primitive

/-!
# The declaration language and its printed form

Source units as a generator of Java sources has them before there is any text: a package, imports, and type declarations
with fields, methods, constructors and nested types, whose bodies do nothing but create objects. A skeleton can be
printed, with one declaration or statement on a line, and it says which unit the printed text stands for: each node is
on the line it is printed on.

The types keep out what is no Java: names are identifiers and no keywords of any kind, a class extends one type at most,
and an interface has no constructors.
-/

namespace JavaAtlas

namespace Skeleton

/-! ### Names -/

/-- The keywords of Java, with the literals that are spelled like names. -/
def keywords : List String :=
  ["abstract", "assert", "boolean", "break", "byte", "case", "catch", "char", "class", "const", "continue", "default",
    "do", "double", "else", "enum", "extends", "final", "finally", "float", "for", "goto", "if", "implements", "import",
    "instanceof", "int", "interface", "long", "native", "new", "package", "private", "protected", "public", "return",
    "short", "static", "strictfp", "super", "switch", "synchronized", "this", "throw", "throws", "transient", "try",
    "void", "volatile", "while", "_", "true", "false", "null"]

/-- The words that are keywords in some places. -/
def contextualKeywords : List String :=
  ["exports", "module", "non-sealed", "open", "opens", "permits", "provides", "record", "requires", "sealed", "to",
    "transitive", "uses", "var", "when", "with", "yield"]

def reservedWords : List String :=
  keywords ++ contextualKeywords

def isNameStart (c : Char) : Bool :=
  c.isAlpha || c == '_' || c == '$'

def isNamePart (c : Char) : Bool :=
  isNameStart c || c.isDigit

/-- Whether a text is an ASCII identifier. -/
def isName : List Char → Bool
  | [] => false
  | first :: rest => isNameStart first && rest.all isNamePart

/-- A name: an ASCII identifier that is no keyword. -/
structure Name where
  text : String
  isName : isName text.toList = true
  unreserved : text ∉ reservedWords

/-- A sequence of names with points between. -/
structure Dotted where
  first : Name
  rest : List Name

def Dotted.text (name : Dotted) : String :=
  ".".intercalate (name.first.text :: name.rest.map Name.text)

/-! ### Types -/

/-- A type that is no array. -/
inductive Base where
  | named (name : Dotted)
  | primitive (word : String) (known : word ∈ primitiveTypes)

def Base.text : Base → String
  | .named name => name.text
  | .primitive word _ => word

structure TypeForm where
  base : Base
  dimensions : Nat

def TypeForm.text (type : TypeForm) : String :=
  type.base.text ++ String.join (List.replicate type.dimensions "[]")

/-- The text of a result type, `void` for none. -/
def resultText : Option TypeForm → String
  | none => "void"
  | some type => type.text

/-! ### Declarations -/

/-- An import of a name, or of everything below it. -/
structure ImportForm where
  name : Dotted
  isStatic : Bool
  isWildcard : Bool

structure ParameterForm where
  type : TypeForm
  name : Name

/-- Instantiations, one after the other: each with the type it creates and the instantiations that are its arguments. -/
inductive Creations where
  | none
  | new (type : Dotted) (arguments rest : Creations)

/-- The head of a class, which may extend one type and implement any, or of an interface, which may extend any. -/
inductive Header where
  | classType (name : Name) (extended : Option Dotted) (implemented : List Dotted)
  | interfaceType (name : Name) (extended : List Dotted)

def Header.isClass : Header → Bool
  | .classType .. => true
  | .interfaceType .. => false

/-- The members of a class or of an interface, one after the other. -/
inductive Members : Bool → Type where
  | none {isClass : Bool} : Members isClass
  | field {isClass : Bool} (type : TypeForm) (first : Name) (others : List Name) (rest : Members isClass) :
      Members isClass
  | method {isClass : Bool} (result : Option TypeForm) (name : Name) (parameters : List ParameterForm)
      (body : Option Creations) (rest : Members isClass) : Members isClass
  | constructor (name : Name) (parameters : List ParameterForm) (body : Creations) (rest : Members true) : Members true
  | nested {isClass : Bool} (header : Header) (inside : Members header.isClass) (rest : Members isClass) :
      Members isClass

structure TypeDeclaration where
  header : Header
  members : Members header.isClass

/-! ### The printed form -/

def separated (parts : List String) : String :=
  ", ".intercalate parts

/-- A word and the types it introduces, or nothing if there are none. -/
def clause (word : String) : List Dotted → String
  | [] => ""
  | types => " " ++ word ++ " " ++ separated (types.map Dotted.text)

def ImportForm.text (item : ImportForm) : String :=
  "import " ++ (if item.isStatic then "static " else "") ++ item.name.text ++
    (if item.isWildcard then ".*" else "") ++ ";"

def ParameterForm.text (parameter : ParameterForm) : String :=
  parameter.type.text ++ " " ++ parameter.name.text

def signature (name : Name) (parameters : List ParameterForm) : String :=
  name.text ++ "(" ++ separated (parameters.map ParameterForm.text) ++ ")"

def fieldText (type : TypeForm) (names : List Name) : String :=
  type.text ++ " " ++ separated (names.map Name.text) ++ ";"

def Header.text : Header → String
  | .classType name extended implemented =>
    "class " ++ name.text ++ clause "extends" extended.toList ++ clause "implements" implemented
  | .interfaceType name extended => "interface " ++ name.text ++ clause "extends" extended

def Creations.texts : Creations → List String
  | .none => []
  | .new type arguments rest => ("new " ++ type.text ++ "(" ++ separated arguments.texts ++ ")") :: rest.texts

/-- The lines of a block that follows a text on its first line. -/
def blockLines (front : String) (inside : List String) : List String :=
  [front ++ " \x7b"] ++ inside ++ ["\x7d"]

def Creations.lines (creations : Creations) : List String :=
  creations.texts.map (· ++ ";")

/-- The lines of a method; without a body it ends at its head. -/
def methodLines (front : String) : Option Creations → List String
  | none => [front ++ ";"]
  | some body => blockLines front body.lines

def Members.lines {isClass : Bool} : Members isClass → List String
  | .none => []
  | .field type first others rest => fieldText type (first :: others) :: rest.lines
  | .method result name parameters body rest =>
    methodLines (resultText result ++ " " ++ signature name parameters) body ++ rest.lines
  | .constructor name parameters body rest => blockLines (signature name parameters) body.lines ++ rest.lines
  | .nested header inside rest => blockLines header.text inside.lines ++ rest.lines

inductive Item where
  | package (name : Dotted)
  | imported (item : ImportForm)
  | type (header : Header) (members : Members header.isClass)

def Item.lines : Item → List String
  | .package name => ["package " ++ name.text ++ ";"]
  | .imported item => [item.text]
  | .type header members => blockLines header.text members.lines

end Skeleton

/-- A source unit before it is printed: a package or none, imports, and types. -/
structure Skeleton where
  package : Option Skeleton.Dotted
  imports : List Skeleton.ImportForm
  types : List Skeleton.TypeDeclaration

namespace Skeleton

def items (skeleton : Skeleton) : List Item :=
  skeleton.package.toList.map .package ++ skeleton.imports.map .imported ++
    skeleton.types.map fun type => .type type.header type.members

def lines (skeleton : Skeleton) : List String :=
  skeleton.items.flatMap Item.lines

/-- **The printed form**: its lines, each with a line feed at its end. -/
def text (skeleton : Skeleton) : String :=
  String.join (skeleton.lines.map (· ++ "\n"))

/-! ### The unit

A line counts the lines that are printed before it. -/

def lineNumber (line : Nat) : Line :=
  UInt32.ofNat line

/-- A reference to a type as a unit has it. -/
def Dotted.written (line : Nat) (name : Dotted) : WrittenType :=
  .reference name.text (lineNumber line) name.text

def Base.written (line : Nat) : Base → WrittenType
  | .named name => name.written line
  | .primitive word _ => .primitive word (lineNumber line)

def TypeForm.written (line : Nat) (type : TypeForm) : WrittenType :=
  match type.dimensions with
  | 0 => type.base.written line
  | _ + 1 => .array type.text (lineNumber line) (type.base.written line)

def writtenResult (line : Nat) : Option TypeForm → WrittenType
  | none => .void "void" (lineNumber line)
  | some type => type.written line

def ParameterForm.unit (line : Nat) (parameter : ParameterForm) : Parameter where
  name := parameter.name.text
  type := parameter.type.written line

/-- The nodes of instantiations that stand on one line, as arguments do. -/
def Creations.nodesOn (line : Nat) : Creations → List Node
  | .none => []
  | .new type arguments rest =>
    .branch (.creation (type.written line) (lineNumber line)) (arguments.nodesOn line) :: rest.nodesOn line

/-- The nodes of instantiations that stand on successive lines, as statements do. -/
def Creations.nodesFrom (line : Nat) : Creations → List Node
  | .none => []
  | .new type arguments rest =>
    .branch (.creation (type.written line) (lineNumber line)) (arguments.nodesOn line) :: rest.nodesFrom (line + 1)

def Header.unit (line : Nat) (nested : Bool) : Header → TypeHeader
  | .classType name extended implemented => {
      name := name.text, kind := .classType, nested, line := lineNumber line
      extended := extended.toList.map (Dotted.written line)
      implemented := implemented.map (Dotted.written line) }
  | .interfaceType name extended => {
      name := name.text, kind := .interfaceType, nested, line := lineNumber line
      extended := extended.map (Dotted.written line)
      implemented := [] }

def bodyNodes (line : Nat) : Option Creations → List Node
  | none => []
  | some body => body.nodesFrom line

/-- The nodes of members that are printed from a line on. -/
def Members.nodes {isClass : Bool} (line : Nat) : Members isClass → List Node
  | .none => []
  | .field type first others rest =>
    .branch (.field (type.written line) ((first :: others).map Name.text) (lineNumber line)) [] :: rest.nodes (line + 1)
  | .method result name parameters body rest =>
    .branch (.method name.text (writtenResult line result) (parameters.map (ParameterForm.unit line)) (lineNumber line))
        (bodyNodes (line + 1) body) ::
      rest.nodes (line + (methodLines (resultText result ++ " " ++ signature name parameters) body).length)
  | .constructor name parameters body rest =>
    .branch (.constructor name.text (parameters.map (ParameterForm.unit line)) (lineNumber line))
        (body.nodesFrom (line + 1)) ::
      rest.nodes (line + (blockLines (signature name parameters) body.lines).length)
  | .nested header inside rest =>
    .branch (.type (header.unit line true)) (inside.nodes (line + 1)) ::
      rest.nodes (line + (blockLines header.text inside.lines).length)

def Item.node (line : Nat) : Item → Node
  | .package name => .package name.text (lineNumber line)
  | .imported item =>
    .imported {
      name := item.name.text, isStatic := item.isStatic, isWildcard := item.isWildcard, line := lineNumber line }
  | .type header members => .branch (.type (header.unit line false)) (members.nodes (line + 1))

/-- The nodes of items that are printed from a line on. -/
def nodesFrom (line : Nat) : List Item → List Node
  | [] => []
  | item :: rest => item.node line :: nodesFrom (line + item.lines.length) rest

/-- **The unit that the printed form stands for.** -/
def unit (skeleton : Skeleton) : SourceUnit where
  nodes := nodesFrom 1 skeleton.items

end Skeleton

end JavaAtlas

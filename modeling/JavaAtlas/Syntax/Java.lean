import JavaAtlas.Primitive
import JavaAtlas.Syntax.Pattern

/-!
# The grammar of Java

The form of Java source, with no check of what it means: any type may be extended or created, statements
and methods may stand at the top level, and declarations wherever a statement may. Whether a word is a
keyword depends on the place, so every place that takes a name says which words it leaves out, and a
word that no rule wants at a place is a name there. What opens with `@interface` is likewise an annotation
except where a type may be declared.

Where two readings of one text are possible (a declaration or a comparison, a cast or a bracketed
operand) the rules try the one whose failure shows soonest, and the trees differ in nothing that is read
off them afterwards. A chain of links such as `a.b(c)[d]` is kept flat: an inner creation in it takes all
that stands before it as its own.
-/

namespace JavaAtlas.Syntax

/-- The parts of speech that a syntax tree of Java source marks. -/
inductive Part where
  | packageHeader
  | importHeader
  | qualifiedName
  | declaration
  | modifiers
  | annotationUse
  | name
  | classType
  | interfaceType
  | enumType
  | recordType
  | annotationType
  | extended
  | implemented
  | typeBody
  | enumConstant
  | annotationElement
  | typeParameters
  | field
  | method
  | constructor
  | declarator
  | initialValue
  | parameters
  | parameter
  | block
  | chain
  | creation
  | innerCreation
  | typeUse
  | primitive
  | void
  | named
  | dimensions
  | typeArguments
deriving DecidableEq, Repr, Inhabited

/-- The rules of the grammar. An expression comes in two kinds: the label of a switch rule ends at an arrow,
so inside it a lambda must be bracketed. So do modifiers: some stand where a type may be declared. -/
inductive Construct where
  | sourceFile
  | topLevel
  | statement
  | block
  | packageHeader
  | importHeader
  | moduleHeader
  | directive
  | qualifiedName
  | modifiers (beforeTypes : Bool)
  | annotationUse
  | elementValue
  | typeDeclaration
  | classBody
  | classMember
  | interfaceBody
  | enumBody
  | annotationBody
  | typeParameters
  | typeArguments
  | typeUse
  | plainType
  | simpleType
  | dimensions
  | field
  | method
  | constructor
  | constructorCall
  | parameters
  | parameter
  | declarator
  | declarators (beforeTypes : Bool)
  | initialValue
  | arrayValues
  | throwsList
  | resource
  | memberLinks
  | tryStatement
  | forHeader
  | switchConstruct
  | switchLabel
  | recordPattern
  | expression (arrows : Bool)
  | operation (arrows : Bool)
  | operand (arrows : Bool)
  | lambda
  | chain (arrows : Bool)
  | links (arrows : Bool)
  | placeLinks (arrows : Bool)
  | callLink
  | typeHead
  | creation
  | arguments
  | text
  | binaryOperator
  | assignmentOperator
deriving DecidableEq, Repr

namespace Construct

open Pattern

abbrev JavaPattern := Pattern Construct Part

/-! ## Words -/

def modifierWords : List String :=
  ["public", "protected", "private", "abstract", "static", "final", "strictfp", "default",
    "synchronized", "native", "transient", "volatile", "sealed"]

def declarationWords : List String :=
  ["class", "interface", "enum", "record"]

/-- The words that, at the head of a statement, never open an expression. -/
def statementWords : List String :=
  ["assert", "break", "class", "continue", "default", "do", "enum", "final", "for", "if", "import",
    "interface", "package", "private", "protected", "public", "return", "static", "strictfp",
    "synchronized", "throw", "transient", "try", "volatile", "while", "abstract", "native"]

/-- The words that open an operand of their own kind. -/
def operandWords : List String :=
  ["new", "this", "super", "switch", "true", "false", "null"]

def simpleTypeWords : List String :=
  "void" :: primitiveTypes

/-- The words that do not name a variable or a method where an operand is expected. -/
def notAnOperandName : List String :=
  operandWords ++ simpleTypeWords

/-- The words that name variables and methods but, where either may stand, no types. -/
def variableWords : List String :=
  ["record", "sealed", "open", "module", "with", "yield"]

/-- The words that do not name a type where a statement is expected. -/
def notATypeName : List String :=
  statementWords ++ operandWords ++ variableWords

/-- The words that open a parameter of a lambda and so no bracketed operand. -/
def parameterWords : List String :=
  modifierWords.erase "sealed"

/-- The words that do not name the type of a cast. -/
def notACastType : List String :=
  operandWords ++ variableWords ++ parameterWords

/-- The words that name no member of a value. -/
def notAMemberName : List String :=
  ["new", "this", "super"]

/-! ## Small patterns -/

def named (except : List String) : JavaPattern :=
  .node .name (name except)

def bracketed (p : JavaPattern) : JavaPattern :=
  all [symbol "(", p, symbol ")"]

def braced (p : JavaPattern) : JavaPattern :=
  all [symbol "\x7b", p, symbol "\x7d"]

def annotations : JavaPattern :=
  .many (.rule .annotationUse)

/-- What declares an annotation type, wherever a type may be declared. -/
def annotationTypeSign : JavaPattern :=
  all [symbol "@", .token true (.starting "interface")]

/-- An annotation where a type may be declared. -/
def annotationBeforeType : JavaPattern :=
  all [.unless annotationTypeSign, .rule .annotationUse]

/-- The modifiers of a declaration or none, kept apart from the rest of it. -/
def heldModifiers (beforeTypes : Bool) : JavaPattern :=
  optional (.node .modifiers (.rule (.modifiers beforeTypes)))

/-- Passes over the modifiers of a declaration that stands among statements and refuses what cannot be
its type. A word that opens a statement is a name again behind a modifier, unless it opens a type. -/
def beforeLocalType (modifiers : JavaPattern) : JavaPattern :=
  all [.unless (all [.many annotationBeforeType, oneWord ["package", "open", "module"]]),
    any [all [modifiers, .unless (oneWord declarationWords)], .unless (oneWord notATypeName)]]

/-- Passes over the modifiers of a variable that is declared in brackets. Without any, what opens an
operand is no type. -/
def beforeBracketedType : JavaPattern :=
  any [.rule (.modifiers false), .unless (oneWord (operandWords ++ variableWords))]

def condition : JavaPattern :=
  bracketed (.rule (.expression true))

/-- Types after a word, with commas between. -/
def typesAfter (introduced : String) : JavaPattern :=
  all [word introduced, list (.rule .typeUse)]

def implementedTypes : JavaPattern :=
  optional (.node .implemented (typesAfter "implements"))

def permittedTypes : JavaPattern :=
  optional (typesAfter "permits")

/-- What opens an operand other than by a sign. -/
def operandOpening : JavaPattern :=
  any [all [.unless (word "instanceof"), name []], .token false (.exactly .literal),
    .token false (.exactly .text), .token false (.exactly .textOpening), symbol "(", symbol "!",
    symbol "~", symbol "@"]

/-- The signs behind an operand that step it up or down. -/
def updates : JavaPattern :=
  .many (any [symbol "++", symbol "--"])

/-- The type of a cast, or the first of several. -/
def castType : JavaPattern :=
  all [.unless (oneWord notACastType), .rule .typeUse]

/-- What may follow a type in brackets only if that type is a cast. -/
def castOperandOpening : JavaPattern :=
  any [operandOpening, all [any [symbol "++", symbol "--"], operandOpening]]

/-- A simple type. Some words may be left out of the names that stand behind a point. -/
def simpleTypeBody (exceptBehindPoint : List String) : JavaPattern :=
  any [
    .node .primitive (oneWord primitiveTypes),
    .node .void (word "void"),
    .node .named (all [named simpleTypeWords, optional (.rule .typeArguments),
      .many (all [symbol ".", annotations, named exceptBehindPoint,
        optional (.rule .typeArguments)])])]

/-- The type of a record pattern: a single name, or any type that ends in type arguments. -/
def recordPatternType : JavaPattern :=
  let arguments := all [.many (all [symbol ".", annotations, name []]), .rule .typeArguments]
  any [all [name simpleTypeWords, ahead (symbol "(")],
    all [name simpleTypeWords, arguments, .many (all [symbol ".", annotations, name [], arguments])]]

/-- A pattern with a type and a name, as it stands after `case`. -/
def typedPattern : JavaPattern :=
  all [.unless (oneWord variableWords), .rule .plainType, name ["when", "instanceof"]]

def resourceEnd : JavaPattern :=
  any [symbol ";", symbol ")"]

/-- What ends the pattern of a switch label. -/
def labelEnd : JavaPattern :=
  any [symbol "->", symbol ":", symbol ",", word "when"]

/-- The part of a creation between `new` and the type. -/
def creationPreamble : JavaPattern :=
  all [annotations, optional (all [.rule .typeArguments, annotations])]

def createdType : JavaPattern :=
  .node .typeUse (.rule .simpleType)

def objectCreation : JavaPattern :=
  all [word "new", creationPreamble, createdType, .rule .arguments, optional (.rule .classBody)]

/-- The creation of an array: with the length of some dimensions, or with all its values. -/
def arrayCreation : JavaPattern :=
  all [word "new", annotations, createdType,
    any [
      all [atLeastOne (all [annotations, symbol "[", .rule (.expression true), symbol "]"]),
        optional (all [.rule .dimensions, .unless (symbol "[")])],
      all [.rule .dimensions, .rule .arrayValues]]]

/-! ## The pattern of each rule -/

/-- Type declarations, each under the label of its kind. -/
def typeDeclarationBody : JavaPattern :=
  any [
    .node .classType (all [word "class", named [], optional (.rule .typeParameters),
      optional (.node .extended (all [word "extends", .rule .typeUse])), implementedTypes,
      permittedTypes, .rule .classBody]),
    .node .interfaceType (all [word "interface", named [], optional (.rule .typeParameters),
      optional (.node .extended (typesAfter "extends")), permittedTypes, .rule .interfaceBody]),
    .node .enumType (all [word "enum", named [], implementedTypes, .rule .enumBody]),
    .node .recordType (all [word "record", named [], optional (.rule .typeParameters),
      .rule .parameters, implementedTypes, .rule .classBody]),
    .node .annotationType (all [symbol "@", .token true (.word ["interface"]), named [],
      .rule .annotationBody])]

/-- The declarations that a class body holds, after their modifiers. -/
def memberDeclaration : JavaPattern :=
  any [.rule .typeDeclaration,
    all [.unless (oneWord declarationWords),
      any [.rule .constructor, .rule .field, .rule .method]]]

def statementBody : JavaPattern :=
  any [
    symbol ";",
    .rule .block,
    .rule .packageHeader,
    .rule .importHeader,
    .rule .moduleHeader,
    all [word "if", condition, .rule .statement,
      any [all [word "else", .rule .statement], .unless (word "else")]],
    all [word "while", condition, .rule .statement],
    all [word "do", .rule .statement, word "while", condition, symbol ";"],
    all [word "for", bracketed (.rule .forHeader), .rule .statement],
    all [oneWord ["break", "continue"], optional (name []), symbol ";"],
    all [word "return", optional (.rule (.expression true)), symbol ";"],
    all [word "throw", .rule (.expression true), symbol ";"],
    all [word "assert", .rule (.expression true),
      optional (all [symbol ":", .rule (.expression true)]), symbol ";"],
    all [word "synchronized", condition, .rule .block],
    .rule .tryStatement,
    all [.rule .switchConstruct,
      optional (all [updates, .many (.rule (.operation true)), symbol ";"])],
    all [word "yield", .rule (.expression true), symbol ";"],
    all [name (notATypeName ++ simpleTypeWords), symbol ":", .rule .statement],
    .node .declaration (all [heldModifiers true, .rule .typeDeclaration]),
    .rule (.declarators true),
    all [.unless (oneWord ("switch" :: statementWords)), .unless annotationTypeSign,
      .rule (.expression true), symbol ";"]]

/-- The operands of operators. A cast is told by what follows it; where that could as well continue a
bracketed operand, the bracketed operand is tried first. -/
def operandBody (arrows : Bool) : JavaPattern :=
  let lambda := if arrows then [.rule .lambda] else []
  all [
    any (lambda ++ [
      all [bracketed castType, ahead castOperandOpening, .rule (.operand arrows)],
      all [bracketed (all [castType, atLeastOne (all [symbol "&", .rule .typeUse])]),
        ahead operandOpening, any (lambda ++ [.rule (.chain arrows)])],
      all [any (["+", "-", "!", "~", "++", "--"].map symbol), .rule (.operand arrows)],
      .rule .switchConstruct,
      .rule (.chain arrows),
      all [bracketed castType, .rule (.operand arrows)]]),
    updates]

/-- What a chain of links may start from, other than a variable. -/
def valueHead : JavaPattern :=
  any [
    .rule .typeHead,
    all [word "super", ahead (any [symbol ".", symbol "::"])],
    all [name notAnOperandName, .rule .arguments],
    .token false (.exactly .literal),
    .rule .text,
    oneWord ["this", "true", "false", "null"],
    bracketed (all [.unless (oneWord parameterWords), .rule (.expression true)]),
    .rule .creation]

/-- The chains of links, by what they start from. A name or a link to a variable may be assigned to. -/
def chainBody (arrows : Bool) : JavaPattern :=
  .node .chain (any [
    all [valueHead, .rule (.links arrows)],
    all [name notAnOperandName, .rule (.placeLinks arrows)]])

/-- A link from a value to a member of it. -/
def memberLink : JavaPattern :=
  any [
    all [symbol ".", word "super", symbol ".", name []],
    all [symbol ".", any [word "this", name notAMemberName]]]

/-- A link from a value to a variable: a member, or an element of an array. -/
def placeLink : JavaPattern :=
  any [memberLink, all [symbol "[", .rule (.expression true), symbol "]"]]

/-- A resource that is declared before: a name, or a chain whose last link is to a member. -/
def namedResource : JavaPattern :=
  .node .chain (any [
    all [name (notAnOperandName ++ variableWords ++ parameterWords), ahead resourceEnd],
    all [name notAnOperandName, .rule .memberLinks],
    all [valueHead, .rule .memberLinks]])

/-- The labels and the statements of a switch: either rules with arrows, or groups with colons. -/
def switchBody : JavaPattern :=
  all [word "switch", condition, braced (any [
    atLeastOne (all [.rule .switchLabel, symbol "->",
      any [.rule .block, all [word "throw", .rule (.expression true), symbol ";"],
        all [.unless (word "throw"), .rule (.expression true), symbol ";"]]]),
    .many (all [atLeastOne (all [.rule .switchLabel, symbol ":"]),
      .many (all [.unless (word "case"), .rule .statement])])])]

def body : Construct → JavaPattern
  | sourceFile => .many (.rule .topLevel)
  | topLevel =>
    any [
      .node .declaration (any [all [heldModifiers true, .rule .typeDeclaration],
        all [beforeLocalType (.node .modifiers (.rule (.modifiers true))), .rule .method]]),
      .rule .statement]
  | statement => statementBody
  | block => .node .block (braced (.many (.rule .statement)))
  | packageHeader =>
    .node .packageHeader
      (all [.many annotationBeforeType, word "package", .rule .qualifiedName, symbol ";"])
  | importHeader =>
    .node .importHeader
      (all [word "import", optional (word "static"), .rule .qualifiedName,
        optional (all [symbol ".", symbol "*"]), symbol ";"])
  | moduleHeader =>
    all [.many annotationBeforeType, optional (word "open"), word "module", .rule .qualifiedName,
      braced (.many (.rule .directive))]
  | directive =>
    all [
      any [
        all [word "requires", .many (oneWord ["transitive", "static"]), .rule .qualifiedName],
        all [oneWord ["exports", "opens"], .rule .qualifiedName,
          optional (all [word "to", list (.rule .qualifiedName)])],
        all [word "uses", .rule .qualifiedName],
        all [word "provides", .rule .qualifiedName, word "with", list (.rule .qualifiedName)]],
      symbol ";"]
  | qualifiedName =>
    .node .qualifiedName (all [name [], .many (all [symbol ".", name []])])
  | modifiers beforeTypes =>
    atLeastOne (any [if beforeTypes then annotationBeforeType else .rule .annotationUse,
      oneWord modifierWords,
      all [word "non", touchingSymbol "-", .token true (.word ["sealed"])]])
  | annotationUse =>
    .node .annotationUse (all [symbol "@", .rule .qualifiedName,
      optional (bracketed (any [
        list (all [name notAnOperandName, symbol "=", .rule .elementValue]),
        all [.unless (all [name [], symbol "="]), .rule .elementValue],
        .empty]))])
  | elementValue =>
    any [
      braced (all [optional (list (.rule .elementValue)), optional (symbol ",")]),
      .rule .annotationUse,
      all [.unless (symbol "@"), .rule (.expression true)]]
  | typeDeclaration => typeDeclarationBody
  | classBody => .node .typeBody (braced (.many (.rule .classMember)))
  | classMember =>
    any [symbol ";", .rule .block, all [word "static", .rule .block],
      .node .declaration (all [heldModifiers true, memberDeclaration])]
  | interfaceBody =>
    .node .typeBody (braced (.many (any [symbol ";",
      .node .declaration (all [heldModifiers true, any [.rule .typeDeclaration,
        all [.unless (oneWord declarationWords), any [.rule .field, .rule .method]]]])])))
  | enumBody =>
    .node .typeBody (braced (all [
      optional (list (.node .enumConstant (all [optional (.rule (.modifiers false)), name modifierWords,
        optional (.rule .arguments), optional (.rule .classBody)]))),
      optional (symbol ","),
      optional (all [symbol ";", .many (.rule .classMember)])]))
  | annotationBody =>
    .node .typeBody (braced (.many (any [symbol ";",
      .node .declaration (all [heldModifiers true, .unless (word "record"),
        any [.rule .typeDeclaration,
          all [.unless (oneWord declarationWords), .rule .field]]]),
      .node .annotationElement (all [optional (.rule (.modifiers true)),
        .unless (oneWord declarationWords), .rule .plainType, name [], symbol "(", symbol ")",
        optional (.rule .dimensions), optional (all [word "default", .rule .elementValue]),
        symbol ";"])])))
  | typeParameters =>
    .node .typeParameters (all [symbol "<",
      list (all [annotations, name [], optional (all [word "extends", .rule .typeUse,
        .many (all [symbol "&", .rule .typeUse])])]),
      symbol ">"])
  | typeArguments =>
    .node .typeArguments (all [symbol "<",
      optional (list (any [.rule .typeUse,
        all [annotations, symbol "?",
          optional (all [oneWord ["extends", "super"], .rule .typeUse])]])),
      symbol ">"])
  | typeUse =>
    .node .typeUse (all [annotations, .rule .simpleType, optional (.rule .dimensions)])
  | plainType => .node .typeUse (all [.rule .simpleType, optional (.rule .dimensions)])
  | simpleType => simpleTypeBody []
  | dimensions => .node .dimensions (atLeastOne (all [annotations, symbol "[", symbol "]"]))
  | field => .node .field (all [.rule .plainType, list (.rule .declarator), symbol ";"])
  | method =>
    .node .method (all [optional (all [.rule .typeParameters, annotations]), .rule .plainType,
      named ["_"], .rule .parameters, optional (.rule .dimensions), optional (.rule .throwsList),
      any [.rule .block, symbol ";"]])
  | constructor =>
    .node .constructor (any [
      all [optional (.rule .typeParameters), named simpleTypeWords, .rule .parameters,
        optional (.rule .throwsList),
        .node .block (braced (all [optional (.rule .constructorCall), .many (.rule .statement)]))],
      all [named simpleTypeWords, .rule .block]])
  | constructorCall =>
    all [
      any [
        all [optional (.rule .typeArguments), oneWord ["this", "super"], ahead (symbol "(")],
        all [.rule (.chain false), symbol ".", optional (.rule .typeArguments), word "super"]],
      .rule .arguments, symbol ";"]
  | parameters =>
    let several := optional (list (.rule .parameter))
    let receiver := all [.unless (oneWord modifierWords), .rule .plainType,
      .many (all [name ["this"], symbol "."]), word "this", optional (all [symbol ",", several])]
    .node .parameters (any [
      bracketed receiver,
      bracketed several,
      bracketed (all [annotations, receiver])])
  | parameter =>
    .node .parameter (all [heldModifiers false, .rule .plainType,
      any [
        all [named [], optional (.rule .dimensions)],
        all [symbol "...", annotations, .rule .declarator]]])
  | declarator =>
    .node .declarator (all [named [], optional (.rule .dimensions),
      optional (all [symbol "=", .node .initialValue (.rule .initialValue)])])
  | declarators beforeTypes =>
    all [beforeLocalType (.rule (.modifiers beforeTypes)), .rule .plainType, .unless (word "instanceof"),
      list (.rule .declarator), symbol ";"]
  | initialValue => any [.rule .arrayValues, .rule (.expression true)]
  | arrayValues => braced (all [optional (list (.rule .initialValue)), optional (symbol ",")])
  | throwsList => typesAfter "throws"
  | resource =>
    any [
      all [beforeBracketedType, .rule .plainType, name [], optional (.rule .dimensions),
        symbol "=", .rule (.expression true)],
      namedResource]
  | memberLinks =>
    any [all [memberLink, ahead resourceEnd],
      all [any [.rule .callLink, placeLink], .rule .memberLinks]]
  | tryStatement =>
    let handler := all [word "catch",
      bracketed (all [optional (.rule (.modifiers false)), .rule .plainType,
        .many (all [symbol "|", .rule .plainType]), name [], optional (.rule .dimensions)]),
      .rule .block]
    let ending := all [word "finally", .rule .block]
    let ended := any [ending, .unless (oneWord ["catch", "finally"])]
    all [word "try",
      any [
        all [bracketed (all [.rule .resource, .many (all [symbol ";", .rule .resource]),
            optional (symbol ";")]),
          .rule .block, .many handler, ended],
        all [.rule .block, any [all [atLeastOne handler, ended], ending]]]]
  | forHeader =>
    any [
      all [beforeBracketedType, .rule .plainType, name ["instanceof"],
        optional (.rule .dimensions), symbol ":", .rule (.expression true)],
      all [
        any [.rule (.declarators false),
          all [.unless (oneWord parameterWords), optional (list (.rule (.expression true))),
            symbol ";"]],
        optional (.rule (.expression true)), symbol ";",
        optional (list (.rule (.expression true)))]]
  | switchConstruct => switchBody
  | switchLabel =>
    any [
      all [word "case",
        any [all [.unless (oneWord operandWords), any [.rule .recordPattern, typedPattern],
            ahead labelEnd],
          list (.rule (.expression false))],
        optional (all [word "when", .rule (.expression false)])],
      word "default"]
  | recordPattern =>
    all [recordPatternType, bracketed (optional (list (any [.rule .recordPattern,
      all [.unless (word "_"), .rule .plainType, name []], word "_"])))]
  | expression arrows => all [.rule (.operand arrows), .many (.rule (.operation arrows))]
  | operation arrows =>
    any [
      all [.rule .binaryOperator, .rule (.operand arrows)],
      all [word "instanceof", optional (word "final"),
        any [.rule .recordPattern,
          all [.unless (oneWord variableWords), .rule .typeUse,
            optional (name ["instanceof", "when"])]],
        updates],
      all [symbol "?", .rule (.expression true), symbol ":", .rule (.operand arrows)]]
  | operand arrows => operandBody arrows
  | lambda =>
    all [
      any [name notAnOperandName,
        bracketed (all [.unless (oneWord parameterWords), name notAnOperandName,
          .many (all [symbol ",", name []])]),
        all [.unless (all [symbol "(", oneWord (operandWords ++ variableWords)]),
          .rule .parameters]],
      symbol "->",
      any [.rule .block, .rule (.expression true)]]
  | chain arrows => chainBody arrows
  | links arrows =>
    any [
      all [.rule .callLink, .rule (.links arrows)],
      all [placeLink, .rule (.placeLinks arrows)],
      .empty]
  | placeLinks arrows =>
    any [
      all [.rule .callLink, .rule (.links arrows)],
      all [placeLink, .rule (.placeLinks arrows)],
      all [.rule .assignmentOperator, .rule (.expression arrows)],
      .empty]
  | callLink =>
    any [
      all [symbol ".", optional (all [word "super", symbol "."]), optional (.rule .typeArguments),
        name notAMemberName, .rule .arguments],
      all [symbol ".", .node .innerCreation objectCreation],
      all [symbol ".", .rule .text],
      all [symbol "::", optional (.rule .typeArguments), name []]]
  | typeHead =>
    all [.unless (oneWord (operandWords ++ variableWords)), annotations,
      .node .typeUse (all [simpleTypeBody ["class"], optional (.rule .dimensions)]),
      any [all [symbol "::", optional (.rule .typeArguments), name []],
        all [symbol ".", word "class"]]]
  | creation => any [.node .creation objectCreation, arrayCreation]
  | arguments => bracketed (optional (list (.rule (.expression true))))
  | text =>
    any [.token false (.exactly .text),
      all [.token false (.exactly .textOpening), .rule (.expression true),
        .many (all [.token false (.exactly .textMiddle), .rule (.expression true)]),
        .token false (.exactly .textClosing)]]
  | binaryOperator =>
    any ([
      all [symbol ">", touchingSymbol ">", touchingSymbol ">", .unless (touchingSymbol "=")],
      all [symbol ">", touchingSymbol ">", .unless (touchingSymbol "=")],
      all [symbol ">", touchingSymbol "="]] ++
      ["<=", "<<", "==", "!=", "&&", "||", ">", "<", "+", "-", "*", "/", "%", "&", "|", "^"].map
        symbol)
  | assignmentOperator =>
    any ([
      all [symbol ">", touchingSymbol ">", touchingSymbol ">", touchingSymbol "="],
      all [symbol ">", touchingSymbol ">", touchingSymbol "="]] ++
      ["=", "+=", "-=", "*=", "/=", "%=", "&=", "|=", "^=", "<<="].map symbol)

def every : List Construct :=
  [sourceFile, topLevel, statement, block, packageHeader, importHeader, moduleHeader, directive,
    qualifiedName, modifiers true, modifiers false, annotationUse, elementValue, typeDeclaration, classBody, classMember,
    interfaceBody, enumBody, annotationBody, typeParameters, typeArguments, typeUse, plainType,
    simpleType, dimensions, field, method, constructor, constructorCall, parameters, parameter,
    declarator, declarators true, declarators false, initialValue, arrayValues, throwsList, resource, memberLinks,
    tryStatement, forHeader,
    switchConstruct, switchLabel, recordPattern, expression true, expression false, operation true,
    operation false, operand true, operand false, lambda, chain true, chain false, links true,
    links false, placeLinks true, placeLinks false, callLink, typeHead, creation, arguments, text,
    binaryOperator, assignmentOperator]

end Construct

def javaGrammar : Grammar Construct Part where
  rules := Construct.every
  body := Construct.body
  start := .sourceFile

end JavaAtlas.Syntax

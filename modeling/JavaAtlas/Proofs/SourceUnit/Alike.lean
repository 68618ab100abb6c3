import JavaAtlas.Proofs.SourceUnit.Walk
import JavaAtlas.Proofs.Syntax.Alike
import JavaAtlas.SourceUnit.OfTrees

/-!
# Units of one shape

Trees of one shape make up units of one shape: node for node the same declarations, with the same names, types of
the same forms with the same erased names, and imports of the same kinds. How lines, written texts and the names in
headers correspond is left open; whatever holds of them between the trees holds between the units.
-/

namespace JavaAtlas

/-- What is asked of lines, of written texts, and of the names in headers when units are compared. -/
structure Likeness where
  line : Line → Line → Prop
  text : String → String → Prop
  header : String → String → Prop

variable {L : Likeness}

/-- Types of one form, whose references have the same erased name. -/
inductive WrittenType.Alike (L : Likeness) : WrittenType → WrittenType → Prop where
  | reference {written text : String} {line start : Line} {name other : String} (htext : L.text written text)
      (hline : L.line line start) (hname : other = name) :
      Alike L (.reference written line name) (.reference text start other)
  | primitive {written text : String} {line start : Line} (htext : L.text written text)
      (hline : L.line line start) : Alike L (.primitive written line) (.primitive text start)
  | void {written text : String} {line start : Line} (htext : L.text written text)
      (hline : L.line line start) : Alike L (.void written line) (.void text start)
  | array {written text : String} {line start : Line} {element inner : WrittenType} (htext : L.text written text)
      (hline : L.line line start) (helement : Alike L element inner) :
      Alike L (.array written line element) (.array text start inner)
  | other {written text : String} {line start : Line} (htext : L.text written text)
      (hline : L.line line start) : Alike L (.other written line) (.other text start)

structure Import.Alike (L : Likeness) (item other : Import) : Prop where
  name : L.header item.name other.name
  isStatic : other.isStatic = item.isStatic
  isWildcard : other.isWildcard = item.isWildcard
  line : L.line item.line other.line

structure Parameter.Alike (L : Likeness) (parameter other : Parameter) : Prop where
  name : other.name = parameter.name
  type : parameter.type.Alike L other.type

structure TypeHeader.Alike (L : Likeness) (header other : TypeHeader) : Prop where
  name : other.name = header.name
  kind : other.kind = header.kind
  nested : other.nested = header.nested
  extended : List.Forall₂ (WrittenType.Alike L) header.extended other.extended
  implemented : List.Forall₂ (WrittenType.Alike L) header.implemented other.implemented
  line : L.line header.line other.line

inductive Head.Alike (L : Likeness) : Head → Head → Prop where
  | type {header other : TypeHeader} (hheader : header.Alike L other) : Alike L (.type header) (.type other)
  | field {type other : WrittenType} {names others : List String} {line start : Line}
      (htype : type.Alike L other) (hnames : others = names) (hline : L.line line start) :
      Alike L (.field type names line) (.field other others start)
  | method {name other : String} {result type : WrittenType} {parameters others : List Parameter} {line start : Line}
      (hname : other = name) (hresult : result.Alike L type)
      (hparameters : List.Forall₂ (Parameter.Alike L) parameters others) (hline : L.line line start) :
      Alike L (.method name result parameters line) (.method other type others start)
  | constructor {name other : String} {parameters others : List Parameter} {line start : Line}
      (hname : other = name) (hparameters : List.Forall₂ (Parameter.Alike L) parameters others)
      (hline : L.line line start) : Alike L (.constructor name parameters line) (.constructor other others start)
  | creation {type other : WrittenType} {line start : Line} (htype : type.Alike L other)
      (hline : L.line line start) : Alike L (.creation type line) (.creation other start)

/-- Nodes of one shape, with all that is below them. -/
inductive Node.Alike (L : Likeness) : Node → Node → Prop where
  | package {name other : String} {line start : Line} (hname : L.header name other) (hline : L.line line start) :
      Alike L (.package name line) (.package other start)
  | imported {item other : Import} (hitem : item.Alike L other) : Alike L (.imported item) (.imported other)
  | branch {head other : Head} {below inner : List Node} (hhead : head.Alike L other)
      (hbelow : List.Forall₂ (Alike L) below inner) : Alike L (.branch head below) (.branch other inner)

def SourceUnit.Alike (L : Likeness) (unit other : SourceUnit) : Prop :=
  List.Forall₂ (Node.Alike L) unit.nodes other.nodes

namespace SourceUnit

open JavaAtlas.Syntax JavaAtlas.Text ParseTree

/-- The texts that some neighbouring trees spell, wherever they start and stop, are what is asked for. -/
def TextsAlike (L : Likeness) (trees others : List JavaTree) : Prop :=
  ∀ start count, L.text (writtenText ((trees.drop start).take count)) (writtenText ((others.drop start).take count))

/-- The children under corresponding labels say the same where they are read for names and for texts. -/
structure ReadsAlike (L : Likeness) (label : Part) (children others : List JavaTree) : Prop where
  name : label = .name → sourceOf others = sourceOf children
  header : label = .qualifiedName →
    L.header (String.ofList (unspaced (sourceOf children))) (String.ofList (unspaced (sourceOf others)))
  texts : TextsAlike L children others

/-- Trees of one shape, as far as units are read off them. -/
abbrev TreesAlike (R : Token → Token → Prop) (L : Likeness) : List JavaTree → List JavaTree → Prop :=
  List.Forall₂ (ParseTree.Alike R (ReadsAlike L))

/-- What is asked of lines holds between trees with related tokens, and nothing is spelled alike. -/
structure Respects (R : Token → Token → Prop) (L : Likeness) : Prop where
  lexeme : ∀ token other, R token other → other.lexeme = token.lexeme
  line : ∀ {trees others : List JavaTree}, TreesAlike R L trees others → L.line (lineOf trees) (lineOf others)
  nameless : L.header "" ""
  textless : L.text "" ""

variable {R : Token → Token → Prop} {trees others : List JavaTree} {tree other : JavaTree}

/-! ### Names -/

theorem nameIn_alike (h : TreesAlike R L trees others) : nameIn others = nameIn trees := by
  have hfound := firstLabelled_alike .name h
  unfold nameIn
  generalize firstLabelled .name trees = ours at hfound ⊢
  generalize firstLabelled .name others = theirs at hfound ⊢
  cases hfound with
  | none => rfl
  | some hunder => exact congrArg String.ofList (hunder.1.name rfl)

theorem qualifiedNameIn_alike (hL : Respects R L) (h : TreesAlike R L trees others) :
    L.header (qualifiedNameIn trees) (qualifiedNameIn others) := by
  have hfound := firstLabelled_alike .qualifiedName h
  unfold qualifiedNameIn
  generalize firstLabelled .qualifiedName trees = ours at hfound ⊢
  generalize firstLabelled .qualifiedName others = theirs at hfound ⊢
  cases hfound with
  | none => exact hL.nameless
  | some hunder => exact hunder.1.header rfl

theorem erasedName_alike (h : TreesAlike R L trees others) : erasedName others = erasedName trees := by
  have hfound := allLabelled_alike .name h
  unfold erasedName
  generalize allLabelled .name trees = ours at hfound ⊢
  generalize allLabelled .name others = theirs at hfound ⊢
  congr 1
  induction hfound with
  | nil => rfl
  | cons hunder htail ih => rw [List.map_cons, List.map_cons, hunder.1.name rfl, ih]

theorem getD_firstLabelled_alike (label : Part) (h : TreesAlike R L trees others) :
    TreesAlike R L ((firstLabelled label trees).getD []) ((firstLabelled label others).getD []) := by
  have hfound := firstLabelled_alike label h
  generalize firstLabelled label trees = ours at hfound ⊢
  generalize firstLabelled label others = theirs at hfound ⊢
  cases hfound with
  | none => exact .nil
  | some hunder => exact hunder.2

/-! ### Types -/

section Texts

variable {rest more : List JavaTree}

theorem TextsAlike.tail (h : TextsAlike L (tree :: rest) (other :: more)) : TextsAlike L rest more :=
  fun start count => h (start + 1) count

theorem TextsAlike.single (h : TextsAlike L (tree :: rest) (other :: more)) :
    L.text (writtenText [tree]) (writtenText [other]) := by
  simpa using h 0 1

theorem TextsAlike.whole (h : TextsAlike L trees others) (hlength : trees.length = others.length) :
    L.text (writtenText trees) (writtenText others) := by
  have hall := h 0 trees.length
  rwa [List.drop_zero, List.drop_zero, List.take_length, hlength, List.take_length] at hall

end Texts

theorem simpleType_alike (hL : Respects R L) (h : ParseTree.Alike R (ReadsAlike L) tree other)
    (htext : L.text (writtenText [tree]) (writtenText [other])) : (simpleType tree).Alike L (simpleType other) := by
  have hsingle : TreesAlike R L [tree] [other] := .cons h .nil
  cases h with
  | leaf htoken => exact .other htext (hL.line hsingle)
  | @node label children below hlabel hchildren =>
    have hinside := hlabel.texts.whole hchildren.length_eq
    cases label with
    | named => exact .reference hinside (hL.line hchildren) (erasedName_alike hchildren)
    | primitive => exact .primitive hinside (hL.line hchildren)
    | void => exact .void hinside (hL.line hchildren)
    | _ => exact .other htext (hL.line hsingle)

theorem writtenType_alike (hL : Respects R L) (h : TreesAlike R L trees others) (htexts : TextsAlike L trees others) :
    (writtenType trees).Alike L (writtenType others) := by
  induction h with
  | nil => exact .other hL.textless (hL.line .nil)
  | @cons tree other rest more hhead htail ih =>
    have hwhole : TreesAlike R L (tree :: rest) (other :: more) := .cons hhead htail
    have htext := htexts.whole hwhole.length_eq
    rw [writtenType.eq_def (tree :: rest)]
    split
    · next heq =>
      cases heq
      cases hhead with
      | node => exact ih htexts.tail
    · next hannotation heq =>
      cases heq
      cases htail
      rw [writtenType]
      · exact simpleType_alike hL hhead htexts.single
      · exact hhead.ne_node hannotation
    · next hannotation heq =>
      cases heq
      cases htail with
      | cons hdimensions hend =>
        cases hend
        cases hdimensions with
        | node hlabel hchildren =>
          rw [writtenType]
          · exact .array htext (hL.line hwhole) (simpleType_alike hL hhead htexts.single)
          · exact hhead.ne_node hannotation
    -- The other trees are of none of the forms before, since these would be.
    · next hannotation hsimple harray =>
      rw [writtenType]
      · exact .other htext (hL.line hwhole)
      · rintro children after heq
        cases heq
        cases hhead with
        | node => exact hannotation _ _ rfl
      · rintro simple heq
        cases heq
        cases htail
        exact hsimple _ rfl
      · rintro simple dimensions heq
        cases heq
        cases htail with
        | cons hdimensions hend =>
          cases hend
          cases hdimensions with
          | node => exact harray _ _ rfl

theorem typeIn_alike (hL : Respects R L) (h : TreesAlike R L trees others) : (typeIn trees).Alike L (typeIn others) := by
  have hfound := firstLabelled_alike .typeUse h
  unfold typeIn
  generalize firstLabelled .typeUse trees = ours at hfound ⊢
  generalize firstLabelled .typeUse others = theirs at hfound ⊢
  cases hfound with
  | none => exact .other hL.textless (hL.line .nil)
  | some hunder => exact writtenType_alike hL hunder.2 hunder.1.texts

theorem typesUnder_alike (hL : Respects R L) (label : Part) (h : TreesAlike R L trees others) :
    List.Forall₂ (WrittenType.Alike L) (typesUnder label trees) (typesUnder label others) := by
  refine List.rel_map ?_ (allLabelled_alike .typeUse (getD_firstLabelled_alike label h))
  intro children below hunder
  exact writtenType_alike hL hunder.2 hunder.1.texts

/-! ### Heads -/

theorem parameterName_alike (h : TreesAlike R L trees others) : parameterName others = parameterName trees := by
  have hfound := firstLabelled_alike .declarator h
  unfold parameterName
  generalize firstLabelled .declarator trees = ours at hfound ⊢
  generalize firstLabelled .declarator others = theirs at hfound ⊢
  cases hfound with
  | none => exact nameIn_alike h
  | some hunder => exact nameIn_alike hunder.2

theorem parametersIn_alike (hL : Respects R L) (h : TreesAlike R L trees others) :
    List.Forall₂ (Parameter.Alike L) (parametersIn trees) (parametersIn others) := by
  refine List.rel_map ?_ (allLabelled_alike .parameter (getD_firstLabelled_alike .parameters h))
  intro children below hunder
  exact ⟨parameterName_alike hunder.2, typeIn_alike hL hunder.2⟩

theorem variablesIn_alike (h : TreesAlike R L trees others) : variablesIn others = variablesIn trees := by
  have hfound := allLabelled_alike .declarator h
  unfold variablesIn
  generalize allLabelled .declarator trees = ours at hfound ⊢
  generalize allLabelled .declarator others = theirs at hfound ⊢
  induction hfound with
  | nil => rfl
  | cons hunder htail ih => rw [List.map_cons, List.map_cons, nameIn_alike hunder.2, ih]

theorem importNode_alike (hL : Respects R L) (h : TreesAlike R L trees others) :
    (importNode trees).Alike L (importNode others) :=
  .imported {
    name := qualifiedNameIn_alike hL h
    isStatic := any_isLeaf_alike hL.lexeme _ h
    isWildcard := any_isLeaf_alike hL.lexeme _ h
    line := hL.line h }

theorem declaredHead_alike (hL : Respects R L) {line start : Line} (hline : L.line line start) (nested : Bool)
    (label : Part) (h : TreesAlike R L trees others) :
    Option.Rel (Head.Alike L) (declaredHead line nested label trees) (declaredHead start nested label others) := by
  have htype (kind : TypeKind) :
      TypeHeader.Alike L
        { name := nameIn trees, kind, nested, line,
          extended := typesUnder .extended trees, implemented := typesUnder .implemented trees }
        { name := nameIn others, kind, nested, line := start,
          extended := typesUnder .extended others, implemented := typesUnder .implemented others } :=
    ⟨nameIn_alike h, rfl, rfl, typesUnder_alike hL _ h, typesUnder_alike hL _ h, hline⟩
  cases label with
  | classType | interfaceType | enumType | recordType | annotationType => exact .some (.type (htype _))
  | field => exact .some (.field (typeIn_alike hL h) (variablesIn_alike h) hline)
  | method =>
    exact .some (.method (nameIn_alike h) (typeIn_alike hL h) (parametersIn_alike hL h) hline)
  | constructor => exact .some (.constructor (nameIn_alike h) (parametersIn_alike hL h) hline)
  | _ => exact .none

/-! ### Lists of trees

The functions on lists make alike nodes of alike trees, provided that this holds of every tree among and below them. -/

/-- What a tree adds to a unit is alike what alike trees add. -/
def Lowers (R : Token → Token → Prop) (L : Likeness) (tree : JavaTree) : Prop :=
  ∀ other, ParseTree.Alike R (ReadsAlike L) tree other → ∀ nested line start, Option.Rel L.line line start →
    List.Forall₂ (Node.Alike L) (nodesOf nested line tree) (nodesOf nested start other)

theorem nodesOfAll_alike (nested : Bool) (h : AllWithin (Lowers R L) trees) (hsame : TreesAlike R L trees others) :
    List.Forall₂ (Node.Alike L) (nodesOfAll nested trees) (nodesOfAll nested others) := by
  induction hsame with
  | nil =>
    rw [nodesOfAll]
    exact .nil
  | cons hhead htail ih =>
    rw [nodesOfAll, nodesOfAll]
    exact List.rel_append (h.head _ hhead nested none none .none) (ih h.tail)

theorem declaredNodes_alike (nested : Bool) {line start : Line} (hline : L.line line start)
    (h : AllWithin (Lowers R L) trees) (hsame : TreesAlike R L trees others) :
    List.Forall₂ (Node.Alike L) (declaredNodes nested line trees) (declaredNodes nested start others) := by
  induction hsame with
  | nil =>
    rw [declaredNodes, declaredNodes]
    exact .nil
  | @cons tree other rest more hhead htail ih =>
    have hrest := ih h.tail
    rw [declaredNodes.eq_def nested line (tree :: rest)]
    split
    · next heq => cases heq
    · next heq =>
      cases heq
      cases hhead with
      | node =>
        rw [declaredNodes]
        exact hrest
    · next hmodifiers heq =>
      cases heq
      rw [declaredNodes]
      · exact List.rel_append (h.head _ hhead nested _ _ (.some hline)) hrest
      · exact hhead.ne_node hmodifiers

theorem initialNodes_alike (h : AllWithin (Lowers R L) trees) (hsame : TreesAlike R L trees others) :
    List.Forall₂ (Node.Alike L) (initialNodes trees) (initialNodes others) := by
  induction hsame with
  | nil =>
    rw [initialNodes]
    exact .nil
  | @cons tree other rest more hhead htail ih =>
    have hrest := ih h.tail
    rw [initialNodes.eq_def (tree :: rest)]
    split
    · next heq => cases heq
    · next heq =>
      cases heq
      cases hhead with
      | node hlabel hchildren =>
        rw [initialNodes]
        exact List.rel_append (nodesOfAll_alike false h.below hchildren) hrest
    · next hvalue heq =>
      cases heq
      rw [initialNodes]
      · exact hrest
      · exact hhead.ne_node hvalue

theorem partNodes_alike (h : AllWithin (Lowers R L) trees) (hsame : TreesAlike R L trees others) :
    List.Forall₂ (Node.Alike L) (partNodes trees) (partNodes others) := by
  induction hsame with
  | nil =>
    rw [partNodes]
    exact .nil
  | @cons tree other rest more hhead htail ih =>
    have hrest := ih h.tail
    rw [partNodes.eq_def (tree :: rest)]
    split
    · next heq => cases heq
    · next heq =>
      cases heq
      cases hhead with
      | node hlabel hchildren =>
        rw [partNodes]
        exact List.rel_append (nodesOfAll_alike true h.below hchildren) hrest
    · next heq =>
      cases heq
      cases hhead with
      | node hlabel hchildren =>
        rw [partNodes]
        exact List.rel_append (nodesOfAll_alike false h.below hchildren) hrest
    · next heq =>
      cases heq
      cases hhead with
      | node hlabel hchildren =>
        rw [partNodes]
        exact List.rel_append (initialNodes_alike h.below hchildren) hrest
    · next hbody hblock hdeclarator heq =>
      cases heq
      rw [partNodes]
      · exact hrest
      · exact hhead.ne_node hbody
      · exact hhead.ne_node hblock
      · exact hhead.ne_node hdeclarator

theorem creationNodes_alike (typeSeen : Bool) (h : AllWithin (Lowers R L) trees)
    (hsame : TreesAlike R L trees others) :
    List.Forall₂ (Node.Alike L) (creationNodes typeSeen trees) (creationNodes typeSeen others) := by
  induction hsame generalizing typeSeen with
  | nil =>
    rw [creationNodes]
    exact .nil
  | @cons tree other rest more hhead htail ih =>
    rw [creationNodes.eq_def typeSeen (tree :: rest)]
    split
    · next heq => cases heq
    · next heq =>
      cases heq
      cases hhead with
      | node hlabel hchildren =>
        rw [creationNodes]
        split
        · exact List.rel_append (nodesOfAll_alike false h.below hchildren) (ih true h.tail)
        · exact ih true h.tail
    · next heq =>
      cases heq
      cases hhead with
      | node hlabel hchildren =>
        rw [creationNodes]
        split
        · exact List.rel_append (nodesOfAll_alike false h.below hchildren) (ih true h.tail)
        · exact ih typeSeen h.tail
    · next htype harguments heq =>
      cases heq
      rw [creationNodes]
      · exact List.rel_append (h.head _ hhead false none none .none) (ih typeSeen h.tail)
      · exact hhead.ne_node htype
      · exact hhead.ne_node harguments

theorem creation_alike (hL : Respects R L) {line start : Line} (hline : L.line line start)
    (h : TreesAlike R L trees others) {below inner : List Node} (hbelow : List.Forall₂ (Node.Alike L) below inner) :
    List.Forall₂ (Node.Alike L) [.branch (.creation (typeIn trees) line) below]
      [.branch (.creation (typeIn others) start) inner] :=
  .cons (.branch (.creation (typeIn_alike hL h) hline) hbelow) .nil

/-- The nodes found so far go on along the chain, or go below an inner creation. -/
theorem chainNodes_alike (hL : Respects R L) {line start : Line} (hline : L.line line start) {found seen : List Node}
    (hfound : List.Forall₂ (Node.Alike L) found seen) (h : AllWithin (Lowers R L) trees)
    (hsame : TreesAlike R L trees others) :
    List.Forall₂ (Node.Alike L) (chainNodes line found trees) (chainNodes start seen others) := by
  induction hsame generalizing found seen with
  | nil =>
    rw [chainNodes, chainNodes]
    exact hfound
  | @cons tree other rest more hhead htail ih =>
    rw [chainNodes.eq_def line found (tree :: rest)]
    split
    · next heq => cases heq
    · next heq =>
      cases heq
      cases hhead with
      | node hlabel hchildren =>
        rw [chainNodes]
        refine ih ?_ h.tail
        exact creation_alike hL hline hchildren (List.rel_append hfound (creationNodes_alike false h.below hchildren))
    · next hinner heq =>
      cases heq
      rw [chainNodes]
      · exact ih (List.rel_append hfound (h.head _ hhead false none none .none)) h.tail
      · exact hhead.ne_node hinner

/-! ### One tree, and all -/

theorem nodesOf_alike (hL : Respects R L) (h : AllWithin (Lowers R L) tree.children) : Lowers R L tree := by
  intro other hother nested line start hline
  rw [nodesOf.eq_def nested line tree]
  split
  · cases hother with
    | leaf =>
      rw [nodesOf]
      exact .nil
  · cases hother with
    | node hlabel hchildren =>
      rw [nodesOf]
      exact .cons (.package (qualifiedNameIn_alike hL hchildren) (hL.line hchildren)) .nil
  · cases hother with
    | node hlabel hchildren =>
      rw [nodesOf]
      exact .cons (importNode_alike hL hchildren) .nil
  · cases hother with
    | node hlabel hchildren =>
      rw [nodesOf]
      exact declaredNodes_alike nested (hL.line hchildren) h hchildren
  · cases hother with
    | node hlabel hchildren =>
      rw [nodesOf]
      exact chainNodes_alike hL (hL.line hchildren) .nil h hchildren
  · cases hother with
    | node hlabel hchildren =>
      rw [nodesOf]
      exact creation_alike hL (hL.line hchildren) hchildren (creationNodes_alike false h hchildren)
  · next label trees hpackage himport hdeclaration hchain hcreation =>
    cases hother with
    | @node _ _ others hlabel hchildren =>
      rw [nodesOf]
      · have hhead : Option.Rel (Head.Alike L) (line.bind fun line => declaredHead line nested label trees)
            (start.bind fun line => declaredHead line nested label others) := by
          cases hline with
          | none => exact .none
          | some hline => exact declaredHead_alike hL hline nested label hchildren
        generalize (line.bind fun line => declaredHead line nested label trees) = ours at hhead ⊢
        generalize (start.bind fun line => declaredHead line nested label others) = theirs at hhead ⊢
        cases hhead with
        | none => exact nodesOfAll_alike _ h hchildren
        | some hhead => exact .cons (.branch hhead (partNodes_alike h hchildren)) .nil
      all_goals assumption

theorem lowers (hL : Respects R L) (tree : JavaTree) : Lowers R L tree := by
  induction tree using ParseTree.induction with
  | step tree ih => exact nodesOf_alike hL ih

/-- **Trees of one shape make up units of one shape.** -/
theorem ofTrees_alike (hL : Respects R L) (h : TreesAlike R L trees others) :
    (ofTrees trees).Alike L (ofTrees others) :=
  nodesOfAll_alike false (fun tree _ => lowers hL tree) h

end SourceUnit

/-! ### What units of one shape have in common -/

namespace Node

theorem declaredPathsOfAll_alike {nodes others : List Node} (h : List.Forall₂ (Alike L) nodes others)
    (hpaths : ∀ node ∈ nodes, ∀ other, node.Alike L other → ∀ outer,
      declaredPaths outer other = declaredPaths outer node) (outer : Option String) :
    declaredPathsOfAll outer others = declaredPathsOfAll outer nodes := by
  induction h with
  | nil => rfl
  | cons hhead htail ih =>
    obtain ⟨hnode, hrest⟩ := List.forall_mem_cons.1 hpaths
    rw [declaredPathsOfAll, declaredPathsOfAll, ih hrest, hnode _ hhead]

theorem pathOf_alike {header other : TypeHeader} (h : header.Alike L other) (outer : Option String) :
    pathOf outer other = pathOf outer header := by
  simp only [pathOf, h.name, h.nested]

theorem declaredPaths_alike (node : Node) :
    ∀ other, node.Alike L other → ∀ outer, declaredPaths outer other = declaredPaths outer node := by
  induction node using Node.induction with
  | step node ih =>
    intro other h outer
    cases h with
    | package => rfl
    | imported => rfl
    | @branch head found below inner hhead hbelow =>
      have hall := declaredPathsOfAll_alike hbelow ih
      cases hhead with
      | type hheader => rw [declaredPaths, declaredPaths, hall, pathOf_alike hheader]
      | _ => simp only [declaredPaths, hall]

end Node

namespace SourceUnit

variable {unit other : SourceUnit}

theorem Alike.declaredTypes_eq (h : unit.Alike L other) : other.declaredTypes = unit.declaredTypes :=
  Node.declaredPathsOfAll_alike h (fun node _ => Node.declaredPaths_alike node) none

theorem Alike.imports (h : unit.Alike L other) : List.Forall₂ (Import.Alike L) unit.imports other.imports := by
  refine List.rel_filterMap ?_ h
  intro node other hnode
  cases hnode with
  | imported hitem => exact .some hitem
  | _ => exact .none

theorem Alike.package? (h : unit.Alike L other) : Option.Rel L.header unit.package? other.package? := by
  unfold SourceUnit.package?
  unfold SourceUnit.Alike at h
  generalize unit.nodes = nodes at h ⊢
  generalize other.nodes = others at h ⊢
  induction h with
  | nil => exact .none
  | cons hhead htail ih =>
    cases hhead with
    | package hname => exact .some hname
    | _ => exact ih

end SourceUnit

end JavaAtlas

import JavaAtlas.Proofs.Skeleton.Scanning
import JavaAtlas.Proofs.Text.Squeezed

/-!
# What the trees of printed skeletons stand for

The trees of a skeleton are lowered to the unit of the skeleton. The texts of types and names are read off the tokens;
that no blank stands in them is why they come out as they were printed.
-/

namespace JavaAtlas.Skeleton

open JavaAtlas.Syntax JavaAtlas.SourceUnit JavaAtlas.Text ParseTree

variable {gap : List Char} {line : Nat} {trees : List JavaTree}

/-! ### Texts and lines -/

/-- The first token of some trees is on a line. -/
def Opens (line : Nat) (trees : List JavaTree) : Prop :=
  ∃ token rest, tokensOfAll trees = token :: rest ∧ token.line = line

theorem Opens.lineOf_eq (h : Opens line trees) : lineOf trees = lineNumber line := by
  obtain ⟨token, rest, htokens, hline⟩ := h
  rw [lineOf, firstLine, htokens, lineNumber]
  exact congrArg UInt32.ofNat hline

theorem Opens.cons {tree : JavaTree} (h : Opens line [tree]) : Opens line (tree :: trees) := by
  obtain ⟨token, rest, htokens, hline⟩ := h
  rw [tokensOfAll_cons, tokensOfAll_nil, List.append_nil] at htokens
  exact ⟨token, rest ++ tokensOfAll trees, by rw [tokensOfAll_cons, htokens, List.cons_append], hline⟩

theorem Opens.node {label : Part} (h : Opens line trees) : Opens line [.node label trees] := by
  simpa [Opens] using h

theorem opens_wordLeaf {spelling : String} : Opens line (wordLeaf gap line spelling :: trees) :=
  ⟨wordToken gap line spelling, tokensOfAll trees, by simp [wordLeaf], rfl⟩

theorem tokensOfAll_flatMap {α : Type} (items : List α) (treesOf : α → List JavaTree) :
    tokensOfAll (items.flatMap treesOf) = items.flatMap fun item => tokensOfAll (treesOf item) := by
  induction items with
  | nil => simp
  | cons item items ih => simp [ih]

theorem source_append (front back : List Token) :
    Token.source (front ++ back) = Token.source front ++ Token.source back :=
  List.flatMap_append

theorem isBlank_of_isName {text : List Char} (h : Skeleton.isName text = true) : ∀ c ∈ text, isBlank c = false :=
  isBlank_of_isIdentifier (isIdentifier_of_isName h)

theorem Dotted.isBlank_text (name : Dotted) : ∀ c ∈ name.text.toList, isBlank c = false := by
  intro c hc
  rw [Dotted.toList_text, List.mem_append, List.mem_flatMap] at hc
  rcases hc with hc | ⟨part, -, hc⟩
  · exact isBlank_of_isName name.first.isName c hc
  · rcases List.mem_cons.1 hc with rfl | hc
    · decide
    · exact isBlank_of_isName part.isName c hc

theorem Base.isBlank_text (base : Base) : ∀ c ∈ base.text.toList, isBlank c = false := by
  cases base with
  | named name => exact name.isBlank_text
  | primitive word known => exact isBlank_of_isName (isName_of_mem_primitiveTypes word known)

theorem TypeForm.isBlank_text (type : TypeForm) : ∀ c ∈ type.text.toList, isBlank c = false := by
  intro c hc
  rw [TypeForm.text, String.toList_append, List.mem_append, String.toList_join, List.mem_flatMap] at hc
  rcases hc with hc | ⟨pair, hpair, hc⟩
  · exact type.base.isBlank_text c hc
  · rw [List.eq_of_mem_replicate hpair] at hc
    have hbracket : c = '[' ∨ c = ']' := by simpa using hc
    rcases hbracket with rfl | rfl <;> decide

theorem sourceOf_wordLeaf (spelling : String) : sourceOf [wordLeaf gap line spelling] = spelling.toList := by
  simp [sourceOf, wordLeaf, Token.slice, Token.source, wordToken]

/-! ### Tokens are passed over -/

section Leaves

variable {label : Part} {spelling : String}

@[simp] theorem allLabelled_wordLeaf :
    allLabelled label (wordLeaf gap line spelling :: trees) = allLabelled label trees := rfl

@[simp] theorem allLabelled_symbolLeaf :
    allLabelled label (symbolLeaf gap line spelling :: trees) = allLabelled label trees := rfl

@[simp] theorem nodesOfAll_symbolLeaf (nested : Bool) :
    nodesOfAll nested (symbolLeaf gap line spelling :: trees) = nodesOfAll nested trees := rfl

@[simp] theorem partNodes_wordLeaf : partNodes (wordLeaf gap line spelling :: trees) = partNodes trees := rfl

@[simp] theorem partNodes_symbolLeaf : partNodes (symbolLeaf gap line spelling :: trees) = partNodes trees := rfl

end Leaves

/-! ### Lists with commas -/

section Commas

variable {α β : Type} {label : Part} (treeOf : List Char → α → JavaTree)

theorem map_allLabelled_cons (partsOf : List Char → α → List JavaTree) {mark : String} {f : List JavaTree → β}
    {g : α → β}
    (hnode : ∀ gap item, treeOf gap item = .node label (partsOf gap item))
    (hparts : ∀ gap item, f (partsOf gap item) = g item) {front back : List Char} (item : α) (items : List α) :
    (allLabelled label (treeOf front item :: markedTrees (symbolLeaf [] line mark) (treeOf back) items)).map f =
      (item :: items).map g := by
  have hothers :
      (allLabelled label (markedTrees (symbolLeaf [] line mark) (treeOf back) items)).map f = items.map g := by
    unfold markedTrees
    induction items with
    | nil => rfl
    | cons item items ih =>
      rw [List.flatMap_cons, List.cons_append, allLabelled_symbolLeaf, List.singleton_append, hnode, allLabelled,
        if_pos (beq_self_eq_true label), List.map_cons, hparts, ih, List.map_cons]
  rw [hnode, allLabelled, if_pos (beq_self_eq_true label), List.map_cons, hparts, hothers, List.map_cons]

/-- What is read off the nodes of a list in the same way wherever they stand is read off its items. -/
theorem map_allLabelled_commaTrees (partsOf : List Char → α → List JavaTree) {f : List JavaTree → β} {g : α → β}
    (hnode : ∀ gap item, treeOf gap item = .node label (partsOf gap item))
    (hparts : ∀ gap item, f (partsOf gap item) = g item) (items : List α) :
    (allLabelled label (commaTrees line treeOf gap items)).map f = items.map g := by
  cases items with
  | nil => rfl
  | cons item items => exact map_allLabelled_cons treeOf partsOf hnode hparts item items

theorem nodesOfAll_cons (nested : Bool) (tree : JavaTree) (rest : List JavaTree) :
    nodesOfAll nested (tree :: rest) = nodesOf nested none tree ++ nodesOfAll nested rest := rfl

theorem nodesOfAll_append (nested : Bool) (front back : List JavaTree) :
    nodesOfAll nested (front ++ back) = nodesOfAll nested front ++ nodesOfAll nested back := by
  induction front with
  | nil => rfl
  | cons tree front ih => rw [List.cons_append, nodesOfAll_cons, nodesOfAll_cons, ih, List.append_assoc]

/-- Items that each add one node wherever they stand add these nodes. -/
theorem nodesOfAll_commaTrees {items : List α} {nodes : List Node}
    (h : List.Forall₂ (fun item node => ∀ gap, nodesOf false none (treeOf gap item) = [node]) items nodes) :
    nodesOfAll false (commaTrees line treeOf gap items) = nodes := by
  have hothers {items : List α} {nodes : List Node}
      (h : List.Forall₂ (fun item node => ∀ gap, nodesOf false none (treeOf gap item) = [node]) items nodes) :
      nodesOfAll false (markedTrees (symbolLeaf [] line ",") (treeOf [' ']) items) = nodes := by
    unfold markedTrees
    induction h with
    | nil => rfl
    | cons hitem _ ih =>
      rw [List.flatMap_cons, List.cons_append, nodesOfAll_symbolLeaf, List.singleton_append, nodesOfAll_cons, hitem, ih,
        List.singleton_append]
  cases h with
  | nil => rfl
  | cons hitem hitems => rw [commaTrees, nodesOfAll_cons, hitem, hothers hitems, List.singleton_append]

end Commas

/-! ### Names and types -/

theorem Name.nameIn_tree (name : Name) (rest : List JavaTree) : nameIn (name.tree line gap :: rest) = name.text := by
  have hfirst : firstLabelled .name (name.tree line gap :: rest) = some [wordLeaf gap line name.text] := rfl
  rw [nameIn, hfirst]
  dsimp only
  rw [sourceOf_wordLeaf, String.ofList_toList]

theorem source_flatMap {α : Type} (items : List α) (tokensOf : α → List Token) :
    Token.source (items.flatMap tokensOf) = items.flatMap fun item => Token.source (tokensOf item) :=
  List.flatMap_assoc

/-- The source of a dotted name, whether its parts are marked as names or not. -/
theorem Dotted.sourceOf_parts (name : Dotted) (treeOf : List Char → Name → JavaTree)
    (htree : ∀ gap part, (treeOf gap part).tokens = [wordToken gap line part.text]) :
    sourceOf (name.parts line treeOf gap) = name.text.toList := by
  rw [Dotted.parts, sourceOf, tokensOfAll_cons, htree, List.singleton_append, Token.slice, markedTrees,
    tokensOfAll_flatMap, source_flatMap, Dotted.toList_text]
  refine congrArg (name.first.text.toList ++ ·) (congrArg (name.rest.flatMap ·) (funext fun part => ?_))
  rw [tokensOfAll_cons, tokensOfAll_cons, htree]
  simp [symbolLeaf, symbolToken, wordToken, Token.source]

theorem Dotted.qualifiedNameIn_eq (name : Dotted) (line : Nat) (gap : List Char) (rest : List JavaTree) :
    qualifiedNameIn (name.qualifiedTree line gap :: rest) = name.text := by
  have hfirst : firstLabelled .qualifiedName (name.qualifiedTree line gap :: rest) =
      some (name.parts line (Name.leaf line) gap) := rfl
  rw [qualifiedNameIn, hfirst]
  dsimp only
  rw [name.sourceOf_parts (Name.leaf line) fun _ _ => tokens_leaf, unspaced_eq_self name.isBlank_text,
    String.ofList_toList]

theorem Name.tokens_tree (name : Name) : (name.tree line gap).tokens = [wordToken gap line name.text] := by
  rw [Name.tree, tokens_node, tokensOfAll_cons, wordLeaf, tokens_leaf, tokensOfAll_nil, List.append_nil]

theorem Dotted.erasedName_eq (name : Dotted) : erasedName (name.parts line (Name.tree line) gap) = name.text := by
  rw [erasedName, Dotted.parts, map_allLabelled_cons (Name.tree line) (fun gap part => [wordLeaf gap line part.text])
    (g := Name.text) (fun _ _ => rfl) (fun _ _ => by rw [sourceOf_wordLeaf, String.ofList_toList]), List.map_cons,
    Dotted.text]

theorem Dotted.opens_parts (name : Dotted) : Opens line (name.parts line (Name.tree line) gap) :=
  opens_wordLeaf.node.cons

theorem Dotted.simpleType_eq (name : Dotted) : simpleType (name.typeTree line gap) = name.written line := by
  rw [Dotted.typeTree, simpleType, writtenText, name.sourceOf_parts _ fun _ part => part.tokens_tree,
    squeezed_eq_self name.isBlank_text, String.ofList_toList, name.opens_parts.lineOf_eq, name.erasedName_eq,
    Dotted.written]

theorem Base.simpleType_eq (base : Base) : simpleType (base.tree line gap) = base.written line := by
  cases base with
  | named name => exact name.simpleType_eq
  | primitive word known =>
    have hblank := isBlank_of_isName (isName_of_mem_primitiveTypes word known)
    rw [Base.tree, simpleType, writtenText, sourceOf_wordLeaf, squeezed_eq_self hblank, String.ofList_toList,
      opens_wordLeaf.lineOf_eq, Base.written]

theorem Base.opens_tree (base : Base) : Opens line (base.tree line gap :: trees) := by
  cases base with
  | named name => exact name.opens_parts.node.cons
  | primitive word known => exact opens_wordLeaf.node.cons

theorem sourceOf_node {label : Part} : sourceOf [.node label trees] = sourceOf trees := by
  rw [sourceOf, sourceOf, tokensOfAll_cons, tokens_node, tokensOfAll_nil, List.append_nil]

theorem Base.sourceOf_tree (base : Base) : sourceOf [base.tree line gap] = base.text.toList := by
  cases base with
  | named name =>
    rw [Base.tree, Dotted.typeTree, sourceOf_node, name.sourceOf_parts _ fun _ part => part.tokens_tree, Base.text]
  | primitive word known => rw [Base.tree, sourceOf_node, sourceOf_wordLeaf, Base.text]

/-- What follows the first of some trees is added to its source as it stands. -/
theorem sourceOf_cons {tree : JavaTree} (h : Opens line [tree]) (more : List JavaTree) :
    sourceOf (tree :: more) = sourceOf [tree] ++ Token.source (tokensOfAll more) := by
  obtain ⟨token, rest, htokens, -⟩ := h
  rw [tokensOfAll_cons, tokensOfAll_nil, List.append_nil] at htokens
  rw [sourceOf, sourceOf, tokensOfAll_cons, tokensOfAll_cons, htokens, tokensOfAll_nil, List.append_nil,
    List.cons_append, Token.slice, Token.slice, source_append, List.append_assoc]

theorem source_dimensionTrees (n : Nat) :
    Token.source (tokensOfAll (dimensionTrees line n)) = (String.join (List.replicate n "[]")).toList := by
  rw [toList_dimensions]
  cases n with
  | zero => rfl
  | succ n =>
    rw [dimensionTrees, tokensOfAll_cons, tokens_node, tokensOfAll_nil, List.append_nil, tokensOfAll_flatMap,
      source_flatMap]
    refine congrArg (List.flatMap · _) (funext fun _ => ?_)
    simp [symbolLeaf, symbolToken, Token.source]

theorem TypeForm.writtenText_eq (type : TypeForm) (line : Nat) (gap : List Char) :
    writtenText (type.base.tree line gap :: dimensionTrees line type.dimensions) = type.text := by
  have hsource : sourceOf (type.base.tree line gap :: dimensionTrees line type.dimensions) = type.text.toList := by
    rw [sourceOf_cons type.base.opens_tree, type.base.sourceOf_tree, source_dimensionTrees, TypeForm.text,
      String.toList_append]
  rw [writtenText, hsource, squeezed_eq_self type.isBlank_text, String.ofList_toList]

theorem TypeForm.writtenType_eq (type : TypeForm) :
    writtenType (type.base.tree line gap :: dimensionTrees line type.dimensions) = type.written line := by
  have hopens : Opens line (type.base.tree line gap :: dimensionTrees line type.dimensions) := type.base.opens_tree
  have htext := type.writtenText_eq line gap
  rw [TypeForm.written]
  cases hdimensions : type.dimensions with
  | zero =>
    rw [dimensionTrees]
    cases type.base with
    | named name => exact name.simpleType_eq
    | primitive word known => exact (Base.primitive word known).simpleType_eq
  | succ n =>
    rw [hdimensions, dimensionTrees] at hopens htext
    have harray : writtenType (type.base.tree line gap :: dimensionTrees line (n + 1)) =
        .array (writtenText (type.base.tree line gap :: dimensionTrees line (n + 1)))
          (lineOf (type.base.tree line gap :: dimensionTrees line (n + 1)))
          (simpleType (type.base.tree line gap)) := by
      cases type.base <;> rfl
    rw [harray, dimensionTrees, htext, hopens.lineOf_eq, type.base.simpleType_eq]

theorem TypeForm.typeIn_tree (type : TypeForm) : typeIn (type.tree line gap :: trees) = type.written line :=
  type.writtenType_eq

theorem typeIn_resultTree (result : Option TypeForm) :
    typeIn (resultTree line gap result :: trees) = writtenResult line result := by
  cases result with
  | some type => exact type.typeIn_tree
  | none =>
    have hvoid : typeIn (resultTree line gap none :: trees) =
        .void (writtenText [wordLeaf gap line "void"]) (lineOf [wordLeaf gap line "void"]) := rfl
    rw [hvoid, writtenText, sourceOf_wordLeaf, squeezed_eq_self (isBlank_of_isName (by decide)), String.ofList_toList,
      opens_wordLeaf.lineOf_eq, writtenResult]

theorem opens_resultTree (result : Option TypeForm) : Opens line (resultTree line gap result :: trees) := by
  cases result with
  | none => exact opens_wordLeaf.node.node.cons
  | some type => exact type.base.opens_tree.node.cons

/-! ### Parts of declarations -/

/-- A list with commas, with a mark at its end. -/
theorem map_allLabelled_ended {α β : Type} {label : Part} (treeOf : List Char → α → JavaTree)
    (partsOf : List Char → α → List JavaTree) {f : List JavaTree → β} {g : α → β} {mark : String}
    (hnode : ∀ gap item, treeOf gap item = .node label (partsOf gap item))
    (hparts : ∀ gap item, f (partsOf gap item) = g item) (items : List α) :
    (allLabelled label (commaTrees line treeOf gap items ++ [symbolLeaf [] line mark])).map f = items.map g := by
  rw [allLabelled_append, allLabelled_symbolLeaf, allLabelled, List.append_nil,
    map_allLabelled_commaTrees treeOf partsOf hnode hparts]

theorem Dotted.writtenType_parts (name : Dotted) : writtenType [name.typeTree line gap] = name.written line :=
  name.simpleType_eq

theorem typesUnder_clauseTrees (line : Nat) (label : Part) (word : String) (types : List Dotted) (others : List JavaTree)
    (hothers : firstLabelled label others = none) :
    typesUnder label (clauseTrees label word line types ++ others) = types.map (Dotted.written line) := by
  cases types with
  | nil =>
    rw [typesUnder, clauseTrees, List.nil_append, hothers]
    rfl
  | cons type types =>
    rw [typesUnder, clauseTrees]
    · rw [List.cons_append, firstLabelled, if_pos (beq_self_eq_true label), Option.getD_some, allLabelled_wordLeaf,
        map_allLabelled_commaTrees (Dotted.useTree line) (fun gap name => [name.typeTree line gap]) (fun _ _ => rfl)
          fun _ name => name.writtenType_parts]
    · exact List.cons_ne_nil _ _

theorem parametersIn_eq {parameters : List ParameterForm}
    (h : firstLabelled .parameters trees = firstLabelled .parameters [parametersTree line parameters]) :
    parametersIn trees = parameters.map (ParameterForm.unit line) := by
  have hlisted : firstLabelled .parameters [parametersTree line parameters] =
      some (symbolLeaf [] line "(" ::
        (commaTrees line (ParameterForm.tree line) [] parameters ++ [symbolLeaf [] line ")"])) := rfl
  rw [parametersIn, h, hlisted]
  simp only [Option.getD_some, allLabelled_symbolLeaf]
  refine map_allLabelled_ended (ParameterForm.tree line)
    (fun gap parameter => [parameter.type.tree line gap, parameter.name.tree line [' ']]) (fun _ _ => rfl)
    (fun gap parameter => ?_) parameters
  have hname : parameterName [parameter.type.tree line gap, parameter.name.tree line [' ']] = parameter.name.text :=
    parameter.name.nameIn_tree []
  rw [hname, parameter.type.typeIn_tree, ParameterForm.unit]

theorem variablesIn_eq (type : TypeForm) (names : List Name) :
    variablesIn (type.tree line gap :: (commaTrees line (declaratorTree line) [' '] names ++ [symbolLeaf [] line ";"])) =
      names.map Name.text :=
  map_allLabelled_ended (declaratorTree line) (fun gap name => [name.tree line gap]) (fun _ _ => rfl)
    (fun _ name => name.nameIn_tree []) names

/-! ### Instantiations -/

/-- Behind the type of a creation, everything is lowered as it is elsewhere. -/
theorem creationNodes_true (trees : List JavaTree) : creationNodes true trees = nodesOfAll false trees := by
  induction trees with
  | nil => rfl
  | cons tree rest ih =>
    have hcons : creationNodes true (tree :: rest) = nodesOf false none tree ++ creationNodes true rest := by
      cases tree with
      | leaf => rfl
      | node label children => cases label <;> rfl
    rw [nodesOfAll_cons, hcons, ih]

theorem nodesOf_creationTree (type : Dotted) (arguments : List JavaTree) :
    nodesOf false none (creationTree line gap type arguments) =
      [.branch (.creation (type.written line) (lineNumber line)) (nodesOfAll false arguments)] := by
  let parts := wordLeaf gap line "new" :: type.useTree line [' '] :: symbolLeaf [] line "(" ::
    (arguments ++ [symbolLeaf [] line ")"])
  have hopens : Opens line parts := opens_wordLeaf
  have htype : typeIn parts = type.written line := type.writtenType_parts
  have hinside : creationNodes false parts = nodesOfAll false arguments := by
    have hbehind : creationNodes false parts =
        creationNodes true (symbolLeaf [] line "(" :: (arguments ++ [symbolLeaf [] line ")"])) := rfl
    rw [hbehind, creationNodes_true, nodesOfAll_symbolLeaf, nodesOfAll_append, nodesOfAll_symbolLeaf]
    exact List.append_nil _
  have hnode : nodesOf false none (creationTree line gap type arguments) =
      [.branch (.creation (typeIn parts) (lineOf parts)) (creationNodes false parts)] := rfl
  rw [hnode, htype, hopens.lineOf_eq, hinside]

theorem Creations.nodesOf_chains (creations : Creations) :
    List.Forall₂ (fun chain node => ∀ gap, nodesOf false Option.none (placed gap chain) = [node]) (creations.chains line)
      (creations.nodesOn line) := by
  induction creations with
  | none => exact .nil
  | new type arguments rest harguments hrest =>
    refine .cons (fun gap => ?_) hrest
    rw [placed, nodesOf_creationTree, nodesOfAll_commaTrees placed harguments]

theorem Creations.nodesOfAll_statements (creations : Creations) :
    nodesOfAll false (creations.statements line) = creations.nodesFrom line := by
  induction creations generalizing line with
  | none => rfl
  | new type arguments rest _ ih =>
    rw [Creations.statements, nodesOfAll_cons, nodesOf_creationTree, nodesOfAll_symbolLeaf, ih, argumentTrees,
      nodesOfAll_commaTrees placed arguments.nodesOf_chains, Creations.nodesFrom, List.singleton_append]

/-! ### Declarations -/

theorem nodesOfAll_block (nested : Bool) {last : Nat} {inside : List JavaTree} :
    nodesOfAll nested (symbolLeaf [' '] line "\x7b" :: (inside ++ [symbolLeaf ['\n'] last "\x7d"])) =
      nodesOfAll nested inside := by
  rw [nodesOfAll_symbolLeaf, nodesOfAll_append, nodesOfAll_symbolLeaf]
  exact List.append_nil _

/-- A declaration adds the node that its head says, over the nodes of its parts. -/
theorem nodesOf_declarationTree {nested : Bool} {label : Part} {parts : List JavaTree} {head : Head}
    (hopens : Opens line parts) (hhead : declaredHead (lineNumber line) nested label parts = some head) :
    nodesOf nested none (declarationTree label parts) = [.branch head (partNodes parts)] := by
  have hnode : nodesOf nested (some (lineNumber line)) (.node label parts) = [.branch head (partNodes parts)] := by
    have hmatch : nodesOf nested (some (lineNumber line)) (.node label parts) =
        (declaredHead (lineNumber line) nested label parts).elim (nodesOfAll (isTypeBody label) parts)
          fun head => [.branch head (partNodes parts)] := by
      cases label with
      | classType | interfaceType | enumType | recordType | annotationType | field | method | constructor => rfl
      | _ => cases hhead
    rw [hmatch, hhead, Option.elim_some]
  have hdeclared : declaredNodes nested (lineNumber line) [.node label parts] =
      nodesOf nested (some (lineNumber line)) (.node label parts) ++ [] := by
    cases label with
    | modifiers => cases hhead
    | _ => rfl
  have hdeclaration : nodesOf nested none (declarationTree label parts) =
      declaredNodes nested (lineOf [.node label parts]) [.node label parts] := rfl
  rw [hdeclaration, hopens.node.lineOf_eq, hdeclared, hnode, List.append_nil]

theorem partNodes_cons (tree : JavaTree) (rest : List JavaTree) :
    partNodes (tree :: rest) = partNodes [tree] ++ partNodes rest := by
  cases tree with
  | leaf => rfl
  | node label children =>
    cases label with
    | typeBody | block | declarator =>
      refine congrArg (· ++ partNodes rest) ?_
      exact (List.append_nil _).symm
    | _ => rfl

theorem partNodes_append (front back : List JavaTree) :
    partNodes (front ++ back) = partNodes front ++ partNodes back := by
  induction front with
  | nil => rfl
  | cons tree front ih => rw [List.cons_append, partNodes_cons, ih, partNodes_cons tree front, List.append_assoc]

theorem partNodes_declarators (names : List Name) :
    partNodes (commaTrees line (declaratorTree line) gap names) = [] := by
  have hvariable (gap : List Char) (name : Name) (rest : List JavaTree) :
      partNodes (declaratorTree line gap name :: rest) = partNodes rest := rfl
  cases names with
  | nil => rfl
  | cons name names =>
    rw [commaTrees, hvariable, markedTrees]
    induction names with
    | nil => rfl
    | cons name names ih =>
      rw [List.flatMap_cons, List.cons_append, partNodes_symbolLeaf, List.singleton_append, hvariable, ih]

theorem nodesOf_fieldTree (nested : Bool) (type : TypeForm) (names : List Name) :
    nodesOf nested none (declarationTree .field
      (type.tree line gap :: (commaTrees line (declaratorTree line) [' '] names ++ [symbolLeaf [] line ";"]))) =
      [.branch (.field (type.written line) (names.map Name.text) (lineNumber line)) []] := by
  have hhead : declaredHead (lineNumber line) nested .field (type.tree line gap ::
      (commaTrees line (declaratorTree line) [' '] names ++ [symbolLeaf [] line ";"])) =
        some (.field (type.written line) (names.map Name.text) (lineNumber line)) := by
    rw [← variablesIn_eq type names, ← type.typeIn_tree]
    rfl
  have hparts : partNodes (type.tree line gap ::
      (commaTrees line (declaratorTree line) [' '] names ++ [symbolLeaf [] line ";"])) = [] := by
    rw [partNodes_cons, partNodes_append, partNodes_declarators]
    rfl
  have hopens : Opens line [type.tree line gap] := type.base.opens_tree.node
  rw [nodesOf_declarationTree hopens.cons hhead, hparts]

theorem partNodes_block (below : List JavaTree) : partNodes [.node .block below] = nodesOfAll false below :=
  List.append_nil _

theorem partNodes_typeBody (below : List JavaTree) : partNodes [.node .typeBody below] = nodesOfAll true below :=
  List.append_nil _

theorem partNodes_bodyTree (body : Creations) : partNodes [bodyTree line body] = body.nodesFrom (line + 1) := by
  rw [bodyTree, blockTree, partNodes_block, nodesOfAll_block, body.nodesOfAll_statements]

theorem partNodes_name (name : Name) : partNodes (name.tree line gap :: trees) = partNodes trees := rfl

theorem partNodes_parameters (parameters : List ParameterForm) :
    partNodes (parametersTree line parameters :: trees) = partNodes trees := rfl

theorem partNodes_resultTree (result : Option TypeForm) :
    partNodes (resultTree line gap result :: trees) = partNodes trees := by
  cases result <;> rfl

theorem partNodes_methodEnd (body : Option Creations) :
    partNodes [methodEnd line body] = bodyNodes (line + 1) body := by
  cases body with
  | none => rfl
  | some body => rw [methodEnd, partNodes_bodyTree, bodyNodes]

theorem nodesOf_methodTree (nested : Bool) (result : Option TypeForm) (name : Name) (parameters : List ParameterForm)
    (body : Option Creations) :
    nodesOf nested none (declarationTree .method
      [resultTree line gap result, name.tree line [' '], parametersTree line parameters, methodEnd line body]) =
      [.branch
        (.method name.text (writtenResult line result) (parameters.map (ParameterForm.unit line)) (lineNumber line))
        (bodyNodes (line + 1) body)] := by
  let parts := [resultTree line gap result, name.tree line [' '], parametersTree line parameters, methodEnd line body]
  have hname : nameIn parts = name.text := by
    cases result <;> exact name.nameIn_tree [parametersTree line parameters, methodEnd line body]
  have htype : typeIn parts = writtenResult line result := typeIn_resultTree result
  have hparameters : parametersIn parts = parameters.map (ParameterForm.unit line) := by
    refine parametersIn_eq ?_
    cases result <;> rfl
  have hhead : declaredHead (lineNumber line) nested .method parts = some
      (.method name.text (writtenResult line result) (parameters.map (ParameterForm.unit line)) (lineNumber line)) := by
    rw [← hname, ← htype, ← hparameters]
    rfl
  rw [nodesOf_declarationTree (opens_resultTree result) hhead, partNodes_resultTree, partNodes_name,
    partNodes_parameters, partNodes_methodEnd]

theorem nodesOf_constructorTree (nested : Bool) (name : Name) (parameters : List ParameterForm) (body : Creations) :
    nodesOf nested none (declarationTree .constructor
      [name.tree line gap, parametersTree line parameters, bodyTree line body]) =
      [.branch (.constructor name.text (parameters.map (ParameterForm.unit line)) (lineNumber line))
        (body.nodesFrom (line + 1))] := by
  have hopens : Opens line [name.tree line gap, parametersTree line parameters, bodyTree line body] :=
    opens_wordLeaf.node.cons
  have hhead : declaredHead (lineNumber line) nested .constructor
      [name.tree line gap, parametersTree line parameters, bodyTree line body] =
        some (.constructor name.text (parameters.map (ParameterForm.unit line)) (lineNumber line)) := by
    have hparameters : parametersIn [name.tree line gap, parametersTree line parameters, bodyTree line body] =
        parameters.map (ParameterForm.unit line) := parametersIn_eq rfl
    rw [← hparameters, ← name.nameIn_tree [parametersTree line parameters, bodyTree line body]]
    rfl
  rw [nodesOf_declarationTree hopens hhead, partNodes_name, partNodes_parameters, partNodes_bodyTree]

/-- A clause is passed over where another one is looked for. -/
theorem firstLabelled_clauseTrees (line : Nat) {label other : Part} (hlabel : (other == label) = false) (word : String)
    (types : List Dotted) (rest : List JavaTree) :
    firstLabelled label (clauseTrees other word line types ++ rest) = firstLabelled label rest := by
  cases types with
  | nil => rfl
  | cons type types => exact if_neg (by simp [hlabel])

theorem partNodes_clauseTrees {label : Part} (hlabel : label = .extended ∨ label = .implemented) (word : String)
    (types : List Dotted) (rest : List JavaTree) :
    partNodes (clauseTrees label word line types ++ rest) = partNodes rest := by
  cases types with
  | nil => rfl
  | cons type types => rcases hlabel with rfl | rfl <;> rfl

theorem partNodes_header (header : Header) (rest : List JavaTree) :
    partNodes (header.trees line gap ++ rest) = partNodes rest := by
  cases header with
  | classType name extended implemented =>
    rw [Header.trees, List.cons_append, partNodes_wordLeaf, List.cons_append, partNodes_name, List.append_assoc,
      partNodes_clauseTrees (Or.inl rfl), partNodes_clauseTrees (Or.inr rfl)]
  | interfaceType name extended =>
    rw [Header.trees, List.cons_append, partNodes_wordLeaf, List.cons_append, partNodes_name,
      partNodes_clauseTrees (Or.inl rfl)]

/-- The head of a type declaration is read off its trees, whatever its body. -/
theorem declaredHead_header (nested : Bool) (header : Header) (below : List JavaTree) :
    declaredHead (lineNumber line) nested header.label (header.trees line gap ++ [.node .typeBody below]) =
      some (.type (header.unit line nested)) := by
  cases header with
  | classType name extended implemented =>
    let parts := (Header.classType name extended implemented).trees line gap ++ [.node .typeBody below]
    have hname : nameIn parts = name.text :=
      name.nameIn_tree ((clauseTrees .extended "extends" line extended.toList ++
        clauseTrees .implemented "implements" line implemented) ++ [.node .typeBody below])
    have hextended : typesUnder .extended parts = extended.toList.map (Dotted.written line) := by
      have hnone : firstLabelled .extended
          (clauseTrees .implemented "implements" line implemented ++ [.node .typeBody below]) = none :=
        firstLabelled_clauseTrees line rfl "implements" implemented _
      have hclause := typesUnder_clauseTrees line .extended "extends" extended.toList _ hnone
      rwa [← List.append_assoc] at hclause
    have himplemented : typesUnder .implemented parts = implemented.map (Dotted.written line) := by
      have hclause := typesUnder_clauseTrees line .implemented "implements" implemented [.node .typeBody below] rfl
      have hskipped (others : List JavaTree) : firstLabelled .implemented
          (clauseTrees .extended "extends" line extended.toList ++ others) = firstLabelled .implemented others :=
        firstLabelled_clauseTrees line rfl "extends" extended.toList others
      rw [typesUnder, ← hskipped, ← List.append_assoc] at hclause
      exact hclause
    rw [Header.unit, ← hname, ← hextended, ← himplemented]
    rfl
  | interfaceType name extended =>
    let parts := (Header.interfaceType name extended).trees line gap ++ [.node .typeBody below]
    have hname : nameIn parts = name.text :=
      name.nameIn_tree (clauseTrees .extended "extends" line extended ++ [.node .typeBody below])
    have hextended : typesUnder .extended parts = extended.map (Dotted.written line) :=
      typesUnder_clauseTrees line .extended "extends" extended [.node .typeBody below] rfl
    have himplemented : typesUnder .implemented parts = [] := by
      have hskipped (others : List JavaTree) : firstLabelled .implemented
          (clauseTrees .extended "extends" line extended ++ others) = firstLabelled .implemented others :=
        firstLabelled_clauseTrees line rfl "extends" extended others
      have hparts : typesUnder .implemented parts = typesUnder .implemented
          (clauseTrees .extended "extends" line extended ++ [.node .typeBody below]) := rfl
      rw [hparts, typesUnder, hskipped]
      rfl
    rw [Header.unit, ← hname, ← hextended, ← himplemented]
    rfl

theorem nodesOf_typeTree (nested : Bool) (header : Header) (height : Nat) (members : List JavaTree) :
    nodesOf nested none (typeTree line gap header height members) =
      [.branch (.type (header.unit line nested)) (nodesOfAll true members)] := by
  have hopens : Opens line (header.trees line gap ++ [blockTree .typeBody line (line + 1 + height) members]) := by
    cases header <;> exact opens_wordLeaf
  rw [typeTree, nodesOf_declarationTree hopens (declaredHead_header nested header _), partNodes_header, blockTree,
    partNodes_typeBody, nodesOfAll_block]

/-- **The trees of members are lowered to the nodes of the members.** -/
theorem Members.nodesOfAll_trees {isClass : Bool} (members : Members isClass) :
    nodesOfAll true (members.trees line) = members.nodes line := by
  induction members generalizing line with
  | none => rfl
  | field type first others rest ih =>
    rw [Members.trees, nodesOfAll_cons, nodesOf_fieldTree, ih, Members.nodes, List.singleton_append]
  | method result name parameters body rest ih =>
    rw [Members.trees, nodesOfAll_cons, nodesOf_methodTree, ih, Members.nodes, List.singleton_append]
  | constructor name parameters body rest ih =>
    rw [Members.trees, nodesOfAll_cons, nodesOf_constructorTree, ih, Members.nodes, List.singleton_append]
  | nested header inside rest ihInside ihRest =>
    rw [Members.trees, nodesOfAll_cons, nodesOf_typeTree, ihInside, ihRest, Members.nodes, List.singleton_append]

/-! ### Whole sources -/

theorem nodesOf_importTree (item : ImportForm) (gap : List Char) :
    nodesOf false none ((Item.imported item).tree line gap) = [(Item.imported item).node line] := by
  have hnode (parts : List JavaTree) : nodesOf false none (.node .importHeader parts) = [importNode parts] := rfl
  have hopens (more : List JavaTree) : lineOf (wordLeaf gap line "import" :: more) = lineNumber line :=
    opens_wordLeaf.lineOf_eq
  have hname := item.name.qualifiedNameIn_eq line [' ']
    ((if item.isWildcard then [symbolLeaf [] line ".", symbolLeaf [] line "*"] else []) ++ [symbolLeaf [] line ";"])
  rw [Item.tree, hnode, importNode, hopens, Item.node, ← hname]
  obtain ⟨name, isStatic, isWildcard⟩ := item
  cases isStatic <;> cases isWildcard
  all_goals rfl

theorem nodesOf_packageTree (name : Dotted) (gap : List Char) :
    nodesOf false none ((Item.package name).tree line gap) = [(Item.package name).node line] := by
  have hnode (parts : List JavaTree) : nodesOf false none (.node .packageHeader parts) = [packageNode parts] := rfl
  have hname : qualifiedNameIn [wordLeaf gap line "package", name.qualifiedTree line [' '], symbolLeaf [] line ";"] =
      name.text := name.qualifiedNameIn_eq line [' '] [symbolLeaf [] line ";"]
  rw [Item.tree, hnode, packageNode, hname, opens_wordLeaf.lineOf_eq, Item.node]

theorem Item.nodesOf_tree (item : Item) (gap : List Char) :
    nodesOf false none (item.tree line gap) = [item.node line] := by
  cases item with
  | package name => exact nodesOf_packageTree name gap
  | imported item => exact nodesOf_importTree item gap
  | type header members => rw [Item.tree, nodesOf_typeTree, members.nodesOfAll_trees, Item.node]

theorem nodesOfAll_itemTrees (items : List Item) (gap : List Char) :
    nodesOfAll false (itemTrees line gap items) = nodesFrom line items := by
  induction items generalizing line gap with
  | nil => rfl
  | cons item items ih => rw [itemTrees, nodesOfAll_cons, item.nodesOf_tree, ih, nodesFrom, List.singleton_append]

/-- **The trees of a skeleton are lowered to its unit.** -/
theorem ofTrees_trees (skeleton : Skeleton) : ofTrees skeleton.trees = skeleton.unit := by
  rw [ofTrees, Skeleton.trees, nodesOfAll_itemTrees, unit]

end JavaAtlas.Skeleton

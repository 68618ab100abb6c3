import JavaAtlas.Proofs.Skeleton.Trees
import JavaAtlas.Proofs.Syntax.Foresight
import JavaAtlas.Proofs.Syntax.Progress

/-!
# Parsing what was printed

The grammar reads the trees of every skeleton. Each part is read on its own, in front of any tokens that begin in one of
a few ways; which alternatives of the grammar are out of the question at the head of a part is computed from its first
token or two. Left to be argued are the places where the grammar reads on before it comes to another alternative: a
method up to the bracket where a field would end, a parameter in place of a receiver, and an instantiation as the
object in front of a constructor call.
-/

namespace JavaAtlas.Skeleton

open JavaAtlas.Syntax JavaAtlas.SourceUnit Pattern Construct ParseTree

variable {gap : List Char} {line : Nat} {rest : List Token} {trees : List JavaTree} {p q : JavaPattern}

/-! ### The first tokens of a part -/

/-- The words that the grammar speaks of: only they can be taken for anything but names. -/
def vocabulary : List String :=
  "non" :: reservedWords

def wordKind (spelling : String) : Kind :=
  .exactly (.word spelling)

def symbolKind (spelling : String) : Kind :=
  .exactly (.symbol spelling)

/-- The kinds of names: the grammar speaks of one word that is no keyword. -/
def nameKinds : List Kind :=
  [.plain, wordKind "non"]

abbrev Starting (openings : List (List Kind)) (tokens : List Token) : Prop :=
  Starts vocabulary openings tokens

/-- The ways for a single symbol to begin. -/
def symbolOpenings (spellings : List String) : List (List Kind) :=
  spellings.map fun spelling => [symbolKind spelling]

def wordOpenings (spellings : List String) : List (List Kind) :=
  spellings.map fun spelling => [wordKind spelling]

def nameOpenings : List (List Kind) :=
  nameKinds.map fun kind => [kind]

theorem Name.fits (name : Name) : ∃ kind ∈ nameKinds, kind.Fits vocabulary (.word name.text) := by
  by_cases hnon : name.text = "non"
  · exact ⟨wordKind "non", by decide, congrArg Lexeme.word hnon⟩
  · refine ⟨.plain, by decide, name.text, rfl, ?_⟩
    rw [vocabulary, List.mem_cons, not_or]
    exact ⟨hnon, name.unreserved⟩

theorem starts_symbol {spelling : String} :
    Starting (symbolOpenings [spelling]) (tokensOfAll (symbolLeaf gap line spelling :: trees) ++ rest) := by
  refine ⟨[symbolKind spelling], List.mem_singleton_self _, ?_⟩
  rw [tokensOfAll_cons, symbolLeaf, tokens_leaf]
  exact ⟨rfl, trivial⟩

theorem starts_word {spelling : String} :
    Starting (wordOpenings [spelling]) (tokensOfAll (wordLeaf gap line spelling :: trees) ++ rest) := by
  refine ⟨[wordKind spelling], List.mem_singleton_self _, ?_⟩
  rw [tokensOfAll_cons, wordLeaf, tokens_leaf]
  exact ⟨rfl, trivial⟩

theorem starts_leaf (name : Name) :
    Starting nameOpenings (tokensOfAll (name.leaf line gap :: trees) ++ rest) := by
  obtain ⟨kind, hmem, hfits⟩ := name.fits
  refine ⟨[kind], List.mem_map.2 ⟨kind, hmem, rfl⟩, ?_⟩
  rw [tokensOfAll_cons, Name.leaf, wordLeaf, tokens_leaf]
  exact ⟨hfits, trivial⟩

theorem starts_node {openings : List (List Kind)} {label : Part} {children : List JavaTree}
    (h : Starting openings (tokensOfAll children ++ (tokensOfAll trees ++ rest))) :
    Starting openings (tokensOfAll (.node label children :: trees) ++ rest) := by
  rwa [tokensOfAll_cons, tokens_node, List.append_assoc]

theorem starts_name (name : Name) :
    Starting nameOpenings (tokensOfAll (name.tree line gap :: trees) ++ rest) :=
  starts_node (starts_leaf name)

/-! ### Steps of reading -/

/-- How far the grammar is followed to see an alternative refused. -/
def depth : Nat := 80

theorem reads_skip {openings : List (List Kind)} (h : Starting openings (tokensOfAll trees ++ rest))
    (hskip : ∀ kinds ∈ openings, skip body vocabulary depth kinds p = q) (hq : Reads body q trees rest) :
    Reads body p trees rest :=
  Answers.of_skip h hskip hq

theorem reads_foremost {openings : List (List Kind)} (h : Starting openings (tokensOfAll trees ++ rest))
    (hforemost : ∀ kinds ∈ openings, (skip body vocabulary depth kinds p).foremost = q) (hq : Reads body q trees rest) :
    Reads body p trees rest :=
  Reads.of_foremost h hforemost hq

theorem reads_nothing {openings : List (List Kind)} (h : Starting openings rest)
    (hforesee : ∀ kinds ∈ openings, foresee body vocabulary depth kinds p = .passed) : Reads body p [] rest :=
  Reads.of_foresee h hforesee

theorem refuses {openings : List (List Kind)} {tokens : List Token} (h : Starting openings tokens)
    (hforesee : ∀ kinds ∈ openings, foresee body vocabulary depth kinds p = .refused) : Refuses body p tokens :=
  Refuses.of_foresee h hforesee

theorem reads_symbol {spelling : String} : Reads body (symbol spelling) [symbolLeaf gap line spelling] rest :=
  Reads.token (by simp [Expected.accepts, symbolToken]) rfl

theorem reads_oneWord {spellings : List String} {spelling : String} (hmem : spelling ∈ spellings) :
    Reads body (oneWord spellings) [wordLeaf gap line spelling] rest :=
  Reads.token (List.contains_iff_mem.2 hmem) rfl

theorem reads_word {spelling : String} : Reads body (word spelling) [wordLeaf gap line spelling] rest :=
  reads_oneWord (List.mem_singleton_self _)

/-- A name is read wherever only keywords are left out. -/
theorem Name.reads_leaf (name : Name) {except : List String} (hexcept : ∀ word ∈ except, word ∈ reservedWords) :
    Reads body (Pattern.name except) [wordLeaf gap line name.text] rest := by
  refine Reads.token ?_ rfl
  rw [wordToken, Expected.accepts, Bool.not_eq_true', Bool.eq_false_iff]
  exact fun hmem => name.unreserved (hexcept _ (List.contains_iff_mem.1 hmem))

theorem Name.reads (name : Name) {except : List String} (hexcept : ∀ word ∈ except, word ∈ reservedWords) :
    Reads body (named except) [name.tree line gap] rest :=
  Reads.node (name.reads_leaf hexcept)

/-! ### Lists -/

section Lists

variable {α : Type} {ends : List (List Kind)}

/-- Items behind marks, where an item may be followed by a mark or by what follows them all. -/
theorem reads_marked (line : Nat) (mark : String) (treeOf : α → JavaTree) (items : List α) (hrest : Starting ends rest)
    (hends : ∀ kinds ∈ ends, foresee body vocabulary depth kinds (.seq (symbol mark) p) = .refused)
    (hitem : ∀ item ∈ items, ∀ after, Starting (symbolOpenings [mark] ++ ends) after →
      Reads body p [treeOf item] after) :
    Reads body (.many (.seq (symbol mark) p)) (markedTrees (symbolLeaf [] line mark) treeOf items) rest ∧
      Starting (symbolOpenings [mark] ++ ends)
        (tokensOfAll (markedTrees (symbolLeaf [] line mark) treeOf items) ++ rest) := by
  refine Reads.many_flatMap takes_body rfl (hrest.mono fun _ => List.mem_append_right _) (refuses hrest hends) ?_ ?_
  · intro item hmem after hafter
    exact reads_symbol.cons (hitem item hmem after hafter)
  · intro item hmem after
    exact starts_symbol.mono fun _ => List.mem_append_left _

theorem reads_list {treeOf : List Char → α → JavaTree} {first : α} {others : List α} (hrest : Starting ends rest)
    (hends : ∀ kinds ∈ ends, foresee body vocabulary depth kinds (.seq (symbol ",") p) = .refused)
    (hitem : ∀ item ∈ first :: others, ∀ gap after, Starting (symbolOpenings [","] ++ ends) after →
      Reads body p [treeOf gap item] after) :
    Reads body (Pattern.list p) (commaTrees line treeOf gap (first :: others)) rest := by
  obtain ⟨hothers, hnext⟩ := reads_marked line "," (treeOf [' ']) others hrest hends fun item hmem =>
    hitem item (List.mem_cons_of_mem _ hmem) [' ']
  exact (hitem first List.mem_cons_self gap _ hnext).cons hothers

end Lists

/-! ### Names and types -/

/-- What may follow a type that is declared with, and what may follow one that is created. -/
def typeEnds : List (List Kind) :=
  nameOpenings ++ symbolOpenings [",", "\x7b"] ++ wordOpenings ["implements"]

def simpleTypeEnds : List (List Kind) :=
  symbolOpenings ["[", "("] ++ typeEnds

theorem Dotted.starts_typeTree (name : Dotted) :
    Starting nameOpenings (tokensOfAll (name.typeTree line gap :: trees) ++ rest) :=
  starts_node (starts_name name.first)

theorem Dotted.reads_typeTree (name : Dotted) (hrest : Starting simpleTypeEnds rest) :
    Reads body (.rule .simpleType) [name.typeTree line gap] rest := by
  obtain ⟨hothers, hnext⟩ := reads_marked line "." (Name.tree line []) name.rest
    (p := all [annotations, named [], optional (.rule .typeArguments)]) hrest (by decide)
    fun part _ after hafter => (reads_nothing (starts_name part) (by decide)).pass
      ((part.reads (by decide)).last (reads_nothing hafter (by decide)))
  refine Reads.rule (reads_skip name.starts_typeTree (q := .node .named (all [named simpleTypeWords,
    optional (.rule .typeArguments), .many (all [symbol ".", annotations, named [], optional (.rule .typeArguments)])]))
    (by decide) (Reads.node ?_))
  exact (name.first.reads (by decide)).cons ((reads_nothing hnext (by decide)).pass hothers)

theorem Base.reads (base : Base) (hrest : Starting simpleTypeEnds rest) :
    Reads body (.rule .simpleType) [base.tree line gap] rest := by
  cases base with
  | named name => exact name.reads_typeTree hrest
  | primitive word known => exact Reads.rule (Reads.first (Reads.node (reads_oneWord known)))

theorem reads_dimensions (n : Nat) (hrest : Starting typeEnds rest) :
    Reads body (optional (.rule .dimensions)) (dimensionTrees line n) rest ∧
      Starting simpleTypeEnds (tokensOfAll (dimensionTrees line n) ++ rest) := by
  cases n with
  | zero => exact ⟨reads_nothing hrest (by decide), hrest.mono fun _ => List.mem_append_right _⟩
  | succ n =>
    have hpair (after : List Token) : Reads body (all [annotations, symbol "[", symbol "]"])
        [symbolLeaf [] line "[", symbolLeaf [] line "]"] after :=
      (reads_nothing starts_symbol (by decide)).pass (reads_symbol.cons reads_symbol)
    obtain ⟨hmore, -⟩ : Reads body (.many (all [annotations, symbol "[", symbol "]"]))
        ((List.replicate n ()).flatMap fun _ => [symbolLeaf [] line "[", symbolLeaf [] line "]"]) rest ∧ True :=
      Reads.many_flatMap takes_body rfl (P := fun _ => True) trivial (refuses hrest (by decide))
        (fun _ _ after _ => hpair after) fun _ _ _ => trivial
    refine ⟨Reads.first (Reads.rule (Reads.node (Reads.seq (hpair _) hmore))), ?_⟩
    exact starts_node (starts_symbol.mono (by decide))

theorem TypeForm.reads (type : TypeForm) (hrest : Starting typeEnds rest) :
    Reads body (.rule .plainType) [type.tree line gap] rest := by
  obtain ⟨hdimensions, hnext⟩ := reads_dimensions type.dimensions hrest
  exact Reads.rule (Reads.node ((type.base.reads hnext).cons hdimensions))

theorem reads_result (result : Option TypeForm) (hrest : Starting typeEnds rest) :
    Reads body (.rule .plainType) [resultTree line gap result] rest := by
  cases result with
  | some type => exact type.reads hrest
  | none =>
    have hvoid : Reads body (.rule .simpleType) [.node .void [wordLeaf gap line "void"]] rest :=
      Reads.rule (reads_foremost (starts_node starts_word) (by decide) (Reads.node reads_word))
    exact Reads.rule (Reads.node (hvoid.last (reads_nothing hrest (by decide))))

theorem Dotted.reads_useTree (name : Dotted) (hrest : Starting typeEnds rest) :
    Reads body (.rule .typeUse) [name.useTree line gap] rest := by
  refine Reads.rule (Reads.node ((reads_nothing name.starts_typeTree (by decide)).pass ?_))
  exact (name.reads_typeTree (hrest.mono fun _ => List.mem_append_right _)).last (reads_nothing hrest (by decide))

/-! ### Headers -/

/-- What may follow a name in a header: its end, or the rest of a wildcard. -/
def headerEnds : List (List Kind) :=
  [[symbolKind ";"], [symbolKind ".", symbolKind "*"]]

theorem Dotted.reads_qualifiedTree (name : Dotted) (hrest : Starting headerEnds rest) :
    Reads body (.rule .qualifiedName) [name.qualifiedTree line gap] rest := by
  obtain ⟨hothers, -⟩ := reads_marked line "." (Name.leaf line []) name.rest (p := Pattern.name []) hrest (by decide)
    fun part _ _ _ => part.reads_leaf (by decide)
  exact Reads.rule (Reads.node ((name.first.reads_leaf (by decide)).cons hothers))

theorem Dotted.reads_packageHeader (name : Dotted) :
    Reads body (.rule .packageHeader) [Item.tree line gap (.package name)] rest := by
  refine Reads.rule (Reads.node ((reads_nothing starts_word (by decide)).pass ?_))
  refine reads_word.cons (Reads.cons (name.reads_qualifiedTree ?_) reads_symbol)
  exact starts_symbol.mono (by decide)

theorem ImportForm.reads_importHeader (item : ImportForm) :
    Reads body (.rule .importHeader) [Item.tree line gap (.imported item)] rest := by
  obtain ⟨name, isStatic, isWildcard⟩ := item
  have hstatic {more : List JavaTree} : Reads body (optional (word "static"))
      (if isStatic then [wordLeaf [' '] line "static"] else [])
      (tokensOfAll (name.qualifiedTree line [' '] :: more) ++ rest) := by
    cases isStatic with
    | true => exact Reads.first reads_word
    | false => exact reads_nothing (starts_node (starts_leaf name.first)) (by decide)
  have hwildcard : Reads body (optional (all [symbol ".", symbol "*"]))
      (if isWildcard then [symbolLeaf [] line ".", symbolLeaf [] line "*"] else [])
      (tokensOfAll [symbolLeaf [] line ";"] ++ rest) := by
    cases isWildcard with
    | true => exact Reads.first (reads_symbol.cons reads_symbol)
    | false => exact reads_nothing starts_symbol (by decide)
  have hend : Starting headerEnds (tokensOfAll ((if isWildcard then
      [symbolLeaf [] line ".", symbolLeaf [] line "*"] else []) ++ [symbolLeaf [] line ";"]) ++ rest) := by
    cases isWildcard with
    | true => exact ⟨[symbolKind ".", symbolKind "*"], by decide, rfl, rfl, trivial⟩
    | false => exact ⟨[symbolKind ";"], by decide, rfl, trivial⟩
  exact Reads.rule (Reads.node (reads_word.cons (hstatic.seq ((name.reads_qualifiedTree hend).cons
    (hwildcard.seq reads_symbol)))))

/-! ### Instantiations -/

/-- What may follow an instantiation: the end of a statement, or an argument or their end. -/
def creationEnds : List (List Kind) :=
  symbolOpenings [";", ",", ")"]

theorem reads_between {opening closing : String} {first last : Nat} {before behind : List Char}
    (h : Reads body p trees (tokensOfAll [symbolLeaf behind last closing] ++ rest)) :
    Reads body (all [symbol opening, p, symbol closing])
      (symbolLeaf before first opening :: (trees ++ [symbolLeaf behind last closing])) rest :=
  reads_symbol.cons (h.seq reads_symbol)

/-- An instantiation is a chain of links with no link to follow. -/
theorem reads_creationTree (type : Dotted) {arguments : List JavaTree} {arrows : Bool}
    (harguments : ∀ after, Reads body (.rule .arguments)
      (symbolLeaf [] line "(" :: (arguments ++ [symbolLeaf [] line ")"])) after)
    (hrest : Starting creationEnds rest) :
    Reads body (.rule (.chain arrows)) [creationTree line gap type arguments] rest := by
  have htype (after : List Token) : Reads body createdType [type.useTree line [' ']]
      (tokensOfAll (symbolLeaf [] line "(" :: (arguments ++ [symbolLeaf [] line ")"])) ++ after) :=
    Reads.node (type.reads_typeTree (starts_symbol.mono (by decide)))
  have hcreation : Reads body objectCreation
      (wordLeaf gap line "new" :: type.useTree line [' '] :: symbolLeaf [] line "(" ::
        (arguments ++ [symbolLeaf [] line ")"])) rest := by
    refine reads_word.cons ((reads_nothing (starts_node (starts_node (starts_name _))) (by decide)).pass ?_)
    exact (htype _).cons ((harguments _).last (reads_nothing hrest (by decide)))
  have hhead : Reads body valueHead
      [.node .creation (wordLeaf gap line "new" :: type.useTree line [' '] :: symbolLeaf [] line "(" ::
        (arguments ++ [symbolLeaf [] line ")"]))] rest :=
    reads_skip (starts_node starts_word) (q := .rule .creation) (by decide)
      (Reads.rule (Reads.first (Reads.node hcreation)))
  refine Reads.rule (Reads.node (Reads.first (hhead.last (reads_nothing hrest ?_))))
  cases arrows <;> decide

theorem starts_creationTree (type : Dotted) (arguments : List JavaTree) :
    Starting (wordOpenings ["new"]) (tokensOfAll (creationTree line gap type arguments :: trees) ++ rest) :=
  starts_node (starts_node starts_word)

/-- An instantiation is an expression of its own, with no operator behind it. -/
theorem reads_expression (type : Dotted) {arguments : List JavaTree}
    (harguments : ∀ after, Reads body (.rule .arguments)
      (symbolLeaf [] line "(" :: (arguments ++ [symbolLeaf [] line ")"])) after)
    (hrest : Starting creationEnds rest) :
    Reads body (.rule (.expression true)) [creationTree line gap type arguments] rest := by
  have hoperand : Reads body (.rule (.operand true)) [creationTree line gap type arguments] rest :=
    Reads.rule ((reads_foremost (starts_creationTree type arguments) (q := .rule (.chain true)) (by decide)
      (reads_creationTree type harguments hrest)).last (reads_nothing hrest (by decide)))
  exact Reads.rule (hoperand.last (reads_nothing hrest (by decide)))

theorem reads_argumentTrees (arguments : Creations)
    (hchains : ∀ chain ∈ arguments.chains line, ∀ gap rest, Starting creationEnds rest →
      Reads body (.rule (.expression true)) [chain gap] rest) (rest : List Token) :
    Reads body (.rule .arguments)
      (symbolLeaf [] line "(" :: (argumentTrees line arguments ++ [symbolLeaf [] line ")"])) rest := by
  refine Reads.rule (reads_between ?_)
  have hclose : Starting (symbolOpenings [")"]) (tokensOfAll [symbolLeaf [] line ")"] ++ rest) := starts_symbol
  rw [argumentTrees]
  cases hcases : arguments.chains line with
  | nil => exact reads_nothing hclose (by decide)
  | cons first others =>
    rw [hcases] at hchains
    exact Reads.first (reads_list hclose (by decide) fun chain hmem gap after hafter =>
      hchains chain hmem gap after (hafter.mono (by decide)))

theorem Creations.reads_chains (creations : Creations) :
    ∀ chain ∈ creations.chains line, ∀ gap rest, Starting creationEnds rest →
      Reads body (.rule (.expression true)) [chain gap] rest := by
  induction creations with
  | none => exact fun _ hmem => absurd hmem List.not_mem_nil
  | new type arguments others iharguments ihothers =>
    intro chain hmem gap rest hrest
    rcases List.mem_cons.1 hmem with rfl | hmem
    · exact reads_expression type (reads_argumentTrees arguments iharguments) hrest
    · exact ihothers chain hmem gap rest hrest

theorem Creations.reads_arguments (arguments : Creations) (rest : List Token) :
    Reads body (.rule .arguments)
      (symbolLeaf [] line "(" :: (argumentTrees line arguments ++ [symbolLeaf [] line ")"])) rest :=
  reads_argumentTrees arguments arguments.reads_chains rest

/-! ### Bodies -/

theorem Creations.reads_statements (creations : Creations) (hrest : Starting (symbolOpenings ["\x7d"]) rest) :
    Reads body (.many (.rule .statement)) (creations.statements line) rest := by
  induction creations generalizing line with
  | none => exact reads_nothing hrest (by decide)
  | new type arguments others _ ih =>
    have hexpression (after : List Token) : Reads body (.rule (.expression true))
        [creationTree line ['\n'] type (argumentTrees line arguments)] (tokensOfAll [symbolLeaf [] line ";"] ++ after) :=
      reads_expression type arguments.reads_arguments (starts_symbol.mono (by decide))
    have hstatement (after : List Token) : Reads body (.rule .statement)
        [creationTree line ['\n'] type (argumentTrees line arguments), symbolLeaf [] line ";"] after :=
      Reads.rule (reads_skip (starts_creationTree type _) (q := .seq (.rule (.expression true)) (symbol ";"))
        (by decide) ((hexpression after).cons reads_symbol))
    exact Reads.many_append takes_body rfl (hstatement _) ih

theorem reads_bodyTree (creations : Creations) : Reads body (.rule .block) [bodyTree line creations] rest :=
  Reads.rule (Reads.node (reads_between (creations.reads_statements starts_symbol)))

/-- No statements are taken for a constructor call: an instantiation, which could be the object of one, is followed by
a semicolon. -/
theorem Creations.refuses_constructorCall (creations : Creations) (hrest : Starting (symbolOpenings ["\x7d"]) rest) :
    Refuses body (.rule .constructorCall) (tokensOfAll (creations.statements line) ++ rest) := by
  cases creations with
  | none => exact refuses hrest (by decide)
  | new type arguments others =>
    have hend : Starting (symbolOpenings [";"])
        (tokensOfAll (symbolLeaf [] line ";" :: others.statements (line + 1)) ++ rest) :=
      starts_symbol
    have hobject : Reads body (.rule (.chain false)) [creationTree line ['\n'] type (argumentTrees line arguments)]
        (tokensOfAll (symbolLeaf [] line ";" :: others.statements (line + 1)) ++ rest) :=
      reads_creationTree type arguments.reads_arguments (hend.mono (by decide))
    exact Refuses.rule (Refuses.seq_first (Refuses.choice (refuses (starts_creationTree type _) (by decide))
      (Refuses.seq_cons hobject (refuses hend (by decide)))))

theorem reads_constructorBody (creations : Creations) :
    Reads body (.node .block (braced (all [optional (.rule .constructorCall), .many (.rule .statement)])))
      [bodyTree line creations] rest := by
  have hclose : Starting (symbolOpenings ["\x7d"])
      (tokensOfAll [symbolLeaf ['\n'] (line + 1 + creations.lines.length) "\x7d"] ++ rest) := starts_symbol
  refine Reads.node (reads_between (Reads.pass ?_ (creations.reads_statements hclose)))
  exact Reads.second (creations.refuses_constructorCall hclose) Reads.empty

/-! ### Variables and parameters -/

/-- The ways for a name to begin, with one of some tokens behind it. -/
def nameBefore (nexts : List Kind) : List (List Kind) :=
  nameKinds.flatMap fun kind => nexts.map fun next => [kind, next]

/-- The ways for a declaration with a type to begin: a word that is a type, or a name with the rest of the type or the
declared name behind it. -/
def typeOpenings : List (List Kind) :=
  wordOpenings simpleTypeWords ++ nameBefore ([symbolKind ".", symbolKind "["] ++ nameKinds)

theorem starts_nameBefore (name : Name) (nexts : List Kind)
    (h : Starting (nexts.map fun next => [next]) (tokensOfAll trees ++ rest)) :
    Starting (nameBefore nexts) (tokensOfAll (name.tree line gap :: trees) ++ rest) := by
  refine starts_node ?_
  obtain ⟨kind, hmem, hfits⟩ := name.fits
  obtain ⟨kinds, hkinds, hbegins⟩ := h
  obtain ⟨next, hnext, rfl⟩ := List.mem_map.1 hkinds
  exact ⟨[kind, next], List.mem_flatMap.2 ⟨kind, hmem, List.mem_map.2 ⟨next, hnext, rfl⟩⟩, hfits, hbegins⟩

/-- Where a type stands in front of a name, its first tokens tell that a declaration with a type begins. -/
theorem TypeForm.starts_tree (type : TypeForm) (h : Starting nameOpenings (tokensOfAll trees ++ rest)) :
    Starting typeOpenings (tokensOfAll (type.tree line gap :: trees) ++ rest) := by
  obtain ⟨base, dimensions⟩ := type
  refine starts_node ?_
  cases base with
  | primitive word known =>
    have hword : [wordKind word] ∈ wordOpenings simpleTypeWords := List.mem_map_of_mem (List.mem_cons_of_mem _ known)
    refine Starts.mono (starts_node starts_word) fun kinds hmem => List.mem_append_left _ ?_
    rwa [List.mem_singleton.1 hmem]
  | named name =>
    refine starts_node (Starts.mono (starts_nameBefore name.first ([symbolKind ".", symbolKind "["] ++ nameKinds) ?_)
      fun _ => List.mem_append_right _)
    cases hothers : name.rest with
    | cons part parts => exact starts_symbol.mono (by decide)
    | nil =>
      cases dimensions with
      | succ n =>
        have hdimensions : Starting (symbolOpenings ["["])
            (tokensOfAll (dimensionTrees line (n + 1)) ++ (tokensOfAll trees ++ rest)) :=
          starts_node starts_symbol
        exact hdimensions.mono (by decide)
      | zero => exact h.mono (by decide)

theorem starts_resultTree (result : Option TypeForm) (h : Starting nameOpenings (tokensOfAll trees ++ rest)) :
    Starting typeOpenings (tokensOfAll (resultTree line gap result :: trees) ++ rest) := by
  cases result with
  | some type => exact type.starts_tree h
  | none => exact (starts_node (starts_node starts_word)).mono (by decide)

theorem Name.reads_declaratorTree (name : Name) (hrest : Starting (symbolOpenings [",", ";", "("]) rest) :
    Reads body (.rule .declarator) [declaratorTree line gap name] rest :=
  Reads.rule (Reads.node ((name.reads (by decide)).last (reads_nothing hrest (by decide))))

def parameterEnds : List (List Kind) :=
  symbolOpenings [",", ")"]

theorem ParameterForm.reads (parameter : ParameterForm) (hrest : Starting parameterEnds rest) :
    Reads body (.rule .parameter) [parameter.tree line gap] rest := by
  have hname : Starting nameOpenings (tokensOfAll [parameter.name.tree line [' ']] ++ rest) :=
    starts_name parameter.name
  have hdeclared : Reads body (all [named [], optional (.rule .dimensions)]) [parameter.name.tree line [' ']] rest :=
    (parameter.name.reads (by decide)).last (reads_nothing hrest (by decide))
  refine Reads.rule (Reads.node ((reads_nothing (parameter.type.starts_tree hname) (by decide)).pass ?_))
  exact (parameter.type.reads (hname.mono (by decide))).cons (Reads.first hdeclared)

/-- What may stand in the brackets of a method in place of its first parameters. -/
def receiver : JavaPattern :=
  all [.unless (oneWord modifierWords), .rule .plainType, .many (all [Pattern.name ["this"], symbol "."]), word "this",
    optional (all [symbol ",", optional (list (.rule .parameter))])]

/-- No parameter is taken for a receiver: behind its type and its name there is no `this`. -/
theorem ParameterForm.refuses_receiver (parameter : ParameterForm)
    (h : Starting parameterEnds (tokensOfAll trees ++ rest)) :
    Refuses body receiver (tokensOfAll (parameter.tree line gap :: trees) ++ rest) := by
  rw [tokensOfAll_cons, ParameterForm.tree, tokens_node, List.append_assoc]
  have hname : Starting nameOpenings
      (tokensOfAll [parameter.name.tree line [' ']] ++ (tokensOfAll trees ++ rest)) := starts_name parameter.name
  refine Refuses.seq_pass (reads_nothing (parameter.type.starts_tree hname) (by decide)) ?_
  refine Refuses.seq_cons (parameter.type.reads (hname.mono (by decide))) ?_
  exact refuses (starts_nameBefore parameter.name [symbolKind ",", symbolKind ")"] h) (by decide)

theorem reads_parametersTree (parameters : List ParameterForm) :
    Reads body (.rule .parameters) [parametersTree line parameters] rest := by
  refine Reads.rule (Reads.node ?_)
  cases parameters with
  | nil =>
    have hstarts : Starting [[symbolKind "(", symbolKind ")"]]
        (tokensOfAll [symbolLeaf [] line "(", symbolLeaf [] line ")"] ++ rest) :=
      ⟨_, List.mem_singleton_self _, rfl, rfl, trivial⟩
    -- That nothing stands in the brackets is told by the second of them.
    exact reads_foremost hstarts (q := bracketed (optional (list (.rule .parameter)))) (by decide)
      (reads_between (reads_nothing starts_symbol (by decide)))
  | cons first others =>
    have hclose : Starting (symbolOpenings [")"]) (tokensOfAll [symbolLeaf [] line ")"] ++ rest) :=
      starts_symbol
    have hlist : Reads body (list (.rule .parameter)) (commaTrees line (ParameterForm.tree line) [] (first :: others))
        (tokensOfAll [symbolLeaf [] line ")"] ++ rest) :=
      reads_list hclose (by decide) fun parameter _ _ _ hafter => parameter.reads (hafter.mono (by decide))
    refine Reads.second (Refuses.seq_cons reads_symbol (Refuses.seq_first (first.refuses_receiver ?_)))
      (Reads.first (reads_between (Reads.first hlist)))
    cases others with
    | nil => exact starts_symbol.mono (by decide)
    | cons second others => exact starts_symbol.mono (by decide)

/-! ### Fields, methods and constructors -/

theorem reads_field (type : TypeForm) (first : Name) (others : List Name) :
    Reads body (.rule .field) [.node .field (type.tree line gap ::
      (commaTrees line (declaratorTree line) [' '] (first :: others) ++ [symbolLeaf [] line ";"]))] rest := by
  have hend : Starting (symbolOpenings [";"]) (tokensOfAll [symbolLeaf [] line ";"] ++ rest) := starts_symbol
  have hvariables : Reads body (list (.rule .declarator)) (commaTrees line (declaratorTree line) [' '] (first :: others))
      (tokensOfAll [symbolLeaf [] line ";"] ++ rest) :=
    reads_list hend (by decide) fun name _ _ _ hafter => name.reads_declaratorTree (hafter.mono (by decide))
  refine Reads.rule (Reads.node ((type.reads ?_).cons (hvariables.seq reads_symbol)))
  exact Starts.mono (starts_node (starts_name first)) (by decide)

/-- A method is no field: behind its name there is a bracket. -/
theorem refuses_field (result : Option TypeForm) (name : Name) (parameters : List ParameterForm) :
    Refuses body (.rule .field) (tokensOfAll
      (resultTree line gap result :: name.tree line [' '] :: parametersTree line parameters :: trees) ++ rest) := by
  have hbracket : Starting (symbolOpenings ["("]) (tokensOfAll (parametersTree line parameters :: trees) ++ rest) :=
    starts_node starts_symbol
  have hvariable : Reads body (list (.rule .declarator)) [declaratorTree line [' '] name]
      (tokensOfAll (parametersTree line parameters :: trees) ++ rest) :=
    (name.reads_declaratorTree (hbracket.mono (by decide))).last (reads_nothing hbracket (by decide))
  have hdeclarator := Refuses.seq_cons hvariable (q := symbol ";") (refuses hbracket (by decide))
  have htokens (more : List JavaTree) : tokensOfAll (declaratorTree line [' '] name :: more) =
      tokensOfAll (name.tree line [' '] :: more) := by
    simp only [declaratorTree, tokensOfAll_cons, tokens_node, tokensOfAll_nil, List.append_nil]
  rw [htokens] at hdeclarator
  exact Refuses.rule (Refuses.node (Refuses.seq_cons
    (reads_result result (Starts.mono (starts_name name) (by decide))) hdeclarator))

theorem reads_methodEnd (ending : Option Creations) :
    Reads body (any [.rule .block, symbol ";"]) [methodEnd line ending] rest := by
  cases ending with
  | some creations => exact Reads.first (reads_bodyTree creations)
  | none => exact Reads.second (refuses starts_symbol (by decide)) reads_symbol

theorem reads_method (result : Option TypeForm) (name : Name) (parameters : List ParameterForm)
    (ending : Option Creations) :
    Reads body (.rule .method) [.node .method
      [resultTree line gap result, name.tree line [' '], parametersTree line parameters, methodEnd line ending]]
        rest := by
  have hname : Starting nameOpenings
      (tokensOfAll [name.tree line [' '], parametersTree line parameters, methodEnd line ending] ++ rest) :=
    starts_name name
  have hending : Starting (symbolOpenings ["\x7b", ";"]) (tokensOfAll [methodEnd line ending] ++ rest) := by
    cases ending with
    | some creations => exact starts_node (starts_symbol.mono (by decide))
    | none => exact starts_symbol.mono (by decide)
  have hbehind : Reads body (all [optional (.rule .dimensions), optional (.rule .throwsList),
      any [.rule .block, symbol ";"]]) [methodEnd line ending] rest :=
    (reads_nothing hending (by decide)).pass ((reads_nothing hending (by decide)).pass (reads_methodEnd ending))
  refine Reads.rule (Reads.node ((reads_nothing (starts_resultTree result hname) (by decide)).pass ?_))
  exact (reads_result result (hname.mono (by decide))).cons
    ((name.reads (by decide)).cons ((reads_parametersTree parameters).cons hbehind))

theorem reads_constructor (name : Name) (parameters : List ParameterForm) (creations : Creations) :
    Reads body (.rule .constructor) [.node .constructor
      [name.tree line gap, parametersTree line parameters, bodyTree line creations]] rest := by
  have hopen : Starting (symbolOpenings ["\x7b"]) (tokensOfAll [bodyTree line creations] ++ rest) :=
    starts_node starts_symbol
  have hbehind := (reads_nothing (p := optional (.rule .throwsList)) hopen (by decide)).pass
    (reads_constructorBody creations)
  refine Reads.rule (Reads.node (Reads.first ((reads_nothing (starts_name name) (by decide)).pass ?_)))
  exact (name.reads (by decide)).cons ((reads_parametersTree parameters).cons hbehind)

/-! ### Type declarations -/

/-- What a class body and an interface body repeat. -/
def memberPattern : Bool → JavaPattern
  | true => .rule .classMember
  | false =>
    any [symbol ";", .node .declaration (all [heldModifiers true, any [.rule .typeDeclaration,
      all [.unless (oneWord declarationWords), any [.rule .field, .rule .method]]]])]

def bodyRule : Bool → Construct
  | true => .classBody
  | false => .interfaceBody

/-- Where a declaration with a type begins, a member is a field or a method. -/
theorem reads_typedMember (isClass : Bool) {tree : JavaTree}
    (hstarts : Starting typeOpenings (tokensOfAll [tree] ++ rest))
    (htree : Reads body (.choice (.rule .field) (.rule .method)) [tree] rest) :
    Reads body (memberPattern isClass) [.node .declaration [tree]] rest := by
  cases isClass with
  | true =>
    exact Reads.rule (reads_skip (starts_node hstarts) (q := .node .declaration (.choice (.rule .field) (.rule .method)))
      (by decide) (Reads.node htree))
  | false =>
    exact reads_skip (starts_node hstarts) (q := .node .declaration (.choice (.rule .field) (.rule .method)))
      (by decide) (Reads.node htree)

theorem reads_nestedMember (isClass : Bool) {tree : JavaTree}
    (hstarts : Starting (wordOpenings ["class", "interface"]) (tokensOfAll [tree] ++ rest))
    (htree : Reads body (.rule .typeDeclaration) [tree] rest) :
    Reads body (memberPattern isClass) [.node .declaration [tree]] rest := by
  cases isClass with
  | true =>
    exact Reads.rule (reads_skip (starts_node hstarts) (q := .node .declaration memberDeclaration) (by decide)
      (Reads.node (Reads.first htree)))
  | false =>
    exact reads_skip (starts_node hstarts)
      (q := .node .declaration (any [.rule .typeDeclaration,
        all [.unless (oneWord declarationWords), any [.rule .field, .rule .method]]]))
      (by decide) (Reads.node (Reads.first htree))

theorem reads_fieldMember (isClass : Bool) (type : TypeForm) (first : Name) (others : List Name) :
    Reads body (memberPattern isClass) [declarationTree .field (type.tree line gap ::
      (commaTrees line (declaratorTree line) [' '] (first :: others) ++ [symbolLeaf [] line ";"]))] rest := by
  refine reads_typedMember isClass ?_ (Reads.first (reads_field type first others))
  exact starts_node (type.starts_tree (starts_node (starts_name first)))

theorem reads_methodMember (isClass : Bool) (result : Option TypeForm) (name : Name) (parameters : List ParameterForm)
    (ending : Option Creations) :
    Reads body (memberPattern isClass) [declarationTree .method
      [resultTree line gap result, name.tree line [' '], parametersTree line parameters, methodEnd line ending]]
        rest := by
  refine reads_typedMember isClass ?_ (Reads.second ?_ (reads_method result name parameters ending))
  · exact starts_node (starts_resultTree result (starts_name name))
  · rw [tokensOfAll_cons, tokens_node, List.append_assoc]
    exact refuses_field result name parameters

theorem reads_constructorMember (name : Name) (parameters : List ParameterForm) (creations : Creations) :
    Reads body (memberPattern true) [declarationTree .constructor
      [name.tree line gap, parametersTree line parameters, bodyTree line creations]] rest := by
  have hbracket : Starting (symbolOpenings ["("])
      (tokensOfAll [parametersTree line parameters, bodyTree line creations] ++ rest) :=
    starts_node starts_symbol
  refine Reads.rule (reads_skip (starts_node (starts_node (starts_nameBefore name [symbolKind "("] hbracket)))
    (q := .node .declaration (any [.rule .constructor, .rule .field, .rule .method])) (by decide) (Reads.node ?_))
  exact Reads.first (reads_constructor name parameters creations)

/-- Some types are read behind the word that introduces them, or passed over where there are none. -/
theorem reads_clauseTrees {label : Part} {word : String} (types : List Dotted)
    (hrest : Starting (symbolOpenings ["\x7b"]) rest)
    (hnone : foresee body vocabulary depth [symbolKind "\x7b"] (optional (.node label (typesAfter word))) = .passed) :
    Reads body (optional (.node label (typesAfter word))) (clauseTrees label word line types) rest := by
  cases types with
  | nil => exact reads_nothing hrest fun kinds hmem => by rwa [List.mem_singleton.1 hmem]
  | cons first others =>
    exact Reads.first (Reads.node (reads_word.cons (reads_list hrest (by decide)
      fun type _ _ _ hafter => type.reads_useTree (hafter.mono (by decide)))))

/-- What may follow the name of a type, and what may follow the type that a class extends. -/
def headEnds : List (List Kind) :=
  symbolOpenings ["\x7b"] ++ wordOpenings ["extends", "implements"]

def extendedEnds : List (List Kind) :=
  symbolOpenings ["\x7b"] ++ wordOpenings ["implements"]

theorem starts_clauseTrees {label : Part} {word : String} (types : List Dotted) {ends : List (List Kind)}
    (hword : [wordKind word] ∈ ends) (h : Starting ends (tokensOfAll trees ++ rest)) :
    Starting ends (tokensOfAll (clauseTrees label word line types ++ trees) ++ rest) := by
  cases types with
  | nil => exact h
  | cons first others =>
    exact Starts.mono (starts_node starts_word) fun kinds hmem => by rwa [List.mem_singleton.1 hmem]

theorem reads_extendedClass (extended : Option Dotted) (hrest : Starting extendedEnds rest) :
    Reads body (optional (.node .extended (all [word "extends", .rule .typeUse])))
      (clauseTrees .extended "extends" line extended.toList) rest := by
  cases extended with
  | none => exact reads_nothing hrest (by decide)
  | some type => exact Reads.first (Reads.node (reads_word.cons (type.reads_useTree (hrest.mono (by decide)))))

theorem Header.reads_typeDeclaration (header : Header) {typeBody : JavaTree}
    (hopen : Starting (symbolOpenings ["\x7b"]) (tokensOfAll [typeBody] ++ rest))
    (hbody : Reads body (.rule (bodyRule header.isClass)) [typeBody] rest) :
    Reads body (.rule .typeDeclaration) [.node header.label (header.trees line gap ++ [typeBody])] rest := by
  refine Reads.rule ?_
  have hpermitted := (reads_nothing (p := permittedTypes) hopen (by decide)).pass hbody
  cases header with
  | classType name extended implemented =>
    have hclause : Starting extendedEnds
        (tokensOfAll (clauseTrees .implemented "implements" line implemented ++ [typeBody]) ++ rest) :=
      starts_clauseTrees implemented (by decide) (hopen.mono (by decide))
    have hhead : Starting headEnds (tokensOfAll (clauseTrees .extended "extends" line extended.toList ++
        (clauseTrees .implemented "implements" line implemented ++ [typeBody])) ++ rest) :=
      starts_clauseTrees extended.toList (by decide) (hclause.mono (by decide))
    rw [Header.trees, List.cons_append, List.cons_append, List.append_assoc]
    refine Reads.first (Reads.node (reads_word.cons ((name.reads (by decide)).cons ?_)))
    refine (reads_nothing hhead (by decide)).pass ((reads_extendedClass extended hclause).seq ?_)
    exact (reads_clauseTrees implemented hopen (by decide)).seq hpermitted
  | interfaceType name extended =>
    have hhead : Starting headEnds
        (tokensOfAll (clauseTrees .extended "extends" line extended ++ [typeBody]) ++ rest) :=
      starts_clauseTrees extended (by decide) (hopen.mono (by decide))
    refine Reads.second (refuses (starts_node starts_word) (by decide)) (Reads.first (Reads.node ?_))
    refine reads_word.cons ((name.reads (by decide)).cons ((reads_nothing hhead (by decide)).pass ?_))
    exact (reads_clauseTrees extended hopen (by decide)).seq hpermitted

theorem Header.starts_trees (header : Header) :
    Starting (wordOpenings ["class", "interface"]) (tokensOfAll (header.trees line gap ++ trees) ++ rest) := by
  cases header <;> exact starts_word.mono (by decide)

theorem Header.reads_type (header : Header) {height : Nat} {members : List JavaTree}
    (hmembers : ∀ after, Starting (symbolOpenings ["\x7d"]) after →
      Reads body (.many (memberPattern header.isClass)) members after) :
    Reads body (.rule .typeDeclaration)
      [.node header.label (header.trees line gap ++ [blockTree .typeBody line (line + 1 + height) members])] rest := by
  refine header.reads_typeDeclaration (starts_node starts_symbol) (Reads.rule ?_)
  have hclose : Starting (symbolOpenings ["\x7d"])
      (tokensOfAll [symbolLeaf ['\n'] (line + 1 + height) "\x7d"] ++ rest) := starts_symbol
  cases header <;> exact Reads.node (reads_between (hmembers _ hclose))

theorem takes_memberPattern (isClass : Bool) : (memberPattern isClass).takes taking = true := by
  cases isClass <;> rfl

/-- **Members are read one after the other**, up to the bracket behind them. -/
theorem Members.reads {isClass : Bool} (members : Members isClass) {line : Nat} {rest : List Token}
    (hrest : Starting (symbolOpenings ["\x7d"]) rest) :
    Reads body (.many (memberPattern isClass)) (members.trees line) rest := by
  induction members generalizing line rest with
  | @none isClass => cases isClass <;> exact reads_nothing hrest (by decide)
  | field type first others more ih =>
    exact Reads.many_append takes_body (takes_memberPattern _) (reads_fieldMember _ type first others) (ih hrest)
  | method result name parameters ending more ih =>
    exact Reads.many_append takes_body (takes_memberPattern _) (reads_methodMember _ result name parameters ending)
      (ih hrest)
  | constructor name parameters creations more ih =>
    exact Reads.many_append takes_body (takes_memberPattern _) (reads_constructorMember name parameters creations)
      (ih hrest)
  | nested header inside more ihinside ih =>
    refine Reads.many_append takes_body (takes_memberPattern _)
      (reads_nestedMember _ ?_ (header.reads_type fun _ => ihinside)) (ih hrest)
    exact starts_node header.starts_trees

/-! ### The top of a source -/

theorem Item.reads (item : Item) : Reads body (.rule .topLevel) [item.tree line gap] rest := by
  refine Reads.rule ?_
  cases item with
  | package name =>
    have hstarts : Starting (wordOpenings ["package"]) (tokensOfAll [Item.tree line gap (.package name)] ++ rest) :=
      starts_node starts_word
    exact reads_skip hstarts (q := .rule .statement) (by decide)
      (Reads.rule (reads_foremost hstarts (q := .rule .packageHeader) (by decide) name.reads_packageHeader))
  | imported form =>
    have hstarts : Starting (wordOpenings ["import"]) (tokensOfAll [Item.tree line gap (.imported form)] ++ rest) :=
      starts_node starts_word
    exact reads_skip hstarts (q := .rule .statement) (by decide)
      (Reads.rule (reads_foremost hstarts (q := .rule .importHeader) (by decide) form.reads_importHeader))
  | type header members =>
    refine Reads.first (Reads.node (Reads.first (Reads.pass ?_ (header.reads_type fun _ => members.reads))))
    exact reads_nothing (starts_node header.starts_trees) (by decide)

theorem reads_itemTrees (items : List Item) : Reads body (.many (.rule .topLevel)) (itemTrees line gap items) [] := by
  induction items generalizing line gap with
  | nil => exact Reads.many_nil (Refuses.nil takes_body rfl)
  | cons item items ih => exact Reads.many_append takes_body rfl item.reads ih

/-- **The grammar reads the trees of every skeleton.** -/
theorem reads_trees (skeleton : Skeleton) : Reads body (.rule .sourceFile) skeleton.trees [] :=
  Reads.rule (reads_itemTrees skeleton.items)

end JavaAtlas.Skeleton

import JavaAtlas.Proofs.Resolution.SimpleNames
import JavaAtlas.Proofs.SourceUnit.Lines
import JavaAtlas.Proofs.Syntax.TypeNames
import JavaAtlas.Proofs.Text.Squeezed

/-!
# References to types

A unit refers to classes and interfaces by supertypes, fields, results, parameters and creations, also as the elements
of arrays. The types that a node shows are those that are written in the tree it comes from, at their places there. Each
has the line on which it is written and the text with single blanks, and the name of a reference is made up of the words
at its outer level. So the points of the name stand between whole identifiers, and a cut at the first of them parts the
first identifier from the others.
-/

namespace JavaAtlas

open JavaAtlas.Text

/-! ### Names of several segments -/

namespace Name

variable {segments : List String}

/-- The first segment of a name and the others joined; none if there are no others. -/
def cutFirst : List String → Option (String × String)
  | first :: second :: rest => some (first, ".".intercalate (second :: rest))
  | _ => none

theorem splitFirst?_intercalate (h : ∀ segment ∈ segments, '.' ∉ segment.toList) :
    splitFirst? (".".intercalate segments) = cutFirst segments := by
  match segments with
  | [] => rfl
  | [only] =>
    rw [String.intercalate_singleton]
    exact splitFirst?_eq_none (h only List.mem_cons_self)
  | first :: second :: rest =>
    rw [String.intercalate_cons_cons]
    exact splitFirst?_append _ (h first List.mem_cons_self)

theorem isBlank_of_mem_intercalate (h : ∀ segment ∈ segments, ∀ c ∈ segment.toList, isBlank c = false) :
    ∀ c ∈ (".".intercalate segments).toList, isBlank c = false := by
  induction segments with
  | nil => simp
  | cons first rest ih =>
    obtain ⟨hfirst, hrest⟩ := List.forall_mem_cons.1 h
    cases rest with
    | nil => rwa [String.intercalate_singleton]
    | cons second more =>
      intro c hc
      rw [String.intercalate_cons_cons, String.toList_append, String.toList_append, List.mem_append,
        List.mem_append] at hc
      rcases hc with (hc | hc) | hc
      · exact hfirst c hc
      · have hpoint : c = '.' := by simpa using hc
        exact hpoint ▸ by decide
      · exact ih hrest c hc

end Name

namespace SourceUnit

open JavaAtlas.Syntax ParseTree

variable {source : String} {tokens : List Token} {trees children segments : List JavaTree} {label : Part}

/-! ### Where types are written -/

/-- The type that is written first among some trees: that of a field or a parameter, a result, or what is created. -/
def ownUses (trees : List JavaTree) : List (List JavaTree) :=
  (firstLabelled .typeUse trees).toList

/-- The types that are written behind a word such as `extends`. -/
def clauseUses (label : Part) (trees : List JavaTree) : List (List JavaTree) :=
  allLabelled .typeUse ((firstLabelled label trees).getD [])

def parameterUses (trees : List JavaTree) : List (List JavaTree) :=
  (allLabelled .parameter ((firstLabelled .parameters trees).getD [])).flatMap ownUses

/-- The types that the trees of a declaration or a creation show, each by the trees that spell it. -/
def typeUses : Part → List JavaTree → List (List JavaTree)
  | .classType, trees | .interfaceType, trees | .enumType, trees | .recordType, trees | .annotationType, trees =>
    clauseUses .extended trees ++ clauseUses .implemented trees
  | .field, trees | .creation, trees | .innerCreation, trees => ownUses trees
  | .method, trees => ownUses trees ++ parameterUses trees
  | .constructor, trees => parameterUses trees
  | _, _ => []

theorem typeUses_of_kindOf {kind : TypeKind} (h : kindOf label = some kind) :
    typeUses label children = clauseUses .extended children ++ clauseUses .implemented children := by
  cases label <;> first | rfl | cases h

/-! ### What tokens spell -/

def identifiers (words : List Token) : List String :=
  words.map fun word => String.ofList word.spelled

theorem forall_identifiers {P : List Char → Prop} {words : List Token} (h : ∀ word ∈ words, P word.spelled) :
    ∀ segment ∈ identifiers words, P segment.toList := by
  intro segment hsegment
  obtain ⟨word, hword, rfl⟩ := List.mem_map.1 hsegment
  rw [String.toList_ofList]
  exact h word hword

/-- Tokens spell a text that starts on a line: it is their source with single blanks, and the line is that of the first
of them. -/
structure SpellsText (stretch : List Token) (written : String) (line : Line) : Prop where
  line_eq : stretch.head?.map (fun first => UInt32.ofNat first.line) = some line
  written_eq : written = String.ofList (squeezed (Token.slice stretch))
  isSqueezed : IsSqueezed written.toList

/-- Tokens spell a name: it is made up of the words at their outer level. Neither trimming nor the cut at the first point
parts a word. -/
structure SpellsName (stretch words : List Token) (name : String) : Prop where
  isDottedName : IsDottedName (bareTokens .outside stretch) words
  words_ne_nil : words ≠ []
  isIdentifier : ∀ word ∈ words, isIdentifier word.spelled = true
  name_eq : name = ".".intercalate (identifiers words)
  trimmed_eq : trimmed name = name
  splitFirst?_eq : Name.splitFirst? name = Name.cutFirst (identifiers words)

/-- A type and the trees that spell it. Annotations in front do not count, and an array is spelled with its dimensions
by what spells its elements. -/
inductive SpellsType : List JavaTree → WrittenType → Prop where
  | reference {segments : List JavaTree} {words : List Token} {written name : String} {line : Line}
      (htext : SpellsText (tokensOfAll segments) written line) (hname : SpellsName (tokensOfAll segments) words name) :
      SpellsType [.node .named segments] (.reference written line name)
  | primitive {word : List JavaTree} {written : String} {line : Line}
      (htext : SpellsText (tokensOfAll word) written line) :
      SpellsType [.node .primitive word] (.primitive written line)
  | void {word : List JavaTree} {written : String} {line : Line} (htext : SpellsText (tokensOfAll word) written line) :
      SpellsType [.node .void word] (.void written line)
  | array {tree : JavaTree} {dimensions : List JavaTree} {element : WrittenType} {written : String} {line : Line}
      (htext : SpellsText (tokensOfAll [tree, .node .dimensions dimensions]) written line)
      (helement : SpellsType [tree] element) :
      SpellsType [tree, .node .dimensions dimensions] (.array written line element)
  | annotated {sign rest : List JavaTree} {type : WrittenType} (h : SpellsType rest type) :
      SpellsType (.node .annotationUse sign :: rest) type

theorem spellsText (h : tokensOfAll trees ≠ []) : SpellsText (tokensOfAll trees) (writtenText trees) (lineOf trees) where
  line_eq := by
    obtain ⟨first, rest, htokens⟩ := List.exists_cons_of_ne_nil h
    rw [lineOf, firstLine, htokens]
    rfl
  written_eq := rfl
  isSqueezed := by
    rw [writtenText, String.toList_ofList]
    exact isSqueezed_squeezed _

/-! ### Types of a source -/

theorem erasedName_eq {words : List Token} (h : allLabelled .name segments = words.map fun word => [.leaf word]) :
    erasedName segments = ".".intercalate (identifiers words) := by
  rw [erasedName, h, List.map_map, identifiers]
  congr 1
  refine List.map_congr_left fun word _ => ?_
  simp [sourceOf, Token.slice, Token.source]

section Parsed

variable (hscan : scan source.toList = some tokens) (hparse : javaGrammar.parse? tokens = some trees)

include hscan hparse

theorem exists_spellsName (hwithin : Within (.node .named segments) trees) :
    ∃ words, SpellsName (tokensOfAll segments) words (erasedName segments) := by
  obtain ⟨words, hnames, hname⟩ := isDottedName_of_within hparse hwithin
  have hidentifiers : ∀ word ∈ words, isIdentifier word.spelled = true := by
    intro word hword
    have hlabelled : [.leaf word] ∈ allLabelled .name segments := hnames ▸ List.mem_map_of_mem hword
    have hmarked := Within.trans (.here (mem_of_mem_allLabelled hlabelled)) hwithin
    obtain ⟨token, htoken, hspelled⟩ := exists_identifier_of_within hscan hparse hmarked
    cases htoken
    exact hspelled
  have hblank := forall_identifiers (P := fun text => ∀ c ∈ text, isBlank c = false)
    fun word hword => isBlank_of_isIdentifier (hidentifiers word hword)
  have hpoint := forall_identifiers (P := fun text => '.' ∉ text)
    fun word hword => point_not_mem_of_isIdentifier (hidentifiers word hword)
  refine ⟨words, ?_⟩
  rw [erasedName_eq hnames]
  exact {
    isDottedName := hname
    words_ne_nil := hname.words_ne_nil
    isIdentifier := hidentifiers
    name_eq := rfl
    trimmed_eq := trimmed_eq_self (Name.isBlank_of_mem_intercalate hblank)
    splitFirst?_eq := Name.splitFirst?_intercalate hpoint }

theorem spellsType_simple {tree : JavaTree} (hwithin : Within tree trees) (hsimple : IsSimple tree) :
    SpellsType [tree] (simpleType tree) := by
  have htext {label : Part} {children : List JavaTree} (htree : tree = .node label children) :=
    spellsText ((regular_of_parse? hparse).children_ne_nil (htree ▸ hwithin))
  cases hsimple with
  | named segments =>
    obtain ⟨words, hname⟩ := exists_spellsName hscan hparse hwithin
    exact .reference (htext rfl) hname
  | primitive word => exact .primitive (htext rfl)
  | void word => exact .void (htext rfl)

theorem spellsType_writtenType {use : List JavaTree} (hwithin : ∀ tree ∈ use, Within tree trees) (h : IsTypeUse use) :
    SpellsType use (writtenType use) := by
  induction h with
  | simple hsimple =>
    rw [writtenType_simple hsimple]
    exact spellsType_simple hscan hparse (hwithin _ List.mem_cons_self) hsimple
  | @array tree dimensions hsimple =>
    have htree := hwithin tree List.mem_cons_self
    have hfull : tokensOfAll [tree, .node .dimensions dimensions] ≠ [] := by
      rw [tokensOfAll_cons]
      exact List.append_ne_nil_of_left_ne_nil (tokens_ne_nil_of_within hparse htree) _
    rw [writtenType_array hsimple]
    exact .array (spellsText hfull) (spellsType_simple hscan hparse htree hsimple)
  | annotated _ ih =>
    rw [writtenType]
    exact .annotated (ih fun tree htree => hwithin tree (List.mem_cons_of_mem _ htree))

theorem spellsType_of_within {use : List JavaTree} (hwithin : Within (.node .typeUse use) trees) :
    SpellsType use (writtenType use) :=
  spellsType_writtenType hscan hparse (fun _ htree => Within.trans (.here htree) hwithin)
    (isTypeUse_of_within hparse hwithin)

/-! ### Types of a node -/

theorem spell_ownUses (hwithin : Within (.node label children) trees) (hlabel : label ∈ typedParts) :
    List.Forall₂ SpellsType (ownUses children) [typeIn children] := by
  obtain ⟨use, huse⟩ := exists_firstLabelled_typeUse (exists_typeUse_of_within hparse hwithin hlabel)
  rw [ownUses, typeIn, huse]
  exact .cons (spellsType_of_within hscan hparse (Within.trans (.here (mem_of_firstLabelled huse)) hwithin)) .nil

theorem spell_clauseUses {clause : Part} (hwithin : Within (.node label children) trees) :
    List.Forall₂ SpellsType (clauseUses clause children) (typesUnder clause children) := by
  rw [typesUnder, List.forall₂_map_right_iff, clauseUses, List.forall₂_same]
  intro use huse
  exact spellsType_of_within hscan hparse ((within_of_mem_labelled huse).trans hwithin)

theorem spell_parameterUses (hwithin : Within (.node label children) trees) :
    List.Forall₂ SpellsType (parameterUses children) ((parametersIn children).map Parameter.type) := by
  have hparameters : ∀ parts ∈ allLabelled .parameter ((firstLabelled .parameters children).getD []),
      List.Forall₂ SpellsType (ownUses parts) [typeIn parts] :=
    fun parts hparts => spell_ownUses hscan hparse ((within_of_mem_labelled hparts).trans hwithin) (by decide)
  rw [parameterUses, parametersIn, List.map_map]
  generalize allLabelled Part.parameter ((firstLabelled .parameters children).getD []) = listed at hparameters
  induction listed with
  | nil => exact .nil
  | cons parts listed ih =>
    rw [List.forall_mem_cons] at hparameters
    rw [List.flatMap_cons, List.map_cons, ← List.singleton_append]
    exact List.rel_append hparameters.1 (ih hparameters.2)

theorem spell_declaredTypes {start : Line} {nested : Bool} {head : Head} (hwithin : Within (.node label children) trees)
    (h : declaredHead start nested label children = some head) :
    List.Forall₂ SpellsType (typeUses label children) head.types := by
  unfold declaredHead at h
  split at h
  · next hkind =>
    cases h
    rw [typeUses_of_kindOf hkind]
    exact List.rel_append (spell_clauseUses hscan hparse hwithin) (spell_clauseUses hscan hparse hwithin)
  · cases h
    exact spell_ownUses hscan hparse hwithin (by decide)
  · cases h
    exact List.rel_append (spell_ownUses hscan hparse hwithin (by decide)) (spell_parameterUses hscan hparse hwithin)
  · cases h
    exact spell_parameterUses hscan hparse hwithin
  · cases h

/-- The types that a node shows are spelled at their places in the tree from which the node comes. -/
theorem spell_types {node : Node} (h : Becomes trees label children node) :
    List.Forall₂ SpellsType (typeUses label children) node.types := by
  have hwithin := h.within
  cases h with
  | package | imported => exact .nil
  | declared _ _ hhead => exact spell_declaredTypes hscan hparse hwithin hhead
  | created | chained => exact spell_ownUses hscan hparse hwithin (by decide)

end Parsed

/-- **The types of a parsed unit are those that its source spells.** Every node comes from a tree of the source, and the
types that it shows are, one after the other, those that are written at their places in this tree. -/
theorem references_spelled {unit : SourceUnit} (hparse : parse? source = some unit) :
    ∃ tokens trees, scan source.toList = some tokens ∧ javaGrammar.parse? tokens = some trees ∧
      tokensOfAll trees = tokens ∧
      ∀ node ∈ unit.walk, ∃ label children, Becomes trees label children node ∧
        List.Forall₂ SpellsType (typeUses label children) node.types := by
  obtain ⟨tokens, trees, hscan, htrees, rfl⟩ := parse?_eq_some_iff.1 hparse
  refine ⟨tokens, trees, hscan, htrees, (javaGrammar.derives_of_parse? htrees).2, ?_⟩
  intro node hnode
  obtain ⟨label, children, hbecomes⟩ := exists_becomes (mem_walk.1 hnode)
  exact ⟨label, children, hbecomes, spell_types hscan htrees hbecomes⟩

/-- A type in a type with arguments, as the element of an array and with a comment and annotations inside. -/
def annotatedSource : String :=
  "class A \x7b\n  p . B<C, D<E>> . /* c */ @F(g = 1 < 2) @h.I J<K>[] x; \x7d"

theorem annotatedReference_spelled :
    ∃ unit tokens trees node label children, parse? annotatedSource = some unit ∧
      scan annotatedSource.toList = some tokens ∧ javaGrammar.parse? tokens = some trees ∧ node ∈ unit.walk ∧
      Becomes trees label children node ∧
      node.types = [.array "p . B<C, D<E>> . /* c */ @F(g = 1 < 2) @h.I J<K>[]" 2
        (.reference "p . B<C, D<E>> . /* c */ @F(g = 1 < 2) @h.I J<K>" 2 "p.B.J")] ∧
      List.Forall₂ SpellsType (typeUses label children) node.types := by
  have hfield : ((parse? annotatedSource).map fun unit => (unit.walk.map Node.types).getLast?) =
      some (some [.array "p . B<C, D<E>> . /* c */ @F(g = 1 < 2) @h.I J<K>[]" 2
        (.reference "p . B<C, D<E>> . /* c */ @F(g = 1 < 2) @h.I J<K>" 2 "p.B.J")]) := by
    decide +kernel
  obtain ⟨unit, hparse, hlast⟩ := Option.map_eq_some_iff.1 hfield
  obtain ⟨node, hnode, htypes⟩ := List.mem_map.1 (List.mem_of_getLast? hlast)
  obtain ⟨tokens, trees, hscan, htrees, -, hspelled⟩ := references_spelled hparse
  obtain ⟨label, children, hbecomes, huses⟩ := hspelled node hnode
  exact ⟨unit, tokens, trees, node, label, children, hparse, hscan, htrees, hnode, hbecomes, htypes, huses⟩

end SourceUnit

end JavaAtlas

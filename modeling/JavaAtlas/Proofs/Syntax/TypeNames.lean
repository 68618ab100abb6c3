import JavaAtlas.Proofs.Syntax.Nesting

/-!
# Names of types

The name of a type is found in two ways. In a tree it is the names of the segments, one after the other. Among the
tokens of the type it is what is left when type arguments, what stands in round brackets, and annotations are passed
over: a dotted name. For the trees that are read these are the same words, however deep types and annotations are
nested in each other.
-/

namespace JavaAtlas.Syntax

open ParseTree

/-! ### Tokens without annotations -/

/-- How far an annotation has been read: none has begun, the sign or a point asks for a word, or the word is there. -/
inductive AnnotationPart where
  | outside
  | begun
  | named
deriving DecidableEq

/-- The tokens that belong to no annotation. The name of an annotation goes on as long as points follow. -/
def unannotated : AnnotationPart → List Token → List Token
  | _, [] => []
  | .begun, _ :: rest => unannotated .named rest
  | part, token :: rest =>
    if token.lexeme = .symbol "@" ∨ part = .named ∧ token.lexeme = .symbol "." then unannotated .begun rest
    else token :: unannotated .outside rest

/-- The tokens of a type at the outer level, without annotations. -/
def bareTokens (part : AnnotationPart) (tokens : List Token) : List Token :=
  unannotated part (outerTokens .outer tokens)

/-- A dotted name and the words it is made up of. -/
inductive IsDottedName : List Token → List Token → Prop where
  | one {word : Token} {spelling : String} (hword : word.lexeme = .word spelling) : IsDottedName [word] [word]
  | more {word point : Token} {tokens words : List Token} {spelling : String} (hword : word.lexeme = .word spelling)
      (hpoint : point.lexeme = .symbol ".") (h : IsDottedName tokens words) :
      IsDottedName (word :: point :: tokens) (word :: words)

theorem IsDottedName.words_ne_nil {tokens words : List Token} (h : IsDottedName tokens words) : words ≠ [] := by
  cases h <;> simp

section BareTokens

variable {part : AnnotationPart} {token : Token} {tokens rest : List Token} {spelling : String}

theorem bareTokens_cons (h : Depth.step .outer token.lexeme = some .outer) :
    bareTokens part (token :: rest) = unannotated part (token :: outerTokens .outer rest) := by
  rw [bareTokens, outerTokens_cons_outer h]

theorem bareTokens_word (hword : token.lexeme = .word spelling) (hpart : part ≠ .begun) :
    bareTokens part (token :: rest) = token :: bareTokens .outside rest := by
  rw [bareTokens_cons (hword ▸ Depth.step_word _ _)]
  cases part with
  | begun => exact absurd rfl hpart
  | _ => simp [unannotated, hword, bareTokens]

theorem bareTokens_begun (hword : token.lexeme = .word spelling) :
    bareTokens .begun (token :: rest) = bareTokens .named rest := by
  rw [bareTokens_cons (hword ▸ Depth.step_word _ _), unannotated, bareTokens]

theorem bareTokens_point (hpoint : token.lexeme = .symbol ".") :
    bareTokens .outside (token :: rest) = token :: bareTokens .outside rest := by
  rw [bareTokens_cons (hpoint ▸ rfl)]
  simp [unannotated, hpoint, bareTokens]

theorem bareTokens_named_point (hpoint : token.lexeme = .symbol ".") :
    bareTokens .named (token :: rest) = bareTokens .begun rest := by
  rw [bareTokens_cons (hpoint ▸ rfl)]
  simp [unannotated, hpoint, bareTokens]

theorem bareTokens_sign (hsign : token.lexeme = .symbol "@") (hpart : part ≠ .begun) :
    bareTokens part (token :: rest) = bareTokens .begun rest := by
  rw [bareTokens_cons (hsign ▸ rfl)]
  cases part with
  | begun => exact absurd rfl hpart
  | _ => simp [unannotated, hsign, bareTokens]

end BareTokens

/-! ### Derived types -/

namespace Pattern

open Construct

variable {part : AnnotationPart} {trees : List (ParseTree Part)} {rest : List Token}

theorem bareTokens_optional_typeArguments (h : Derives body (optional (.rule .typeArguments)) trees) :
    bareTokens part (tokensOfAll trees ++ rest) = bareTokens part rest := by
  rcases derives_optional h with rfl | h
  · simp
  · exact congrArg (unannotated part) (outerTokens_typeArguments h)

theorem bareTokens_bracketed {pattern : JavaPattern} (hpattern : pattern.after bracketStep (fun _ _ => true) 0 = some 0)
    (h : Derives body (bracketed pattern) trees) :
    bareTokens part (tokensOfAll trees ++ rest) = bareTokens part rest :=
  congrArg (unannotated part) (outerTokens_bracketed hpattern h)

theorem bareTokens_qualifiedName (h : Derives body (.rule .qualifiedName) trees) :
    bareTokens .begun (tokensOfAll trees ++ rest) = bareTokens .named rest := by
  obtain ⟨children, rfl, hchildren⟩ := derives_node (derives_rule h)
  obtain ⟨front, back, rfl, hfront, hback⟩ := derives_seq hchildren
  obtain ⟨token, spelling, rfl, hword⟩ := derives_name hfront
  have hmore : bareTokens .named (tokensOfAll back ++ rest) = bareTokens .named rest := by
    refine hback.many_induction (by simp) ?_
    intro once more honce ih
    obtain ⟨front, back, rfl, hfront, hback⟩ := derives_seq honce
    obtain ⟨point, rfl, hpoint⟩ := derives_symbol hfront
    obtain ⟨segment, spelling, rfl, hsegment⟩ := derives_name hback
    simp only [tokensOfAll_cons, tokens_leaf, List.nil_append, List.cons_append]
    rw [bareTokens_named_point hpoint, bareTokens_begun hsegment, ih]
  simp only [tokensOfAll_cons, tokensOfAll_nil, tokens_leaf, tokens_node, List.append_nil, List.nil_append,
    List.cons_append]
  rw [bareTokens_begun hword, hmore]

theorem bareTokens_annotationUse (hpart : part ≠ .begun) (h : Derives body (.rule .annotationUse) trees) :
    bareTokens part (tokensOfAll trees ++ rest) = bareTokens .named rest := by
  obtain ⟨children, rfl, hchildren⟩ := derives_node (derives_rule h)
  obtain ⟨front, back, rfl, hfront, hback⟩ := derives_seq hchildren
  obtain ⟨names, values, rfl, hnames, hvalues⟩ := derives_seq hback
  obtain ⟨sign, rfl, hsign⟩ := derives_symbol hfront
  have hvalues : bareTokens .named (tokensOfAll values ++ rest) = bareTokens .named rest := by
    rcases derives_optional hvalues with rfl | hvalues
    · simp
    · exact bareTokens_bracketed (by decide +kernel) hvalues
  simp only [tokensOfAll_append, tokensOfAll_cons, tokensOfAll_nil, tokens_leaf, tokens_node, List.append_nil,
    List.append_assoc, List.nil_append, List.cons_append]
  rw [bareTokens_sign hsign hpart, bareTokens_qualifiedName hnames, hvalues]

theorem bareTokens_annotations_word {token : Token} {spelling : String} (hword : token.lexeme = .word spelling)
    (hpart : part ≠ .begun) (h : Derives body annotations trees) :
    bareTokens part (tokensOfAll trees ++ token :: rest) = token :: bareTokens .outside rest := by
  refine h.many_induction (P := fun trees => ∀ part ≠ AnnotationPart.begun,
    bareTokens part (tokensOfAll trees ++ token :: rest) = token :: bareTokens .outside rest) ?_ ?_ part hpart
  · intro part hpart
    rw [tokensOfAll_nil, List.nil_append, bareTokens_word hword hpart]
  · intro once more honce ih part hpart
    rw [tokensOfAll_append, List.append_assoc, bareTokens_annotationUse hpart honce, ih .named (by decide)]

/-- The segments of a type: names with type arguments behind them or not, and annotations before all but the first. -/
def segments (except : List String) : JavaPattern :=
  all [named simpleTypeWords, optional (.rule .typeArguments),
    .many (all [symbol ".", annotations, named except, optional (.rule .typeArguments)])]

theorem derives_named {except : List String} (h : Derives body (named except) trees) :
    ∃ word spelling, trees = [.node .name [.leaf word]] ∧ word.lexeme = .word spelling := by
  obtain ⟨leaves, rfl, hleaves⟩ := derives_node h
  obtain ⟨word, spelling, rfl, hword⟩ := derives_name hleaves
  exact ⟨word, spelling, rfl, hword⟩

theorem allLabelled_annotations (h : Derives body annotations trees) : allLabelled .name trees = [] := by
  refine h.many_induction rfl ?_
  intro once more honce ih
  obtain ⟨children, rfl, -⟩ := derives_node (derives_rule honce)
  exact ih

theorem allLabelled_optional_typeArguments (h : Derives body (optional (.rule .typeArguments)) trees) :
    allLabelled .name trees = [] := by
  rcases derives_optional h with rfl | h
  · rfl
  · obtain ⟨children, rfl, -⟩ := derives_node (derives_rule h)
    rfl

/-- A segment behind the first comes down to a point and a word. -/
theorem exists_segment {except : List String}
    (h : Derives body (all [symbol ".", annotations, named except, optional (.rule .typeArguments)]) trees) :
    ∃ point word spelling, point.lexeme = .symbol "." ∧ word.lexeme = .word spelling ∧
      allLabelled .name trees = [[.leaf word]] ∧
      ∀ rest, bareTokens .outside (tokensOfAll trees ++ rest) = point :: word :: bareTokens .outside rest := by
  obtain ⟨points, back, rfl, hpoints, hback⟩ := derives_seq h
  obtain ⟨annotated, back, rfl, hannotated, hback⟩ := derives_seq hback
  obtain ⟨names, arguments, rfl, hnames, harguments⟩ := derives_seq hback
  obtain ⟨point, rfl, hpoint⟩ := derives_symbol hpoints
  obtain ⟨word, spelling, rfl, hword⟩ := derives_named hnames
  refine ⟨point, word, spelling, hpoint, hword, ?_, ?_⟩
  · have hbefore := allLabelled_annotations hannotated
    have hbehind := allLabelled_optional_typeArguments harguments
    rw [List.singleton_append, List.singleton_append, allLabelled, allLabelled_append, hbefore, allLabelled, hbehind]
    rfl
  · intro rest
    simp only [tokensOfAll_append, tokensOfAll_cons, tokensOfAll_nil, tokens_leaf, tokens_node, List.append_nil,
      List.append_assoc, List.nil_append, List.cons_append]
    rw [bareTokens_point hpoint, bareTokens_annotations_word hword (by decide) hannotated,
      bareTokens_optional_typeArguments harguments]

/-- **The names of the segments are what the tokens come down to.** -/
theorem isDottedName_of_derives {except : List String} (h : Derives body (segments except) trees) :
    ∃ words, allLabelled .name trees = words.map (fun word => [.leaf word]) ∧
      IsDottedName (bareTokens .outside (tokensOfAll trees)) words := by
  obtain ⟨names, back, rfl, hnames, hback⟩ := derives_seq h
  obtain ⟨arguments, more, rfl, harguments, hmore⟩ := derives_seq hback
  obtain ⟨first, spelling, rfl, hfirst⟩ := derives_named hnames
  -- By induction on the further segments, with any word in front of them.
  have hdotted : ∃ words, allLabelled .name more = words.map (fun word => [.leaf word]) ∧
      ∀ first spelling, Token.lexeme first = .word spelling →
        IsDottedName (first :: bareTokens .outside (tokensOfAll more)) (first :: words) := by
    refine hmore.many_induction ⟨[], rfl, fun first spelling hfirst => ?_⟩ ?_
    · exact .one hfirst
    · rintro once more honce ⟨words, hwords, hname⟩
      obtain ⟨point, word, spelling, hpoint, hword, hlabelled, hbare⟩ := exists_segment honce
      refine ⟨word :: words, ?_, fun first _ hfirst => ?_⟩
      · rw [allLabelled_append, hlabelled, hwords]
        rfl
      · rw [tokensOfAll_append, hbare]
        exact .more hfirst hpoint (hname word spelling hword)
  obtain ⟨words, hwords, hname⟩ := hdotted
  refine ⟨first :: words, ?_, ?_⟩
  · rw [List.singleton_append, allLabelled, allLabelled_append, allLabelled_optional_typeArguments harguments, hwords]
    rfl
  · simp only [tokensOfAll_append, tokensOfAll_cons, tokensOfAll_nil, tokens_leaf, tokens_node, List.append_nil,
      List.nil_append, List.cons_append]
    rw [bareTokens_word hfirst (by decide), bareTokens_optional_typeArguments harguments]
    exact hname first spelling hfirst

end Pattern

/-! ### Types at any depth -/

namespace Construct

/-- What may stand under the label of a named type. -/
def spellsName : Part → JavaPattern → Bool
  | .named, inner => inner = Pattern.segments [] || inner = Pattern.segments ["class"]
  | _, _ => true

theorem spellsName_body : ∀ construct, (body construct).eachNode spellsName = true :=
  forall_of_every (by decide +kernel)

end Construct

/-- **The name of a type that is read, at whatever depth, is what its tokens come down to.** -/
theorem isDottedName_of_within {tokens : List Token} {trees children : List (ParseTree Part)}
    (h : javaGrammar.parse? tokens = some trees) (hwithin : Within (.node .named children) trees) :
    ∃ words, allLabelled .name children = words.map (fun word => [.leaf word]) ∧
      IsDottedName (bareTokens .outside (tokensOfAll children)) words := by
  obtain ⟨inner, hinner, hderives⟩ := (javaGrammar.derives_of_parse? h).1.of_within Construct.spellsName_body rfl hwithin
  rw [Construct.spellsName, Bool.or_eq_true, decide_eq_true_eq, decide_eq_true_eq] at hinner
  rcases hinner with rfl | rfl
  all_goals exact Pattern.isDottedName_of_derives hderives

end JavaAtlas.Syntax

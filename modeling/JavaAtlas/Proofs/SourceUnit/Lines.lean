import JavaAtlas.Proofs.SourceUnit.Relined
import JavaAtlas.Proofs.Syntax.TypeUses

/-!
# Lines of tokens and types

Tokens stand in the order of their lines, and these are lines of the source. A tree of a parsed source is never empty,
and where a type is asked for there is one, so the lines that are recorded for trees and for the types among them are
lines of tokens.
-/

namespace JavaAtlas

namespace SourceUnit

open JavaAtlas.Syntax ParseTree

variable {trees rest children : List JavaTree} {tree : JavaTree} {label : Part}

/-! ### Lines of tokens -/

/-- Tokens stand in the order of their lines, which are lines of the source. -/
theorem lines_scanFrom {line : Nat} {embeddings : List Embedding} {source : List Char} {tokens : List Token}
    (h : scanFrom line embeddings source = some tokens) :
    tokens.Pairwise (fun token later => token.line ≤ later.line) ∧
      ∀ token ∈ tokens, line ≤ token.line ∧ token.line ≤ line + lineFeeds source := by
  induction tokens generalizing line embeddings source with
  | nil => simp
  | cons token tokens ih =>
    obtain ⟨later, rest, hopens, hmore⟩ := scanFrom_eq_cons_iff.1 h
    obtain ⟨hsorted, hbetween⟩ := ih hmore
    have hfeeds : lineFeeds source = lineFeeds token.gap + (lineFeeds token.spelled + lineFeeds rest) := by
      rw [hopens.pieces, lineFeeds, List.count_append, List.count_append]
      rfl
    have hline := hopens.line
    constructor
    · refine List.pairwise_cons.2 ⟨?_, hsorted⟩
      intro other hother
      have hlower := (hbetween other hother).1
      omega
    · intro other hother
      rcases List.mem_cons.1 hother with rfl | hother
      · omega
      · have hinside := hbetween other hother
        omega

theorem lines_scan {source : List Char} {tokens : List Token} (h : scan source = some tokens) :
    tokens.Pairwise (fun token later => token.line ≤ later.line) ∧
      ∀ token ∈ tokens, 1 ≤ token.line ∧ token.line ≤ 1 + lineFeeds source := by
  rw [scan_eq] at h
  split at h
  · cases h
  obtain ⟨hsorted, hbetween⟩ := lines_scanFrom h
  refine ⟨hsorted, ?_⟩
  intro token htoken
  obtain ⟨hlower, hupper⟩ := hbetween token htoken
  have hless : lineFeeds (source.drop (mark source).length) ≤ lineFeeds source :=
    (List.drop_sublist _ source).count_le '\n'
  omega

/-- The lines of the tokens of some trees, as units record them. -/
def linesOf (trees : List JavaTree) : List Line :=
  (tokensOfAll trees).map fun token => UInt32.ofNat token.line

@[simp] theorem linesOf_nil : linesOf [] = [] := by
  simp [linesOf]

theorem linesOf_cons (tree : JavaTree) (rest : List JavaTree) : linesOf (tree :: rest) = linesOf [tree] ++ linesOf rest := by
  simp [linesOf]

theorem linesOf_node (label : Part) (children : List JavaTree) : linesOf [.node label children] = linesOf children := by
  simp [linesOf]

theorem lineOf_mem (h : tokensOfAll trees ≠ []) : lineOf trees ∈ linesOf trees := by
  rw [lineOf, firstLine, linesOf]
  cases htokens : tokensOfAll trees with
  | nil => exact absurd htokens h
  | cons token rest => exact List.mem_cons_self

theorem lineOf_le (h : (linesOf trees).Pairwise (· ≤ ·)) : ∀ line ∈ linesOf trees, lineOf trees ≤ line := by
  rw [linesOf] at h ⊢
  rw [lineOf, firstLine]
  cases htokens : tokensOfAll trees with
  | nil => simp
  | cons token rest =>
    rw [htokens, List.map_cons, List.pairwise_cons] at h
    intro line hline
    rcases List.mem_cons.1 hline with rfl | hline
    · exact UInt32.le_refl _
    · exact h.1 line hline

theorem linesOf_subset_of_within (h : Within (.node label children) trees) : linesOf children ⊆ linesOf trees := by
  intro line hline
  obtain ⟨token, htoken, rfl⟩ := List.mem_map.1 hline
  refine List.mem_map_of_mem (mem_tokensOfAll_of_within ?_ h)
  rwa [tokens_node]

/-! ### Types -/

/-- What is known of the nodes of parsed trees: none is empty, types are spelled like types, and some hold a tree of a
certain sort, or at most one. -/
structure Regular (trees : List JavaTree) : Prop where
  full : AllWithin (fun tree => tree.tokens ≠ []) trees
  type : ∀ children, Within (.node .typeUse children) trees → IsTypeUse children
  typed : ∀ label ∈ typedParts, ∀ children, Within (.node label children) trees →
    ∃ tree ∈ children, tree.label? = some .typeUse
  declared : ∀ children, Within (.node .declaration children) trees →
    children.countP (fun tree => Construct.isBesideModifiers tree.label?) ≤ 1

theorem Regular.mono (h : Regular trees) (hsub : ∀ tree, Within tree rest → Within tree trees) : Regular rest where
  full tree htree := h.full tree (hsub tree htree)
  type children hchildren := h.type children (hsub _ hchildren)
  typed label hlabel children hchildren := h.typed label hlabel children (hsub _ hchildren)
  declared children hchildren := h.declared children (hsub _ hchildren)

theorem Regular.head (h : Regular (tree :: rest)) : Regular [tree] :=
  h.mono fun _ hinner => hinner.mono fun _ hmem => List.mem_singleton.1 hmem ▸ List.mem_cons_self

theorem Regular.tail (h : Regular (tree :: rest)) : Regular rest :=
  h.mono fun _ hinner => hinner.mono fun _ => List.mem_cons_of_mem tree

theorem Regular.inside (h : Regular trees) (hwithin : Within (.node label children) trees) : Regular children :=
  h.mono fun _ hinner => hinner.trans hwithin

theorem Regular.below (h : Regular (.node label children :: rest)) : Regular children :=
  h.inside (.here List.mem_cons_self)

theorem Regular.tokensOfAll_ne_nil (h : Regular trees) (htree : tree ∈ trees) : tokensOfAll trees ≠ [] := by
  obtain ⟨token, htoken⟩ := List.exists_mem_of_ne_nil _ (h.full tree (.here htree))
  exact List.ne_nil_of_mem (mem_tokensOfAll.2 ⟨tree, htree, htoken⟩)

theorem Regular.children_ne_nil (h : Regular trees) (hwithin : Within (.node label children) trees) :
    tokensOfAll children ≠ [] := by
  rw [← tokens_node]
  exact h.full _ hwithin

theorem regular_of_parse? {tokens : List Token} (h : javaGrammar.parse? tokens = some trees) : Regular trees where
  full _ hwithin := tokens_ne_nil_of_within h hwithin
  type _ hwithin := isTypeUse_of_within h hwithin
  typed _ hlabel _ hwithin := exists_typeUse_of_within h hwithin hlabel
  declared _ hwithin := countP_declared_le_one h hwithin

theorem writtenType_simple (h : IsSimple tree) : writtenType [tree] = simpleType tree := by
  cases h <;> rfl

theorem writtenType_array {dimensions : List JavaTree} (h : IsSimple tree) :
    writtenType [tree, .node .dimensions dimensions] =
      .array (writtenText [tree, .node .dimensions dimensions]) (lineOf [tree, .node .dimensions dimensions])
        (simpleType tree) := by
  cases h <;> rfl

theorem lines_simpleType (h : Regular [tree]) (hsimple : IsSimple tree) :
    ∀ line ∈ (simpleType tree).lines, line ∈ linesOf [tree] := by
  have hwithin : Within tree [tree] := .here (List.mem_singleton_self tree)
  cases hsimple with
  | named children | primitive children | void children =>
    have hline := lineOf_mem (h.children_ne_nil hwithin)
    rw [linesOf_node]
    simpa [simpleType, WrittenType.lines] using hline

theorem lines_writtenType (h : Regular trees) (htype : IsTypeUse trees) :
    ∀ line ∈ (writtenType trees).lines, line ∈ linesOf trees := by
  induction htype with
  | simple hsimple =>
    rw [writtenType_simple hsimple]
    exact lines_simpleType h hsimple
  | @array tree dimensions hsimple =>
    rw [writtenType_array hsimple]
    intro line hline
    rcases List.mem_cons.1 hline with rfl | hline
    · exact lineOf_mem (h.tokensOfAll_ne_nil List.mem_cons_self)
    · rw [linesOf_cons]
      exact List.mem_append_left _ (lines_simpleType h.head hsimple line hline)
  | annotated _ ih =>
    intro line hline
    rw [writtenType] at hline
    rw [linesOf_cons]
    exact List.mem_append_right _ (ih h.tail line hline)

theorem lines_typeUse (h : Regular trees) (hwithin : Within (.node .typeUse children) trees) :
    ∀ line ∈ (writtenType children).lines, line ∈ linesOf trees := by
  intro line hline
  apply linesOf_subset_of_within hwithin
  exact lines_writtenType (h.inside hwithin) (h.type children hwithin) line hline

theorem exists_firstLabelled_typeUse (h : ∃ tree ∈ trees, tree.label? = some .typeUse) :
    ∃ children, firstLabelled .typeUse trees = some children := by
  induction trees with
  | nil =>
    obtain ⟨tree, hmem, -⟩ := h
    cases hmem
  | cons first rest ih =>
    obtain ⟨tree, hmem, hlabel⟩ := h
    cases first with
    | leaf token =>
      rcases List.mem_cons.1 hmem with rfl | hmem
      · cases hlabel
      · exact ih ⟨tree, hmem, hlabel⟩
    | node found children =>
      rw [firstLabelled]
      split
      · exact ⟨children, rfl⟩
      · next hother =>
        rcases List.mem_cons.1 hmem with rfl | hmem
        · cases hlabel
          exact absurd (beq_self_eq_true _) hother
        · exact ih ⟨tree, hmem, hlabel⟩

theorem lines_typeIn (h : Regular trees) (htype : ∃ tree ∈ trees, tree.label? = some .typeUse) :
    ∀ line ∈ (typeIn trees).lines, line ∈ linesOf trees := by
  obtain ⟨children, hchildren⟩ := exists_firstLabelled_typeUse htype
  rw [typeIn, hchildren, Option.getD_some]
  exact lines_typeUse h (.here (mem_of_firstLabelled hchildren))

theorem mem_of_mem_allLabelled (h : children ∈ allLabelled label trees) : .node label children ∈ trees := by
  induction trees with
  | nil => cases h
  | cons tree rest ih =>
    cases tree with
    | leaf token => exact List.mem_cons_of_mem _ (ih h)
    | node found inside =>
      rw [allLabelled] at h
      split at h
      · next hsame =>
        rcases List.mem_cons.1 h with rfl | h
        · cases eq_of_beq hsame
          exact List.mem_cons_self
        · exact List.mem_cons_of_mem _ (ih h)
      · exact List.mem_cons_of_mem _ (ih h)

/-- What is marked under a label among some trees, or under it below the first tree with another. -/
theorem within_of_mem_labelled {outer : Part}
    (h : children ∈ allLabelled label ((firstLabelled outer trees).getD [])) :
    Within (.node label children) trees := by
  cases hfound : firstLabelled outer trees with
  | none =>
    rw [hfound] at h
    cases h
  | some inside =>
    rw [hfound, Option.getD_some] at h
    exact .inside (mem_of_firstLabelled hfound) (.here (mem_of_mem_allLabelled h))

theorem lines_typesUnder (h : Regular trees) {type : WrittenType} (htype : type ∈ typesUnder label trees) :
    ∀ line ∈ type.lines, line ∈ linesOf trees := by
  obtain ⟨children, hchildren, rfl⟩ := List.mem_map.1 htype
  exact lines_typeUse h (within_of_mem_labelled hchildren)

theorem lines_parametersIn (h : Regular trees) {parameter : Parameter} (hparameter : parameter ∈ parametersIn trees) :
    ∀ line ∈ parameter.type.lines, line ∈ linesOf trees := by
  obtain ⟨children, hchildren, rfl⟩ := List.mem_map.1 hparameter
  have hwithin := within_of_mem_labelled hchildren
  intro line hline
  apply linesOf_subset_of_within hwithin
  exact lines_typeIn (h.inside hwithin) (h.typed .parameter (by decide) children hwithin) line hline

end SourceUnit

end JavaAtlas

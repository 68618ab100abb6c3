import Mathlib.Algebra.Group.Nat.Defs
import JavaAtlas.Proofs.Extraction.Candidates
import JavaAtlas.Proofs.SourceUnit.Lines

/-!
# Lines in parsed units

What a tree adds to a unit is put together in the order of its tokens: that is why the lines of the nodes never
decrease along the walk, although some parts are passed over and an inner creation takes earlier ones below itself.
All lines that are recorded are lines of tokens, and so lines of the source, in the unit and in every report on it.
-/

namespace JavaAtlas

namespace Node

@[simp] theorem walkAll_nil : walkAll [] = [] := by
  rw [walkAll]

theorem walkAll_append (nodes others : List Node) : walkAll (nodes ++ others) = walkAll nodes ++ walkAll others := by
  induction nodes with
  | nil => rw [walkAll_nil, List.nil_append, List.nil_append]
  | cons node rest ih => rw [List.cons_append, walkAll, walkAll, ih, List.append_assoc]

end Node

namespace SourceUnit

open JavaAtlas.Syntax ParseTree

variable {trees rest children : List JavaTree} {tree : JavaTree} {label : Part} {nodes others : List Node}
  {lines more : List Line}

/-! ### Nodes -/

/-- The lines that some nodes and the nodes below them record are among some lines, none of them is before the line of
its node, and the lines of the nodes never decrease. -/
structure Follows (lines : List Line) (nodes : List Node) : Prop where
  within : ∀ node ∈ Node.walkAll nodes, ∀ line ∈ node.lines, line ∈ lines ∧ node.line ≤ line
  ordered : (Node.walkAll nodes).Pairwise fun node later => node.line ≤ later.line

theorem Follows.line_mem {node : Node} (h : Follows lines nodes) (hnode : node ∈ Node.walkAll nodes) :
    node.line ∈ lines :=
  (h.within node hnode node.line List.mem_cons_self).1

theorem follows_nil (lines : List Line) : Follows lines [] where
  within := by simp
  ordered := by simp

theorem Follows.mono (h : Follows lines nodes) (hsub : lines ⊆ more) : Follows more nodes where
  within node hnode line hline := ⟨hsub (h.within node hnode line hline).1, (h.within node hnode line hline).2⟩
  ordered := h.ordered

theorem Follows.append (h : Follows lines nodes) (hothers : Follows more others)
    (hsorted : (lines ++ more).Pairwise (· ≤ ·)) : Follows (lines ++ more) (nodes ++ others) where
  within := by
    intro node hnode line hline
    rw [Node.walkAll_append, List.mem_append] at hnode
    rcases hnode with hnode | hnode
    · exact ⟨List.mem_append_left _ (h.within node hnode line hline).1, (h.within node hnode line hline).2⟩
    · exact ⟨List.mem_append_right _ (hothers.within node hnode line hline).1,
        (hothers.within node hnode line hline).2⟩
  ordered := by
    rw [Node.walkAll_append]
    refine List.pairwise_append.2 ⟨h.ordered, hothers.ordered, ?_⟩
    intro node hnode other hother
    exact (List.pairwise_append.1 hsorted).2.2 _ (h.line_mem hnode) _ (hothers.line_mem hother)

theorem Follows.branch {head : Head} (h : Follows lines nodes) (hline : head.line ∈ lines)
    (hleast : ∀ line ∈ lines, head.line ≤ line) (htypes : ∀ type ∈ head.types, ∀ line ∈ type.lines, line ∈ lines) :
    Follows lines [.branch head nodes] where
  within := by
    intro node hnode line hmem
    rw [Node.walkAll, Node.walkAll_nil, List.append_nil, Node.walk] at hnode
    rcases List.mem_cons.1 hnode with rfl | hnode
    · have hamong : line ∈ lines := by
        rcases List.mem_cons.1 hmem with rfl | hmem
        · exact hline
        · obtain ⟨type, htype, hmem⟩ := List.mem_flatMap.1 hmem
          exact htypes type htype line hmem
      exact ⟨hamong, hleast line hamong⟩
    · exact h.within node hnode line hmem
  ordered := by
    rw [Node.walkAll, Node.walkAll_nil, List.append_nil, Node.walk]
    exact List.pairwise_cons.2 ⟨fun node hnode => hleast _ (h.line_mem hnode), h.ordered⟩

/-- A header shows no line but its own. -/
theorem follows_header {node : Node} (hlines : node.lines = [node.line]) (hwalk : node.walk = [node])
    (hline : node.line ∈ lines) : Follows lines [node] where
  within := by
    intro other hother line hmem
    rw [Node.walkAll, Node.walkAll_nil, List.append_nil, hwalk, List.mem_singleton] at hother
    subst hother
    rw [hlines, List.mem_singleton] at hmem
    subst hmem
    exact ⟨hline, UInt32.le_refl _⟩
  ordered := by
    rw [Node.walkAll, Node.walkAll_nil, List.append_nil, hwalk]
    exact List.pairwise_singleton _ _

/-! ### Lists of trees

The functions on lists follow the lines of the trees, provided that this holds of what `nodesOf` makes of every tree
among and below them. A start that is handed down stands before these lines. -/

/-- What a tree adds to a unit follows its lines, behind the start of its declaration. -/
def Numbered (tree : JavaTree) : Prop :=
  ∀ nested start, Regular [tree] → (Option.toList start ++ linesOf [tree]).Pairwise (· ≤ ·) →
    Follows (Option.toList start ++ linesOf [tree]) (nodesOf nested start tree)

theorem Numbered.follows (h : Numbered tree) (hregular : Regular [tree])
    (hsorted : (linesOf [tree]).Pairwise (· ≤ ·)) (nested : Bool) :
    Follows (linesOf [tree]) (nodesOf nested none tree) :=
  h nested none hregular hsorted

theorem sorted_head (h : (linesOf (tree :: rest)).Pairwise (· ≤ ·)) : (linesOf [tree]).Pairwise (· ≤ ·) := by
  rw [linesOf_cons] at h
  exact (List.pairwise_append.1 h).1

theorem sorted_tail (h : (linesOf (tree :: rest)).Pairwise (· ≤ ·)) : (linesOf rest).Pairwise (· ≤ ·) := by
  rw [linesOf_cons] at h
  exact (List.pairwise_append.1 h).2.1

theorem linesOf_subset_cons (tree : JavaTree) (rest : List JavaTree) : linesOf rest ⊆ linesOf (tree :: rest) := by
  rw [linesOf_cons]
  exact List.subset_append_right _ _

theorem Follows.cons (h : Follows (linesOf [tree]) nodes) (hrest : Follows (linesOf rest) others)
    (hsorted : (linesOf (tree :: rest)).Pairwise (· ≤ ·)) : Follows (linesOf (tree :: rest)) (nodes ++ others) := by
  rw [linesOf_cons] at hsorted ⊢
  exact h.append hrest hsorted

theorem follows_nodesOfAll (nested : Bool) (h : AllWithin Numbered trees) (hregular : Regular trees)
    (hsorted : (linesOf trees).Pairwise (· ≤ ·)) : Follows (linesOf trees) (nodesOfAll nested trees) := by
  induction trees with
  | nil =>
    rw [nodesOfAll]
    exact follows_nil _
  | cons tree rest ih =>
    rw [nodesOfAll]
    have hfirst := h.head.follows hregular.head (sorted_head hsorted) nested
    exact hfirst.cons (ih h.tail hregular.tail (sorted_tail hsorted)) hsorted

theorem Follows.node (h : (linesOf children).Pairwise (· ≤ ·) → Follows (linesOf children) nodes)
    (hrest : Follows (linesOf rest) others) (hsorted : (linesOf (.node label children :: rest)).Pairwise (· ≤ ·)) :
    Follows (linesOf (.node label children :: rest)) (nodes ++ others) := by
  have hinside := sorted_head hsorted
  rw [linesOf_node] at hinside
  refine Follows.cons ?_ hrest hsorted
  rw [linesOf_node]
  exact h hinside

theorem follows_initialNodes (h : AllWithin Numbered trees) (hregular : Regular trees)
    (hsorted : (linesOf trees).Pairwise (· ≤ ·)) : Follows (linesOf trees) (initialNodes trees) := by
  induction trees with
  | nil =>
    rw [initialNodes]
    exact follows_nil _
  | cons tree rest ih =>
    have hrest := ih h.tail hregular.tail (sorted_tail hsorted)
    unfold initialNodes
    split
    · exact follows_nil _
    · next heq =>
      cases heq
      exact Follows.node (follows_nodesOfAll false h.below hregular.below) hrest hsorted
    · next heq =>
      cases heq
      exact hrest.mono (linesOf_subset_cons _ _)

theorem follows_partNodes (h : AllWithin Numbered trees) (hregular : Regular trees)
    (hsorted : (linesOf trees).Pairwise (· ≤ ·)) : Follows (linesOf trees) (partNodes trees) := by
  induction trees with
  | nil =>
    rw [partNodes]
    exact follows_nil _
  | cons tree rest ih =>
    have hrest := ih h.tail hregular.tail (sorted_tail hsorted)
    unfold partNodes
    split
    · exact follows_nil _
    · next heq =>
      cases heq
      exact Follows.node (follows_nodesOfAll true h.below hregular.below) hrest hsorted
    · next heq =>
      cases heq
      exact Follows.node (follows_nodesOfAll false h.below hregular.below) hrest hsorted
    · next heq =>
      cases heq
      exact Follows.node (follows_initialNodes h.below hregular.below) hrest hsorted
    · next heq =>
      cases heq
      exact hrest.mono (linesOf_subset_cons _ _)

theorem follows_creationNodes (typeSeen : Bool) (h : AllWithin Numbered trees) (hregular : Regular trees)
    (hsorted : (linesOf trees).Pairwise (· ≤ ·)) : Follows (linesOf trees) (creationNodes typeSeen trees) := by
  induction trees generalizing typeSeen with
  | nil =>
    rw [creationNodes]
    exact follows_nil _
  | cons tree rest ih =>
    have hrest (typeSeen : Bool) := ih typeSeen h.tail hregular.tail (sorted_tail hsorted)
    unfold creationNodes
    split
    · exact follows_nil _
    · next heq =>
      cases heq
      split
      · exact Follows.node (follows_nodesOfAll false h.below hregular.below) (hrest true) hsorted
      · exact (hrest true).mono (linesOf_subset_cons _ _)
    · next heq =>
      cases heq
      split
      · exact Follows.node (follows_nodesOfAll false h.below hregular.below) (hrest true) hsorted
      · exact (hrest typeSeen).mono (linesOf_subset_cons _ _)
    · next heq =>
      cases heq
      have hfirst := h.head.follows hregular.head (sorted_head hsorted) false
      exact hfirst.cons (hrest typeSeen) hsorted

/-- Behind what a declaration declares nothing adds a node. -/
theorem declaredNodes_eq_nil (nested : Bool) (start : Line)
    (h : trees.countP (fun tree => Construct.isBesideModifiers tree.label?) = 0) :
    declaredNodes nested start trees = [] := by
  induction trees with
  | nil => rw [declaredNodes]
  | cons tree rest ih =>
    rw [List.countP_eq_zero, List.forall_mem_cons] at h
    have hmodifiers : tree.label? = some .modifiers := by simpa [Construct.isBesideModifiers] using h.1
    cases tree with
    | leaf token => cases hmodifiers
    | node label children =>
      cases hmodifiers
      rw [declaredNodes, ih (List.countP_eq_zero.2 h.2)]

theorem follows_declaredNodes (nested : Bool) (start : Line) (h : AllWithin Numbered trees) (hregular : Regular trees)
    (hsorted : (start :: linesOf trees).Pairwise (· ≤ ·))
    (hone : trees.countP (fun tree => Construct.isBesideModifiers tree.label?) ≤ 1) :
    Follows (start :: linesOf trees) (declaredNodes nested start trees) := by
  induction trees with
  | nil =>
    rw [declaredNodes]
    exact follows_nil _
  | cons tree rest ih =>
    have hless : (start :: linesOf rest).Pairwise (· ≤ ·) := by
      rw [linesOf_cons] at hsorted
      exact hsorted.sublist ((List.sublist_append_right _ _).cons_cons start)
    have hcount : rest.countP (fun tree => Construct.isBesideModifiers tree.label?) ≤ 1 := by
      rw [List.countP_cons] at hone
      omega
    unfold declaredNodes
    split
    · exact follows_nil _
    · next heq =>
      cases heq
      exact (ih h.tail hregular.tail hless hcount).mono (List.cons_subset_cons start (linesOf_subset_cons _ _))
    · next hmodifiers heq =>
      cases heq
      -- This is the one tree that is declared.
      have hdeclared : Construct.isBesideModifiers tree.label? = true := by
        cases tree with
        | leaf token => rfl
        | node label children =>
          simp only [Construct.isBesideModifiers, label?, bne_iff_ne, ne_eq, Option.some.injEq]
          rintro rfl
          exact hmodifiers _ rfl
      rw [List.countP_cons, hdeclared, if_pos rfl] at hone
      rw [declaredNodes_eq_nil nested start (by omega), List.append_nil]
      rw [linesOf_cons, ← List.cons_append] at hsorted ⊢
      have hfirst := h.head nested (some start) hregular.head (List.pairwise_append.1 hsorted).1
      exact hfirst.mono (List.subset_append_left _ _)

/-- A chain hands the nodes found so far to an inner creation, which starts where all of them start. -/
theorem follows_chainNodes {start : Line} {found : List Node} (h : AllWithin Numbered trees) (hregular : Regular trees)
    (hsorted : (lines ++ linesOf trees).Pairwise (· ≤ ·)) (hstart : start ∈ lines)
    (hleast : ∀ line ∈ lines ++ linesOf trees, start ≤ line) (hfound : Follows lines found) :
    Follows (lines ++ linesOf trees) (chainNodes start found trees) := by
  induction trees generalizing lines found with
  | nil =>
    rw [chainNodes, linesOf_nil, List.append_nil]
    exact hfound
  | cons tree rest ih =>
    rw [linesOf_cons, ← List.append_assoc] at hsorted hleast ⊢
    have hfront := (List.pairwise_append.1 hsorted).1
    have hstart' : start ∈ lines ++ linesOf [tree] := List.mem_append_left _ hstart
    unfold chainNodes
    split
    · exact hfound.mono (List.Subset.trans (List.subset_append_left _ _) (List.subset_append_left _ _))
    · next inside _ heq =>
      cases heq
      refine ih h.tail hregular.tail hsorted hstart' hleast ?_
      rw [linesOf_node] at hfront ⊢
      have hbelow : Follows (linesOf inside) (creationNodes false inside) :=
        follows_creationNodes false h.below hregular.below (List.pairwise_append.1 hfront).2.1
      refine (hfound.append hbelow hfront).branch (List.mem_append_left _ hstart) ?_ ?_
      · intro line hline
        apply hleast line
        rw [linesOf_node]
        exact List.mem_append_left _ hline
      · intro type htype line hline
        rw [Head.types, List.mem_singleton] at htype
        subst htype
        have htyped := hregular.typed .innerCreation (by decide) inside (.here List.mem_cons_self)
        exact List.mem_append_right _ (lines_typeIn hregular.below htyped line hline)
    · next heq =>
      cases heq
      refine ih h.tail hregular.tail hsorted hstart' hleast ?_
      exact hfound.append (h.head.follows hregular.head (List.pairwise_append.1 hfront).2.1 false) hfront

/-! ### One tree, and all -/

theorem lines_declaredHead {start : Line} {nested : Bool} {head : Head} (h : Regular [.node label trees])
    (hhead : declaredHead start nested label trees = some head) :
    head.line = start ∧ ∀ type ∈ head.types, ∀ line ∈ type.lines, line ∈ linesOf trees := by
  have hbelow := h.below
  have htypeIn (hlabel : label ∈ typedParts) : ∀ line ∈ (typeIn trees).lines, line ∈ linesOf trees :=
    lines_typeIn hbelow (h.typed label hlabel trees (.here List.mem_cons_self))
  have hparameters : ∀ type ∈ (parametersIn trees).map Parameter.type, ∀ line ∈ type.lines, line ∈ linesOf trees := by
    intro type htype
    obtain ⟨parameter, hparameter, rfl⟩ := List.mem_map.1 htype
    exact lines_parametersIn hbelow hparameter
  unfold declaredHead at hhead
  split at hhead
  · cases hhead
    refine ⟨rfl, ?_⟩
    intro type htype
    rcases List.mem_append.1 htype with htype | htype
    · exact lines_typesUnder hbelow htype
    · exact lines_typesUnder hbelow htype
  · cases hhead
    refine ⟨rfl, ?_⟩
    intro type htype
    rw [List.mem_singleton.1 htype]
    exact htypeIn (by decide)
  · cases hhead
    refine ⟨rfl, ?_⟩
    intro type htype
    rcases List.mem_cons.1 htype with rfl | htype
    · exact htypeIn (by decide)
    · exact hparameters type htype
  · cases hhead
    exact ⟨rfl, hparameters⟩
  · cases hhead

section

variable {nested : Bool} (h : AllWithin Numbered trees)

/-- What follows the lines of some trees and the first of them follows these lines. -/
theorem Follows.of_lineOf (hregular : Regular [.node label trees]) (h : Follows (lineOf trees :: linesOf trees) nodes) :
    Follows (linesOf trees) nodes :=
  h.mono (List.cons_subset.2
    ⟨lineOf_mem (hregular.children_ne_nil (.here List.mem_cons_self)), List.Subset.refl (linesOf trees)⟩)

include h

theorem follows_declaration (hregular : Regular [.node .declaration trees])
    (hsorted : (linesOf trees).Pairwise (· ≤ ·)) :
    Follows (linesOf trees) (declaredNodes nested (lineOf trees) trees) := by
  have hstart : (lineOf trees :: linesOf trees).Pairwise (· ≤ ·) := List.pairwise_cons.2 ⟨lineOf_le hsorted, hsorted⟩
  have hone := hregular.declared trees (.here List.mem_cons_self)
  exact .of_lineOf hregular (follows_declaredNodes nested _ h hregular.below hstart hone)

theorem follows_chain (hregular : Regular [.node .chain trees]) (hsorted : (linesOf trees).Pairwise (· ≤ ·)) :
    Follows (linesOf trees) (chainNodes (lineOf trees) [] trees) := by
  have hstart : (lineOf trees :: linesOf trees).Pairwise (· ≤ ·) := List.pairwise_cons.2 ⟨lineOf_le hsorted, hsorted⟩
  have hleast : ∀ line ∈ [lineOf trees] ++ linesOf trees, lineOf trees ≤ line := by
    rw [List.singleton_append, List.forall_mem_cons]
    exact ⟨UInt32.le_refl _, lineOf_le hsorted⟩
  exact .of_lineOf hregular
    (follows_chainNodes h hregular.below hstart List.mem_cons_self hleast (follows_nil [lineOf trees]))

theorem follows_creation (hregular : Regular [.node .creation trees]) (hsorted : (linesOf trees).Pairwise (· ≤ ·)) :
    Follows (linesOf trees) [.branch (.creation (typeIn trees) (lineOf trees)) (creationNodes false trees)] := by
  have hmem : lineOf trees ∈ linesOf trees := lineOf_mem (hregular.children_ne_nil (.here List.mem_cons_self))
  refine (follows_creationNodes false h hregular.below hsorted).branch hmem (lineOf_le hsorted) ?_
  intro type htype
  rw [List.mem_singleton.1 htype]
  exact lines_typeIn hregular.below (hregular.typed .creation (by decide) trees (.here List.mem_cons_self))

theorem follows_declared {start : Line} {head : Head} (hregular : Regular [.node label trees])
    (hsorted : (start :: linesOf trees).Pairwise (· ≤ ·)) (hhead : declaredHead start nested label trees = some head) :
    Follows (start :: linesOf trees) [.branch head (partNodes trees)] := by
  obtain ⟨hbefore, hinside⟩ := List.pairwise_cons.1 hsorted
  obtain ⟨hline, htypes⟩ := lines_declaredHead hregular hhead
  have hsub : linesOf trees ⊆ start :: linesOf trees := List.subset_cons_self start (linesOf trees)
  refine ((follows_partNodes h hregular.below hinside).mono hsub).branch ?_ ?_ ?_
  · rw [hline]
    exact List.mem_cons_self
  · rw [hline]
    exact List.forall_mem_cons.2 ⟨UInt32.le_refl _, hbefore⟩
  · exact fun type htype line hmem => hsub (htypes type htype line hmem)

end

theorem numbered_of_children (h : AllWithin Numbered tree.children) : Numbered tree := by
  intro nested start hregular hsorted
  cases tree with
  | leaf token =>
    rw [nodesOf]
    exact follows_nil _
  | node label trees =>
    have hinside := (List.pairwise_append.1 hsorted).2.1
    rw [linesOf_node] at hsorted hinside ⊢
    have hmem : lineOf trees ∈ linesOf trees := lineOf_mem (hregular.children_ne_nil (.here List.mem_cons_self))
    have hwhole : linesOf trees ⊆ start.toList ++ linesOf trees := List.subset_append_right _ _
    unfold nodesOf
    split
    · next heq => cases heq
    · next heq =>
      cases heq
      exact follows_header rfl rfl (hwhole hmem)
    · next heq =>
      cases heq
      exact follows_header rfl rfl (hwhole hmem)
    · next heq =>
      cases heq
      exact (follows_declaration h hregular hinside).mono hwhole
    · next heq =>
      cases heq
      exact (follows_chain h hregular hinside).mono hwhole
    · next heq =>
      cases heq
      exact (follows_creation h hregular hinside).mono hwhole
    · next heq =>
      cases heq
      split
      · next hhead =>
        obtain ⟨line, rfl, hhead⟩ := Option.bind_eq_some_iff.1 hhead
        exact follows_declared h hregular hsorted hhead
      · exact (follows_nodesOfAll _ h hregular.below hinside).mono hwhole

theorem numbered (tree : JavaTree) : Numbered tree := by
  induction tree using ParseTree.induction with
  | step tree ih => exact numbered_of_children ih

theorem toNat_ofNat {n : Nat} (h : n < 2 ^ 32) : (UInt32.ofNat n).toNat = n :=
  UInt32.toNat_ofNat_of_lt' h

theorem ofNat_le_ofNat {n m : Nat} (hle : n ≤ m) (hm : m < 2 ^ 32) : UInt32.ofNat n ≤ UInt32.ofNat m := by
  rw [UInt32.le_iff_toNat_le, toNat_ofNat (by omega), toNat_ofNat hm]
  exact hle

/-- A line of a text, counted from one. -/
def IsLineOf (text : List Char) (line : Line) : Prop :=
  1 ≤ line ∧ line.toNat ≤ 1 + lineFeeds text

variable {source : String} {unit : SourceUnit}

theorem follows_of_parse? (hparse : parse? source = some unit) (hlines : 1 + lineFeeds source.toList < 2 ^ 32) :
    ∃ lines, Follows lines unit.nodes ∧ ∀ line ∈ lines, IsLineOf source.toList line := by
  rw [parse?_eq_map_trees?] at hparse
  obtain ⟨trees, htrees, rfl⟩ := Option.map_eq_some_iff.1 hparse
  obtain ⟨tokens, hscan, hread⟩ := trees?_eq_some_iff.1 htrees
  obtain ⟨hsorted, hbetween⟩ := lines_scan hscan
  have htokens : linesOf trees = tokens.map fun token => UInt32.ofNat token.line := by
    rw [linesOf, (javaGrammar.derives_of_parse? hread).2]
  refine ⟨linesOf trees, follows_nodesOfAll false (fun tree _ => numbered tree) (regular_of_parse? hread) ?_, ?_⟩
  · rw [htokens, List.pairwise_map]
    refine hsorted.imp_of_mem ?_
    intro token later htoken hlater hle
    have hbound := hbetween later hlater
    exact ofNat_le_ofNat hle (by omega)
  · rw [htokens]
    intro line hline
    obtain ⟨token, htoken, rfl⟩ := List.mem_map.1 hline
    obtain ⟨hlower, hupper⟩ := hbetween token htoken
    constructor
    · exact ofNat_le_ofNat hlower (by omega)
    · rw [toNat_ofNat (by omega)]
      exact hupper

end SourceUnit

/-! ### Reports -/

theorem WrittenType.line_mem_lines (type : WrittenType) : type.line ∈ type.lines := by
  cases type <;> exact List.mem_cons_self

theorem Node.line_mem_lines {node : Node} {type : WrittenType} (h : type ∈ node.types) : type.line ∈ node.lines :=
  List.mem_cons_of_mem _ (List.mem_flatMap.2 ⟨type, h, type.line_mem_lines⟩)

namespace Extraction

variable {scope : Scope} {oracle : Oracle} {unit : SourceUnit} {node : Node} {proposal : Proposal}

theorem Offers.line_mem (h : Offers scope oracle node proposal) : proposal.line ∈ node.lines := by
  cases h with
  | imported => exact List.mem_cons_self
  | extended hkind htype => exact Node.line_mem_lines (List.mem_append_left _ htype)
  | implemented hkind htype => exact Node.line_mem_lines (List.mem_append_right _ htype)
  | field => simp [Node.lines, Node.types, Head.types, WrittenType.lines]
  | methodReturn => exact Node.line_mem_lines List.mem_cons_self
  | methodParameter hparameter =>
    exact Node.line_mem_lines (List.mem_cons_of_mem _ (List.mem_map_of_mem hparameter))
  | instantiated => exact Node.line_mem_lines (List.mem_singleton_self _)

theorem exists_line_of_mem_extract {dependency : Dependency}
    (h : dependency ∈ (extract oracle unit).dependencies) : ∃ node ∈ unit.walk, dependency.line ∈ node.lines := by
  simp only [extract, mem_foldl_accept, ClassReport.new, OrderedSet.not_mem_empty, false_or, List.mem_flatMap,
    mem_proposals_iff_offers] at h
  obtain ⟨proposal, ⟨node, hnode, hoffer⟩, -, rfl⟩ := h
  exact ⟨node, hnode, hoffer.line_mem⟩

end Extraction

namespace SourceUnit

open JavaAtlas.Syntax

variable {source : String} {unit : SourceUnit}

/-- **Every line that is recorded is a line of the source.** Along the walk over a parsed unit the lines of the nodes
never decrease, and no type stands before the node that shows it. So every dependency in a report on the unit stands on
a line of the source, whatever the oracle answers. -/
theorem lines_of_parse? (hparse : parse? source = some unit) (hlines : 1 + lineFeeds source.toList < 2 ^ 32 - 1) :
    (∀ node ∈ unit.walk, ∀ line ∈ node.lines, IsLineOf source.toList line) ∧
      (unit.walk.Pairwise fun node later => node.line ≤ later.line) ∧
      (∀ node ∈ unit.walk, ∀ type ∈ node.types, ∀ line ∈ type.lines, node.line ≤ line) ∧
      ∀ oracle, ∀ dependency ∈ (Extraction.extract oracle unit).dependencies,
        IsLineOf source.toList dependency.line := by
  obtain ⟨lines, hfollows, hall⟩ := follows_of_parse? hparse (by omega)
  have hwithin : ∀ node ∈ unit.walk, ∀ line ∈ node.lines, IsLineOf source.toList line :=
    fun node hnode line hline => hall line (hfollows.within node hnode line hline).1
  refine ⟨hwithin, hfollows.ordered, ?_, ?_⟩
  · intro node hnode type htype line hline
    exact (hfollows.within node hnode line (List.mem_cons_of_mem _ (List.mem_flatMap.2 ⟨type, htype, hline⟩))).2
  · intro oracle dependency hdependency
    obtain ⟨node, hnode, hline⟩ := Extraction.exists_line_of_mem_extract hdependency
    exact hwithin node hnode _ hline

/-- A class with types on lines of their own, and creations behind a point and in an initial value. -/
def spreadSource : String :=
  "import p.B;\n@C\nclass A\n extends B \x7b\n D[]\n d = new E(\nnew F()).new\n G();\n\x7d\n"

theorem spreadSource_lines :
    ∃ unit, parse? spreadSource = some unit ∧ 1 + lineFeeds spreadSource.toList = 10 ∧
      unit.walk.map Node.line = [1, 2, 5, 6, 6, 7] ∧
      (∀ node ∈ unit.walk, ∀ line ∈ node.lines, IsLineOf spreadSource.toList line) := by
  have hwalk : ((parse? spreadSource).map fun unit => unit.walk.map Node.line) = some [1, 2, 5, 6, 6, 7] := by
    decide +kernel
  obtain ⟨unit, hparse, hunit⟩ := Option.map_eq_some_iff.1 hwalk
  have hfeeds : 1 + lineFeeds spreadSource.toList = 10 := by decide +kernel
  exact ⟨unit, hparse, hfeeds, hunit, (lines_of_parse? hparse (by omega)).1⟩

end SourceUnit

end JavaAtlas

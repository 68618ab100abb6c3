import JavaAtlas.Proofs.Syntax.Derivation
import JavaAtlas.SourceUnit.OfTrees

/-!
# Where package headers stand

A unit tells the names of the packages at its top, not where they are declared. The headers behind these names are
listed here in the same order, each with the tokens before it: what a tree adds to the top of a unit is looked
through just as the unit does, and what becomes a node of its own, or goes below one, is passed over.
-/

namespace JavaAtlas

namespace SourceUnit

open JavaAtlas.Syntax ParseTree

/-- A package header in a source: the tokens before it, and its children. -/
structure Site where
  before : List Token
  children : List JavaTree

def Site.name (site : Site) : String :=
  qualifiedNameIn site.children

/-- Whether a label in a declaration makes it a node. -/
def isDeclared (label : Part) : Bool :=
  (kindOf label).isSome || label == .field || label == .method || label == .constructor

/-- Whether what is below a label adds nothing to the top of a unit, perhaps as part of a declaration. -/
def isClosed (declared : Bool) (label : Part) : Bool :=
  label == .importHeader || label == .creation || (declared && isDeclared label)

mutual

/-- The package headers that a tree adds to the top of a unit, after some tokens. -/
def sitesOf (before : List Token) (declared : Bool) : JavaTree → List Site
  | .leaf _ => []
  | .node .packageHeader trees => [⟨before, trees⟩]
  | .node .declaration trees => declaredSites before trees
  | .node .chain trees => chainSites before [] trees
  | .node label trees => if isClosed declared label then [] else sitesOfAll before trees

def sitesOfAll (before : List Token) : List JavaTree → List Site
  | [] => []
  | tree :: rest => sitesOf before false tree ++ sitesOfAll (before ++ tree.tokens) rest

def declaredSites (before : List Token) : List JavaTree → List Site
  | [] => []
  | .node .modifiers trees :: rest => declaredSites (before ++ tokensOfAll trees) rest
  | tree :: rest => sitesOf before true tree ++ declaredSites (before ++ tree.tokens) rest

/-- The package headers that a chain adds, given those found so far, which an inner creation takes. -/
def chainSites (before : List Token) (found : List Site) : List JavaTree → List Site
  | [] => found
  | .node .innerCreation trees :: rest => chainSites (before ++ tokensOfAll trees) [] rest
  | tree :: rest => chainSites (before ++ tree.tokens) (found ++ sitesOf before false tree) rest

end

def packageNames (nodes : List Node) : List String :=
  nodes.filterMap fun
    | .package name _ => some name
    | _ => none

/-- A header stands among some trees, which follow some tokens. -/
def Site.StandsIn (before : List Token) (trees : List JavaTree) (site : Site) : Prop :=
  Within (.node .packageHeader site.children) trees ∧
    ∃ after, site.before ++ (tokensOfAll site.children ++ after) = before ++ tokensOfAll trees

/-- Some sites are those of the packages among some nodes, and stand among some trees. -/
structure Locates (before : List Token) (trees : List JavaTree) (nodes : List Node) (sites : List Site) :
    Prop where
  names : packageNames nodes = sites.map Site.name
  stand : ∀ site ∈ sites, site.StandsIn before trees

variable {before : List Token} {trees more children : List JavaTree} {nodes others : List Node}
  {sites further : List Site} {label : Part}

theorem Site.StandsIn.append_left {site : Site} (h : site.StandsIn before trees)
    (more : List JavaTree) : site.StandsIn before (trees ++ more) := by
  obtain ⟨hwithin, after, hafter⟩ := h
  refine ⟨within_append.2 (Or.inl hwithin), after ++ tokensOfAll more, ?_⟩
  rw [tokensOfAll_append, ← List.append_assoc before, ← hafter]
  simp only [List.append_assoc]

theorem Site.StandsIn.append_right {site : Site} (h : site.StandsIn (before ++ tokensOfAll trees) more) :
    site.StandsIn before (trees ++ more) := by
  obtain ⟨hwithin, after, hafter⟩ := h
  refine ⟨within_append.2 (Or.inr hwithin), after, ?_⟩
  rw [tokensOfAll_append, ← List.append_assoc before, ← hafter]

theorem Locates.nil : Locates before trees [] [] where
  names := rfl
  stand site hsite := by cases hsite

theorem Locates.branch {head : Head} {below : List Node} : Locates before trees [.branch head below] [] where
  names := rfl
  stand site hsite := by cases hsite

theorem Locates.imported : Locates before trees [importNode children] [] where
  names := rfl
  stand site hsite := by cases hsite

theorem Locates.append (h : Locates before trees nodes sites)
    (hmore : Locates (before ++ tokensOfAll trees) more others further) :
    Locates before (trees ++ more) (nodes ++ others) (sites ++ further) := by
  refine ⟨?_, ?_⟩
  · rw [packageNames, List.filterMap_append, ← packageNames, ← packageNames, h.names, hmore.names,
      List.map_append]
  · intro site hsite
    rcases List.mem_append.1 hsite with hsite | hsite
    · exact (h.stand site hsite).append_left more
    · exact (hmore.stand site hsite).append_right

theorem Locates.node (h : Locates before children nodes sites) :
    Locates before [.node label children] nodes sites := by
  refine ⟨h.names, ?_⟩
  intro site hsite
  obtain ⟨hwithin, after, hafter⟩ := h.stand site hsite
  exact ⟨within_node.2 (Or.inr hwithin), after, by simpa using hafter⟩

theorem locates_packageHeader :
    Locates before [.node .packageHeader children] [packageNode children] [⟨before, children⟩] := by
  refine ⟨rfl, ?_⟩
  intro site hsite
  cases List.mem_singleton.1 hsite
  exact ⟨.here (List.mem_singleton_self _), [], by simp⟩

theorem Locates.cons {tree : JavaTree} {rest : List JavaTree} (h : Locates before [tree] nodes sites)
    (hrest : Locates (before ++ tree.tokens) rest others further) :
    Locates before (tree :: rest) (nodes ++ others) (sites ++ further) := by
  refine Locates.append h ?_
  simpa using hrest

/-! ### Lists of trees

The functions on lists of trees locate what they add, provided that this holds of every tree among and below
them. -/

/-- What a tree adds to a unit is located. -/
def Located (tree : JavaTree) : Prop :=
  ∀ before nested start,
    Locates before [tree] (nodesOf nested start tree) (sitesOf before start.isSome tree)

theorem locates_nodesOfAll (nested : Bool) (h : AllWithin Located trees) (before : List Token) :
    Locates before trees (nodesOfAll nested trees) (sitesOfAll before trees) := by
  induction trees generalizing before with
  | nil =>
    rw [nodesOfAll, sitesOfAll]
    exact .nil
  | cons tree rest ih =>
    rw [nodesOfAll, sitesOfAll]
    exact (h.head before nested none).cons (ih h.tail _)

theorem locates_declaredNodes (nested : Bool) (start : Line) (h : AllWithin Located trees)
    (before : List Token) :
    Locates before trees (declaredNodes nested start trees) (declaredSites before trees) := by
  induction trees generalizing before with
  | nil =>
    rw [declaredNodes, declaredSites]
    exact .nil
  | cons tree rest ih =>
    have hrest := ih h.tail (before ++ tree.tokens)
    unfold declaredNodes
    split
    · next heq => cases heq
    · next heq =>
      cases heq
      rw [declaredSites]
      rw [tokens_node] at hrest
      exact Locates.cons .nil (by simpa using hrest)
    · next hother heq =>
      cases heq
      rw [declaredSites]
      · exact (h.head before nested (some start)).cons hrest
      · exact hother

theorem locates_chainNodes (start : Line) (h : AllWithin Located more)
    (hfound : Locates before trees nodes sites) :
    Locates before (trees ++ more) (chainNodes start nodes more)
      (chainSites (before ++ tokensOfAll trees) sites more) := by
  induction more generalizing trees nodes sites with
  | nil =>
    rw [chainNodes, chainSites, List.append_nil]
    exact hfound
  | cons tree rest ih =>
    have hshift : trees ++ tree :: rest = (trees ++ [tree]) ++ rest := by simp
    have htokens : before ++ tokensOfAll trees ++ tree.tokens = before ++ tokensOfAll (trees ++ [tree]) := by
      simp
    -- The tree joins those that are passed, whether it gives its nodes to the chain or takes them away.
    rw [hshift]
    unfold chainNodes
    split
    · next heq => cases heq
    · next heq =>
      cases heq
      rw [tokens_node] at htokens
      rw [chainSites, htokens]
      exact ih h.tail .branch
    · next hother heq =>
      cases heq
      rw [chainSites, htokens]
      · exact ih h.tail (hfound.append (h.head _ false none))
      · exact hother

/-! ### One tree, and all -/

theorem isSome_declaredHead (line : Line) (nested : Bool) (label : Part) (trees : List JavaTree) :
    (declaredHead line nested label trees).isSome = isDeclared label := by
  cases label <;> rfl

theorem locates_nodesOf (nested : Bool) (start : Option Line) {tree : JavaTree}
    (h : AllWithin Located tree.children) (before : List Token) :
    Locates before [tree] (nodesOf nested start tree) (sitesOf before start.isSome tree) := by
  unfold nodesOf
  split
  · rw [sitesOf]
    exact .nil
  · rw [sitesOf]
    exact locates_packageHeader
  · rw [sitesOf, isClosed, if_pos (by simp)]
    · exact .imported
    all_goals simp
  · rw [sitesOf]
    exact (locates_declaredNodes nested _ h before).node
  · next links =>
    have hnil : Locates before [] [] [] := .nil
    have hchain := locates_chainNodes (lineOf links) h hnil
    rw [tokensOfAll_nil, List.append_nil] at hchain
    rw [sitesOf]
    exact hchain.node
  · rw [sitesOf, isClosed, if_pos (by simp)]
    · exact .branch
    all_goals simp
  · next label trees hpackage himport hdeclaration hchain hcreation =>
    have hlabels : (label == .importHeader) = false ∧ (label == .creation) = false := by
      rw [beq_eq_false_iff_ne, beq_eq_false_iff_ne]
      exact ⟨himport, hcreation⟩
    rw [sitesOf, isClosed, hlabels.1, hlabels.2, Bool.false_or, Bool.false_or]
    · cases start with
      | none => exact (locates_nodesOfAll _ h before).node
      | some line =>
        have hdeclared := isSome_declaredHead line nested label trees
        rw [Option.bind_some, Option.isSome_some, Bool.true_and]
        cases hhead : declaredHead line nested label trees with
        | some head =>
          rw [hhead, Option.isSome_some] at hdeclared
          rw [if_pos hdeclared.symm]
          exact .branch
        | none =>
          rw [hhead, Option.isSome_none] at hdeclared
          rw [if_neg (by simp [← hdeclared])]
          exact (locates_nodesOfAll _ h before).node
    all_goals assumption

theorem located (tree : JavaTree) : Located tree := by
  induction tree using ParseTree.induction with
  | step tree ih =>
    intro before nested start
    exact locates_nodesOf nested start ih before

theorem locates_ofTrees (trees : List JavaTree) :
    Locates [] trees (ofTrees trees).nodes (sitesOfAll [] trees) :=
  locates_nodesOfAll false (fun tree _ => located tree) []

/-- **The package of a unit is the one that the first header at its top declares.** -/
theorem package?_ofTrees (trees : List JavaTree) :
    (ofTrees trees).package? = (sitesOfAll [] trees).head?.map Site.name := by
  have hpackage : (ofTrees trees).package? = (packageNames (ofTrees trees).nodes).head? :=
    List.head?_filterMap.symm
  rw [hpackage, (locates_ofTrees trees).names, List.head?_map]

end SourceUnit

end JavaAtlas

import JavaAtlas.SourceUnit.OfTrees
import JavaAtlas.Proofs.SourceUnit.Walk
import JavaAtlas.Proofs.Syntax.Derivation

/-!
# Where the nodes of a unit come from

Every node of a unit, at whatever depth, is what some node of the syntax tree becomes: a header, a declaration
or a creation. So facts about what nodes show need only be proved of these forms; how trees are flattened
and stacked on the way matters here only.
-/

namespace JavaAtlas

namespace SourceUnit

open JavaAtlas.Syntax ParseTree

/-- What stands under a label, at any depth, and the node that it becomes. A declaration starts where its modifiers
start, and an inner creation where the chain starts of which it is a link. -/
inductive Becomes (trees : List JavaTree) : Part → List JavaTree → Node → Prop where
  | package {children : List JavaTree} (hwithin : Within (.node .packageHeader children) trees) :
      Becomes trees .packageHeader children (packageNode children)
  | imported {children : List JavaTree} (hwithin : Within (.node .importHeader children) trees) :
      Becomes trees .importHeader children (importNode children)
  | declared {label : Part} {children declaration : List JavaTree} {nested : Bool} {head : Head} {below : List Node}
      (hwithin : Within (.node .declaration declaration) trees) (hmem : .node label children ∈ declaration)
      (hhead : declaredHead (lineOf declaration) nested label children = some head) :
      Becomes trees label children (.branch head below)
  | created {children : List JavaTree} {below : List Node} (hwithin : Within (.node .creation children) trees) :
      Becomes trees .creation children (.branch (.creation (typeIn children) (lineOf children)) below)
  | chained {children chain : List JavaTree} {below : List Node} (hwithin : Within (.node .chain chain) trees)
      (hmem : .node .innerCreation children ∈ chain) :
      Becomes trees .innerCreation children (.branch (.creation (typeIn children) (lineOf chain)) below)

variable {trees more children : List JavaTree} {label : Part} {node : Node}

theorem Becomes.within (h : Becomes trees label children node) : Within (.node label children) trees := by
  cases h with
  | package hwithin | imported hwithin | created hwithin => exact hwithin
  | declared hwithin hmem | chained hwithin hmem => exact Within.trans (.here hmem) hwithin

theorem Becomes.mono (h : Becomes trees label children node) (hsub : ∀ tree, Within tree trees → Within tree more) :
    Becomes more label children node := by
  cases h with
  | package hwithin => exact .package (hsub _ hwithin)
  | imported hwithin => exact .imported (hsub _ hwithin)
  | declared hwithin hmem hhead => exact .declared (hsub _ hwithin) hmem hhead
  | created hwithin => exact .created (hsub _ hwithin)
  | chained hwithin hmem => exact .chained (hsub _ hwithin) hmem

/-- All nodes at and below some nodes come from some trees. -/
def StemFrom (trees : List JavaTree) (nodes : List Node) : Prop :=
  ∀ node ∈ Node.walkAll nodes, ∃ label children, Becomes trees label children node

variable {nodes others : List Node}

theorem stemFrom_nil (trees : List JavaTree) : StemFrom trees [] := by
  intro node hnode
  simp [Node.walkAll] at hnode

theorem StemFrom.append (h : StemFrom trees nodes) (hothers : StemFrom trees others) :
    StemFrom trees (nodes ++ others) := by
  intro node hnode
  obtain ⟨top, htop, hwalk⟩ := Node.mem_walkAll.1 hnode
  rcases List.mem_append.1 htop with htop | htop
  · exact h node (Node.mem_walkAll.2 ⟨top, htop, hwalk⟩)
  · exact hothers node (Node.mem_walkAll.2 ⟨top, htop, hwalk⟩)

theorem StemFrom.mono (h : StemFrom trees nodes)
    (hsub : ∀ tree, Within tree trees → Within tree more) : StemFrom more nodes := by
  intro node hnode
  obtain ⟨label, children, hbecomes⟩ := h node hnode
  exact ⟨label, children, hbecomes.mono hsub⟩

/-- What stems from the children of a node stems from all that the node is within. -/
theorem StemFrom.inside (h : StemFrom children nodes) (hwithin : Within (.node label children) trees) :
    StemFrom trees nodes :=
  h.mono fun _ hinner => hinner.trans hwithin

theorem StemFrom.of_mem {tree : JavaTree} (h : StemFrom [tree] nodes) (hmem : tree ∈ trees) : StemFrom trees nodes := by
  refine h.mono fun inner hinner => hinner.mono fun other hother => ?_
  rwa [List.mem_singleton.1 hother]

theorem StemFrom.tail {tree : JavaTree} {rest : List JavaTree} (h : StemFrom rest nodes) :
    StemFrom (tree :: rest) nodes :=
  h.mono fun _ hwithin => hwithin.mono fun _ hmem => List.mem_cons_of_mem tree hmem

theorem stemFrom_of_becomes (hbecomes : Becomes trees label children node) (hbelow : StemFrom trees node.children) :
    StemFrom trees [node] := by
  intro inner hinner
  rw [Node.walkAll, Node.walkAll, List.append_nil] at hinner
  rcases Node.mem_walk.1 hinner with rfl | ⟨child, hchild, hinner⟩
  · exact ⟨label, children, hbecomes⟩
  · exact hbelow inner (Node.mem_walkAll.2 ⟨child, hchild, hinner⟩)

/-! ### Lists of trees

What the functions on lists make of some trees stems from them, provided that this holds of what `nodesOf`
makes of every tree among and below them. -/

/-- What a tree adds to a unit stems from it, where the tree belongs to no declaration. -/
def Stems (tree : JavaTree) : Prop :=
  ∀ nested, StemFrom [tree] (nodesOf nested none tree)

variable {tree : JavaTree} {rest declaration chain : List JavaTree}

theorem stemFrom_head (h : AllWithin Stems (tree :: rest)) (nested : Bool) :
    StemFrom (tree :: rest) (nodesOf nested none tree) :=
  (h.head nested).of_mem List.mem_cons_self

theorem stemFrom_nodesOfAll (nested : Bool) (h : AllWithin Stems trees) :
    StemFrom trees (nodesOfAll nested trees) := by
  induction trees with
  | nil =>
    rw [nodesOfAll]
    exact stemFrom_nil _
  | cons tree rest ih =>
    rw [nodesOfAll]
    exact (stemFrom_head h nested).append (ih h.tail).tail

theorem stemFrom_initialNodes (h : AllWithin Stems trees) : StemFrom trees (initialNodes trees) := by
  induction trees with
  | nil =>
    rw [initialNodes]
    exact stemFrom_nil _
  | cons tree rest ih =>
    unfold initialNodes
    split
    · exact stemFrom_nil _
    · next heq =>
      cases heq
      exact ((stemFrom_nodesOfAll false h.below).inside (.here List.mem_cons_self)).append (ih h.tail).tail
    · next heq =>
      cases heq
      exact (ih h.tail).tail

theorem stemFrom_partNodes (h : AllWithin Stems trees) : StemFrom trees (partNodes trees) := by
  induction trees with
  | nil =>
    rw [partNodes]
    exact stemFrom_nil _
  | cons tree rest ih =>
    unfold partNodes
    split
    · exact stemFrom_nil _
    · next heq =>
      cases heq
      exact ((stemFrom_nodesOfAll true h.below).inside (.here List.mem_cons_self)).append (ih h.tail).tail
    · next heq =>
      cases heq
      exact ((stemFrom_nodesOfAll false h.below).inside (.here List.mem_cons_self)).append (ih h.tail).tail
    · next heq =>
      cases heq
      exact ((stemFrom_initialNodes h.below).inside (.here List.mem_cons_self)).append (ih h.tail).tail
    · next heq =>
      cases heq
      exact (ih h.tail).tail

/-- A tree of a declaration becomes a node that starts where the declaration starts, or adds what it adds anywhere. -/
theorem nodesOf_some (nested : Bool) (start : Line) (tree : JavaTree) :
    nodesOf nested (some start) tree = nodesOf nested none tree ∨
      ∃ label children head, tree = .node label children ∧ declaredHead start nested label children = some head ∧
        nodesOf nested (some start) tree = [.branch head (partNodes children)] := by
  unfold nodesOf
  split
  · exact Or.inl rfl
  · exact Or.inl rfl
  · exact Or.inl rfl
  · exact Or.inl rfl
  · exact Or.inl rfl
  · exact Or.inl rfl
  · next label children _ _ _ _ _ =>
    rw [Option.bind_some, Option.bind_none]
    cases hhead : declaredHead start nested label children with
    | none => exact Or.inl rfl
    | some head => exact Or.inr ⟨label, children, head, rfl, hhead, rfl⟩

theorem stemFrom_declaredNodes (nested : Bool) (h : AllWithin Stems trees)
    (hwithin : Within (.node .declaration declaration) more) (hsub : ∀ tree ∈ trees, tree ∈ declaration) :
    StemFrom more (declaredNodes nested (lineOf declaration) trees) := by
  induction trees with
  | nil =>
    rw [declaredNodes]
    exact stemFrom_nil _
  | cons tree rest ih =>
    have hmore := ih h.tail fun other hother => hsub other (List.mem_cons_of_mem tree hother)
    have hmem := hsub tree List.mem_cons_self
    unfold declaredNodes
    split
    · exact stemFrom_nil _
    · next heq =>
      cases heq
      exact hmore
    · next heq =>
      cases heq
      refine StemFrom.append ?_ hmore
      rcases nodesOf_some nested (lineOf declaration) tree with heq | ⟨label, children, head, rfl, hhead, heq⟩
      · rw [heq]
        exact ((h.head nested).of_mem hmem).inside hwithin
      · rw [heq]
        refine stemFrom_of_becomes (.declared hwithin hmem hhead) ?_
        exact (stemFrom_partNodes h.below).inside (Within.trans (.here hmem) hwithin)

theorem stemFrom_creationNodes (typeSeen : Bool) (h : AllWithin Stems trees) :
    StemFrom trees (creationNodes typeSeen trees) := by
  induction trees generalizing typeSeen with
  | nil =>
    rw [creationNodes]
    exact stemFrom_nil _
  | cons tree rest ih =>
    unfold creationNodes
    split
    · exact stemFrom_nil _
    · next heq =>
      cases heq
      split
      · exact ((stemFrom_nodesOfAll false h.below).inside (.here List.mem_cons_self)).append (ih true h.tail).tail
      · exact (ih true h.tail).tail
    · next heq =>
      cases heq
      split
      · exact ((stemFrom_nodesOfAll false h.below).inside (.here List.mem_cons_self)).append (ih true h.tail).tail
      · exact (ih typeSeen h.tail).tail
    · next heq =>
      cases heq
      exact (stemFrom_head h false).append (ih typeSeen h.tail).tail

/-- A chain may hand the nodes found so far to an inner creation, so they have to stem from it as well. -/
theorem stemFrom_chainNodes {found : List Node} (h : AllWithin Stems trees) (hfound : StemFrom more found)
    (hwithin : Within (.node .chain chain) more) (hsub : ∀ tree ∈ trees, tree ∈ chain) :
    StemFrom more (chainNodes (lineOf chain) found trees) := by
  induction trees generalizing found with
  | nil =>
    rw [chainNodes]
    exact hfound
  | cons tree rest ih =>
    have hrest : ∀ other ∈ rest, other ∈ chain := fun other hother => hsub other (List.mem_cons_of_mem tree hother)
    have hmem := hsub tree List.mem_cons_self
    unfold chainNodes
    split
    · exact hfound
    · next inside _ heq =>
      cases heq
      -- The inner creation becomes the only node found, with the earlier ones and its own below it.
      refine ih h.tail (stemFrom_of_becomes (.chained hwithin hmem) (hfound.append ?_)) hrest
      exact (stemFrom_creationNodes false h.below).inside (Within.trans (.here hmem) hwithin)
    · next heq =>
      cases heq
      exact ih h.tail (hfound.append (((h.head false).of_mem hmem).inside hwithin)) hrest

/-! ### One tree, and all -/

theorem stemFrom_nodesOf (nested : Bool) (h : AllWithin Stems tree.children) :
    StemFrom [tree] (nodesOf nested none tree) := by
  have hself : Within tree [tree] := .here (List.mem_singleton_self tree)
  unfold nodesOf
  split
  · exact stemFrom_nil _
  · exact stemFrom_of_becomes (.package hself) (stemFrom_nil _)
  · exact stemFrom_of_becomes (.imported hself) (stemFrom_nil _)
  · exact stemFrom_declaredNodes nested h hself fun _ hmem => hmem
  · exact stemFrom_chainNodes h (stemFrom_nil _) hself fun _ hmem => hmem
  · exact stemFrom_of_becomes (.created hself) ((stemFrom_creationNodes false h).inside hself)
  · exact (stemFrom_nodesOfAll _ h).inside hself

theorem stems (tree : JavaTree) : Stems tree := by
  induction tree using ParseTree.induction with
  | step tree ih => exact fun nested => stemFrom_nodesOf nested ih

/-- **Every node of a unit comes from a node of its trees.** -/
theorem exists_becomes (h : (ofTrees trees).Holds node) : ∃ label children, Becomes trees label children node :=
  stemFrom_nodesOfAll false (fun tree _ => stems tree) node (mem_walk.2 h)

end SourceUnit

end JavaAtlas

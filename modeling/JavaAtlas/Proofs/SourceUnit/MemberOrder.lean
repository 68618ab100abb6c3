import Mathlib.Data.List.Perm.Basic
import JavaAtlas.Proofs.Resolution.Qualification

/-!
# Members in another order

A unit is *reordered* when the children of any of its nodes, at any depth, change places, and the nodes at its top as
well, as far as these do not speak for the whole unit: the first package, the imports in their order, and the first
class or interface. What is asked of a unit is either asked of each of its nodes regardless of the nodes below, and
then only the order of the answers changes, or it is answered by one of those nodes at the top, and then nothing
changes. So a reordered unit has the same name and the same imports, and declares the same paths in another order.
-/

namespace JavaAtlas

namespace Node

/-- The children of a node, and those of nodes below it, in another order. -/
inductive Reordered : Node → Node → Prop where
  | refl (node : Node) : Reordered node node
  | trans {first second third : Node} (hfirst : Reordered first second) (hsecond : Reordered second third) :
      Reordered first third
  | permuted (head : Head) {below others : List Node} (hperm : below.Perm others) :
      Reordered (.branch head below) (.branch head others)
  | inside (head : Head) (front back : List Node) {child other : Node} (hchild : Reordered child other) :
      Reordered (.branch head (front ++ child :: back)) (.branch head (front ++ other :: back))

/-- A question to a node that does not look at the nodes below it. -/
def Shallow {α : Type} (question : Node → α) : Prop :=
  ∀ head below others, question (.branch head below) = question (.branch head others)

variable {node other : Node} {outer : Option String}

theorem Reordered.eq_of_shallow {α : Type} {question : Node → α} (h : node.Reordered other)
    (hshallow : Shallow question) : question node = question other := by
  induction h with
  | refl node => rfl
  | trans _ _ ihfirst ihsecond => exact ihfirst.trans ihsecond
  | permuted head hperm => exact hshallow head _ _
  | inside head front back hchild ih => exact hshallow head _ _

/-- The answers of a node and of all nodes below it are the same in another order. -/
theorem Reordered.walk_perm {α : Type} {question : Node → List α} (h : node.Reordered other)
    (hshallow : Shallow question) : (node.walk.flatMap question).Perm (other.walk.flatMap question) := by
  induction h with
  | refl node => exact .refl _
  | trans _ _ ihfirst ihsecond => exact ihfirst.trans ihsecond
  | permuted head hperm =>
    rw [walk, walk, List.flatMap_cons, List.flatMap_cons, hshallow head _ _, walkAll_eq_flatMap, walkAll_eq_flatMap]
    exact ((hperm.flatMap_right walk).flatMap_right question).append_left _
  | inside head front back hchild ih =>
    rw [walk, walk, List.flatMap_cons, List.flatMap_cons, hshallow head _ _]
    simp only [walkAll_eq_flatMap, List.flatMap_append, List.flatMap_cons]
    exact ((ih.append_right _).append_left _).append_left _

/-! ### Declared paths -/

theorem Reordered.declaredPaths_perm (h : node.Reordered other) (outer : Option String) :
    (declaredPaths outer node).Perm (declaredPaths outer other) := by
  induction h generalizing outer with
  | refl node => exact .refl _
  | trans _ _ ihfirst ihsecond => exact (ihfirst outer).trans (ihsecond outer)
  | permuted head hperm =>
    rw [declaredPaths_branch, declaredPaths_branch]
    exact (hperm.flatMap_right _).append_right _
  | inside head front back hchild ih =>
    simp only [declaredPaths_branch, List.flatMap_append, List.flatMap_cons]
    exact (((ih _).append_right _).append_left _).append_right _

/-! ### Nodes that speak for the unit -/

def isPackage : Node → Bool
  | .package .. => true
  | _ => false

def isImport : Node → Bool
  | .imported _ => true
  | _ => false

/-- Whether a node is a class or an interface that no other type holds. -/
def isTopClass : Node → Bool
  | .branch (.type header) _ => !header.nested && header.isClassOrInterface
  | _ => false

end Node

namespace SourceUnit

/-- Nodes at the top of a unit in another order, which keeps the first package first, the imports in their order, and
the first class or interface first. -/
structure TopReordered (nodes others : List Node) : Prop where
  perm : nodes.Perm others
  package : nodes.find? Node.isPackage = others.find? Node.isPackage
  imports : nodes.filter Node.isImport = others.filter Node.isImport
  main : nodes.find? Node.isTopClass = others.find? Node.isTopClass

/-- A unit with the same members in another order, inside its nodes and at its top. -/
def Reordered (unit other : SourceUnit) : Prop :=
  ∃ middle, List.Forall₂ Node.Reordered unit.nodes middle ∧ TopReordered middle other.nodes

variable {unit other : SourceUnit}

/-! ### Answers in another order -/

theorem forall₂_perm {α : Type} {answers : Node → List α} {nodes others : List Node}
    (h : List.Forall₂ (fun node other => (answers node).Perm (answers other)) nodes others) :
    (nodes.flatMap answers).Perm (others.flatMap answers) := by
  induction h with
  | nil => exact .refl _
  | cons hnode _ ih => exact hnode.append ih

theorem Reordered.flatMap_perm {α : Type} {answers : Node → List α} (h : unit.Reordered other)
    (hanswers : ∀ {node other : Node}, node.Reordered other → (answers node).Perm (answers other)) :
    (unit.nodes.flatMap answers).Perm (other.nodes.flatMap answers) := by
  obtain ⟨middle, hinside, htop⟩ := h
  exact (forall₂_perm (hinside.imp fun _ _ => hanswers)).trans (htop.perm.flatMap_right answers)

theorem Reordered.walk_perm {α : Type} {question : Node → List α} (h : unit.Reordered other)
    (hshallow : Node.Shallow question) : (unit.walk.flatMap question).Perm (other.walk.flatMap question) := by
  rw [walk, walk, Node.walkAll_eq_flatMap, Node.walkAll_eq_flatMap, List.flatMap_assoc, List.flatMap_assoc]
  exact h.flatMap_perm fun hnode => hnode.walk_perm hshallow

theorem Reordered.declaredTypes_perm (h : unit.Reordered other) : unit.declaredTypes.Perm other.declaredTypes := by
  rw [declaredTypes, declaredTypes, Node.declaredPathsOfAll_eq_flatMap, Node.declaredPathsOfAll_eq_flatMap]
  exact h.flatMap_perm fun hnode => hnode.declaredPaths_perm none

/-! ### Answers that stay -/

def packageName? : Node → Option String
  | .package name _ => some name
  | _ => none

def import? : Node → Option Import
  | .imported item => some item
  | _ => none

def topClassName? : Node → Option String
  | .branch (.type header) _ => if !header.nested && header.isClassOrInterface then some header.name else none
  | _ => none

theorem package?_eq_findSome? (unit : SourceUnit) : unit.package? = unit.nodes.findSome? packageName? := by
  refine congrArg (List.findSome? · unit.nodes) (funext fun node => ?_)
  cases node <;> rfl

theorem imports_eq_filterMap (unit : SourceUnit) : unit.imports = unit.nodes.filterMap import? := by
  refine congrArg (List.filterMap · unit.nodes) (funext fun node => ?_)
  cases node <;> rfl

theorem mainType?_eq_findSome? (unit : SourceUnit) : unit.mainType? = unit.nodes.findSome? topClassName? := by
  rw [mainType?, topTypes]
  induction unit.nodes with
  | nil => rfl
  | cons node rest ih =>
    cases node with
    | package name line => exact ih
    | imported item => exact ih
    | branch head below =>
      cases head with
      | type header =>
        simp only [List.filterMap_cons, List.findSome?_cons, topClassName?]
        cases hnested : header.nested with
        | true => exact ih
        | false =>
          simp only [Bool.false_eq_true, if_false, List.find?_cons, Bool.not_false, Bool.true_and]
          cases header.isClassOrInterface with
          | true => rfl
          | false => exact ih
      | _ => exact ih

theorem shallow_packageName? : Node.Shallow packageName? := fun _ _ _ => rfl

theorem shallow_import? : Node.Shallow import? := fun _ _ _ => rfl

theorem shallow_topClassName? : Node.Shallow topClassName? := by
  intro head below others
  cases head <;> rfl

theorem findSome?_eq_find? {α : Type} {question : Node → Option α} {speaks : Node → Bool}
    (hspeaks : ∀ node, speaks node = (question node).isSome) (nodes : List Node) :
    nodes.findSome? question = (nodes.find? speaks).bind question := by
  induction nodes with
  | nil => rfl
  | cons node rest ih =>
    rw [List.findSome?_cons, List.find?_cons, hspeaks]
    cases hanswer : question node with
    | some answer => exact hanswer.symm
    | none => exact ih

theorem map_eq_of_shallow {α : Type} {question : Node → α} {nodes middle : List Node}
    (hinside : List.Forall₂ Node.Reordered nodes middle) (hshallow : Node.Shallow question) :
    nodes.map question = middle.map question := by
  induction hinside with
  | nil => rfl
  | cons hnode _ ih => rw [List.map_cons, List.map_cons, hnode.eq_of_shallow hshallow, ih]

/-- A shallow question is answered alike if those who speak first at the top are the same. -/
theorem findSome?_eq_of_speaks {α : Type} {question : Node → Option α} {nodes middle others : List Node}
    (hinside : List.Forall₂ Node.Reordered nodes middle) (hshallow : Node.Shallow question) {speaks : Node → Bool}
    (hspeaks : ∀ node, speaks node = (question node).isSome) (htop : middle.find? speaks = others.find? speaks) :
    nodes.findSome? question = others.findSome? question :=
  calc nodes.findSome? question
      = (nodes.map question).findSome? id := by rw [List.findSome?_map, Function.id_comp]
    _ = (middle.map question).findSome? id := by rw [map_eq_of_shallow hinside hshallow]
    _ = middle.findSome? question := by rw [List.findSome?_map, Function.id_comp]
    _ = (middle.find? speaks).bind question := findSome?_eq_find? hspeaks middle
    _ = (others.find? speaks).bind question := by rw [htop]
    _ = others.findSome? question := (findSome?_eq_find? hspeaks others).symm

theorem Reordered.package?_eq (h : unit.Reordered other) : unit.package? = other.package? := by
  obtain ⟨middle, hinside, htop⟩ := h
  rw [package?_eq_findSome?, package?_eq_findSome?]
  refine findSome?_eq_of_speaks hinside shallow_packageName? (fun node => ?_) htop.package
  cases node <;> rfl

theorem Reordered.mainType?_eq (h : unit.Reordered other) : unit.mainType? = other.mainType? := by
  obtain ⟨middle, hinside, htop⟩ := h
  rw [mainType?_eq_findSome?, mainType?_eq_findSome?]
  refine findSome?_eq_of_speaks hinside shallow_topClassName? (fun node => ?_) htop.main
  unfold Node.isTopClass topClassName?
  split
  · next header below => cases !header.nested && header.isClassOrInterface <;> rfl
  · rfl

theorem filterMap_import?_filter (nodes : List Node) :
    (nodes.filter Node.isImport).filterMap import? = nodes.filterMap import? := by
  rw [List.filterMap_filter]
  refine congrArg (List.filterMap · nodes) (funext fun node => ?_)
  cases node <;> rfl

theorem Reordered.imports_eq (h : unit.Reordered other) : unit.imports = other.imports := by
  obtain ⟨middle, hinside, htop⟩ := h
  calc unit.imports
      = (unit.nodes.map import?).filterMap id := by
        rw [imports_eq_filterMap, List.filterMap_map, Function.id_comp]
    _ = (middle.map import?).filterMap id := by rw [map_eq_of_shallow hinside shallow_import?]
    _ = (middle.filter Node.isImport).filterMap import? := by
      rw [List.filterMap_map, Function.id_comp, filterMap_import?_filter]
    _ = other.imports := by rw [htop.imports, filterMap_import?_filter, imports_eq_filterMap]

theorem Reordered.className_eq (h : unit.Reordered other) : unit.className = other.className := by
  rw [className, className, h.package?_eq, h.mainType?_eq]

end SourceUnit

end JavaAtlas

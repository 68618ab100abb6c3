import JavaAtlas.Text.Blank
import JavaAtlas.Proofs.SourceUnit.Walk

/-!
# Declared types

The names under which a unit declares its types, and the paths that they make up. A path is one name or names
joined by points, so where the names are identifiers no path is empty and none has a blank in it.
-/

namespace JavaAtlas

open JavaAtlas.Text

namespace Name

/-- A text with characters, none of them blank. -/
def IsSolid (name : String) : Prop :=
  name ≠ "" ∧ ∀ c ∈ name.toList, isBlank c = false

-- The characters of the name are tried, not all characters.
instance (name : String) : Decidable (IsSolid name) :=
  have : Decidable (∀ c ∈ name.toList, isBlank c = false) := List.decidableBAll _ _
  inferInstanceAs (Decidable (name ≠ "" ∧ ∀ c ∈ name.toList, isBlank c = false))

/-- An identifier, as far as names of types are concerned: a solid text without a point. -/
def IsIdentifier (name : String) : Prop :=
  IsSolid name ∧ '.' ∉ name.toList

instance (name : String) : Decidable (IsIdentifier name) :=
  inferInstanceAs (Decidable (_ ∧ _))

theorem IsSolid.join {outer name : String} (houter : IsSolid outer) (hname : IsSolid name) :
    IsSolid (outer ++ "." ++ name) := by
  refine ⟨fun h => ?_, fun c hc => ?_⟩
  · have hlist := congrArg String.toList h
    simp at hlist
  · simp only [String.toList_append, List.mem_append] at hc
    rcases hc with (hc | hc) | hc
    · exact houter.2 c hc
    · have hpoint : c = '.' := by simpa using hc
      exact hpoint ▸ by decide
    · exact hname.2 c hc

end Name

namespace Node

theorem declaredPathsOfAll_eq_flatMap (outer : Option String) (nodes : List Node) :
    declaredPathsOfAll outer nodes = nodes.flatMap (declaredPaths outer) := by
  induction nodes with
  | nil => rw [declaredPathsOfAll, List.flatMap_nil]
  | cons node rest ih => rw [declaredPathsOfAll, ih, List.flatMap_cons]

theorem mem_declaredPathsOfAll {outer : Option String} {path : String} {nodes : List Node} :
    path ∈ declaredPathsOfAll outer nodes ↔ ∃ node ∈ nodes, path ∈ declaredPaths outer node := by
  induction nodes with
  | nil => simp [declaredPathsOfAll]
  | cons node rest ih => simp [declaredPathsOfAll, ih]

/-- The path of the type around the children of a node. -/
def pathWithin (outer : Option String) : Head → Option String
  | .type header => some (pathOf outer header)
  | _ => outer

def ownPaths (outer : Option String) : Head → List String
  | .type header => [pathOf outer header]
  | _ => []

theorem declaredPaths_branch (outer : Option String) (head : Head) (below : List Node) :
    declaredPaths outer (.branch head below) =
      below.flatMap (declaredPaths (pathWithin outer head)) ++ ownPaths outer head := by
  rw [← declaredPathsOfAll_eq_flatMap]
  cases head with
  | type header => rw [declaredPaths, pathWithin, ownPaths]
  | _ => simp only [declaredPaths, pathWithin, ownPaths, List.append_nil]

theorem mem_declaredPaths {outer : Option String} {path : String} {node : Node} :
    path ∈ declaredPaths outer node ↔
      (∃ header members, node = .branch (.type header) members ∧ path = pathOf outer header) ∨
        ∃ head below, node = .branch head below ∧ ∃ child ∈ below, path ∈ declaredPaths (pathWithin outer head) child := by
  cases node with
  | package | imported => simp [declaredPaths]
  | branch head below =>
    rw [declaredPaths_branch, List.mem_append, List.mem_flatMap]
    constructor
    · rintro (hbelow | hown)
      · exact Or.inr ⟨head, below, rfl, hbelow⟩
      · cases head with
        | type header => exact Or.inl ⟨header, below, rfl, List.mem_singleton.1 hown⟩
        | _ => cases hown
    · rintro (⟨header, members, ⟨⟩, rfl⟩ | ⟨head, below, ⟨⟩, hbelow⟩)
      · exact Or.inr (List.mem_singleton_self _)
      · exact Or.inl hbelow

theorem isSolid_pathOf {outer : Option String} {header : TypeHeader}
    (houter : ∀ path ∈ outer, Name.IsSolid path) (hname : Name.IsSolid header.name) :
    Name.IsSolid (pathOf outer header) := by
  unfold pathOf
  split
  · next path =>
    split
    · exact (houter path rfl).join hname
    · exact hname
  · exact hname

/-- Every path below a node is solid if the names of the types at and below it are, and the path around it. -/
theorem isSolid_of_mem_declaredPaths {node : Node} {outer : Option String} {path : String}
    (hnames : ∀ header members, node.Reaches (.branch (.type header) members) →
      Name.IsSolid header.name)
    (houter : ∀ path ∈ outer, Name.IsSolid path) (hpath : path ∈ declaredPaths outer node) :
    Name.IsSolid path := by
  induction node using Node.induction generalizing outer with
  | step node ih =>
    rcases mem_declaredPaths.1 hpath with ⟨header, members, rfl, rfl⟩ | ⟨head, below, rfl, child, hchild, hpath⟩
    · exact isSolid_pathOf houter (hnames header members (.self _))
    · have hbelow : ∀ header members, child.Reaches (.branch (.type header) members) → Name.IsSolid header.name :=
        fun header members hreach => hnames header members (.through hchild hreach)
      refine ih child hchild hbelow ?_ hpath
      cases head with
      | type header =>
        rintro path ⟨⟩
        exact isSolid_pathOf houter (hnames header below (.self _))
      | _ => exact houter

end Node

namespace SourceUnit

/-- The names of the types that a unit declares, at any depth. -/
def typeNames (unit : SourceUnit) : List String :=
  unit.walk.filterMap fun
    | .branch (.type header) _ => some header.name
    | _ => none

theorem mem_typeNames {unit : SourceUnit} {header : TypeHeader} {members : List Node}
    (h : unit.Holds (.branch (.type header) members)) : header.name ∈ unit.typeNames :=
  List.mem_filterMap.2 ⟨_, mem_walk.2 h, rfl⟩

theorem isSolid_of_mem_declaredTypes {unit : SourceUnit}
    (hnames : ∀ name ∈ unit.typeNames, Name.IsSolid name) {path : String}
    (hpath : path ∈ unit.declaredTypes) : Name.IsSolid path := by
  obtain ⟨top, htop, hpath⟩ := Node.mem_declaredPathsOfAll.1 hpath
  refine Node.isSolid_of_mem_declaredPaths (fun header members hreach => ?_) (by simp) hpath
  exact hnames _ (mem_typeNames ⟨top, htop, hreach⟩)

end SourceUnit

end JavaAtlas

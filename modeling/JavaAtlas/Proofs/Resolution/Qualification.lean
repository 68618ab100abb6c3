import Mathlib.Data.List.Nodup
import Mathlib.Data.List.Perm.Basic
import JavaAtlas.Proofs.Resolution.SimpleNames
import JavaAtlas.Proofs.Text.Characters

/-!
# Qualified names

What hangs on a simple name by points means what the name means, with the same behind it. There are two ways to this
answer: the whole name may be the path of a declared type, and otherwise its first segment is resolved. The two agree
because the paths of a unit are closed, the first segment of each being the path of a declared type, and because
this type, where no other one shares its simple name, holds the entry of that segment.
-/

namespace JavaAtlas

open JavaAtlas.Text

/-! ### First segments -/

namespace Name

variable {name outer : String}

def firstSegment (name : String) : String :=
  String.ofList (name.toList.takeWhile (· != '.'))

theorem firstSegment_eq_self (h : '.' ∉ name.toList) : firstSegment name = name := by
  rw [firstSegment, List.takeWhile_eq_self_iff.2 (ne_point_of_mem h), String.ofList_toList]

theorem firstSegment_join (outer name : String) : firstSegment (outer ++ "." ++ name) = firstSegment outer := by
  have hpoint : ".".toList = ['.'] := rfl
  simp only [firstSegment, String.toList_append, hpoint, List.append_assoc, List.singleton_append,
    List.takeWhile_append]
  rw [List.takeWhile_cons_of_neg (by decide), List.append_nil]
  split
  · next hlength => rw [(List.takeWhile_sublist _).eq_of_length hlength]
  · rfl

theorem firstSegment_eq_of_splitFirst? {head rest : String} (h : splitFirst? name = some (head, rest)) :
    firstSegment name = head := by
  rw [splitFirst?] at h
  split at h
  · cases h
  · cases h
    rfl

theorem firstSegment_eq_of_splitFirst?_eq_none (h : splitFirst? name = none) : firstSegment name = name := by
  apply firstSegment_eq_self
  intro hpoint
  rw [splitFirst?] at h
  split at h
  · next hdrop => exact absurd (List.dropWhile_eq_nil_iff.1 hdrop '.' hpoint) (by decide)
  · cases h

theorem trim_toList (h : trimmed name = name) : trim name.toList = name.toList := by
  rw [← String.toList_ofList (l := trim name.toList), ← trimmed, h]

theorem trimmed_join (houter : trimmed outer = outer) (hname : trimmed name = name) (hfirst : outer ≠ "")
    (hlast : name ≠ "") : trimmed (outer ++ "." ++ name) = outer ++ "." ++ name := by
  obtain ⟨first, more, hopen⟩ := List.exists_cons_of_ne_nil (mt String.toList_eq_nil_iff.1 hfirst)
  obtain ⟨back, last, hclose⟩ := List.eq_nil_or_concat name.toList |>.resolve_left (mt String.toList_eq_nil_iff.1 hlast)
  have hhead := (ends_of_trim_eq_self (trim_toList houter)).1
  have hend := (ends_of_trim_eq_self (trim_toList hname)).2
  have hshape : (outer ++ "." ++ name).toList = outer.toList ++ '.' :: name.toList := by simp
  have hself : trim (outer ++ "." ++ name).toList = (outer ++ "." ++ name).toList := by
    rw [hshape]
    apply trim_eq_self
    · simpa [hopen] using hhead
    · rw [hclose, List.concat_eq_append] at hend ⊢
      rw [← List.cons_append, ← List.append_assoc, List.getLast?_concat]
      rwa [List.getLast?_concat] at hend
  rw [trimmed, hself, String.ofList_toList]

end Name

/-! ### Paths of declared types -/

namespace Node

def typeName? : Node → Option String
  | .branch (.type header) _ => some header.name
  | _ => none

variable {node : Node} {outer : Option String} {header : TypeHeader} {path : String}

theorem lastSegment_pathOf (hname : '.' ∉ header.name.toList) :
    Name.lastSegment (pathOf outer header) = header.name := by
  unfold pathOf
  split
  · split
    · exact Name.lastSegment_join _ hname
    · exact Name.lastSegment_eq_self hname
  · exact Name.lastSegment_eq_self hname

/-- The path of a type opens like the path around it, or it is a name alone. -/
theorem firstSegment_pathOf (hname : '.' ∉ header.name.toList) :
    Name.firstSegment (pathOf outer header) = pathOf outer header ∨
      ∃ around ∈ outer, Name.firstSegment (pathOf outer header) = Name.firstSegment around := by
  unfold pathOf
  split
  · next around =>
    split
    · exact Or.inr ⟨around, rfl, Name.firstSegment_join around header.name⟩
    · exact Or.inl (Name.firstSegment_eq_self hname)
  · exact Or.inl (Name.firstSegment_eq_self hname)

/-- The first segment of a path below a node is a path below the node, unless the path opens like the one around
the node. -/
theorem firstSegment_mem_declaredPaths
    (hnames : ∀ header members, node.Reaches (.branch (.type header) members) → '.' ∉ header.name.toList)
    (hpath : path ∈ declaredPaths outer node) :
    Name.firstSegment path ∈ declaredPaths outer node ∨
      ∃ around ∈ outer, Name.firstSegment path = Name.firstSegment around := by
  induction node using Node.induction generalizing outer with
  | step node ih =>
    rcases mem_declaredPaths.1 hpath with ⟨header, members, rfl, rfl⟩ | ⟨head, below, rfl, child, hchild, hmem⟩
    · refine (firstSegment_pathOf (hnames header members (.self _))).imp_left fun hself => ?_
      exact mem_declaredPaths.2 (Or.inl ⟨header, members, rfl, hself⟩)
    · have hbelow : ∀ header members, child.Reaches (.branch (.type header) members) → '.' ∉ header.name.toList :=
        fun header members hreach => hnames header members (.through hchild hreach)
      rcases ih child hchild hbelow hmem with hfirst | ⟨around, haround, hfirst⟩
      · exact Or.inl (mem_declaredPaths.2 (Or.inr ⟨head, below, rfl, child, hchild, hfirst⟩))
      · cases head with
        | type header =>
          cases haround
          rw [hfirst]
          refine (firstSegment_pathOf (hnames header below (.self _))).imp_left fun hself => ?_
          exact mem_declaredPaths.2 (Or.inl ⟨header, below, rfl, hself⟩)
        | _ => exact Or.inr ⟨around, haround, hfirst⟩

/-- The paths below a node end in the names of the types at and below it, each once. -/
theorem lastSegment_declaredPaths_perm
    (hnames : ∀ header members, node.Reaches (.branch (.type header) members) → '.' ∉ header.name.toList) :
    ((declaredPaths outer node).map Name.lastSegment).Perm (node.walk.filterMap typeName?) := by
  induction node using Node.induction generalizing outer with
  | step node ih =>
    have hbelow : ∀ outer, ((declaredPathsOfAll outer node.children).map Name.lastSegment).Perm
        ((walkAll node.children).filterMap typeName?) := by
      intro outer
      rw [declaredPathsOfAll_eq_flatMap, walkAll_eq_flatMap, List.map_flatMap, List.filterMap_flatMap]
      apply List.Perm.flatMap_left
      intro child hchild
      exact ih child hchild fun header members hreach => hnames header members (.through hchild hreach)
    cases node with
    | package name line => simp [declaredPaths, walk, typeName?]
    | imported item => simp [declaredPaths, walk, typeName?]
    | branch head below =>
      cases head with
      | type header =>
        have hlast : Name.lastSegment (pathOf outer header) = header.name :=
          lastSegment_pathOf (hnames header below (.self _))
        simp only [declaredPaths, walk, List.map_append, List.map_cons, List.map_nil, hlast]
        exact List.perm_append_comm.trans ((hbelow _).cons _)
      | _ =>
        simp only [declaredPaths, walk]
        exact hbelow outer

end Node

namespace SourceUnit

variable {unit : SourceUnit} {path other : String}

theorem point_not_mem_of_holds (hnames : ∀ name ∈ unit.typeNames, '.' ∉ name.toList) {top : Node}
    (htop : top ∈ unit.nodes) :
    ∀ header members, top.Reaches (.branch (.type header) members) → '.' ∉ header.name.toList :=
  fun _ _ hreach => hnames _ (mem_typeNames ⟨top, htop, hreach⟩)

theorem firstSegment_mem_declaredTypes (hnames : ∀ name ∈ unit.typeNames, '.' ∉ name.toList)
    (hpath : path ∈ unit.declaredTypes) : Name.firstSegment path ∈ unit.declaredTypes := by
  obtain ⟨top, htop, hmem⟩ := Node.mem_declaredPathsOfAll.1 hpath
  rcases Node.firstSegment_mem_declaredPaths (point_not_mem_of_holds hnames htop) hmem with hfirst | hfirst
  · exact Node.mem_declaredPathsOfAll.2 ⟨top, htop, hfirst⟩
  · simp at hfirst

theorem lastSegment_declaredTypes_perm (hnames : ∀ name ∈ unit.typeNames, '.' ∉ name.toList) :
    (unit.declaredTypes.map Name.lastSegment).Perm unit.typeNames := by
  have htypes : unit.typeNames = unit.walk.filterMap Node.typeName? := rfl
  rw [htypes, declaredTypes, walk, Node.declaredPathsOfAll_eq_flatMap, Node.walkAll_eq_flatMap, List.map_flatMap,
    List.filterMap_flatMap]
  apply List.Perm.flatMap_left
  intro top htop
  exact Node.lastSegment_declaredPaths_perm (point_not_mem_of_holds hnames htop)

/-- Types with the same simple name are the same where all simple names differ. -/
theorem eq_of_lastSegment_eq (hnames : ∀ name ∈ unit.typeNames, '.' ∉ name.toList)
    (hdistinct : unit.typeNames.Nodup) (hpath : path ∈ unit.declaredTypes) (hother : other ∈ unit.declaredTypes)
    (h : Name.lastSegment path = Name.lastSegment other) : path = other := by
  have hnodup : (unit.declaredTypes.map Name.lastSegment).Nodup :=
    (lastSegment_declaredTypes_perm hnames).nodup_iff.2 hdistinct
  exact List.inj_on_of_nodup_map hnodup hpath hother h

end SourceUnit

/-! ### Resolution -/

namespace Scope

variable {scope : Scope} {unit : SourceUnit} {oracle : Oracle} {simple rest full : String}

/-- A simple name is looked up once, also where it is looked up as a whole name first. -/
theorem resolve_simple (scope : Scope) (oracle : Oracle) (hsimple : '.' ∉ simple.toList) (hne : simple ≠ "")
    (htrimmed : trimmed simple = simple) : scope.resolve oracle simple = scope.resolveSimple oracle simple := by
  simp only [resolve, htrimmed, beq_iff_eq, hne, if_false, Name.splitFirst?_eq_none hsimple]
  cases hlookup : scope.localTypes.lookup simple with
  | none => rfl
  | some own => rw [resolveSimple, hlookup]

theorem lookup_localTypes_simple (hnames : ∀ name ∈ unit.typeNames, '.' ∉ name.toList)
    (hdistinct : unit.typeNames.Nodup) (hsimple : '.' ∉ simple.toList) (hdeclared : simple ∈ unit.declaredTypes) :
    (ofUnit unit).localTypes.lookup simple = some (SourceUnit.qualify unit.package? simple) := by
  rw [localTypes_ofUnit, lookup_localEntries]
  have hself : answers simple simple = true := by simp [answers]
  obtain ⟨path, hfind⟩ := Option.isSome_iff_exists.1 (List.find?_isSome.2 ⟨simple, hdeclared, hself⟩)
  have hanswers := List.find?_some hfind
  have hpath : path = simple := by
    rw [answers, Bool.or_eq_true, beq_iff_eq, beq_iff_eq] at hanswers
    rcases hanswers with hlast | hsame
    · apply SourceUnit.eq_of_lastSegment_eq hnames hdistinct (List.mem_of_find?_eq_some hfind) hdeclared
      rw [← hlast, Name.lastSegment_eq_self hsimple]
    · exact hsame.symm
  rw [hfind, hpath]
  rfl

theorem mem_declaredTypes_of_lookup_dotted
    (h : (ofUnit unit).localTypes.lookup (simple ++ "." ++ rest) = some full) :
    simple ++ "." ++ rest ∈ unit.declaredTypes ∧
      full = SourceUnit.qualify unit.package? (simple ++ "." ++ rest) := by
  rw [localTypes_ofUnit, lookup_localEntries] at h
  obtain ⟨path, hfind, rfl⟩ := Option.map_eq_some_iff.1 h
  have hanswers := List.find?_some hfind
  have hpoint : '.' ∈ (simple ++ "." ++ rest).toList := by simp
  rw [answers, Bool.or_eq_true, beq_iff_eq, beq_iff_eq] at hanswers
  rcases hanswers with hlast | rfl
  · exact absurd (hlast ▸ hpoint) (Name.point_not_mem_lastSegment path)
  · exact ⟨List.mem_of_find?_eq_some hfind, rfl⟩

/-- **Qualification commutes with resolution.** -/
theorem resolve_join (unit : SourceUnit) (hnames : ∀ name ∈ unit.typeNames, '.' ∉ name.toList)
    (hdistinct : unit.typeNames.Nodup) (oracle : Oracle) {simple rest full : String} (hsimple : '.' ∉ simple.toList)
    (hne : simple ≠ "") (htrimmed : trimmed simple = simple) (hrest : rest ≠ "") (hrestTrimmed : trimmed rest = rest)
    (h : (ofUnit unit).resolve oracle simple = .ok (some full)) :
    (ofUnit unit).resolve oracle (simple ++ "." ++ rest) = .ok (some (full ++ "." ++ rest)) := by
  rw [resolve_simple _ oracle hsimple hne htrimmed] at h
  have hjoined : simple ++ "." ++ rest ≠ "" := by
    intro hempty
    have hlist := congrArg String.toList hempty
    simp at hlist
  simp only [resolve, Name.trimmed_join htrimmed hrestTrimmed hne hrest, beq_iff_eq, hjoined, if_false,
    Name.splitFirst?_append rest hsimple]
  cases hlookup : (ofUnit unit).localTypes.lookup (simple ++ "." ++ rest) with
  | none => simp only [resolveDotted, h]
  | some own =>
    obtain ⟨hdeclared, rfl⟩ := mem_declaredTypes_of_lookup_dotted hlookup
    have hfirst := SourceUnit.firstSegment_mem_declaredTypes hnames hdeclared
    rw [Name.firstSegment_join, Name.firstSegment_eq_self hsimple] at hfirst
    rw [resolveSimple, lookup_localTypes_simple hnames hdistinct hsimple hfirst] at h
    cases h
    cases unit.package? <;> simp [SourceUnit.qualify, String.append_assoc]

/-- The unit `package p; import q.Map; class Outer { class Inner { } }`. -/
def outerUnit : SourceUnit :=
  ⟨[.package "p" 1, .imported ⟨"q.Map", false, false, 1⟩,
    .branch (.type ⟨"Outer", .classType, false, [], [], 1⟩)
      [.branch (.type ⟨"Inner", .classType, true, [], [], 1⟩) []]]⟩

/-- Without any oracle to ask, `Outer.Inner` is the path of a declared type, and `Map.Entry` hangs on an import. -/
theorem outerUnit_join :
    let scope := ofUnit outerUnit
    let oracle := Oracle.failing "down" "out of order"
    ((∀ name ∈ outerUnit.typeNames, '.' ∉ name.toList) ∧ outerUnit.typeNames.Nodup) ∧
      (scope.resolve oracle "Outer" = .ok (some "p.Outer") ∧
        scope.resolve oracle ("Outer" ++ "." ++ "Inner") = .ok (some ("p.Outer" ++ "." ++ "Inner"))) ∧
      scope.resolve oracle "Map" = .ok (some "q.Map") ∧
        scope.resolve oracle ("Map" ++ "." ++ "Entry") = .ok (some ("q.Map" ++ "." ++ "Entry")) := by
  intro scope oracle
  have hnames : ∀ name ∈ outerUnit.typeNames, '.' ∉ name.toList := by decide
  have hdistinct : outerUnit.typeNames.Nodup := by decide
  have houter : scope.resolve oracle "Outer" = .ok (some "p.Outer") := by decide
  have hmap : scope.resolve oracle "Map" = .ok (some "q.Map") := by decide
  refine ⟨⟨hnames, hdistinct⟩, ⟨houter, ?_⟩, hmap, ?_⟩
  · exact resolve_join outerUnit hnames hdistinct oracle (by decide) (by decide) (by decide) (by decide) (by decide)
      houter
  · exact resolve_join outerUnit hnames hdistinct oracle (by decide) (by decide) (by decide) (by decide) (by decide)
      hmap

end Scope

end JavaAtlas

import Mathlib.Data.List.TakeWhile
import JavaAtlas.Proofs.Resolution.DeclaredTypes

/-!
# Resolution of simple names

A simple name that a unit neither declares nor imports by itself is a guess: the same package, the packages of
the wildcard imports in order, and `java.lang` are tried, and the first guess that the oracle knows counts. That
the name is not declared has to be told from the names of the declared types, while the scope holds their paths;
a path ends in the name of its type, so a name without a point is found there only if some type bears it.
-/

namespace JavaAtlas

open JavaAtlas.Text

namespace Name

variable {name : String}

theorem ne_point_of_mem (h : '.' ∉ name.toList) : ∀ c ∈ name.toList, (c != '.') = true := by
  intro c hc
  rw [bne_iff_ne]
  intro hpoint
  exact h (hpoint ▸ hc)

theorem lastSegment_join (outer : String) (h : '.' ∉ name.toList) :
    lastSegment (outer ++ "." ++ name) = name := by
  have hall : ∀ c ∈ name.toList.reverse, (c != '.') = true :=
    fun c hc => ne_point_of_mem h c (List.mem_reverse.1 hc)
  have hreverse : (outer ++ "." ++ name).toList.reverse =
      name.toList.reverse ++ '.' :: outer.toList.reverse := by
    simp
  rw [lastSegment, hreverse, List.takeWhile_append_of_pos hall, List.takeWhile_cons_of_neg (by decide),
    List.append_nil, List.reverse_reverse, String.ofList_toList]

theorem lastSegment_eq_self (h : '.' ∉ name.toList) : lastSegment name = name := by
  have hall : ∀ c ∈ name.toList.reverse, (c != '.') = true :=
    fun c hc => ne_point_of_mem h c (List.mem_reverse.1 hc)
  rw [lastSegment, List.takeWhile_eq_self_iff.2 hall, List.reverse_reverse, String.ofList_toList]

theorem splitFirst?_eq_none (h : '.' ∉ name.toList) : splitFirst? name = none := by
  rw [splitFirst?, List.dropWhile_eq_nil_iff.2 (ne_point_of_mem h)]

theorem splitFirst?_append {head : String} (rest : String) (h : '.' ∉ head.toList) :
    splitFirst? (head ++ "." ++ rest) = some (head, rest) := by
  have hpoint : ".".toList = ['.'] := rfl
  have hall := ne_point_of_mem h
  simp only [splitFirst?, String.toList_append, hpoint, List.append_assoc, List.singleton_append]
  rw [List.dropWhile_append_of_pos hall, List.takeWhile_append_of_pos hall]
  simp

theorem point_not_mem_lastSegment (name : String) : '.' ∉ (lastSegment name).toList := by
  intro hpoint
  rw [lastSegment, String.toList_ofList, List.mem_reverse] at hpoint
  exact absurd (List.mem_takeWhile_imp hpoint) (by decide)

theorem exists_splitFirst? (outer name : String) :
    ∃ head rest, splitFirst? (outer ++ "." ++ name) = some (head, rest) := by
  have hpoint : '.' ∈ (outer ++ "." ++ name).toList := by simp
  obtain ⟨front, back, hcut, hfront⟩ := List.eq_append_cons_of_mem hpoint
  have hjoined : outer ++ "." ++ name = String.ofList front ++ "." ++ String.ofList back := by
    apply String.toList_injective
    rw [hcut]
    simp
  refine ⟨String.ofList front, String.ofList back, ?_⟩
  rw [hjoined]
  exact splitFirst?_append _ (by rwa [String.toList_ofList])

end Name

theorem Node.exists_name_of_mem_declaredPaths {node : Node} {outer : Option String} {path : String}
    (hpath : path ∈ declaredPaths outer node) :
    ∃ header members, node.Reaches (.branch (.type header) members) ∧
      (path = header.name ∨ ∃ around, path = around ++ "." ++ header.name) := by
  induction node using Node.induction generalizing outer with
  | step node ih =>
    rcases mem_declaredPaths.1 hpath with ⟨header, members, rfl, rfl⟩ | ⟨head, below, rfl, child, hchild, hpath⟩
    · refine ⟨header, members, .self _, ?_⟩
      unfold pathOf
      split
      · split
        · exact Or.inr ⟨_, rfl⟩
        · exact Or.inl rfl
      · exact Or.inl rfl
    · obtain ⟨header, members, hreach, hname⟩ := ih child hchild hpath
      exact ⟨header, members, .through hchild hreach, hname⟩

theorem SourceUnit.exists_name_of_mem_declaredTypes {unit : SourceUnit} {path : String}
    (hpath : path ∈ unit.declaredTypes) :
    ∃ name ∈ unit.typeNames, path = name ∨ ∃ around, path = around ++ "." ++ name := by
  obtain ⟨top, htop, hmem⟩ := Node.mem_declaredPathsOfAll.1 hpath
  obtain ⟨header, members, hreach, hname⟩ := Node.exists_name_of_mem_declaredPaths hmem
  exact ⟨header.name, mem_typeNames ⟨top, htop, hreach⟩, hname⟩

namespace Scope

variable {unit : SourceUnit} {simple : String}

/-- A simple name that no declared type bears is not found among the declared types. -/
theorem lookup_localTypes_eq_none (hnames : ∀ name ∈ unit.typeNames, '.' ∉ name.toList)
    (hsimple : '.' ∉ simple.toList) (hlocal : simple ∉ unit.typeNames) :
    (ofUnit unit).localTypes.lookup simple = none := by
  rw [localTypes_ofUnit, lookup_localEntries, Option.map_eq_none_iff, List.find?_eq_none]
  intro path hpath hanswers
  obtain ⟨name, hname, hends⟩ := SourceUnit.exists_name_of_mem_declaredTypes hpath
  have hlast : Name.lastSegment path = name := by
    rcases hends with rfl | ⟨around, rfl⟩
    · exact Name.lastSegment_eq_self (hnames path hname)
    · exact Name.lastSegment_join around (hnames name hname)
  rw [answers, Bool.or_eq_true, beq_iff_eq, beq_iff_eq, hlast] at hanswers
  rcases hanswers with hsame | hsame
  · exact hlocal (hsame ▸ hname)
  · -- The whole path has no point either, so it is the name.
    have hself : Name.lastSegment path = path := Name.lastSegment_eq_self (hsame ▸ hsimple)
    exact hlocal (hsame.trans (hself.symm.trans hlast) ▸ hname)

theorem lookup_singleImports_eq_none
    (himports : ∀ item ∈ unit.imports, item.isStatic = false → item.isWildcard = false →
      Name.lastSegment item.name ≠ simple) :
    (ofUnit unit).singleImports.lookup simple = none := by
  rw [List.lookup_eq_none_iff]
  intro entry hentry
  obtain ⟨item, hitem, rfl⟩ := List.mem_map.1 hentry
  obtain ⟨husable, hsingle⟩ := List.mem_filter.1 hitem
  obtain ⟨hmem, hmember⟩ := List.mem_filter.1 husable
  have hne := himports item hmem (by simpa using hmember) (by simpa using hsingle)
  simpa using hne.symm

/-- **An undeclared simple name is resolved by the guesses for it**, in order. -/
theorem resolve_undeclared (oracle : Oracle) (hnames : ∀ name ∈ unit.typeNames, '.' ∉ name.toList)
    (hsimple : Name.IsIdentifier simple) (hlocal : simple ∉ unit.typeNames)
    (himports : ∀ item ∈ unit.imports, item.isStatic = false → item.isWildcard = false →
      Name.lastSegment item.name ≠ simple) :
    (ofUnit unit).resolve oracle simple = firstKnown oracle ((ofUnit unit).candidates simple) := by
  have htrimmed : trimmed simple = simple := trimmed_eq_self hsimple.1.2
  have hnonempty : (simple == "") = false := by simpa using hsimple.1.1
  have hlookup := lookup_localTypes_eq_none hnames hsimple.2 hlocal
  simp only [resolve, htrimmed, hnonempty, Bool.false_eq_true, if_false, hlookup,
    Name.splitFirst?_eq_none hsimple.2, resolveSimple, lookup_singleImports_eq_none himports]

/-- An oracle that always answers lets the first guess win that it knows. -/
theorem firstKnown_eq_find? {oracle : Oracle} {known : String → Bool}
    (hknows : ∀ type, oracle.knows type = .ok (known type)) (guesses : List String) :
    firstKnown oracle guesses = .ok (guesses.find? known) := by
  induction guesses with
  | nil => rfl
  | cons guess rest ih =>
    rw [firstKnown, hknows, List.find?_cons]
    cases known guess with
    | true => rfl
    | false => exact ih

end Scope

end JavaAtlas

import Mathlib.Data.List.TakeWhile
import JavaAtlas.Proofs.FileTree.Paths
import JavaAtlas.Proofs.Text.Bytes

/-!
# The order of paths

Paths are compared component by component, and components by their bytes. The paths of places below one directory
share the components of the directory, and those that follow are the names on the way, so such paths are ordered like
their places. The last extension of a name is what stands behind its last point, if anything stands in front of that.
-/

namespace JavaAtlas

namespace Path

variable {directory name extension : String}

/-! ### Components -/

/-- What a path starts with: the root, or the point in front of a relative path, or nothing. -/
def opening (path : String) : List String :=
  if isAbsolute path then ["/"]
  else if (FileTree.parts path).head? = some "." then ["."]
  else []

def components (path : String) : List String :=
  opening path ++ segments path

/-- One path comes before another one: at the first component in which they differ it has the lesser bytes, or it ends
there. -/
def Before (path other : String) : Prop :=
  (components path).map Text.bytes < (components other).map Text.bytes

theorem segments_join (hdirectory : directory ≠ "") (hname : isName name = true) :
    segments (join directory name) = segments directory ++ [name] := by
  obtain ⟨hempty, hpoint, -, -⟩ := isName_iff.1 hname
  have hsegments (path : String) :
      segments path = (FileTree.parts path).filter fun part => part != "" && part != "." := rfl
  rw [hsegments, hsegments, FileTree.parts_join hdirectory hname, List.filter_append]
  obtain hparts | hparts := FileTree.parts_eq_route_or directory
  · rw [hparts]
    simp [hempty, hpoint]
  · rw [hparts, List.filter_append]
    simp [hempty, hpoint]

theorem route_ne_nil (directory : String) : FileTree.route directory ≠ [] := by
  rw [FileTree.route, FileTree.parts, Ne, List.map_eq_nil_iff]
  exact List.splitOnP_ne_nil _ _

theorem opening_join (hdirectory : directory ≠ "") (hname : isName name = true) :
    opening (join directory name) = opening directory := by
  have hhead (rest : List String) : (FileTree.route directory ++ rest).head? = (FileTree.route directory).head? :=
    List.head?_append_of_ne_nil _ (route_ne_nil directory)
  have hfirst : (FileTree.parts directory).head? = (FileTree.route directory).head? := by
    obtain hparts | hparts := FileTree.parts_eq_route_or directory
    · rw [hparts]
    · rw [hparts, hhead]
  rw [opening, opening, FileTree.isAbsolute_join hdirectory, FileTree.parts_join hdirectory hname, hhead, hfirst]

theorem components_join (hdirectory : directory ≠ "") (hname : isName name = true) :
    components (join directory name) = components directory ++ [name] := by
  rw [components, components, opening_join hdirectory hname, segments_join hdirectory hname, List.append_assoc]

/-! ### Order -/

theorem map_bytes_lt {names others : List String} (h : names < others) :
    names.map Text.bytes < others.map Text.bytes := by
  induction names generalizing others with
  | nil =>
    cases others with
    | nil => exact absurd h (List.lt_irrefl [])
    | cons other rest => exact List.nil_lt_cons _ _
  | cons name names ih =>
    cases others with
    | nil => exact absurd h (List.not_lt_nil _)
    | cons other others =>
      rw [List.map_cons, List.map_cons, List.cons_lt_cons_iff]
      obtain hlt | ⟨rfl, hrest⟩ := List.cons_lt_cons_iff.1 h
      · exact .inl (Text.bytes_lt hlt)
      · exact .inr ⟨rfl, ih hrest⟩

/-- The order of paths is not the order of their texts, for a hyphen comes before a slash. -/
example : Before "a/b.java" "a-z/c.java" ∧ "a-z/c.java" < "a/b.java" := by
  unfold Before
  decide

theorem Before.ne {path other : String} (h : Before path other) : path ≠ other := by
  rintro rfl
  exact List.lt_irrefl _ h

/-! ### Extensions -/

/-- What stands behind a point, and has none itself, is the last extension, if something stands in front. -/
theorem splitName_of_point {stem : String} (hstem : stem ≠ "") (hpoint : '.' ∉ extension.toList) :
    (splitName (stem ++ "." ++ extension)).2 = some extension := by
  have hall : ∀ c ∈ extension.toList.reverse, (c != '.') = true := by
    intro c hc
    rw [bne_iff_ne]
    rintro rfl
    exact hpoint (List.mem_reverse.1 hc)
  have hreverse : (stem ++ "." ++ extension).toList.reverse =
      extension.toList.reverse ++ '.' :: stem.toList.reverse := by
    simp
  obtain ⟨last, front, hfront⟩ := List.exists_cons_of_ne_nil (l := stem.toList.reverse) (by simpa using hstem)
  rw [splitName, hreverse, List.dropWhile_append_of_pos hall, List.takeWhile_append_of_pos hall, hfront]
  simp

theorem exists_stem_of_splitName (h : (splitName name).2 = some extension) :
    ∃ stem, name = stem ++ "." ++ extension ∧ stem ≠ "" ∧ '.' ∉ extension.toList := by
  have hsplit := List.takeWhile_append_dropWhile (p := (· != '.')) (l := name.toList.reverse)
  have hfront : '.' ∉ name.toList.reverse.takeWhile (· != '.') :=
    fun hmem => absurd (List.mem_takeWhile_imp hmem) (by decide)
  have hhead := List.head?_dropWhile_not (· != '.') name.toList.reverse
  rw [splitName] at h
  generalize name.toList.reverse.takeWhile (· != '.') = front at *
  generalize name.toList.reverse.dropWhile (· != '.') = back at *
  -- A point without anything in front of it makes no extension.
  split at h
  · cases h
  · cases h
  · next point stem hmore =>
    cases h
    obtain rfl : point = '.' := by simpa using hhead
    refine ⟨String.ofList stem.reverse, ?_, ?_, ?_⟩
    · apply String.toList_injective
      rw [← List.reverse_reverse name.toList, ← hsplit]
      simp
    · intro hempty
      exact hmore (by simpa using hempty)
    · simpa using hfront

end Path

end JavaAtlas

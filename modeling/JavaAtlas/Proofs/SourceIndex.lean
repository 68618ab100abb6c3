import JavaAtlas.Proofs.OrderedSet
import JavaAtlas.Proofs.Resolution.SimpleNames
import JavaAtlas.Proofs.Steps
import JavaAtlas.SourceIndex

/-!
# What source indexes know

A source is filed under the package of its header and the stem of its name. The index of a root knows the texts
that package and stem make up, not the pairs: a stem with a point in it can make up the same text as another
package and another stem. Where no stem has a point, the text tells the two apart.
-/

namespace JavaAtlas

namespace SourceUnit

variable {package other : Option String} {name simple : String}

theorem lastSegment_qualify (h : '.' ∉ name.toList) : Name.lastSegment (qualify package name) = name := by
  cases package with
  | none => exact Name.lastSegment_eq_self h
  | some package => exact Name.lastSegment_join package h

/-- A qualified name tells package and name, if the name has no point. -/
theorem qualify_inj (hname : '.' ∉ name.toList) (hsimple : '.' ∉ simple.toList)
    (h : qualify package name = qualify other simple) : package = other ∧ name = simple := by
  have hsame : name = simple := by
    rw [← lastSegment_qualify hname, h, lastSegment_qualify hsimple]
  subst hsame
  refine ⟨?_, rfl⟩
  have hlists := congrArg String.toList h
  cases package with
  | none =>
    cases other with
    | none => rfl
    | some other =>
      have hlength := congrArg List.length hlists
      simp [qualify] at hlength
      omega
  | some package =>
    cases other with
    | none =>
      have hlength := congrArg List.length hlists
      simp [qualify] at hlength
      omega
    | some other =>
      simp only [qualify, String.toList_append, List.append_assoc] at hlists
      exact congrArg some (String.toList_injective (List.append_cancel_right hlists))

end SourceUnit

namespace SourceIndex

open Steps

variable {tree : FileTree} {extension root type simple : String} {package : Option String}

/-- A source below a root, the bytes of which spell a text, has a stem, and its header names a package. -/
def FiledUnder (tree : FileTree) (extension root : String) (package : Option String) (stem : String) :
    Prop :=
  ∃ found, Discovery.sources tree extension root = .ok found ∧ ∃ path ∈ found, ∃ source,
    Path.fileStem? path = some stem ∧ tree.text? path = some source ∧ Header.package? source = package

/-- Some source below a root makes up the name of a type. -/
def Provides (tree : FileTree) (extension root type : String) : Prop :=
  ∃ package stem, FiledUnder tree extension root package stem ∧ SourceUnit.qualify package stem = type

theorem typeAt?_eq_some_iff {path : String} :
    typeAt? tree path = some type ↔ ∃ stem source, Path.fileStem? path = some stem ∧
      tree.text? path = some source ∧ SourceUnit.qualify (Header.package? source) stem = type := by
  simp only [typeAt?, Option.bind_eq_bind, Option.bind_eq_some_iff, Option.pure_def, Option.some.injEq]
  constructor
  · intro h
    obtain ⟨stem, hstem, source, htext, htype⟩ := h
    exact ⟨stem, source, hstem, htext, htype⟩
  · intro h
    obtain ⟨stem, source, hstem, htext, htype⟩ := h
    exact ⟨stem, hstem, source, htext, htype⟩

/-- **An index knows the types that the sources below its root make up**, and no others. -/
theorem contains_types_iff {index : SourceIndex} (h : ofRoot tree extension root = .ok index) :
    index.types.contains type = true ↔ Provides tree extension root type := by
  simp only [ofRoot, bind_eq_ok_iff, pure_eq_ok_iff] at h
  obtain ⟨found, hfound, rfl⟩ := h
  simp only [OrderedSet.contains_iff, OrderedSet.mem_ofList, List.mem_filterMap, typeAt?_eq_some_iff]
  constructor
  · intro h
    obtain ⟨path, hpath, stem, source, hstem, htext, htype⟩ := h
    exact ⟨_, stem, ⟨found, hfound, path, hpath, source, hstem, htext, rfl⟩, htype⟩
  · intro h
    obtain ⟨_, stem, ⟨listed, hlisted, path, hpath, source, hstem, htext, rfl⟩, htype⟩ := h
    cases hfound.symm.trans hlisted
    exact ⟨path, hpath, stem, source, hstem, htext, htype⟩

/-- Where no stem has a point, a simple name inside a package is provided by what is filed under just these. -/
theorem provides_qualify_iff
    (hstems : ∀ package stem, FiledUnder tree extension root package stem → '.' ∉ stem.toList)
    (hsimple : '.' ∉ simple.toList) :
    Provides tree extension root (SourceUnit.qualify package simple) ↔
      FiledUnder tree extension root package simple := by
  constructor
  · intro h
    obtain ⟨other, stem, hfiled, hsame⟩ := h
    obtain ⟨rfl, rfl⟩ := SourceUnit.qualify_inj (hstems other stem hfiled) hsimple hsame
    exact hfiled
  · intro h
    exact ⟨package, simple, h, rfl⟩

end SourceIndex

end JavaAtlas

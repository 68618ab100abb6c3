import JavaAtlas.Exclusion
import JavaAtlas.Oracle.Platform
import JavaAtlas.Proofs.Oracle
import JavaAtlas.Proofs.Text.Characters

/-!
# What exclusion lets pass

Exclusion looks at a target without the blanks at its ends, and takes a name for one of the standard library by what
it starts with. Neither trimming nor a text behind the name changes that start. The table of platform types and the
list of excluded names are kept apart, and they fit: every type in the table is excluded, and so is everything
behind its name.
-/

namespace JavaAtlas

open JavaAtlas.Text

namespace Exclusion

variable {target source start type : String}

theorem excludes_eq_false_iff :
    excludes target source = false ↔
      trimmed target ≠ "" ∧ trimmed target ≠ "void" ∧ trimmed target ∉ primitiveTypes ∧
        (∀ start ∈ excludedPackages, ¬ start.toList <+: (trimmed target).toList) ∧
        trimmed target ≠ source := by
  simp only [excludes, isPrimitive, isExcludedPackage, Bool.or_eq_false_iff, beq_eq_false_iff_ne,
    List.contains_eq_mem, decide_eq_false_iff_not, List.any_eq_false, List.isPrefixOf_iff_prefix,
    and_assoc]

/-- Names of the standard library open and end without blanks. -/
theorem ends_of_mem_excludedPackages :
    ∀ start ∈ excludedPackages, start.toList ≠ [] ∧
      (∀ c ∈ start.toList.head?, isBlank c = false) ∧
      (∀ c ∈ start.toList.getLast?, isBlank c = false) := by
  have hends : ∀ start ∈ excludedPackages, start.toList ≠ [] ∧
      start.toList.head?.all (fun c => !isBlank c) = true ∧
      start.toList.getLast?.all (fun c => !isBlank c) = true := by
    decide
  simpa only [Option.all_eq_true, Option.mem_def, Bool.not_eq_true'] using hends

/-- What starts like a name of the standard library still does after trimming. -/
theorem prefix_trimmed (hstart : start ∈ excludedPackages) (h : start.toList <+: target.toList) :
    start.toList <+: (trimmed target).toList := by
  obtain ⟨hne, hhead, hlast⟩ := ends_of_mem_excludedPackages start hstart
  rw [trimmed, String.toList_ofList]
  exact prefix_trim h hne hhead hlast

theorem isExcludedPackage_iff :
    isExcludedPackage target = true ↔ ∃ start ∈ excludedPackages, start.toList <+: target.toList := by
  simp only [isExcludedPackage, List.any_eq_true, List.isPrefixOf_iff_prefix]

theorem isExcludedPackage_append (h : isExcludedPackage target = true) (rest : String) :
    isExcludedPackage (target ++ rest) = true := by
  obtain ⟨start, hstart, hfront⟩ := isExcludedPackage_iff.1 h
  rw [isExcludedPackage_iff]
  refine ⟨start, hstart, ?_⟩
  rw [String.toList_append]
  exact hfront.trans (List.prefix_append _ _)

theorem excludes_of_isExcludedPackage (h : isExcludedPackage target = true) (source : String) :
    excludes target source = true := by
  obtain ⟨start, hstart, hfront⟩ := isExcludedPackage_iff.1 h
  cases hexcludes : excludes target source with
  | true => rfl
  | false =>
    obtain ⟨-, -, -, hplatform, -⟩ := excludes_eq_false_iff.1 hexcludes
    exact absurd (prefix_trimmed hstart hfront) (hplatform start hstart)

/-- Every type in the table of platform types lies in a package that is excluded. -/
theorem isExcludedPackage_of_mem_platformTypes (h : type ∈ Oracle.platformTypes) :
    isExcludedPackage type = true := by
  have hpackages : ∀ entry ∈ Oracle.platformTypesByPackage, isExcludedPackage entry.1 = true := by decide
  rcases List.mem_append.1 h with hlang | hother
  · obtain ⟨name, -, rfl⟩ := List.mem_map.1 hlang
    exact isExcludedPackage_append (by decide) name
  · obtain ⟨entry, hentry, hmem⟩ := List.mem_flatMap.1 hother
    obtain ⟨name, -, rfl⟩ := List.mem_map.1 hmem
    exact isExcludedPackage_append (isExcludedPackage_append (hpackages entry hentry) ".") name

theorem isExcludedPackage_of_platform_knows (h : Oracle.platform.Knows type) : isExcludedPackage type = true := by
  apply isExcludedPackage_of_mem_platformTypes
  simpa [Oracle.Knows, Oracle.platform, Oracle.ofNames] using h

end Exclusion

end JavaAtlas

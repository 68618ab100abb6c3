import JavaAtlas.Analysis
import JavaAtlas.Proofs.Exclusion
import JavaAtlas.Proofs.Extraction.Candidates
import JavaAtlas.Proofs.Resolution.Search

/-!
# Types of the platform in reports

Class and package reports resolve types by the platform alone, and none of the types that the platform confirms gets
into them. A name that only the oracle gives a meaning starts, with that meaning, like the type the oracle was asked
for; that type stands in the table, and all types of the table are excluded. So what is reported is written in the
source, or the unit vouches for it.
-/

namespace JavaAtlas

open JavaAtlas.Text

namespace Scope

variable {scope : Scope} {unit : SourceUnit} {oracle : Oracle} {name full : String}

/-- What a guess stands for starts with the type that the oracle is asked for. -/
theorem exists_full_eq_of_mem_guesses {guess : Guess} (h : guess ∈ scope.guesses name) :
    ∃ rest, guess.full = guess.type ++ rest := by
  unfold guesses at h
  split at h
  · next head rest hsplit =>
    rcases List.mem_append.1 h with hcandidate | hwhole
    · obtain ⟨candidate, -, rfl⟩ := List.mem_map.1 hcandidate
      exact ⟨"." ++ rest, String.append_assoc⟩
    · cases List.mem_singleton.1 hwhole
      exact ⟨"", String.append_empty.symm⟩
  · obtain ⟨candidate, -, rfl⟩ := List.mem_map.1 h
    exact ⟨"", String.append_empty.symm⟩

/-- A name for which the unit does not vouch means what some type that the oracle knows starts. -/
theorem exists_known_of_resolve (hresolve : (ofUnit unit).resolve oracle name = .ok (some full))
    (hvouches : ¬ ∃ own, unit.Vouches (trimmed name) own) :
    ∃ type rest, oracle.Knows type ∧ full = type ++ rest := by
  rw [resolve_eq_of_not_vouches hvouches] at hresolve
  split at hresolve
  · cases hresolve
  · obtain ⟨front, guess, back, hguesses, -, hknows, rfl⟩ := firstConfirmed_eq_some_iff.1 hresolve
    have hmem : guess ∈ (ofUnit unit).guesses (trimmed name) := by
      rw [hguesses]
      exact List.mem_append_right _ List.mem_cons_self
    obtain ⟨rest, hrest⟩ := exists_full_eq_of_mem_guesses hmem
    exact ⟨guess.type, rest, hknows, hrest⟩

end Scope

namespace Extraction

variable {unit : SourceUnit} {type : WrittenType} {target : String}

/-- What the platform finds out by itself is excluded. -/
theorem excludes_of_resolve_platform {name full : String}
    (hresolve : (Scope.ofUnit unit).resolve Oracle.platform name = .ok (some full))
    (hvouches : ¬ ∃ own, unit.Vouches (trimmed name) own) (source : String) :
    Exclusion.excludes full source = true := by
  obtain ⟨type, rest, hknows, rfl⟩ := Scope.exists_known_of_resolve hresolve hvouches
  apply Exclusion.excludes_of_isExcludedPackage
  exact Exclusion.isExcludedPackage_append (Exclusion.isExcludedPackage_of_platform_knows hknows) rest

/-- With types resolved by the platform, a target that is not excluded is written in the source, or the unit vouches
for it. -/
theorem written_or_vouched_of_targets {source : String}
    (htarget : Targets (Scope.ofUnit unit) Oracle.platform type target)
    (hallowed : Exclusion.excludes target source = false) :
    target = type.element.written ∨
      ∃ written line name, type.element = .reference written line name ∧ unit.Vouches (trimmed name) target := by
  induction htarget with
  | @resolved written name full line hresolve =>
    by_cases hvouches : ∃ own, unit.Vouches (trimmed name) own
    · exact Or.inr ⟨written, line, name, rfl, Scope.vouches_of_resolve hresolve hvouches⟩
    · rw [excludes_of_resolve_platform hresolve hvouches] at hallowed
      cases hallowed
  | unknown hresolve => exact Or.inl rfl
  | unanswered hresolve => exact Or.inl rfl
  | void =>
    have htrimmed : trimmed "void" = "void" := by decide
    simp [Exclusion.excludes, htrimmed] at hallowed
  | primitive => exact Or.inl rfl
  | array hinner ih => exact ih hallowed

theorem not_excluded_of_mem_extract {oracle : Oracle} {dependency : Dependency}
    (h : dependency ∈ (extract oracle unit).dependencies) :
    Exclusion.excludes dependency.target unit.className = false := by
  obtain ⟨node, proposal, -, -, hallowed, rfl⟩ := ((mem_extract_iff oracle unit).2 dependency).1 h
  exact hallowed

/-- **With types resolved by the platform alone, no type that it knows is reported.** A target apart from imports is
the written text of its element type or a name for which the unit vouches, and what the platform gives a meaning by
itself is excluded for every source. -/
theorem reported_with_platform (unit : SourceUnit) :
    (∀ dependency ∈ (extract Oracle.platform unit).dependencies,
      ¬ Oracle.platform.Knows dependency.target ∧
        (dependency.kind ≠ .imported → ∃ node type, unit.Holds node ∧ (dependency.kind, type) ∈ references node ∧
          dependency.snippet = dependency.kind.lead ++ " " ++ type.written ∧ dependency.line = type.line ∧
          (dependency.target = type.element.written ∨ ∃ written line name,
            type.element = .reference written line name ∧ unit.Vouches (trimmed name) dependency.target))) ∧
      ∀ name full, (Scope.ofUnit unit).resolve Oracle.platform name = .ok (some full) →
        (¬ ∃ own, unit.Vouches (trimmed name) own) → ∀ source, Exclusion.excludes full source = true := by
  refine ⟨fun dependency hdependency => ⟨?_, ?_⟩, fun name full => excludes_of_resolve_platform⟩
  · intro hknows
    have hexcluded := Exclusion.excludes_of_isExcludedPackage
      (Exclusion.isExcludedPackage_of_platform_knows hknows) unit.className
    rw [not_excluded_of_mem_extract hdependency] at hexcluded
    cases hexcluded
  · intro hkind
    obtain ⟨node, type, hnode, hreference, htarget, hsnippet, hline⟩ :=
      exists_reference_of_mem_extract hdependency hkind
    have hallowed := not_excluded_of_mem_extract hdependency
    exact ⟨node, type, hnode, hreference, hsnippet, hline, written_or_vouched_of_targets htarget hallowed⟩

/-- The unit `package p; import q.Outer; import java.util.*; class A extends Outer.Inner { Map.Entry all; }`. -/
def entryClass : SourceUnit :=
  ⟨[.package "p" 1, .imported ⟨"q.Outer", false, false, 1⟩, .imported ⟨"java.util", false, true, 1⟩,
    .branch (.type ⟨"A", .classType, false, [.reference "Outer.Inner" 1 "Outer.Inner"], [], 1⟩)
      [.branch (.field (.reference "Map.Entry" 1 "Map.Entry") ["all"] 1) []]]⟩

/-- The supertype is reported through its import, and the type of the field, which the platform finds behind the
wildcard, is excluded. -/
theorem entryClass_reported :
    (⟨"p.A", "q.Outer.Inner", .extended, "extends Outer.Inner", 1⟩ ∈
          (extract Oracle.platform entryClass).dependencies ∧
        ¬ Oracle.platform.Knows "q.Outer.Inner" ∧
        ∃ node type, entryClass.Holds node ∧ (.extended, type) ∈ references node ∧
          "extends Outer.Inner" = DependencyKind.extended.lead ++ " " ++ type.written ∧ 1 = type.line ∧
          ("q.Outer.Inner" = type.element.written ∨ ∃ written line name,
            type.element = .reference written line name ∧ entryClass.Vouches (trimmed name) "q.Outer.Inner")) ∧
      (Scope.ofUnit entryClass).resolve Oracle.platform "Map.Entry" = .ok (some "java.util.Map.Entry") ∧
        (¬ ∃ own, entryClass.Vouches (trimmed "Map.Entry") own) ∧
        ∀ source, Exclusion.excludes "java.util.Map.Entry" source = true := by
  have hmem : (⟨"p.A", "q.Outer.Inner", .extended, "extends Outer.Inner", 1⟩ : Dependency) ∈
      (extract Oracle.platform entryClass).dependencies.toList := by decide +kernel
  have hresolve : (Scope.ofUnit entryClass).resolve Oracle.platform "Map.Entry" =
      .ok (some "java.util.Map.Entry") := by decide +kernel
  have hvouches : ¬ ∃ own, entryClass.Vouches (trimmed "Map.Entry") own :=
    Scope.given?_eq_none_iff.1 (by decide +kernel)
  obtain ⟨hunknown, hreference⟩ := (reported_with_platform entryClass).1 _ hmem
  refine ⟨⟨hmem, hunknown, hreference (by decide)⟩, hresolve, hvouches, ?_⟩
  exact (reported_with_platform entryClass).2 _ _ hresolve hvouches

end Extraction

end JavaAtlas

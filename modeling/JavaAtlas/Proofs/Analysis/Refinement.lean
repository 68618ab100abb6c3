import JavaAtlas.FileTree.Edit
import JavaAtlas.Proofs.Analysis.Completion
import JavaAtlas.Proofs.Resolution.Search

/-!
# What more knowledge changes

Two oracles that answer, of which the second knows all that the first knows, search through the same guesses. Where
the first ends at a guess, the second ends at the same one or at one in front of it, which it knows and the first
does not. So a name that had a meaning keeps it or gets one from a type that was unknown before, and none becomes
unknown; what the unit vouches for does not change at all. The step from the platform alone to a project is a case
of this.
-/

namespace JavaAtlas

open JavaAtlas.Text

namespace Scope

/-- What a name means by a candidate that exists: for a simple name the candidate, and for a dotted name, the first
segment of which the candidate stands for, the candidate with the rest of the name behind it. -/
inductive Suggests (scope : Scope) (name candidate : String) : String → Prop where
  | simple (hsimple : Name.splitFirst? name = none) (hcandidate : candidate ∈ scope.candidates name) :
      Suggests scope name candidate candidate
  | dotted {head rest : String} (hsplit : Name.splitFirst? name = some (head, rest))
      (hcandidate : candidate ∈ scope.candidates head) :
      Suggests scope name candidate (candidate ++ "." ++ rest)

variable {scope : Scope} {oracle first second : Oracle} {name full : String} {front back : List Guess}
  {guess earlier : Guess}

/-- Every guess but the last is one that a candidate suggests. -/
theorem suggests_of_mem_front (hguesses : scope.guesses name = front ++ guess :: back) (hearlier : earlier ∈ front) :
    scope.Suggests name earlier.type earlier.full := by
  have hlast : earlier ∈ (scope.guesses name).dropLast := by
    rw [hguesses, List.dropLast_append_cons]
    exact List.mem_append_left _ hearlier
  cases hsplit : Name.splitFirst? name with
  | none =>
    have hmem := List.dropLast_subset _ hlast
    rw [guesses, hsplit] at hmem
    obtain ⟨candidate, hcandidate, rfl⟩ := List.mem_map.1 hmem
    exact .simple hsplit hcandidate
  | some cut =>
    rw [guesses, hsplit, List.dropLast_concat] at hlast
    obtain ⟨candidate, hcandidate, rfl⟩ := List.mem_map.1 hlast
    exact .dotted hsplit hcandidate

/-- An oracle that answers and confirms a guess ends its search there or in front of it. -/
theorem exists_confirmed (hanswers : oracle.Answers) (hknows : oracle.Knows guess.type) :
    ∃ other, firstConfirmed oracle (front ++ guess :: back) = .ok (some other) ∧
      (other = guess.full ∨ ∃ earlier ∈ front, oracle.Knows earlier.type ∧ other = earlier.full) := by
  induction front with
  | nil =>
    exact ⟨guess.full, firstConfirmed_cons_of_knows hknows back, Or.inl rfl⟩
  | cons earlier rest ih =>
    rw [List.cons_append]
    by_cases hearlier : oracle.Knows earlier.type
    · exact ⟨earlier.full, firstConfirmed_cons_of_knows hearlier _,
        Or.inr ⟨earlier, List.mem_cons_self, hearlier, rfl⟩⟩
    · obtain ⟨other, hother, horigin⟩ := ih
      refine ⟨other, ?_, ?_⟩
      · rw [firstConfirmed, hanswers.knows_eq_false hearlier]
        exact hother
      · refine horigin.imp id ?_
        rintro ⟨found, hfound, hconfirmed⟩
        exact ⟨found, List.mem_cons_of_mem _ hfound, hconfirmed⟩

/-- A meaning that one oracle finds is kept by an oracle that knows more, or it gives way to a candidate that only
the second knows. -/
theorem resolve_of_more (hanswers : second.Answers) (hmore : ∀ type, first.Knows type → second.Knows type)
    (h : scope.resolve first name = .ok (some full)) :
    ∃ other, scope.resolve second name = .ok (some other) ∧
      (other = full ∨ ∃ candidate, second.Knows candidate ∧ ¬ first.Knows candidate ∧
        scope.Suggests (trimmed name) candidate other) := by
  rw [resolve_eq_search] at h ⊢
  split at h
  · cases h
  · next hname =>
    rw [if_neg hname]
    cases hgiven : scope.given? (trimmed name) with
    | some own =>
      simp only [hgiven] at h
      cases h
      exact ⟨full, rfl, Or.inl rfl⟩
    | none =>
      simp only [hgiven] at h
      obtain ⟨front, guess, back, hguesses, hfront, hknows, rfl⟩ := firstConfirmed_eq_some_iff.1 h
      rw [hguesses]
      obtain ⟨other, hother, horigin⟩ := exists_confirmed hanswers (hmore _ hknows)
      refine ⟨other, hother, horigin.imp id ?_⟩
      rintro ⟨earlier, hearlier, hconfirmed, rfl⟩
      refine ⟨earlier.type, hconfirmed, ?_, suggests_of_mem_front hguesses hearlier⟩
      intro hknown
      cases (hfront earlier hearlier).symm.trans hknown

end Scope

namespace Analysis

open Steps

variable {workspace : Workspace} {oracle : Oracle} {root type : String}

theorem answers_of_projectOracle (h : projectOracle workspace root = .ok oracle) :
    oracle.Answers ∧ ∀ type, Oracle.platform.Knows type → oracle.Knows type := by
  simp only [projectOracle, bind_eq_ok_iff, pure_eq_ok_iff] at h
  obtain ⟨index, -, rfl⟩ := h
  constructor
  · apply Oracle.answers_combined
    intro member hmember
    rcases List.mem_pair.1 hmember with rfl | rfl
    · exact Oracle.answers_ofNames _ _
    · exact fun type => ⟨index.types.contains type, rfl⟩
  · intro type hplatform
    exact Oracle.knows_combined_iff.2 ⟨Oracle.platform, List.mem_cons_self, hplatform⟩

/-- **More knowledge only refines resolution.** A name that means something to an oracle means the same to one that
knows more, or what a candidate suggests that only this one knows; what the unit vouches for is the same to all
oracles; and what is resolved by the platform alone is resolved in every project. -/
theorem resolve_refined (unit : SourceUnit) (name : String) :
    (∀ first second : Oracle, first.Answers → second.Answers → (∀ type, first.Knows type → second.Knows type) →
      ∀ full, (Scope.ofUnit unit).resolve first name = .ok (some full) →
        ∃ other, (Scope.ofUnit unit).resolve second name = .ok (some other) ∧
          (other = full ∨ ∃ candidate, second.Knows candidate ∧ ¬ first.Knows candidate ∧
            (Scope.ofUnit unit).Suggests (trimmed name) candidate other)) ∧
      ((∃ full, unit.Vouches (trimmed name) full) → ∀ first second : Oracle,
        (Scope.ofUnit unit).resolve first name = (Scope.ofUnit unit).resolve second name) ∧
      ∀ (workspace : Workspace) (root : String) (oracle : Oracle), projectOracle workspace root = .ok oracle →
        ∀ full, (Scope.ofUnit unit).resolve Oracle.platform name = .ok (some full) →
          ∃ other, (Scope.ofUnit unit).resolve oracle name = .ok (some other) := by
  refine ⟨?_, Scope.resolve_eq_of_vouches, ?_⟩
  · intro first second _ hanswers hmore full hresolve
    exact Scope.resolve_of_more hanswers hmore hresolve
  · intro workspace root oracle horacle full hresolve
    obtain ⟨hanswers, hmore⟩ := answers_of_projectOracle horacle
    obtain ⟨other, hother, -⟩ := Scope.resolve_of_more hanswers hmore hresolve
    exact ⟨other, hother⟩

/-- The unit `package p; import q.Outer; import java.util.*; class A { }`. -/
def importingUnit : SourceUnit :=
  ⟨[.package "p" 1, .imported ⟨"q.Outer", false, false, 1⟩, .imported ⟨"java.util", false, true, 1⟩,
    .branch (.type ⟨"A", .classType, false, [], [], 1⟩) []]⟩

/-- The project with the source of a type `p.Map`. -/
def mapWorkspace : Workspace :=
  .ofTree ((FileTree.bare ["home"]).write "src/Map.java" (some "package p; class Map \x7b \x7d")) {}

/-- A type `p.Map` that comes to be known takes `Map.Entry` over from the platform, `Outer.Inner` stays with the
import, and the project that has this type resolves `Map.Entry` as well. -/
theorem importingUnit_refined :
    let scope := Scope.ofUnit importingUnit
    let first := Oracle.ofNames "some" ["java.util.Map"]
    let second := Oracle.ofNames "more" ["java.util.Map", "p.Map"]
    (scope.resolve first "Map.Entry" = .ok (some "java.util.Map.Entry") ∧
        ∃ other, scope.resolve second "Map.Entry" = .ok (some other) ∧
          (other = "java.util.Map.Entry" ∨ ∃ candidate, second.Knows candidate ∧ ¬ first.Knows candidate ∧
            scope.Suggests (trimmed "Map.Entry") candidate other)) ∧
      ((∃ full, importingUnit.Vouches (trimmed "Outer.Inner") full) ∧
        scope.resolve first "Outer.Inner" = scope.resolve second "Outer.Inner") ∧
      ∃ oracle, projectOracle mapWorkspace "src" = .ok oracle ∧
        scope.resolve Oracle.platform "Map.Entry" = .ok (some "java.util.Map.Entry") ∧
        ∃ other, scope.resolve oracle "Map.Entry" = .ok (some other) := by
  intro scope first second
  have hmore : ∀ type, first.Knows type → second.Knows type := by
    intro type hknows
    simp only [first, second, Oracle.Knows, Oracle.ofNames, Except.ok.injEq, List.contains_iff_mem,
      List.mem_cons] at hknows ⊢
    tauto
  have hfirst : scope.resolve first "Map.Entry" = .ok (some "java.util.Map.Entry") := by decide +kernel
  have hplatform : scope.resolve Oracle.platform "Map.Entry" = .ok (some "java.util.Map.Entry") := by
    decide +kernel
  have hitem : (⟨"q.Outer", false, false, 1⟩ : Import) ∈ importingUnit.imports := by decide
  have hlast : Name.lastSegment "q.Outer" = "Outer" := by decide
  have hsplit : Name.splitFirst? (trimmed "Outer.Inner") = some ("Outer", "Inner") := by decide
  have hvouches : ∃ full, importingUnit.Vouches (trimmed "Outer.Inner") full :=
    ⟨"q.Outer" ++ "." ++ "Inner", .through hsplit (.imported hitem rfl rfl hlast)⟩
  obtain ⟨oracle, horacle⟩ : ∃ oracle, projectOracle mapWorkspace "src" = .ok oracle :=
    exists_projectOracle (by decide +kernel)
  obtain ⟨hrefined, -, hproject⟩ := resolve_refined importingUnit "Map.Entry"
  obtain ⟨-, hvouched, -⟩ := resolve_refined importingUnit "Outer.Inner"
  refine ⟨⟨hfirst, ?_⟩, ⟨hvouches, hvouched hvouches first second⟩, oracle, horacle, hplatform, ?_⟩
  · exact hrefined first second (Oracle.answers_ofNames _ _) (Oracle.answers_ofNames _ _) hmore _ hfirst
  · exact hproject mapWorkspace "src" oracle horacle _ hplatform

end Analysis

end JavaAtlas

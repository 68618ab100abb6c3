import JavaAtlas.Oracle.Platform
import JavaAtlas.Proofs.Extraction.Candidates
import JavaAtlas.Proofs.Resolution.Qualification
import JavaAtlas.Proofs.Resolution.Search

/-!
# Members that fail

For one question a member that fails hides nothing that the other oracles know. A search asks several questions,
though, and goes on only where an oracle says that a type does not exist, which oracles with such a member never say.
So the search ends at the first candidate, in the package of the unit: it is confirmed, or the failure is passed on
and the reference stays as it is written. Exactly the references that were found later lose their target to that.
-/

namespace JavaAtlas

open JavaAtlas.Text

/-! ### Names that are found late -/

namespace Scope

/-- The type for which an oracle is asked first: the name, or its first segment, in the package of the unit. -/
def firstCandidate (scope : Scope) (name : String) : String :=
  SourceUnit.qualify scope.package? (Name.firstSegment name)

theorem exists_guesses_eq_cons (scope : Scope) (name : String) :
    ∃ full rest, scope.guesses name = ⟨scope.firstCandidate name, full⟩ :: rest := by
  unfold guesses firstCandidate candidates
  cases hsplit : Name.splitFirst? name with
  | none =>
    rw [Name.firstSegment_eq_of_splitFirst?_eq_none hsplit]
    exact ⟨_, _, rfl⟩
  | some cut =>
    rw [Name.firstSegment_eq_of_splitFirst? hsplit]
    exact ⟨_, _, rfl⟩

/-- A name is found late: the unit does not vouch for it, its first candidate is unknown, and still it means
something to the oracle. -/
def FoundLate (unit : SourceUnit) (oracle : Oracle) (name : String) : Prop :=
  (¬ ∃ own, unit.Vouches (trimmed name) own) ∧
    ¬ oracle.Knows ((ofUnit unit).firstCandidate (trimmed name)) ∧
    ∃ full, (ofUnit unit).resolve oracle name = .ok (some full)

end Scope

namespace Extraction

variable {unit : SourceUnit} {first second : Oracle} {written name : String}

/-- An oracle that knows the same types as another one, and never says that a type does not exist, ends each search
at the first candidate. So a reference keeps its meaning, unless the other oracle finds it late: then it means
itself. -/
theorem meaning_of_decisive (hsame : ∀ type, second.Knows type ↔ first.Knows type)
    (hfails : ∀ type, ¬ second.Knows type → ∃ failure, second.knows type = .error failure) :
    (¬ Scope.FoundLate unit first name →
        meaning (Scope.ofUnit unit) second written name = meaning (Scope.ofUnit unit) first written name) ∧
      (Scope.FoundLate unit first name → meaning (Scope.ofUnit unit) second written name = written) := by
  by_cases hvouches : ∃ own, unit.Vouches (trimmed name) own
  · refine ⟨fun _ => ?_, fun hlate => absurd hvouches hlate.1⟩
    rw [meaning, meaning, Scope.resolve_eq_of_vouches hvouches second first]
  · obtain ⟨full, rest, hguesses⟩ := Scope.exists_guesses_eq_cons (Scope.ofUnit unit) (trimmed name)
    have hsearch (oracle : Oracle) := Scope.resolve_eq_of_not_vouches hvouches oracle
    rw [hguesses] at hsearch
    by_cases hknows : first.Knows ((Scope.ofUnit unit).firstCandidate (trimmed name))
    · have hknown := (hsame _).2 hknows
      refine ⟨fun _ => ?_, fun hlate => absurd hknows hlate.2.1⟩
      rw [meaning, meaning, hsearch, hsearch, Scope.firstConfirmed_cons_of_knows hknown,
        Scope.firstConfirmed_cons_of_knows hknows]
    · have hwritten : meaning (Scope.ofUnit unit) second written name = written := by
        apply meaning_eq_written
        rintro ⟨found, hfound⟩
        obtain ⟨failure, hfailure⟩ := hfails _ (mt (hsame _).1 hknows)
        rw [hsearch, Scope.firstConfirmed, hfailure] at hfound
        split at hfound <;> cases hfound
      refine ⟨fun hlate => ?_, fun _ => hwritten⟩
      rw [hwritten, meaning_eq_written]
      exact fun hfound => hlate ⟨hvouches, hknows, hfound⟩

/-- A type is found late when its elements are references whose name is. -/
def FoundLate (unit : SourceUnit) (oracle : Oracle) (type : WrittenType) : Prop :=
  ∃ written line name, type.element = .reference written line name ∧ Scope.FoundLate unit oracle name

theorem target?_of_decisive (hsame : ∀ type, second.Knows type ↔ first.Knows type)
    (hfails : ∀ type, ¬ second.Knows type → ∃ failure, second.knows type = .error failure) (type : WrittenType) :
    (¬ FoundLate unit first type →
        target? (Scope.ofUnit unit) second type = target? (Scope.ofUnit unit) first type) ∧
      (FoundLate unit first type → target? (Scope.ofUnit unit) second type = some type.element.written) := by
  constructor
  · intro hlate
    cases helement : type.element with
    | reference written line name =>
      rw [target?_of_element helement, target?_of_element helement]
      refine congrArg some ((meaning_of_decisive hsame hfails).1 ?_)
      exact fun hname => hlate ⟨written, line, name, helement, hname⟩
    | _ => simp only [target?, helement]
  · rintro ⟨written, line, name, helement, hname⟩
    rw [target?_of_element helement, (meaning_of_decisive hsame hfails).2 hname, helement]
    rfl

/-- Oracles come into a report through the targets of references alone. -/
theorem extract_congr (h : ∀ node, unit.Holds node → ∀ reference ∈ references node,
      target? (Scope.ofUnit unit) second reference.2 = target? (Scope.ofUnit unit) first reference.2) :
    extract second unit = extract first unit := by
  have hproposals : ∀ node ∈ unit.walk,
      proposals (Scope.ofUnit unit) second node = proposals (Scope.ofUnit unit) first node := by
    intro node hnode
    cases node with
    | package name line => simp only [proposals, references, List.filterMap_nil]
    | imported item => simp only [proposals]
    | branch head below =>
      apply List.filterMap_congr
      intro reference hreference
      rw [proposal?, proposal?, h _ (SourceUnit.mem_walk.1 hnode) reference hreference]
  rw [extract, extract, List.flatMap_congr hproposals]

/-- **A failing member leaves all references alone but those found late.** Wherever it is inserted, a type that the
others do not find late keeps its target, one that they find late has its written text for a target, and a unit
without such types keeps its report. -/
theorem extract_with_failing_member (before after : List Oracle) {failing : Oracle} (hfails : failing.Fails)
    (unit : SourceUnit) :
    (∀ type : WrittenType,
      (¬ FoundLate unit (Oracle.combined (before ++ after)) type →
          target? (Scope.ofUnit unit) (Oracle.combined (before ++ failing :: after)) type =
            target? (Scope.ofUnit unit) (Oracle.combined (before ++ after)) type) ∧
        (FoundLate unit (Oracle.combined (before ++ after)) type →
          target? (Scope.ofUnit unit) (Oracle.combined (before ++ failing :: after)) type =
            some type.element.written)) ∧
      ((∀ node, unit.Holds node → ∀ reference ∈ references node,
          ¬ FoundLate unit (Oracle.combined (before ++ after)) reference.2) →
        extract (Oracle.combined (before ++ failing :: after)) unit =
          extract (Oracle.combined (before ++ after)) unit) := by
  have hsame : ∀ type, (Oracle.combined (before ++ failing :: after)).Knows type ↔
      (Oracle.combined (before ++ after)).Knows type :=
    fun _ => Oracle.knows_combined_with_failing_iff hfails
  refine ⟨target?_of_decisive hsame fun _ => Oracle.combined_with_failing_eq_error hfails, fun hunit => ?_⟩
  apply extract_congr
  intro node hnode reference hreference
  apply (target?_of_decisive hsame (fun _ => Oracle.combined_with_failing_eq_error hfails) reference.2).1
  exact hunit node hnode reference hreference

/-- The unit `class A { String text; }`. -/
def stringClass : SourceUnit :=
  ⟨[.branch (.type ⟨"A", .classType, false, [], [], 1⟩)
    [.branch (.field (.reference "String" 1 "String") ["text"] 1) []]]⟩

/-- The unit `package p; class A { B next; }`. -/
def siblingClass : SourceUnit :=
  ⟨[.package "p" 1, .branch (.type ⟨"A", .classType, false, [], [], 1⟩)
    [.branch (.field (.reference "B" 1 "B") ["next"] 1) []]]⟩

theorem eq_of_mem_references_siblingClass {node : Node} (hnode : siblingClass.Holds node)
    {reference : DependencyKind × WrittenType} (h : reference ∈ references node) :
    reference = (.field, .reference "B" 1 "B") := by
  have hall : ∀ reference ∈ siblingClass.walk.flatMap references, reference = (.field, .reference "B" 1 "B") := by
    decide
  exact hall reference (List.mem_flatMap.2 ⟨node, SourceUnit.mem_walk.2 hnode, h⟩)

/-- The sibling `p.B` is the first candidate and stays, while `java.lang.String` is found late. -/
theorem siblingClass_kept :
    let failing := Oracle.failing "down" "out of order"
    let sources := Oracle.ofNames "sources" ["p.B"]
    failing.Fails ∧
      (FoundLate stringClass (Oracle.combined ([] ++ [Oracle.platform])) (.reference "String" 1 "String") ∧
        target? (Scope.ofUnit stringClass) (Oracle.combined ([] ++ failing :: [Oracle.platform]))
          (.reference "String" 1 "String") = some "String") ∧
      (∀ node, siblingClass.Holds node → ∀ reference ∈ references node,
          ¬ FoundLate siblingClass (Oracle.combined ([sources] ++ [])) reference.2) ∧
        extract (Oracle.combined ([sources] ++ failing :: [])) siblingClass =
          extract (Oracle.combined ([sources] ++ [])) siblingClass := by
  intro failing sources
  have hfails : failing.Fails := Oracle.fails_failing "down" "out of order"
  have hlate : FoundLate stringClass (Oracle.combined ([] ++ [Oracle.platform])) (.reference "String" 1 "String") := by
    refine ⟨"String", 1, "String", rfl, ?_, ?_, "java.lang.String", by decide +kernel⟩
    · exact Scope.given?_eq_none_iff.1 (by decide +kernel)
    · rw [Oracle.Knows]
      decide +kernel
  have hkept : ∀ node, siblingClass.Holds node → ∀ reference ∈ references node,
      ¬ FoundLate siblingClass (Oracle.combined ([sources] ++ [])) reference.2 := by
    intro node hnode reference hreference
    cases eq_of_mem_references_siblingClass hnode hreference
    rintro ⟨written, line, name, helement, -, hunknown, -⟩
    cases helement
    apply hunknown
    rw [Oracle.Knows]
    decide +kernel
  refine ⟨hfails, ⟨hlate, ?_⟩, hkept, ?_⟩
  · exact ((extract_with_failing_member [] [Oracle.platform] hfails stringClass).1 _).2 hlate
  · exact (extract_with_failing_member [sources] [] hfails siblingClass).2 hkept

/-- A failing member does hide a type: behind it `String` is not found any more, and then it is reported. -/
theorem failing_member_hides_type :
    (¬ ∀ (before after : List Oracle) (failing : Oracle) (unit : SourceUnit), failing.Fails →
      extract (Oracle.combined (before ++ failing :: after)) unit =
        extract (Oracle.combined (before ++ after)) unit) ∧
      (extract (Oracle.combined [Oracle.platform]) stringClass).dependencies.toList = [] ∧
      (extract (Oracle.combined [Oracle.failing "down" "out of order", Oracle.platform])
          stringClass).dependencies.toList = [⟨"A", "String", .field, "field String", 1⟩] := by
  have hwithout : (extract (Oracle.combined [Oracle.platform]) stringClass).dependencies.toList = [] := by
    decide +kernel
  have hwith : (extract (Oracle.combined [Oracle.failing "down" "out of order", Oracle.platform])
      stringClass).dependencies.toList = [⟨"A", "String", .field, "field String", 1⟩] := by
    decide +kernel
  refine ⟨fun hall => ?_, hwithout, hwith⟩
  have hsame := hall [] [Oracle.platform] (Oracle.failing "down" "out of order") stringClass
    (Oracle.fails_failing "down" "out of order")
  rw [List.nil_append, List.nil_append] at hsame
  rw [hsame, hwithout] at hwith
  cases hwith

end Extraction

end JavaAtlas

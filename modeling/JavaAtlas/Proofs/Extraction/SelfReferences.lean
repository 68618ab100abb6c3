import JavaAtlas.Proofs.Extraction.Candidates
import JavaAtlas.Proofs.Resolution.SimpleNames

/-!
# References of a unit to its own class

A class needs itself in many places, and none of them makes a dependency as long as the reference is resolved to
the name under which the unit is reported. By its simple name the main type is found among the declared types,
whatever the oracle says. Its full name is looked up like any dotted name, though: the first segment may be a type
of its own in the scope, and then the name means a member of that type; and without the word of an oracle the name
stays as it is written, type arguments included.

The argument looks at extraction as a visit to one reference after the other.
-/

namespace JavaAtlas

open JavaAtlas.Text

theorem Name.IsSolid.qualify {package : Option String} {name : String}
    (hpackage : ∀ outer ∈ package, Name.IsSolid outer) (hname : Name.IsSolid name) :
    Name.IsSolid (SourceUnit.qualify package name) := by
  cases package with
  | none => exact hname
  | some outer => exact (hpackage outer rfl).join hname

theorem SourceUnit.className_of_mainType? {unit : SourceUnit} {main : String}
    (h : unit.mainType? = some main) : unit.className = qualify unit.package? main := by
  rw [className, h, Option.getD_some]

theorem SourceUnit.mem_declaredTypes_of_mainType? {unit : SourceUnit} {main : String}
    (h : unit.mainType? = some main) : main ∈ unit.declaredTypes := by
  obtain ⟨⟨header, members⟩, hfind, rfl⟩ := Option.map_eq_some_iff.1 h
  obtain ⟨node, hnode, hheader⟩ := List.mem_filterMap.1 (List.mem_of_find?_eq_some hfind)
  apply Node.mem_declaredPathsOfAll.2
  refine ⟨node, hnode, ?_⟩
  split at hheader
  · split at hheader
    · cases hheader
    · cases hheader
      exact Node.mem_declaredPaths.2 (Or.inl ⟨header, members, rfl, rfl⟩)
  · cases hheader

/-! ### What the names of the main type mean -/

namespace Scope

variable {unit : SourceUnit} {oracle : Oracle} {main package : String}

/-- A dotted name is obscured when its first segment means a type by itself. -/
def Obscured (scope : Scope) (oracle : Oracle) (name : String) : Prop :=
  ∃ head rest full, Name.splitFirst? name = some (head, rest) ∧
    scope.resolveSimple oracle head = .ok (some full)

/-- An oracle confirms a dotted name when it answers for the first segment, which it does not know, and knows
the whole name. -/
def Confirmed (scope : Scope) (oracle : Oracle) (name : String) : Prop :=
  ∃ head rest, Name.splitFirst? name = some (head, rest) ∧
    scope.resolveSimple oracle head = .ok none ∧ oracle.knows name = .ok true

/-- No other declared type has the simple name of the main type. -/
def IsAlone (unit : SourceUnit) (main : String) : Prop :=
  ∀ path ∈ unit.declaredTypes, Name.lastSegment path = main → path = main

instance (unit : SourceUnit) (main : String) : Decidable (IsAlone unit main) :=
  inferInstanceAs (Decidable (∀ path ∈ unit.declaredTypes, Name.lastSegment path = main → path = main))

theorem resolve_mainType (oracle : Oracle) (hmain : unit.mainType? = some main)
    (hname : Name.IsIdentifier main) (halone : IsAlone unit main) :
    (ofUnit unit).resolve oracle main = .ok (some unit.className) := by
  apply resolve_of_lookup oracle hname.1
  rw [localTypes_ofUnit, lookup_localEntries]
  have hself : answers main main = true := by simp [answers]
  have hdeclared := SourceUnit.mem_declaredTypes_of_mainType? hmain
  obtain ⟨path, hfind⟩ := Option.isSome_iff_exists.1 (List.find?_isSome.2 ⟨main, hdeclared, hself⟩)
  have hpath : path = main := by
    have hanswers := List.find?_some hfind
    rw [answers, Bool.or_eq_true, beq_iff_eq, beq_iff_eq] at hanswers
    rcases hanswers with hsimple | hsame
    · exact halone path (List.mem_of_find?_eq_some hfind) hsimple.symm
    · exact hsame.symm
  rw [hfind, hpath, SourceUnit.className_of_mainType? hmain]
  rfl

/-- The full name of the main type is no path of a declared type, since the type with that path would be another
one with the simple name of the main type. -/
theorem lookup_localTypes_qualified (hname : Name.IsIdentifier main) (halone : IsAlone unit main) :
    (ofUnit unit).localTypes.lookup (package ++ "." ++ main) = none := by
  rw [localTypes_ofUnit, lookup_localEntries, Option.map_eq_none_iff, List.find?_eq_none]
  intro path hpath hanswers
  have hpoint : '.' ∈ (package ++ "." ++ main).toList := by simp
  rw [answers, Bool.or_eq_true, beq_iff_eq, beq_iff_eq] at hanswers
  rcases hanswers with hsimple | hsame
  · exact Name.point_not_mem_lastSegment path (hsimple ▸ hpoint)
  · have hmain := halone path hpath (hsame ▸ Name.lastSegment_join package hname.2)
    exact hname.2 (hmain ▸ hsame ▸ hpoint)

theorem resolve_qualified (oracle : Oracle) (hpackage : Name.IsSolid package)
    (hname : Name.IsIdentifier main) (halone : IsAlone unit main) {head rest : String}
    (hsplit : Name.splitFirst? (package ++ "." ++ main) = some (head, rest)) :
    (ofUnit unit).resolve oracle (package ++ "." ++ main) =
      (ofUnit unit).resolveDotted oracle (package ++ "." ++ main) head rest := by
  have hsolid := hpackage.join hname.1
  have hnonempty : (package ++ "." ++ main == "") = false := beq_false_of_ne hsolid.1
  simp only [resolve, trimmed_eq_self hsolid.2, hnonempty, Bool.false_eq_true, if_false,
    lookup_localTypes_qualified hname halone, hsplit]

end Scope

/-! ### Visits -/

namespace Extraction

variable {scope : Scope} {oracle : Oracle} {kind : DependencyKind} {type : WrittenType} {target : String}

/-- A report after a visit to one more type reference in its role. -/
def visit (scope : Scope) (oracle : Oracle) (report : ClassReport)
    (reference : DependencyKind × WrittenType) : ClassReport :=
  match proposal? scope oracle reference.1 reference.2 with
  | some proposal => accept report proposal
  | none => report

/-- A report after a visit to what a node imports or refers to. -/
def visitNode (scope : Scope) (oracle : Oracle) (report : ClassReport) : Node → ClassReport
  | .imported item => (importProposal? item).toList.foldl accept report
  | node => (references node).foldl (visit scope oracle) report

/-- Extraction visits the references of a unit node by node. -/
theorem extract_eq_foldl_visitNode (oracle : Oracle) (unit : SourceUnit) :
    extract oracle unit =
      unit.walk.foldl (visitNode (Scope.ofUnit unit) oracle) (ClassReport.new unit.className) := by
  rw [extract, List.foldl_flatMap]
  congr 1
  funext report node
  cases node with
  | imported item => rfl
  | package name line => rfl
  | branch head below =>
    simp only [proposals, visitNode, List.foldl_filterMap]
    congr 1
    funext report reference
    rw [visit]
    cases proposal? (Scope.ofUnit unit) oracle reference.1 reference.2 <;> rfl

theorem excludes_self {source : String} (h : Name.IsSolid source) :
    Exclusion.excludes source source = true := by
  simp only [Exclusion.excludes, trimmed_eq_self h.2, beq_self_eq_true, Bool.or_true]

/-- A report does not change with a visit to a reference that means the class of the report. -/
theorem visit_eq_self {report : ClassReport} (htarget : target? scope oracle type = some target)
    (hself : Exclusion.excludes target report.className = true) :
    visit scope oracle report (kind, type) = report := by
  rw [visit, proposal?, htarget]
  exact if_pos hself

theorem meaning_of_resolve {written name full : String} (h : scope.resolve oracle name = .ok (some full)) :
    meaning scope oracle written name = full := by
  rw [meaning, h]

section FullName

variable {unit : SourceUnit} {package main head rest full : String}

theorem meaning_of_obscured (written : String) (hpackage : Name.IsSolid package)
    (hname : Name.IsIdentifier main) (halone : Scope.IsAlone unit main)
    (hsplit : Name.splitFirst? (package ++ "." ++ main) = some (head, rest))
    (hhead : (Scope.ofUnit unit).resolveSimple oracle head = .ok (some full)) :
    meaning (Scope.ofUnit unit) oracle written (package ++ "." ++ main) = full ++ "." ++ rest := by
  apply meaning_of_resolve
  rw [Scope.resolve_qualified oracle hpackage hname halone hsplit, Scope.resolveDotted, hhead]

theorem meaning_of_confirmed (written : String) (hpackage : Name.IsSolid package)
    (hname : Name.IsIdentifier main) (halone : Scope.IsAlone unit main)
    (hconfirmed : (Scope.ofUnit unit).Confirmed oracle (package ++ "." ++ main)) :
    meaning (Scope.ofUnit unit) oracle written (package ++ "." ++ main) = package ++ "." ++ main := by
  obtain ⟨head, rest, hsplit, hhead, hknows⟩ := hconfirmed
  apply meaning_of_resolve
  rw [Scope.resolve_qualified oracle hpackage hname halone hsplit, Scope.resolveDotted, hhead]
  simp only [Scope.firstKnown, hknows]

theorem meaning_of_not_confirmed (written : String) (hpackage : Name.IsSolid package)
    (hname : Name.IsIdentifier main) (halone : Scope.IsAlone unit main)
    (hclear : ¬ (Scope.ofUnit unit).Obscured oracle (package ++ "." ++ main))
    (hunknown : ¬ (Scope.ofUnit unit).Confirmed oracle (package ++ "." ++ main)) :
    meaning (Scope.ofUnit unit) oracle written (package ++ "." ++ main) = written := by
  obtain ⟨head, rest, hsplit⟩ := Name.exists_splitFirst? package main
  rw [meaning, Scope.resolve_qualified oracle hpackage hname halone hsplit, Scope.resolveDotted]
  cases hhead : (Scope.ofUnit unit).resolveSimple oracle head with
  | error failure => rfl
  | ok answer =>
    cases answer with
    | some full => exact absurd ⟨head, rest, full, hsplit, hhead⟩ hclear
    | none =>
      simp only [Scope.firstKnown]
      cases hknows : oracle.knows (package ++ "." ++ main) with
      | error failure => rfl
      | ok known =>
        cases known with
        | false => rfl
        | true => exact absurd ⟨head, rest, hsplit, hhead, hknows⟩ hunknown

end FullName

/-- **A reference to the class of the unit adds nothing, as far as it is understood as one.** -/
theorem visit_self_reference (oracle : Oracle) (unit : SourceUnit) {main : String}
    (hmain : unit.mainType? = some main) (hname : Name.IsIdentifier main)
    (hpackage : ∀ package ∈ unit.package?, Name.IsSolid package)
    (halone : Scope.IsAlone unit main) (kind : DependencyKind) {type : WrittenType}
    {written name : String} {line : Line} (helement : type.element = .reference written line name)
    (report : ClassReport) (hreport : report.className = unit.className) :
    (name = main → visit (Scope.ofUnit unit) oracle report (kind, type) = report) ∧
    (∀ package ∈ unit.package?, name = package ++ "." ++ main →
      ((Scope.ofUnit unit).Confirmed oracle name ∨
          ¬ (Scope.ofUnit unit).Obscured oracle name ∧ written = name →
        visit (Scope.ofUnit unit) oracle report (kind, type) = report) ∧
      (¬ (Scope.ofUnit unit).Obscured oracle name → ¬ (Scope.ofUnit unit).Confirmed oracle name →
        meaning (Scope.ofUnit unit) oracle written name = written) ∧
      (∀ head rest full, Name.splitFirst? name = some (head, rest) →
        (Scope.ofUnit unit).resolveSimple oracle head = .ok (some full) →
          meaning (Scope.ofUnit unit) oracle written name = full ++ "." ++ rest)) := by
  have hself : Exclusion.excludes unit.className report.className = true := by
    rw [hreport]
    apply excludes_self
    rw [SourceUnit.className_of_mainType? hmain]
    exact Name.IsSolid.qualify hpackage hname.1
  have hvisit : meaning (Scope.ofUnit unit) oracle written name = unit.className →
      visit (Scope.ofUnit unit) oracle report (kind, type) = report := by
    intro hmeaning
    apply visit_eq_self (target?_of_element helement)
    rw [hmeaning]
    exact hself
  constructor
  · rintro rfl
    exact hvisit (meaning_of_resolve (Scope.resolve_mainType oracle hmain hname halone))
  · rintro package hmem rfl
    have hclass : unit.className = package ++ "." ++ main := by
      rw [SourceUnit.className_of_mainType? hmain, Option.mem_def.1 hmem]
      rfl
    have hsolid := hpackage package hmem
    refine ⟨fun hunderstood => ?_, meaning_of_not_confirmed written hsolid hname halone,
      fun head rest full => meaning_of_obscured written hsolid hname halone⟩
    apply hvisit
    rw [hclass]
    by_cases hconfirmed : (Scope.ofUnit unit).Confirmed oracle (package ++ "." ++ main)
    · exact meaning_of_confirmed written hsolid hname halone hconfirmed
    · obtain ⟨hclear, hwritten⟩ := hunderstood.resolve_left hconfirmed
      rw [meaning_of_not_confirmed written hsolid hname halone hclear hconfirmed]
      exact hwritten

/-- The unit `package p; class M<T> { p.M<T> next; M<T>[] all() { } }`. -/
def linkedClass : SourceUnit :=
  ⟨[.package "p" 1,
    .branch (.type ⟨"M", .classType, false, [], [], 1⟩)
      [.branch (.field (.reference "p.M<T>" 1 "p.M") ["next"] 1) [],
        .branch (.method "all" (.array "M<T>[]" 1 (.reference "M<T>" 1 "M")) [] 1) []]]⟩

/-- Without any oracle to ask, the simple name is understood with type arguments and dimensions, and the full name
where it is written without. -/
theorem linkedClass_visits :
    let scope := Scope.ofUnit linkedClass
    let oracle := Oracle.failing "down" "out of order"
    (linkedClass.mainType? = some "M" ∧ Name.IsIdentifier "M" ∧
        (∀ package ∈ linkedClass.package?, Name.IsSolid package) ∧ Scope.IsAlone linkedClass "M") ∧
      (∀ report : ClassReport, report.className = "p.M" →
        visit scope oracle report (.methodReturn, .array "M<T>[]" 1 (.reference "M<T>" 1 "M")) = report) ∧
      (∀ report : ClassReport, report.className = "p.M" →
        visit scope oracle report (.extended, .reference "p.M" 1 "p.M") = report) := by
  have hmain : linkedClass.mainType? = some "M" := by decide
  have hname : Name.IsIdentifier "M" := by decide
  have hpackage : ∀ package ∈ linkedClass.package?, Name.IsSolid package := by decide
  have halone : Scope.IsAlone linkedClass "M" := by decide
  refine ⟨⟨hmain, hname, hpackage, halone⟩, fun report hreport => ?_, fun report hreport => ?_⟩
  · exact (visit_self_reference _ linkedClass hmain hname hpackage halone .methodReturn rfl report hreport).1 rfl
  · refine ((visit_self_reference _ linkedClass hmain hname hpackage halone .extended rfl
      report hreport).2 "p" rfl rfl).1 (Or.inr ⟨?_, rfl⟩)
    rintro ⟨head, rest, full, hsplit, hhead⟩
    have hfirst : Name.splitFirst? "p.M" = some ("p", "M") := by decide
    cases hfirst.symm.trans hsplit
    cases hhead

/-- The unit `package p; import q.p; class M { p.M next; }`. -/
def importingClass : SourceUnit :=
  ⟨[.package "p" 1, .imported ⟨"q.p", false, false, 1⟩,
    .branch (.type ⟨"M", .classType, false, [], [], 1⟩)
      [.branch (.field (.reference "p.M" 1 "p.M") ["next"] 1) []]]⟩

/-- The full name alone does not make a reference one to the class: with type arguments it stays as it is written
if no oracle knows it, and behind an import of its first segment it means another type. -/
theorem full_name_reported :
    (¬ ∀ (oracle : Oracle) (unit : SourceUnit) (package main : String), unit.package? = some package →
      unit.mainType? = some main → (∀ name ∈ unit.typeNames, Name.IsIdentifier name) →
      Name.IsIdentifier package → Scope.IsAlone unit main →
      ∀ node, unit.Holds node → ∀ reference ∈ references node, ∀ written line name,
        reference.2.element = .reference written line name →
        name = main ∨ name = package ++ "." ++ main →
        visit (Scope.ofUnit unit) oracle (ClassReport.new unit.className) reference =
          ClassReport.new unit.className) ∧
      (extract (Oracle.ofNames "none" []) linkedClass).dependencies.toList =
        [⟨"p.M", "p.M<T>", .field, "field p.M<T>", 1⟩] ∧
      (extract (Oracle.ofNames "none" []) importingClass).dependencies.toList =
        [⟨"p.M", "q.p", .imported, "import q.p;", 1⟩, ⟨"p.M", "q.p.M", .field, "field p.M", 1⟩] := by
  refine ⟨fun hall => ?_, by decide +kernel, by decide +kernel⟩
  have hsame := hall (Oracle.ofNames "none" []) linkedClass "p" "M" rfl rfl (by decide) (by decide)
    (by decide) (.branch (.field (.reference "p.M<T>" 1 "p.M") ["next"] 1) []) ?_
    (.field, .reference "p.M<T>" 1 "p.M") (by decide) "p.M<T>" 1 "p.M" rfl (Or.inr rfl)
  · exact absurd hsame (by decide +kernel)
  · exact ⟨_, List.mem_cons_of_mem _ (List.mem_singleton_self _), .through (List.mem_cons_self ..) (.self _)⟩

end Extraction

end JavaAtlas

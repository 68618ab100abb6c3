import JavaAtlas.Proofs.Analysis.Contents
import JavaAtlas.Proofs.Extraction.Candidates
import JavaAtlas.Proofs.SourceIndex
import JavaAtlas.Proofs.SourceUnit.Names

/-!
# Targets of simple names in a project

What a reference by a simple name targets in a project report, for a name that its unit neither declares nor
imports by itself: the type of that name in the package of the unit, else in the first package imported as a
whole that has one, else in `java.lang`, else the text as it is written. A type counts as there when the platform
has it or a source of the project makes up its name. The oracle of a project always answers, so the guesses of
the scope are decided one after the other, and only exclusion keeps the dependency out of the report.
-/

namespace JavaAtlas

open JavaAtlas.Text

namespace SourceUnit

def wildcardPackages (unit : SourceUnit) : List String :=
  (unit.imports.filter fun item => !item.isStatic && item.isWildcard).map Import.name

/-- The types that the nodes of a unit refer to, each with the role it plays. -/
def references (unit : SourceUnit) : List (DependencyKind × WrittenType) :=
  unit.walk.flatMap Extraction.references

/-- What an undeclared simple name stands for, told from the packages in which a type of that name is known. -/
inductive StandsFor (unit : SourceUnit) (known : Option String → Prop) (simple written : String) :
    String → Prop where
  | samePackage (hsame : known unit.package?) :
      StandsFor unit known simple written (qualify unit.package? simple)
  | wildcard {before after : List String} {package : String} (hsame : ¬ known unit.package?)
      (himports : unit.wildcardPackages = before ++ package :: after)
      (hbefore : ∀ earlier ∈ before, ¬ known (some earlier)) (hpackage : known (some package)) :
      StandsFor unit known simple written (package ++ "." ++ simple)
  | javaLang (hsame : ¬ known unit.package?)
      (himports : ∀ package ∈ unit.wildcardPackages, ¬ known (some package))
      (hlang : known (some "java.lang")) :
      StandsFor unit known simple written ("java.lang." ++ simple)
  | unknown (hsame : ¬ known unit.package?)
      (himports : ∀ package ∈ unit.wildcardPackages, ¬ known (some package))
      (hlang : ¬ known (some "java.lang")) : StandsFor unit known simple written written

theorem wildcardPackages_ofUnit (unit : SourceUnit) :
    (Scope.ofUnit unit).wildcardPackages = unit.wildcardPackages := by
  simp only [Scope.ofUnit, wildcardPackages, List.filter_filter]
  congr 2
  funext item
  exact Bool.and_comm _ _

/-- The first guess that is known, or the written text, is what the name stands for. -/
theorem standsFor_find? {unit : SourceUnit} {known : Option String → Prop} {simple written : String}
    {knows : String → Bool} (h : ∀ package, knows (qualify package simple) = true ↔ known package) :
    StandsFor unit known simple written
      ((((Scope.ofUnit unit).candidates simple).find? knows).getD written) := by
  have hlang : "java.lang." ++ simple = qualify (some "java.lang") simple := by
    simp [qualify]
  have hpackage : (Scope.ofUnit unit).package? = unit.package? := rfl
  -- The guesses come in three groups: the package of the unit, the wildcard imports, `java.lang`.
  rw [Scope.candidates, wildcardPackages_ofUnit, hpackage, List.cons_append, List.find?_cons]
  cases hsame : knows (qualify unit.package? simple) with
  | true => exact .samePackage ((h _).1 hsame)
  | false =>
    have hnot : ¬ known unit.package? := by
      rw [← h, hsame]
      exact Bool.false_ne_true
    rw [List.find?_append]
    cases hfind : (unit.wildcardPackages.map fun package => package ++ "." ++ simple).find? knows with
    | some target =>
      rw [List.find?_map] at hfind
      obtain ⟨package, hfirst, rfl⟩ := Option.map_eq_some_iff.1 hfind
      obtain ⟨hknown, before, after, himports, hbefore⟩ := List.find?_eq_some_iff_append.1 hfirst
      refine .wildcard hnot himports ?_ ((h (some package)).1 hknown)
      intro earlier hearlier
      rw [← h]
      simpa [qualify] using hbefore earlier hearlier
    | none =>
      have hnone : ∀ package ∈ unit.wildcardPackages, ¬ known (some package) := by
        intro package hmem
        rw [← h]
        exact List.find?_eq_none.1 hfind _ (List.mem_map_of_mem hmem)
      rw [Option.none_or, List.find?_cons, hlang]
      cases hknown : knows (qualify (some "java.lang") simple) with
      | true => exact hlang ▸ .javaLang hnot hnone ((h _).1 hknown)
      | false =>
        refine .unknown hnot hnone ?_
        rw [← h, hknown]
        exact Bool.false_ne_true

end SourceUnit

namespace Analysis

open Steps

variable {workspace : Workspace} {order : CompletionOrder} {oracle : Oracle} {root : String}

/-- A type inside a package is known in a project: the platform has it, or a source makes up its name. -/
def KnownIn (workspace : Workspace) (root simple : String) (package : Option String) : Prop :=
  SourceUnit.qualify package simple ∈ Oracle.platformTypes ∨
    SourceIndex.Provides workspace.tree workspace.extension root (SourceUnit.qualify package simple)

/-- The oracle of a project always answers, and it knows what the platform and the sources provide. -/
theorem exists_knows_of_projectOracle (h : projectOracle workspace root = .ok oracle) :
    ∃ knows : String → Bool, (∀ type, oracle.knows type = .ok (knows type)) ∧
      ∀ type, knows type = true ↔ type ∈ Oracle.platformTypes ∨
        SourceIndex.Provides workspace.tree workspace.extension root type := by
  simp only [projectOracle, bind_eq_ok_iff, pure_eq_ok_iff] at h
  obtain ⟨index, hindex, rfl⟩ := h
  refine ⟨fun type => Oracle.platformTypes.contains type || index.types.contains type, ?_, ?_⟩
  · intro type
    simp only [Oracle.combined, Oracle.askAll, Oracle.platform, Oracle.ofNames, SourceIndex.oracle]
    cases Oracle.platformTypes.contains type with
    | true => rfl
    | false => cases index.types.contains type <;> rfl
  · intro type
    rw [Bool.or_eq_true, List.contains_iff_mem, SourceIndex.contains_types_iff hindex]

/-- What a node refers to, it proposes, under the target that the type has. -/
theorem mem_proposals_of_mem_references {scope : Scope} {node : Node} {kind : DependencyKind}
    {type : WrittenType} {proposal : Extraction.Proposal}
    (hmem : (kind, type) ∈ Extraction.references node)
    (hproposal : Extraction.proposal? scope oracle kind type = some proposal) :
    proposal ∈ Extraction.proposals scope oracle node := by
  cases node with
  | package name line => cases hmem
  | imported item => cases hmem
  | branch head below => exact List.mem_filterMap.2 ⟨(kind, type), hmem, hproposal⟩

/-- What a unit refers to is in the report on it, unless exclusion keeps the target out. -/
theorem mem_extract_of_mem_references {unit : SourceUnit} {kind : DependencyKind}
    {type : WrittenType} {proposal : Extraction.Proposal} (hmem : (kind, type) ∈ unit.references)
    (hproposal : Extraction.proposal? (Scope.ofUnit unit) oracle kind type = some proposal)
    (hallowed : Exclusion.excludes proposal.target unit.className = false) :
    proposal.dependency unit.className ∈ (Extraction.extract oracle unit).dependencies := by
  obtain ⟨node, hnode, hreference⟩ := List.mem_flatMap.1 hmem
  have hproposed := mem_proposals_of_mem_references hreference hproposal
  rw [Extraction.extract, Extraction.mem_foldl_accept]
  exact Or.inr ⟨proposal, List.mem_flatMap.2 ⟨node, hnode, hproposed⟩, hallowed, rfl⟩

/-- **What a simple name in a project targets.** -/
theorem reference_target {report : ProjectReport}
    (hreport : projectReport workspace order root = .ok report) {path source : String}
    {unit : SourceUnit} (hlisted : Listed workspace root path)
    (hread : workspace.reader path = .text source) (hparse : SourceUnit.parse? source = some unit)
    {kind : DependencyKind} {type : WrittenType} (hreference : (kind, type) ∈ unit.references)
    {written simple : String} {line : Line} (htype : type.element = .reference written line simple)
    (hsimple : Name.IsIdentifier simple) (hlocal : simple ∉ unit.typeNames)
    (himports : ∀ item ∈ unit.imports, item.isStatic = false → item.isWildcard = false →
      Name.lastSegment item.name ≠ simple) :
    ∃ oracle target, projectOracle workspace root = .ok oracle ∧
      unit.StandsFor (KnownIn workspace root simple) simple written target ∧
      Extraction.proposal? (Scope.ofUnit unit) oracle kind type =
        some ⟨kind, target, kind.lead ++ " " ++ type.written, type.line⟩ ∧
      (Exclusion.excludes target unit.className = false →
        Extraction.extract oracle unit ∈ report.classReports ∧
          ⟨unit.className, target, kind, kind.lead ++ " " ++ type.written, type.line⟩ ∈
            (Extraction.extract oracle unit).dependencies) := by
  obtain ⟨-, oracle, -, horacle, -, -⟩ := exists_oracle_of_project hreport
  obtain ⟨knows, hknows, hknown⟩ := exists_knows_of_projectOracle horacle
  have hpoints : ∀ name ∈ unit.typeNames, '.' ∉ name.toList := by
    intro name hname
    rcases SourceUnit.isIdentifier_typeNames hparse name hname with rfl | hidentifier
    · simp
    · exact point_not_mem_of_isIdentifier hidentifier
  have hresolve := (Scope.resolve_undeclared oracle hpoints hsimple hlocal himports).trans
    (Scope.firstKnown_eq_find? hknows _)
  have htarget : Extraction.target? (Scope.ofUnit unit) oracle type =
      some ((((Scope.ofUnit unit).candidates simple).find? knows).getD written) := by
    rw [Extraction.target?, htype]
    dsimp only
    rw [hresolve]
    cases ((Scope.ofUnit unit).candidates simple).find? knows <;> rfl
  have hproposal : Extraction.proposal? (Scope.ofUnit unit) oracle kind type = some _ :=
    congrArg (Option.map _) htarget
  refine ⟨oracle, _, horacle, SourceUnit.standsFor_find? fun package => hknown _, hproposal, ?_⟩
  intro hallowed
  have hdependency := mem_extract_of_mem_references hreference hproposal hallowed
  refine ⟨(mem_classReports_iff hreport horacle).2 ⟨?_, path, hlisted, ?_⟩, hdependency⟩
  · exact List.isEmpty_eq_false_iff_exists_mem.2 ⟨_, hdependency⟩
  · exact classTask_eq_ok_iff.2 ⟨source, unit, hread, hparse, rfl⟩

/-! ### A name that a stem with a point makes up -/

def referringSource : String :=
  "import q.*; class A \x7b S next; \x7d"

/-- The source in the file `q.S.java`, which makes up the name `q.S`. -/
def pointedWorkspace : Workspace :=
  .ofTree ((FileTree.bare ["home"]).write "src/q.S.java" (some referringSource)) {}

/-- What the unit of the source shows: `S` is a type that it neither declares nor imports by itself. -/
theorem exists_referringUnit :
    ∃ unit, SourceUnit.parse? referringSource = some unit ∧
      (.field, .reference "S" 1 "S") ∈ unit.references ∧ "S" ∉ unit.typeNames ∧
        (∀ item ∈ unit.imports, item.isStatic = false → item.isWildcard = false →
          Name.lastSegment item.name ≠ "S") ∧
        unit.wildcardPackages = ["q"] ∧ unit.package? = none := by
  have hshown : ((SourceUnit.parse? referringSource).map fun unit =>
      (unit.references, unit.typeNames, unit.imports, unit.package?)) =
        some ([(.field, .reference "S" 1 "S")], ["A"], [⟨"q", false, true, 1⟩], none) := by
    decide +kernel
  obtain ⟨unit, hparse, hunit⟩ := Option.map_eq_some_iff.1 hshown
  simp only [Prod.mk.injEq] at hunit
  obtain ⟨hreferences, htypes, himports, hpackage⟩ := hunit
  refine ⟨unit, hparse, hreferences ▸ List.mem_singleton_self _, ?_, ?_, ?_, hpackage⟩
  · rw [htypes]
    decide
  · rw [himports]
    intro item hitem hstatic hsingle
    cases List.mem_singleton.1 hitem
    cases hsingle
  · rw [SourceUnit.wildcardPackages, himports]
    rfl

theorem exists_pointedReport :
    ∃ report, projectReport pointedWorkspace .asStarted "src" = .ok report :=
  exists_projectReport .asStarted (by decide) (by decide +kernel)

theorem pointedWorkspace_listed : Listed pointedWorkspace "src" "src/q.S.java" := by
  rw [listed_iff_mem]
  decide +kernel

theorem pointedWorkspace_reader :
    pointedWorkspace.reader "src/q.S.java" = .text referringSource := by
  decide +kernel

theorem pointedWorkspace_target :
    ∃ report unit oracle target,
      projectReport pointedWorkspace .asStarted "src" = .ok report ∧
      SourceUnit.parse? referringSource = some unit ∧
      projectOracle pointedWorkspace "src" = .ok oracle ∧
      unit.StandsFor (KnownIn pointedWorkspace "src" "S") "S" "S" target ∧
      Extraction.proposal? (Scope.ofUnit unit) oracle .field (.reference "S" 1 "S") =
        some ⟨.field, target, "field S", 1⟩ ∧
      (Exclusion.excludes target unit.className = false →
        Extraction.extract oracle unit ∈ report.classReports ∧
          ⟨unit.className, target, .field, "field S", 1⟩ ∈
            (Extraction.extract oracle unit).dependencies) := by
  obtain ⟨report, hreport⟩ := exists_pointedReport
  obtain ⟨unit, hparse, hreference, hlocal, himports, -, -⟩ := exists_referringUnit
  obtain ⟨oracle, target, htarget⟩ := reference_target hreport pointedWorkspace_listed
    pointedWorkspace_reader hparse hreference rfl (by decide) hlocal himports
  exact ⟨report, unit, oracle, target, hreport, hparse, htarget⟩

/-- A type inside a package is filed in a project: the platform has it, or a source is filed under both. -/
def FiledIn (workspace : Workspace) (root simple : String) (package : Option String) : Prop :=
  SourceUnit.qualify package simple ∈ Oracle.platformTypes ∨
    SourceIndex.FiledUnder workspace.tree workspace.extension root package simple

/-- Where no stem has a point, it makes no difference whether names or stems and packages are looked for. -/
theorem standsFor_knownIn_iff_filedIn {unit : SourceUnit} {simple written target : String}
    (hstems : ∀ package stem,
      SourceIndex.FiledUnder workspace.tree workspace.extension root package stem → '.' ∉ stem.toList)
    (hsimple : '.' ∉ simple.toList) :
    unit.StandsFor (KnownIn workspace root simple) simple written target ↔
      unit.StandsFor (FiledIn workspace root simple) simple written target := by
  have hsame : KnownIn workspace root simple = FiledIn workspace root simple := by
    funext package
    exact propext (or_congr_right (SourceIndex.provides_qualify_iff hstems hsimple))
  rw [hsame]

theorem pointedWorkspace_not_filed {package : Option String}
    (hplatform : SourceUnit.qualify package "S" ∉ Oracle.platformTypes) :
    ¬ FiledIn pointedWorkspace "src" "S" package := by
  intro h
  rcases h with hknown | ⟨found, hfound, path, hpath, source, hstem, -, -⟩
  · exact hplatform hknown
  · have hlisting : (Discovery.sources pointedWorkspace.tree pointedWorkspace.extension "src").toOption =
        some ["src/q.S.java"] := by
      decide +kernel
    rw [hfound] at hlisting
    cases hlisting
    cases List.mem_singleton.1 hpath
    exact absurd hstem (by decide)

/-- It does not suffice to look for stems and packages: the file `q.S.java` lets `S` stand for `q.S`. -/
theorem pointed_stem_makes_up_name :
    ¬ ∀ (workspace : Workspace) (order : CompletionOrder) (root : String) (report : ProjectReport)
      (path source : String) (unit : SourceUnit) (kind : DependencyKind) (type : WrittenType)
      (written simple : String) (line : Line),
      projectReport workspace order root = .ok report → Listed workspace root path →
      workspace.reader path = .text source → SourceUnit.parse? source = some unit →
      (kind, type) ∈ unit.references → type.element = .reference written line simple →
      Name.IsIdentifier simple → simple ∉ unit.typeNames →
      (∀ item ∈ unit.imports, item.isStatic = false → item.isWildcard = false →
        Name.lastSegment item.name ≠ simple) →
      ∃ oracle target, projectOracle workspace root = .ok oracle ∧
        unit.StandsFor (FiledIn workspace root simple) simple written target ∧
        Extraction.proposal? (Scope.ofUnit unit) oracle kind type =
          some ⟨kind, target, kind.lead ++ " " ++ type.written, type.line⟩ := by
  intro h
  obtain ⟨report, hreport⟩ := exists_pointedReport
  obtain ⟨unit, hparse, hreference, hlocal, himports, hpackages, hpackage⟩ := exists_referringUnit
  obtain ⟨oracle, target, horacle, hstands, hproposal⟩ := h _ _ _ _ _ _ _ _ _ _ _ _ hreport
    pointedWorkspace_listed pointedWorkspace_reader hparse hreference rfl (by decide) hlocal himports
  have htarget : target ≠ "q.S" := by
    cases hstands with
    | samePackage hsame =>
      rw [hpackage]
      decide
    | wildcard hsame hsplit hbefore hknown =>
      have hmem := hpackages ▸ hsplit ▸ List.mem_append_right _ List.mem_cons_self
      cases List.mem_singleton.1 hmem
      exact absurd hknown (pointedWorkspace_not_filed (by decide +kernel))
    | javaLang hsame hnone hlang => decide
    | unknown hsame hnone hlang => decide
  have hcode : ((projectOracle pointedWorkspace "src").toOption.bind fun oracle =>
      (SourceUnit.parse? referringSource).bind fun unit =>
        Extraction.proposal? (Scope.ofUnit unit) oracle .field (.reference "S" 1 "S")) =
          some ⟨.field, "q.S", "field S", 1⟩ := by
    decide +kernel
  rw [horacle, hparse] at hcode
  have hsame := hproposal.symm.trans hcode
  cases hsame
  exact htarget rfl

end Analysis

end JavaAtlas

import Mathlib.Data.List.Nodup
import JavaAtlas.Proofs.Analysis.Contents
import JavaAtlas.Proofs.Discovery.Coverage
import JavaAtlas.Proofs.Discovery.Revision
import JavaAtlas.Proofs.SourceIndex

/-!
# Reports on a revised project

What a project report says about one source depends on that source and on the oracle of the project, and the oracle
knows of each source only its path and the package that its header names. So if one source is revised under the same
header, all other class reports stay what they are and where they are. The argument goes along the analysis: a
project report is the sequence of what is kept of its listed sources, the listing is the same for both texts, so is
the oracle, and a path other than that of the revised source reads the same text.
-/

namespace JavaAtlas

namespace Analysis

open Steps Discovery

variable {workspace : Workspace} {order : CompletionOrder} {oracle : Oracle} {root directory path : String}
  {base : Place} {entries : List (String × Entry)}

/-! ### Class reports in sequence -/

/-- The report on a source as a package keeps it: without dependencies there is none. -/
def kept? (workspace : Workspace) (oracle : Oracle) (path : String) : Option ClassReport :=
  (classTask workspace oracle path).result.toOption.filter fun report => !report.isEmpty

theorem classReports_of_package {report : PackageReport}
    (h : packageReportInTurn workspace oracle directory = .ok report) :
    report.classReports =
      ((directSources workspace.tree workspace.extension directory).toOption.getD []).filterMap
        (kept? workspace oracle) := by
  simp only [packageReportInTurn, bind_eq_ok_iff, pure_eq_ok_iff] at h
  obtain ⟨sources, hsources, reports, hreports, rfl⟩ := h
  rw [hsources]
  exact filter_of_mapM_eq_ok hreports fun report => !report.isEmpty

theorem flatMap_filter_isEmpty (reports : List PackageReport) :
    (reports.filter fun report => !report.isEmpty).flatMap PackageReport.classReports =
      reports.flatMap PackageReport.classReports := by
  induction reports with
  | nil => rfl
  | cons report rest ih =>
    rw [List.filter_cons, List.flatMap_cons, ← ih]
    split
    · rfl
    · next hempty =>
      have hnone : report.classReports = [] := by simpa [PackageReport.isEmpty] using hempty
      rw [hnone, List.nil_append]

/-- **The class reports of a project are what is kept of its listed sources, one after the other.** -/
theorem classReports_eq {report : ProjectReport} (hreport : projectReport workspace order root = .ok report)
    (horacle : projectOracle workspace root = .ok oracle) :
    report.classReports = (listedPaths workspace root).filterMap (kept? workspace oracle) := by
  have hturn := projectReport_eq_ok_iff.1 hreport
  simp only [projectReportInTurn, bind_eq_ok_iff, pure_eq_ok_iff] at hturn
  obtain ⟨directories, hdirectories, found, hfound, reports, hreports, rfl⟩ := hturn
  cases horacle.symm.trans hfound
  rw [ProjectReport.classReports, flatMap_filter_isEmpty, listedPaths, hdirectories, List.filterMap_flatMap]
  exact flatMap_of_mapM_eq_ok hreports fun _ _ => classReports_of_package

/-! ### Each source is listed once -/

theorem nodup_directSources (h : workspace.tree.LeadsTo directory base (.directory entries)) :
    ((directSources workspace.tree workspace.extension directory).toOption.getD []).Nodup := by
  rw [directSources_eq h]
  refine List.Pairwise.filter _ (List.Nodup.map_on ?_ (nodup_sortedNames h.wellFormed))
  intro name hname other hother hjoin
  obtain ⟨_, hmem⟩ := mem_sortedNames.1 hname
  obtain ⟨_, hmem'⟩ := mem_sortedNames.1 hother
  have hfile := congrArg Path.fileName? hjoin
  rw [FileTree.fileName?_join h.ne_empty (Entry.isName_of_mem h.wellFormed hmem),
    FileTree.fileName?_join h.ne_empty (Entry.isName_of_mem h.wellFormed hmem')] at hfile
  exact Option.some.inj hfile

theorem nodup_listedPaths (h : workspace.tree.LeadsTo root base (.directory entries)) :
    (listedPaths workspace root).Nodup := by
  obtain ⟨directories, hdirectories⟩ :
      ∃ directories, packageDirectories workspace.tree workspace.extension root = .ok directories :=
    ⟨_, packageDirectories_eq h⟩
  rw [listedPaths, hdirectories]
  refine List.nodup_flatMap.2 ⟨?_, ?_⟩
  · intro directory hdirectory
    obtain ⟨-, place, below, hplace, -, rfl⟩ := (mem_packageDirectories_iff h hdirectories).1 hdirectory
    exact nodup_directSources (leadsTo_joinAll h hplace rfl)
  · refine (nodup_packageDirectories h hdirectories).imp_of_mem fun {first second} hfirst hsecond hne => ?_
    intro path hpath hpath'
    obtain ⟨-, place, below, hplace, -, rfl⟩ := (mem_packageDirectories_iff h hdirectories).1 hfirst
    obtain ⟨-, other, beside, hother, -, rfl⟩ := (mem_packageDirectories_iff h hdirectories).1 hsecond
    apply hne
    rw [place_unique h hplace hother (directlyIn_iff_mem.2 hpath) (directlyIn_iff_mem.2 hpath')]

/-! ### Two texts of one source -/

section Revised

variable {left right : FileTree} {revised : Place} {ours theirs : List (String × Entry)} {source source' : String}
  {settings : Settings}

/-- A listed source stands at some place of the project, which its path tells. -/
theorem exists_place_of_listed (h : Revision left right root revised ours theirs)
    (hpath : path ∈ listedPaths (.ofTree left settings) root) :
    ∃ place text?, (Entry.directory ours).at? place = some (.file text?) ∧ joinAll root place = path := by
  obtain ⟨base, hleads⟩ := h.leadsTo_left
  obtain ⟨directories, hdirectories, directory, hdirectory, hin⟩ := listed_iff_mem.2 hpath
  obtain ⟨-, place, below, hplace, -, rfl⟩ := (mem_packageDirectories_iff hleads hdirectories).1 hdirectory
  have hdirectory := leadsTo_joinAll hleads hplace rfl
  obtain ⟨hsource, name, entry, hmem, rfl⟩ := (directlyIn_iff hdirectory).1 hin
  have hentry := Entry.at?_concat hdirectory.wellFormed hplace hmem
  rw [h.isSource_join hplace hmem, Bool.and_eq_true] at hsource
  cases entry with
  | file text? => exact ⟨place ++ [name], text?, hentry, joinAll_concat root place name⟩
  | directory inner => cases hsource.1
  | link target => cases hsource.1

theorem listedPaths_revised (h : Revision left right root revised ours theirs) :
    listedPaths (.ofTree left settings) root = listedPaths (.ofTree right settings) root := by
  obtain ⟨base, hleads⟩ := h.leadsTo_left
  obtain ⟨directories, hdirectories⟩ :
      ∃ directories, packageDirectories left settings.sourceExtension root = .ok directories :=
    ⟨_, packageDirectories_eq hleads⟩
  have hsame : packageDirectories right settings.sourceExtension root = .ok directories :=
    h.packageDirectories_eq.symm.trans hdirectories
  simp only [listedPaths, Workspace.ofTree, Workspace.extension, hdirectories, hsame]
  refine List.flatMap_congr fun directory hdirectory => ?_
  obtain ⟨-, place, below, hplace, -, rfl⟩ := (mem_packageDirectories_iff hleads hdirectories).1 hdirectory
  rw [h.directSources_eq hplace]

theorem reader_revised (h : Revision left right root revised ours theirs) {place : Place} {text? : Option String}
    (hplace : place ≠ revised) (hfile : (Entry.directory ours).at? place = some (.file text?)) :
    Reader.ofTree left (joinAll root place) = Reader.ofTree right (joinAll root place) := by
  obtain ⟨_, hleft⟩ := h.leadsTo_left
  obtain ⟨_, hright⟩ := h.leadsTo_right
  have hother := h.alike.at?_file hplace hfile
  rw [Reader.ofTree, Reader.ofTree, (leadsTo_joinAll hleft hfile rfl).entryAt?_eq,
    (leadsTo_joinAll hright hother rfl).entryAt?_eq]

theorem kept?_revised (h : Revision left right root revised ours theirs)
    (hpath : path ∈ listedPaths (.ofTree left settings) root) (hother : path ≠ joinAll root revised) :
    kept? (.ofTree left settings) oracle path = kept? (.ofTree right settings) oracle path := by
  obtain ⟨place, text?, hfile, rfl⟩ := exists_place_of_listed h hpath
  have hplace : place ≠ revised := fun hsame => hother (congrArg (joinAll root) hsame)
  have hreader := reader_revised h hplace hfile
  simp only [kept?, classTask, Workspace.ofTree, hreader]

/-- An index does not tell two texts apart if their headers name the same package. -/
theorem typeAt?_revised (h : Revision left right root revised ours theirs) {extension : String} {found : List String}
    (hsource : left.text? (joinAll root revised) = some source)
    (hsource' : right.text? (joinAll root revised) = some source')
    (hheader : Header.package? source = Header.package? source')
    (hfound : sources left extension root = .ok found) (hpath : path ∈ found) :
    SourceIndex.typeAt? left path = SourceIndex.typeAt? right path := by
  obtain ⟨_, hleft⟩ := h.leadsTo_left
  obtain ⟨_, hright⟩ := h.leadsTo_right
  obtain ⟨place, entry, hentry, hkind, rfl⟩ := (mem_sources_iff hleft hfound).1 hpath
  by_cases hplace : place = revised
  · subst hplace
    simp only [SourceIndex.typeAt?, hsource, hsource', Option.bind_eq_bind, Option.bind_some, hheader]
  · cases entry with
    | file text? =>
      simp only [SourceIndex.typeAt?, text?_joinAll hleft hentry,
        text?_joinAll hright (h.alike.at?_file hplace hentry)]
    | directory inner => cases hkind
    | link target => cases hkind

theorem projectOracle_revised (h : Revision left right root revised ours theirs)
    (hsource : left.text? (joinAll root revised) = some source)
    (hsource' : right.text? (joinAll root revised) = some source')
    (hheader : Header.package? source = Header.package? source') :
    projectOracle (.ofTree left settings) root = projectOracle (.ofTree right settings) root := by
  have hsources : sources left settings.sourceExtension root = sources right settings.sourceExtension root :=
    h.sources_eq
  simp only [projectOracle, SourceIndex.ofRoot, Workspace.ofTree, Workspace.extension, ← hsources]
  cases hfound : sources left settings.sourceExtension root with
  | error failure => rfl
  | ok found =>
    have htypes : found.filterMap (SourceIndex.typeAt? left) = found.filterMap (SourceIndex.typeAt? right) :=
      List.filterMap_congr fun path hpath => typeAt?_revised h hsource hsource' hheader hfound hpath
    show Except.ok _ = Except.ok _
    rw [htypes]

theorem filterMap_cons_eq_append {α β : Type} (pick : α → Option β) (first : α) (rest : List α) :
    (first :: rest).filterMap pick = (pick first).toList ++ rest.filterMap pick := by
  rw [List.filterMap_cons]
  cases pick first <;> rfl

/-- Two picks from a list without repetitions that agree but on one member differ in what they make of it. -/
theorem filterMap_agreeing_but {α β : Type} [DecidableEq α] {pick pick' : α → Option β} {special : α}
    {members : List α} (hnodup : members.Nodup)
    (hagree : ∀ member ∈ members, member ≠ special → pick member = pick' member) :
    ∃ before after,
      members.filterMap pick = before ++ (if special ∈ members then (pick special).toList else []) ++ after ∧
      members.filterMap pick' = before ++ (if special ∈ members then (pick' special).toList else []) ++ after := by
  induction members with
  | nil => exact ⟨[], [], rfl, rfl⟩
  | cons first rest ih =>
    obtain ⟨hfirst, hrest⟩ := List.nodup_cons.1 hnodup
    obtain ⟨hsame, hothers⟩ := List.forall_mem_cons.1 hagree
    rw [filterMap_cons_eq_append, filterMap_cons_eq_append]
    by_cases hspecial : first = special
    · subst hspecial
      have hafter : rest.filterMap pick' = rest.filterMap pick :=
        List.filterMap_congr fun member hmem => (hothers member hmem fun h => hfirst (h ▸ hmem)).symm
      refine ⟨[], rest.filterMap pick, ?_, ?_⟩
      · rw [if_pos List.mem_cons_self, List.nil_append]
      · rw [if_pos List.mem_cons_self, List.nil_append, hafter]
    · obtain ⟨before, after, hpick, hpick'⟩ := ih hrest hothers
      have hmem : special ∈ first :: rest ↔ special ∈ rest := by
        rw [List.mem_cons, or_iff_right (Ne.symm hspecial)]
      refine ⟨(pick first).toList ++ before, after, ?_, ?_⟩
      · rw [hpick]
        simp only [hmem, List.append_assoc]
      · rw [hpick', ← hsame hspecial]
        simp only [hmem, List.append_assoc]

/-- What a project report holds of one source: what is kept of it if it is listed. -/
def ownReports (workspace : Workspace) (oracle : Oracle) (root path : String) : List ClassReport :=
  if path ∈ listedPaths workspace root then (kept? workspace oracle path).toList else []

/-- **The text of one source matters only to the report on it.** If its header names the same package in two projects
that are free of links and otherwise the same, then the project reports hold the same class reports in the same order
before and after what they hold of this source, whatever the orders of completion. -/
theorem classReports_revised {left right : FileTree} {root : String} {revised : Place}
    {ours theirs : List (String × Entry)} (h : Revision left right root revised ours theirs)
    {source source' : String} (hsource : left.text? (joinAll root revised) = some source)
    (hsource' : right.text? (joinAll root revised) = some source')
    (hheader : Header.package? source = Header.package? source')
    {settings : Settings} {order order' : CompletionOrder} {report report' : ProjectReport}
    (hreport : projectReport (.ofTree left settings) order root = .ok report)
    (hreport' : projectReport (.ofTree right settings) order' root = .ok report') :
    ∃ oracle before after,
      projectOracle (.ofTree left settings) root = .ok oracle ∧
      projectOracle (.ofTree right settings) root = .ok oracle ∧
      report.classReports =
        before ++ ownReports (.ofTree left settings) oracle root (joinAll root revised) ++ after ∧
      report'.classReports =
        before ++ ownReports (.ofTree right settings) oracle root (joinAll root revised) ++ after := by
  obtain ⟨_, hleft⟩ := h.leadsTo_left
  obtain ⟨oracle, horacle⟩ : ∃ oracle, projectOracle (.ofTree left settings) root = .ok oracle :=
    exists_projectOracle (FileTree.isDirectory_iff.2 ⟨ours, h.leftRoot⟩)
  have horacle' := (projectOracle_revised h hsource hsource' hheader).symm.trans horacle
  have hlisted : listedPaths (.ofTree left settings) root = listedPaths (.ofTree right settings) root :=
    listedPaths_revised h
  have hnodup : (listedPaths (.ofTree left settings) root).Nodup := nodup_listedPaths hleft
  have hkept : ∀ path ∈ listedPaths (.ofTree left settings) root, path ≠ joinAll root revised →
      kept? (.ofTree left settings) oracle path = kept? (.ofTree right settings) oracle path :=
    fun path hpath hother => kept?_revised h hpath hother
  obtain ⟨before, after, hbefore, hafter⟩ := filterMap_agreeing_but hnodup hkept
  refine ⟨oracle, before, after, horacle, horacle', ?_, ?_⟩
  · rw [classReports_eq hreport horacle]
    exact hbefore
  · rw [classReports_eq hreport' horacle', ownReports, ← hlisted]
    exact hafter

end Revised

/-- The sources `A.java`, with a fixed text, and `B.java`, with a given one. -/
def pairEntries (second : String) : List (String × Entry) :=
  [("A.java", .file (some "class A extends B \x7b C next; \x7d")), ("B.java", .file (some second))]

def pairTree (second : String) : FileTree where
  root := .directory [("src", .directory (pairEntries second))]
  working := []
  wellFormed :=
    ⟨by decide, by simp, ⟨by decide, by simp, trivial, by decide, by simp, trivial, trivial⟩, trivial⟩

theorem pairTree_leadsTo (second : String) :
    (pairTree second).LeadsTo "src" ["src"] (.directory (pairEntries second)) :=
  ⟨rfl, rfl⟩

theorem walk_pairEntries (second : String) :
    (Entry.directory (pairEntries second)).walk =
      [([], .directory (pairEntries second)),
        (["A.java"], .file (some "class A extends B \x7b C next; \x7d")), (["B.java"], .file (some second))] := by
  have hsorted : (Entry.walkEach (pairEntries second)).Pairwise fun first other =>
      decide (first.1 ≤ other.1) = true := by
    simp only [pairEntries, Entry.walkEach, List.pairwise_pair]
    exact (by decide : decide ("A.java" ≤ "B.java") = true)
  rw [Entry.walk_directory, Entry.sortedWalks, List.mergeSort_of_pairwise hsorted]
  rfl

theorem pairTree_revision (second other : String) :
    Revision (pairTree second) (pairTree other) "src" ["B.java"] (pairEntries second) (pairEntries other) where
  leftRoot := rfl
  rightRoot := rfl
  linked := rfl
  alike := by
    apply (Entry.alikeBut_iff (pairTree_leadsTo second).wellFormed (pairTree_leadsTo other).wellFormed).2
    rw [walk_pairEntries, walk_pairEntries]
    rfl
  linkFree := by
    apply (Entry.linkFree_iff (pairTree_leadsTo second).wellFormed).2
    rw [walk_pairEntries]
    simp [Entry.isLink]

/-- A report on the two sources takes no more than that the second is well formed. -/
theorem exists_pairReport (second : String) (hsecond : (SourceUnit.parse? second).isSome = true) :
    ∃ report, projectReport (.ofTree (pairTree second) {}) .asStarted "src" = .ok report := by
  apply exists_projectReport .asStarted rfl
  intro path hpath
  obtain ⟨place, text?, hfile, rfl⟩ := exists_place_of_listed (pairTree_revision second second) hpath
  have hmem := (Entry.mem_walk_iff (pairTree_leadsTo second).wellFormed).2 hfile
  rw [walk_pairEntries] at hmem
  simp only [List.mem_cons, Prod.mk.injEq, reduceCtorEq, and_false, false_or, List.not_mem_nil, or_false,
    Entry.file.injEq] at hmem
  obtain ⟨rfl, rfl⟩ | ⟨rfl, rfl⟩ := hmem
  · show (SourceUnit.parse? "class A extends B \x7b C next; \x7d").isSome = true
    decide +kernel
  · exact hsecond

theorem pairTree_reports :
    ∃ oracle before after report report',
      projectReport (.ofTree (pairTree "class B \x7b C next; \x7d") {}) .asStarted "src" = .ok report ∧
      projectReport (.ofTree (pairTree "interface B \x7b \x7d") {}) .asStarted "src" = .ok report' ∧
      report.classReports = before ++ ownReports (.ofTree (pairTree "class B \x7b C next; \x7d") {}) oracle "src"
        "src/B.java" ++ after ∧
      report'.classReports = before ++ ownReports (.ofTree (pairTree "interface B \x7b \x7d") {}) oracle "src"
        "src/B.java" ++ after := by
  obtain ⟨report, hreport⟩ := exists_pairReport "class B \x7b C next; \x7d" (by decide +kernel)
  obtain ⟨report', hreport'⟩ := exists_pairReport "interface B \x7b \x7d" (by decide +kernel)
  obtain ⟨oracle, before, after, -, -, hbefore, hafter⟩ :=
    classReports_revised (pairTree_revision _ _) rfl rfl (by decide +kernel) hreport hreport'
  exact ⟨oracle, before, after, report, report', hreport, hreport', hbefore, hafter⟩

end Analysis

end JavaAtlas

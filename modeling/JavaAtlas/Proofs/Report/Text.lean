import JavaAtlas.Proofs.Dependency
import JavaAtlas.Proofs.Text.Parts
import JavaAtlas.Report

/-!
# The text of a report tells its outline

The text of a report has no lengths, no quotes and no closing marks, and the reports inside it are parted by blank
lines only. Still two reports with one text have one outline: the same names at every level, and for every class
the same kinds and targets, if no name and no target has a line feed in it. A text falls into lines, every line
says by its opening what it is, and reading the lines from the last to the first gives the outline back: entries
are kept until the line of their class comes, classes until that of their package, packages until that of the
project. Blank lines are not needed for this, and so an empty class or package cannot be mistaken for another.
-/

namespace JavaAtlas

/-! ### Outlines -/

/-- What the text of a report tells about a class: its name, and the kinds and targets of its dependencies in the
order in which they are shown. -/
structure ClassOutline where
  className : String
  entries : List (DependencyKind × String)
deriving DecidableEq

structure PackageOutline where
  packageName : String
  classes : List ClassOutline
deriving DecidableEq

structure ProjectOutline where
  projectName : String
  packages : List PackageOutline
deriving DecidableEq

namespace ClassReport

def outline (report : ClassReport) : ClassOutline :=
  ⟨report.className, report.dependencies.toList.map fun dependency => (dependency.kind, dependency.target)⟩

/-- No line feed stands in the name of a class or in a target. -/
def LineFeedFree (report : ClassReport) : Prop :=
  '\n' ∉ report.className.toList ∧ ∀ dependency ∈ report.dependencies, '\n' ∉ dependency.target.toList

instance (report : ClassReport) : Decidable report.LineFeedFree :=
  inferInstanceAs (Decidable ('\n' ∉ report.className.toList ∧
    ∀ dependency ∈ report.dependencies.toList, '\n' ∉ dependency.target.toList))

end ClassReport

namespace PackageReport

def outline (report : PackageReport) : PackageOutline :=
  ⟨report.packageName, report.classReports.map ClassReport.outline⟩

def LineFeedFree (report : PackageReport) : Prop :=
  '\n' ∉ report.packageName.toList ∧ ∀ entry ∈ report.classReports, entry.LineFeedFree

instance (report : PackageReport) : Decidable report.LineFeedFree :=
  inferInstanceAs (Decidable ('\n' ∉ report.packageName.toList ∧ ∀ entry ∈ report.classReports, entry.LineFeedFree))

end PackageReport

namespace ProjectReport

def outline (report : ProjectReport) : ProjectOutline :=
  ⟨report.projectName, report.packageReports.map PackageReport.outline⟩

def LineFeedFree (report : ProjectReport) : Prop :=
  '\n' ∉ report.projectName.toList ∧ ∀ package ∈ report.packageReports, package.LineFeedFree

instance (report : ProjectReport) : Decidable report.LineFeedFree :=
  inferInstanceAs (Decidable ('\n' ∉ report.projectName.toList ∧
    ∀ package ∈ report.packageReports, package.LineFeedFree))

end ProjectReport

/-! ### Lines -/

inductive ReportLine where
  | project (name : String)
  | package (name : String)
  | type (name : String)
  | heading
  | entry (kind : DependencyKind) (target : String)
  | blank

namespace ReportLine

def chars : ReportLine → List Char
  | project name => "Project: ".toList ++ name.toList
  | package name => "Package: ".toList ++ name.toList
  | type name => "Class: ".toList ++ name.toList
  | heading => "Dependencies:".toList
  | entry kind target => "  - ".toList ++ (kind.label.toList ++ ':' :: ' ' :: target.toList)
  | blank => []

/-- Is it the line of a dependency? -/
def isEntry : ReportLine → Bool
  | entry _ _ => true
  | _ => false

theorem colon_not_mem_label (kind : DependencyKind) : ':' ∉ kind.label.toList := by
  cases kind <;> decide

/-- The first two characters of a line, which its kind decides. -/
def mark : ReportLine → List Char
  | project _ => ['P', 'r']
  | package _ => ['P', 'a']
  | type _ => ['C', 'l']
  | heading => ['D', 'e']
  | entry _ _ => [' ', ' ']
  | blank => []

theorem take_chars (line : ReportLine) : line.chars.take 2 = line.mark := by
  cases line <;> rfl

/-- **A line says what it is.** -/
theorem chars_injective {a b : ReportLine} (h : a.chars = b.chars) : a = b := by
  have hmark : a.mark = b.mark := by rw [← take_chars, ← take_chars, h]
  cases a with
  | project name =>
    cases b with
    | project other => rw [String.toList_injective (List.append_cancel_left h)]
    | _ => simp [mark] at hmark
  | package name =>
    cases b with
    | package other => rw [String.toList_injective (List.append_cancel_left h)]
    | _ => simp [mark] at hmark
  | type name =>
    cases b with
    | type other => rw [String.toList_injective (List.append_cancel_left h)]
    | _ => simp [mark] at hmark
  | heading =>
    cases b with
    | heading => rfl
    | _ => simp [mark] at hmark
  | entry kind target =>
    cases b with
    | entry other seen =>
      -- No label holds the colon that ends it.
      have hsplit := congrArg (List.splitOn ':') (List.append_cancel_left h)
      rw [List.splitOn_append_cons_self_of_not_mem (colon_not_mem_label kind),
        List.splitOn_append_cons_self_of_not_mem (colon_not_mem_label other)] at hsplit
      obtain rfl := DependencyKind.label_injective (String.toList_injective (List.cons.inj hsplit).1)
      have hrest := List.append_cancel_left (List.append_cancel_left h)
      rw [String.toList_injective (List.cons.inj (List.cons.inj hrest).2).2]
    | _ => simp [mark] at hmark
  | blank =>
    cases b with
    | blank => rfl
    | _ => simp [mark] at hmark

theorem isPrefixOf_chars (line : ReportLine) : "  - ".toList.isPrefixOf line.chars = line.isEntry := by
  cases line <;> rfl

def unlined (lines : List ReportLine) : List Char :=
  lines.flatMap fun line => line.chars ++ ['\n']

/-- Lines without line feeds are found again by cutting their text at the line feeds. -/
theorem splitOn_unlined {lines : List ReportLine} (h : ∀ line ∈ lines, '\n' ∉ line.chars) :
    (unlined lines).splitOn '\n' = lines.map chars ++ [[]] := by
  have hended := Text.splitOn_ended (List.forall_mem_map.2 h) []
  rwa [List.flatMap_map, List.append_nil] at hended

theorem unlined_injective {lines others : List ReportLine} (hlines : ∀ line ∈ lines, '\n' ∉ line.chars)
    (hothers : ∀ line ∈ others, '\n' ∉ line.chars) (h : unlined lines = unlined others) :
    lines = others := by
  have hsplit := congrArg (List.splitOn '\n') h
  rw [splitOn_unlined hlines, splitOn_unlined hothers] at hsplit
  exact (List.map_inj_right fun _ _ => chars_injective).1 (List.append_cancel_right hsplit)

end ReportLine

open ReportLine

/-- The lines of some parts, with a blank line between two of them. -/
def parted (parts : List (List ReportLine)) : List ReportLine :=
  [blank].intercalate parts

@[simp] theorem parted_singleton (part : List ReportLine) : parted [part] = part :=
  List.intercalate_singleton

@[simp] theorem parted_cons_cons (part next : List ReportLine) (rest : List (List ReportLine)) :
    parted (part :: next :: rest) = part ++ blank :: parted (next :: rest) := by
  rw [parted, List.intercalate_cons_cons, List.append_assoc, List.singleton_append, parted]

namespace ClassOutline

def lines (outline : ClassOutline) : List ReportLine :=
  .type outline.className :: .heading :: outline.entries.map fun pair => .entry pair.1 pair.2

end ClassOutline

namespace PackageOutline

def lines (outline : PackageOutline) : List ReportLine :=
  .package outline.packageName :: parted (outline.classes.map ClassOutline.lines)

end PackageOutline

namespace ProjectOutline

def lines (outline : ProjectOutline) : List ReportLine :=
  .project outline.projectName :: parted (outline.packages.map PackageOutline.lines)

end ProjectOutline

/-! ### Texts are made of these lines -/

theorem unlined_parted (parts : List (List ReportLine)) :
    unlined (parted parts) = ['\n'].intercalate (parts.map unlined) := by
  induction parts with
  | nil => rfl
  | cons part rest ih =>
    cases rest with
    | nil => rw [parted_singleton, List.map_singleton, List.intercalate_singleton]
    | cons next rest =>
      rw [List.map_cons, List.map_cons, List.intercalate_cons_cons, ← List.map_cons, ← ih, parted_cons_cons,
        unlined, List.flatMap_append, List.flatMap_cons]
      exact (List.append_assoc _ _ _).symm

/-- Texts with blank lines between them are lines with blank lines between them. -/
theorem toList_intercalate_texts {α : Type} {text : α → String} {lines : α → List ReportLine} (items : List α)
    (h : ∀ item, (text item).toList = unlined (lines item)) :
    ("\n".intercalate (items.map text)).toList = unlined (parted (items.map lines)) := by
  have hline : "\n".toList = ['\n'] := rfl
  rw [String.toList_intercalate, unlined_parted, List.map_map, List.map_map, hline]
  exact congrArg (['\n'].intercalate <| items.map ·) (funext h)

namespace ClassReport

theorem toList_dependencyLine (dependency : Dependency) : (dependencyLine dependency).toList =
    (ReportLine.entry dependency.kind dependency.target).chars ++ ['\n'] := by
  have hcolon : ": ".toList = [':', ' '] := rfl
  have hline : "\n".toList = ['\n'] := rfl
  show _ = ("  - ".toList ++ (dependency.kind.label.toList ++ ':' :: ' ' :: dependency.target.toList)) ++ ['\n']
  simp only [dependencyLine, toString, String.toList_append, hcolon, hline, List.append_assoc, List.cons_append,
    List.nil_append]

theorem toList_text (report : ClassReport) : report.text.toList = unlined report.outline.lines := by
  have hheading : "\nDependencies:\n".toList = '\n' :: ("Dependencies:".toList ++ ['\n']) := rfl
  have hentries : (String.join (report.dependencies.toList.map dependencyLine)).toList =
      unlined (report.outline.entries.map fun pair => .entry pair.1 pair.2) := by
    rw [String.toList_join, outline, unlined, List.flatMap_map, List.flatMap_map, List.flatMap_map]
    exact congrArg (report.dependencies.toList.flatMap ·) (funext toList_dependencyLine)
  show _ = ("Class: ".toList ++ report.className.toList ++ ['\n']) ++ (("Dependencies:".toList ++ ['\n']) ++
    unlined (report.outline.entries.map fun pair => .entry pair.1 pair.2))
  simp only [text, textOf, toString, String.toList_append, hentries, hheading, List.append_assoc, List.cons_append,
    List.nil_append]

end ClassReport

theorem PackageReport.toList_text (report : PackageReport) : report.text.toList = unlined report.outline.lines := by
  have hline : "\n".toList = ['\n'] := rfl
  have hparts := toList_intercalate_texts report.classReports ClassReport.toList_text
  rw [PackageOutline.lines, outline, List.map_map]
  show _ = ("Package: ".toList ++ report.packageName.toList ++ ['\n']) ++ unlined _
  simp only [text, textOf, toString, String.toList_append, hparts, hline]
  rfl

theorem ProjectReport.toList_text (report : ProjectReport) : report.text.toList = unlined report.outline.lines := by
  have hline : "\n".toList = ['\n'] := rfl
  have hparts := toList_intercalate_texts report.packageReports PackageReport.toList_text
  rw [ProjectOutline.lines, outline, List.map_map]
  show _ = ("Project: ".toList ++ report.projectName.toList ++ ['\n']) ++ unlined _
  simp only [text, textOf, toString, String.toList_append, hparts, hline]
  rfl

/-! ### Lines have no line feeds -/

theorem mem_parted {line : ReportLine} {parts : List (List ReportLine)} (h : line ∈ parted parts) :
    line = blank ∨ ∃ part ∈ parts, line ∈ part := by
  induction parts with
  | nil => exact absurd h List.not_mem_nil
  | cons part rest ih =>
    cases rest with
    | nil =>
      rw [parted_singleton] at h
      exact .inr ⟨part, List.mem_singleton_self part, h⟩
    | cons next rest =>
      rw [parted_cons_cons, List.mem_append, List.mem_cons] at h
      obtain h | h | h := h
      · exact .inr ⟨part, List.mem_cons_self, h⟩
      · exact .inl h
      · exact (ih h).imp_right fun ⟨inner, hmem, hline⟩ => ⟨inner, List.mem_cons_of_mem _ hmem, hline⟩

theorem lineFeed_not_mem_parted {parts : List (List ReportLine)}
    (h : ∀ part ∈ parts, ∀ line ∈ part, '\n' ∉ line.chars) : ∀ line ∈ parted parts, '\n' ∉ line.chars := by
  intro line hline
  obtain rfl | ⟨part, hpart, hmem⟩ := mem_parted hline
  · exact List.not_mem_nil
  · exact h part hpart line hmem

namespace ReportLine

theorem lineFeed_not_mem_label (kind : DependencyKind) : '\n' ∉ kind.label.toList := by
  cases kind <;> decide

theorem lineFeed_not_mem_entry {kind : DependencyKind} {target : String} (h : '\n' ∉ target.toList) :
    '\n' ∉ (entry kind target).chars := by
  have hmark : '\n' ∉ "  - ".toList := by decide
  intro hmem
  obtain hmem | hmem := List.mem_append.1 hmem
  · exact hmark hmem
  · obtain hmem | hmem := List.mem_append.1 hmem
    · exact lineFeed_not_mem_label kind hmem
    · simp [h] at hmem

/-- The first lines of the three reports have a line feed only if the name in them has one. -/
theorem lineFeed_not_mem_named {name : String} (h : '\n' ∉ name.toList) :
    '\n' ∉ (project name).chars ∧ '\n' ∉ (package name).chars ∧ '\n' ∉ (type name).chars := by
  have hproject : '\n' ∉ "Project: ".toList := by decide
  have hpackage : '\n' ∉ "Package: ".toList := by decide
  have htype : '\n' ∉ "Class: ".toList := by decide
  exact ⟨List.not_mem_append hproject h, List.not_mem_append hpackage h, List.not_mem_append htype h⟩

end ReportLine

theorem ClassReport.LineFeedFree.lines {report : ClassReport} (h : report.LineFeedFree) :
    ∀ line ∈ report.outline.lines, '\n' ∉ line.chars := by
  intro line hline
  obtain rfl | hline := List.mem_cons.1 hline
  · exact (lineFeed_not_mem_named h.1).2.2
  · obtain rfl | hline := List.mem_cons.1 hline
    · decide
    · obtain ⟨pair, hpair, rfl⟩ := List.mem_map.1 hline
      obtain ⟨dependency, hmem, rfl⟩ := List.mem_map.1 hpair
      exact lineFeed_not_mem_entry (h.2 dependency hmem)

theorem PackageReport.LineFeedFree.lines {report : PackageReport} (h : report.LineFeedFree) :
    ∀ line ∈ report.outline.lines, '\n' ∉ line.chars := by
  refine List.forall_mem_cons.2 ⟨(lineFeed_not_mem_named h.1).2.1, lineFeed_not_mem_parted ?_⟩
  rw [outline, List.map_map, List.forall_mem_map]
  exact fun entry hentry => (h.2 entry hentry).lines

theorem ProjectReport.LineFeedFree.lines {report : ProjectReport} (h : report.LineFeedFree) :
    ∀ line ∈ report.outline.lines, '\n' ∉ line.chars := by
  refine List.forall_mem_cons.2 ⟨(lineFeed_not_mem_named h.1).1, lineFeed_not_mem_parted ?_⟩
  rw [outline, List.map_map, List.forall_mem_map]
  exact fun package hpackage => (h.2 package hpackage).lines

/-! ### Reading lines from the last to the first -/

/-- What has been read of some lines: the parts of which the first line has not been reached yet. -/
structure Reading where
  entries : List (DependencyKind × String)
  classes : List ClassOutline
  packages : List PackageOutline
  projects : List ProjectOutline

namespace Reading

/-- The reading with one more line in front: the first line of a report takes the parts of that report. -/
def collect : ReportLine → Reading → Reading
  | .entry kind target, reading => { reading with entries := (kind, target) :: reading.entries }
  | .type name, reading => { reading with entries := [], classes := ⟨name, reading.entries⟩ :: reading.classes }
  | .package name, reading => { reading with classes := [], packages := ⟨name, reading.classes⟩ :: reading.packages }
  | .project name, reading =>
    { reading with packages := [], projects := ⟨name, reading.packages⟩ :: reading.projects }
  | .heading, reading => reading
  | .blank, reading => reading

variable (classes : List ClassOutline) (packages : List PackageOutline) (projects : List ProjectOutline)

theorem collect_parted (parts : List (List ReportLine)) (reading : Reading) :
    (parted parts).foldr collect reading = parts.foldr (fun part => part.foldr collect) reading := by
  induction parts with
  | nil => rfl
  | cons part rest ih =>
    cases rest with
    | nil => rw [parted_singleton, List.foldr_cons, List.foldr_nil]
    | cons next rest =>
      rw [List.foldr_cons, ← ih, parted_cons_cons, List.foldr_append, List.foldr_cons, collect]

theorem collect_entries (entries : List (DependencyKind × String)) :
    (entries.map fun pair => ReportLine.entry pair.1 pair.2).foldr collect ⟨[], classes, packages, projects⟩ =
      ⟨entries, classes, packages, projects⟩ := by
  induction entries with
  | nil => rfl
  | cons pair rest ih => rw [List.map_cons, List.foldr_cons, ih]; rfl

/-- The lines of a class are read where no entry is left over from the lines below them. -/
theorem collect_class (outline : ClassOutline) :
    outline.lines.foldr collect ⟨[], classes, packages, projects⟩ = ⟨[], outline :: classes, packages, projects⟩ := by
  rw [ClassOutline.lines, List.foldr_cons, List.foldr_cons, collect_entries]
  rfl

theorem collect_classes (outlines : List ClassOutline) :
    (parted (outlines.map ClassOutline.lines)).foldr collect ⟨[], classes, packages, projects⟩ =
      ⟨[], outlines ++ classes, packages, projects⟩ := by
  rw [collect_parted]
  induction outlines with
  | nil => rfl
  | cons outline rest ih => rw [List.map_cons, List.foldr_cons, ih, collect_class]; rfl

theorem collect_package (outline : PackageOutline) :
    outline.lines.foldr collect ⟨[], [], packages, projects⟩ = ⟨[], [], outline :: packages, projects⟩ := by
  rw [PackageOutline.lines, List.foldr_cons, collect_classes, List.append_nil]
  rfl

theorem collect_packages (outlines : List PackageOutline) :
    (parted (outlines.map PackageOutline.lines)).foldr collect ⟨[], [], packages, projects⟩ =
      ⟨[], [], outlines ++ packages, projects⟩ := by
  rw [collect_parted]
  induction outlines with
  | nil => rfl
  | cons outline rest ih => rw [List.map_cons, List.foldr_cons, ih, collect_package]; rfl

theorem collect_project (outline : ProjectOutline) :
    outline.lines.foldr collect ⟨[], [], [], projects⟩ = ⟨[], [], [], outline :: projects⟩ := by
  rw [ProjectOutline.lines, List.foldr_cons, collect_packages, List.append_nil]
  rfl

end Reading

theorem ClassOutline.lines_injective : Function.Injective ClassOutline.lines := by
  intro first second h
  have hread := congrArg (List.foldr Reading.collect ⟨[], [], [], []⟩) h
  rw [Reading.collect_class, Reading.collect_class] at hread
  exact List.head_eq_of_cons_eq (congrArg Reading.classes hread)

theorem PackageOutline.lines_injective : Function.Injective PackageOutline.lines := by
  intro first second h
  have hread := congrArg (List.foldr Reading.collect ⟨[], [], [], []⟩) h
  rw [Reading.collect_package, Reading.collect_package] at hread
  exact List.head_eq_of_cons_eq (congrArg Reading.packages hread)

theorem ProjectOutline.lines_injective : Function.Injective ProjectOutline.lines := by
  intro first second h
  have hread := congrArg (List.foldr Reading.collect ⟨[], [], [], []⟩) h
  rw [Reading.collect_project, Reading.collect_project] at hread
  exact List.head_eq_of_cons_eq (congrArg Reading.projects hread)

/-! ### One line for each dependency -/

/-- The number of lines of a text that open as the line of a dependency does. -/
def entryLineCount (text : String) : Nat :=
  (text.toList.splitOn '\n').countP ("  - ".toList.isPrefixOf ·)

theorem entryLineCount_eq {text : String} {lines : List ReportLine} (htext : text.toList = unlined lines)
    (h : ∀ line ∈ lines, '\n' ∉ line.chars) : entryLineCount text = lines.countP ReportLine.isEntry := by
  rw [entryLineCount, htext, splitOn_unlined h, List.countP_append, List.countP_map]
  have hlines : ("  - ".toList.isPrefixOf ·) ∘ ReportLine.chars = ReportLine.isEntry := funext isPrefixOf_chars
  rw [hlines]
  rfl

theorem countP_parted (parts : List (List ReportLine)) :
    (parted parts).countP ReportLine.isEntry = (parts.map (List.countP ReportLine.isEntry)).foldr (· + ·) 0 := by
  induction parts with
  | nil => rfl
  | cons part rest ih =>
    cases rest with
    | nil => rw [parted_singleton]; rfl
    | cons next rest =>
      rw [List.map_cons, List.foldr_cons, ← ih, parted_cons_cons, List.countP_append]
      rfl

theorem ClassReport.countP_lines (report : ClassReport) :
    report.outline.lines.countP ReportLine.isEntry = report.size := by
  show (report.outline.entries.map fun pair => ReportLine.entry pair.1 pair.2).countP ReportLine.isEntry = _
  rw [outline, List.map_map, List.countP_map]
  exact congrFun List.countP_true report.dependencies.toList

theorem PackageReport.countP_lines (report : PackageReport) :
    report.outline.lines.countP ReportLine.isEntry = report.dependencyCount := by
  show (parted (report.outline.classes.map ClassOutline.lines)).countP ReportLine.isEntry = _
  rw [countP_parted, outline, List.map_map, List.map_map, dependencyCount, ← funext ClassReport.countP_lines]
  rfl

theorem ProjectReport.countP_lines (report : ProjectReport) :
    report.outline.lines.countP ReportLine.isEntry = report.dependencyCount := by
  show (parted (report.outline.packages.map PackageOutline.lines)).countP ReportLine.isEntry = _
  rw [countP_parted, outline, List.map_map, List.map_map, dependencyCount, ← funext PackageReport.countP_lines]
  rfl

/-! ### What a text tells -/

theorem text_eq_iff {Outline : Type} {lines : Outline → List ReportLine} (hlines : Function.Injective lines)
    {first second : Outline} {text other : String} (htext : text.toList = unlined (lines first))
    (hother : other.toList = unlined (lines second)) (hfirst : ∀ line ∈ lines first, '\n' ∉ line.chars)
    (hsecond : ∀ line ∈ lines second, '\n' ∉ line.chars) : text = other ↔ first = second := by
  rw [← String.toList_inj, htext, hother]
  constructor
  · intro h
    exact hlines (unlined_injective hfirst hsecond h)
  · intro h
    rw [h]

/-- **The text of a report is unambiguous.** Reports without line feeds in their names and targets have one text
only if they have the same name, the same packages in order, in every package the same classes in order and for
every class the same kinds and targets in order, whichever of them are empty and whatever the names look like; and
the text has one line for each dependency. -/
theorem text_tells_outline :
    (∀ {first second : ProjectReport}, first.LineFeedFree → second.LineFeedFree →
      (first.text = second.text ↔ first.outline = second.outline) ∧
      entryLineCount first.text = first.dependencyCount) ∧
    (∀ {first second : PackageReport}, first.LineFeedFree → second.LineFeedFree →
      (first.text = second.text ↔ first.outline = second.outline) ∧
      entryLineCount first.text = first.dependencyCount) ∧
    (∀ {first second : ClassReport}, first.LineFeedFree → second.LineFeedFree →
      (first.text = second.text ↔ first.outline = second.outline) ∧
      entryLineCount first.text = first.size) := by
  refine ⟨?project, ?package, ?type⟩
  case project =>
    intro first second hfirst hsecond
    exact ⟨text_eq_iff ProjectOutline.lines_injective first.toList_text second.toList_text hfirst.lines hsecond.lines,
      (entryLineCount_eq first.toList_text hfirst.lines).trans first.countP_lines⟩
  case package =>
    intro first second hfirst hsecond
    exact ⟨text_eq_iff PackageOutline.lines_injective first.toList_text second.toList_text hfirst.lines hsecond.lines,
      (entryLineCount_eq first.toList_text hfirst.lines).trans first.countP_lines⟩
  case type =>
    intro first second hfirst hsecond
    exact ⟨text_eq_iff ClassOutline.lines_injective first.toList_text second.toList_text hfirst.lines hsecond.lines,
      (entryLineCount_eq first.toList_text hfirst.lines).trans first.countP_lines⟩

/-! ### Names that look like lines -/

/-- A class without a name, of which nothing is known. -/
def namelessClass : ClassReport :=
  ⟨"", OrderedSet.empty⟩

/-- A class named like the line below it, with a target that looks like a line too. -/
def headingClass : ClassReport :=
  ⟨"Dependencies:", OrderedSet.ofList [⟨"p.A", "Class: q.B", .field, "field B", 3⟩]⟩

def emptyPackage : PackageReport :=
  ⟨"  - FIELD: q.B", []⟩

def fullPackage : PackageReport :=
  ⟨"  - FIELD: q.B", [namelessClass, headingClass]⟩

/-- All classes are in the package that comes last. -/
def lastFullProject : ProjectReport :=
  ⟨"Package: p", [emptyPackage, fullPackage]⟩

/-- All classes are in the package that comes first. -/
def firstFullProject : ProjectReport :=
  ⟨"Package: p", [fullPackage, emptyPackage]⟩

theorem odd_texts_differ :
    (lastFullProject.LineFeedFree ∧ firstFullProject.LineFeedFree ∧
      lastFullProject.text ≠ firstFullProject.text ∧ entryLineCount lastFullProject.text = 1) ∧
    (emptyPackage.LineFeedFree ∧ fullPackage.LineFeedFree ∧
      emptyPackage.text ≠ fullPackage.text ∧ entryLineCount emptyPackage.text = 0) ∧
    namelessClass.LineFeedFree ∧ headingClass.LineFeedFree ∧
      namelessClass.text ≠ headingClass.text ∧ entryLineCount headingClass.text = 1 := by
  obtain ⟨hproject, hpackage, htype⟩ := text_tells_outline
  have hlast : lastFullProject.LineFeedFree := by decide
  have hfirst : firstFullProject.LineFeedFree := by decide
  have hempty : emptyPackage.LineFeedFree := by decide
  have hfull : fullPackage.LineFeedFree := by decide
  have hnameless : namelessClass.LineFeedFree := by decide
  have hheading : headingClass.LineFeedFree := by decide
  refine ⟨⟨hlast, hfirst, ?_, ?_⟩, ⟨hempty, hfull, ?_, ?_⟩, hnameless, hheading, ?_, ?_⟩
  · rw [Ne, (hproject hlast hfirst).1]
    decide
  · exact (hproject hlast hfirst).2
  · rw [Ne, (hpackage hempty hfull).1]
    decide
  · exact (hpackage hempty hfull).2
  · rw [Ne, (htype hnameless hheading).1]
    decide
  · exact (htype hheading hheading).2

end JavaAtlas

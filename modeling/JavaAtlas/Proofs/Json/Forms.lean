import JavaAtlas.Proofs.Dependency
import JavaAtlas.Proofs.Json.Document
import JavaAtlas.Proofs.OrderedSet
import JavaAtlas.Report.Gathered

/-!
# Reports read back from their JSON

The documents of dependencies, events, failures and reports lose nothing. A listed report is read back as the
report on its names and the sets of its dependencies, whatever the order of its lists, and both forms of a document
are read back as the value it stands for; so the text of a report, compact or laid out, is read back as that report.
-/

namespace JavaAtlas

namespace Json

open Value

/-! ### Records and lists -/

theorem isSome_names_ofFields (fields : List (String × Document)) :
    (ofFields fields).all (fun entry => entry.1.isSome) = true := by
  induction fields with
  | nil => rfl
  | cons field rest ih =>
    rw [ofFields, List.all_cons, ih]
    rfl

theorem filter_ofFields_eq_nil {fields : List (String × Document)} {name : String}
    (h : name ∉ fields.map Prod.fst) :
    ((ofFields fields).filter fun entry => entry.1 == some name) = [] := by
  induction fields with
  | nil => rfl
  | cons field rest ih =>
    rw [List.map_cons, List.mem_cons, not_or] at h
    rw [ofFields, List.filter_cons_of_neg (by simpa using Ne.symm h.1), ih h.2]

/-- Where the names of a record differ, the field of a name is the only one of that name. -/
theorem onlyField?_ofFields {fields : List (String × Document)} (h : (fields.map Prod.fst).Nodup)
    (name : String) : onlyField? (ofFields fields) name = (fields.lookup name).map ofDocument := by
  induction fields with
  | nil => rfl
  | cons field rest ih =>
    obtain ⟨hnew, hrest⟩ := List.nodup_cons.1 h
    by_cases hname : name = field.1
    · subst hname
      rw [onlyField?, ofFields, List.filter_cons_of_pos (by simp), filter_ofFields_eq_nil hnew,
        List.lookup_cons_self]
      rfl
    · have hfilter := List.filter_cons_of_neg (p := fun entry : Option String × Value => entry.1 == some name)
        (a := (some field.1, ofDocument field.2)) (l := ofFields rest) (by simpa using Ne.symm hname)
      rw [onlyField?, ofFields, hfilter, List.lookup_cons, beq_false_of_ne hname]
      exact ih hrest

theorem asRecord?_record {fields : List (String × Document)} (h : (fields.map Prod.fst).Nodup)
    (names : List String) : (ofDocument (.record fields)).asRecord? names =
      names.mapM fun name => (fields.lookup name).map ofDocument := by
  rw [ofDocument, asRecord?, isSome_names_ofFields, if_pos rfl]
  congr 1
  funext name
  exact onlyField?_ofFields h name

theorem asList?_list {α β : Type} {write : α → Document} {read : Value → Option β} {of : α → β}
    (hread : ∀ a, read (ofDocument (write a)) = some (of a)) (items : List α) :
    (ofDocument (.list (items.map write))).asList? read = some (items.map of) := by
  rw [ofDocument, asList?]
  induction items with
  | nil => rfl
  | cons item rest ih =>
    rw [List.map_cons, ofItems, List.mapM_cons, hread, ih]
    rfl

theorem asText?_text (content : String) : (ofDocument (.text content)).asText? = some content := rfl

/-! ### Dependencies -/

theorem asNatural?_line (line : Line) :
    (ofDocument (.natural line.toNat)).asNatural? UInt32.size = some line.toNat := by
  rw [ofDocument, asNatural?, if_pos line.toNat_lt_size]

theorem kindOf?_label (kind : DependencyKind) : kindOf? (ofDocument (.text kind.label)) = some kind :=
  DependencyKind.ofLabel?_label kind

theorem dependencyOf?_document (dependency : Dependency) :
    dependencyOf? (ofDocument (dependencyDocument dependency)) = some dependency := by
  rw [dependencyOf?, dependencyDocument, asRecord?_record (by simp)]
  simp [List.lookup_cons, asText?_text, kindOf?_label, asNatural?_line]

/-! ### Events and failures -/

theorem eventOf?_document (event : Event) : eventOf? (ofDocument (eventDocument event)) = some event := by
  have himports : (ofDocument (.list (event.imports.map .text))).asList? asText? = some (event.imports.map id) :=
    asList?_list asText?_text event.imports
  rw [eventOf?, eventDocument, asRecord?_record (by simp)]
  simp [List.lookup_cons, asText?_text, himports]

theorem failureKindOf?_label (kind : FailureKind) : failureKindOf? (ofDocument (.text kind.label)) = some kind := by
  cases kind <;> decide

theorem ErrorResponse.ofValue?_document (response : ErrorResponse) :
    ofValue? (ofDocument response.document) = some response := by
  rw [ofValue?, document, asRecord?_record (by simp)]
  simp [List.lookup_cons, asText?_text, failureKindOf?_label]

/-- The number in the document that closes a stream. -/
def summaryOf? : Value → Option Nat
  | .object [(some "files", .natural files)] => some files
  | _ => none

theorem summaryOf?_document (files : Nat) : summaryOf? (ofDocument (summaryDocument files)) = some files := rfl

/-! ### Listed reports -/

/-- The report that a listed one describes. -/
def ListedClass.report (listed : ListedClass) : ClassReport :=
  ⟨listed.className, OrderedSet.ofList listed.dependencies⟩

def ListedPackage.report (listed : ListedPackage) : PackageReport :=
  ⟨listed.packageName, listed.classReports.map ListedClass.report⟩

def ListedProject.report (listed : ListedProject) : ProjectReport :=
  ⟨listed.projectName, listed.packageReports.map ListedPackage.report⟩

theorem classReportOf?_listed (listed : ListedClass) :
    classReportOf? (ofDocument listed.document) = some listed.report := by
  have hlist : (ofDocument (.list (listed.dependencies.map dependencyDocument))).asList? dependencyOf? =
      some (listed.dependencies.map id) := asList?_list dependencyOf?_document listed.dependencies
  rw [classReportOf?, ListedClass.ofValue?, ListedClass.document, asRecord?_record (by simp)]
  simp [List.lookup_cons, asText?_text, hlist, ListedClass.report]

theorem packageReportOf?_listed (listed : ListedPackage) :
    packageReportOf? (ofDocument listed.document) = some listed.report := by
  rw [packageReportOf?, ListedPackage.document, asRecord?_record (by simp)]
  simp [List.lookup_cons, asText?_text, asList?_list classReportOf?_listed, ListedPackage.report]

/-- The number of dependencies beside the packages is passed over. -/
theorem projectReportOf?_listed (listed : ListedProject) :
    projectReportOf? (ofDocument listed.document) = some listed.report := by
  rw [projectReportOf?, ListedProject.document, asRecord?_record (by simp)]
  simp [List.lookup_cons, asText?_text, asList?_list packageReportOf?_listed, ListedProject.report]

/-! ### Reports and their listed forms -/

theorem ListedClass.report_ofReport (report : ClassReport) : (ofReport report).report = report := by
  have hset : OrderedSet.ofList report.dependencies.toList = report.dependencies :=
    OrderedSet.ofList_eq_iff.2 fun _ => Iff.rfl
  rw [ListedClass.report, ofReport, hset]

theorem ListedPackage.report_ofReport (report : PackageReport) : (ofReport report).report = report := by
  have hclasses : ListedClass.report ∘ ListedClass.ofReport = id := funext ListedClass.report_ofReport
  rw [ListedPackage.report, ofReport, List.map_map, hclasses, List.map_id]

theorem ListedProject.report_ofReport (report : ProjectReport) : (ofReport report).report = report := by
  have hpackages : ListedPackage.report ∘ ListedPackage.ofReport = id :=
    funext ListedPackage.report_ofReport
  rw [ListedProject.report, ofReport, List.map_map, hpackages, List.map_id]

end Json

namespace GatheredClass

theorem mem_shown {gathered : GatheredClass} {dependency : Dependency} :
    dependency ∈ gathered.shown ↔ dependency ∈ gathered.members :=
  List.mem_mergeSort

theorem report_listed (gathered : GatheredClass) : gathered.listed.report = gathered.report := by
  have hset : OrderedSet.ofList gathered.shown = OrderedSet.ofList gathered.members := by
    apply OrderedSet.ofList_eq_iff.2
    intro dependency
    rw [mem_shown, OrderedSet.mem_ofList]
  rw [Json.ListedClass.report, listed, hset, report]

end GatheredClass

theorem GatheredPackage.report_listed (gathered : GatheredPackage) :
    gathered.listed.report = gathered.report := by
  have hclasses : Json.ListedClass.report ∘ GatheredClass.listed = GatheredClass.report :=
    funext GatheredClass.report_listed
  rw [Json.ListedPackage.report, listed, List.map_map, hclasses, report]

theorem GatheredProject.report_listed (gathered : GatheredProject) :
    gathered.listed.report = gathered.report := by
  have hpackages : Json.ListedPackage.report ∘ GatheredPackage.listed = GatheredPackage.report :=
    funext GatheredPackage.report_listed
  rw [Json.ListedProject.report, listed, List.map_map, hpackages, report]

namespace Json

open Value

/-! ### Texts -/

/-- The compact and the laid out text of a document are both read back as a given report. -/
def ReadsBack {α : Type} (of? : Value → Option α) (document : Document) (report : α) : Prop :=
  (parse? document.compact).bind of? = some report ∧ (parse? document.pretty).bind of? = some report

theorem readsBack_of_document {α : Type} {of? : Value → Option α} {document : Document} {report : α}
    (h : of? (ofDocument document) = some report) : ReadsBack of? document report := by
  obtain ⟨hcompact, hpretty⟩ := parse?_document document
  constructor
  · rw [hcompact, Option.bind_some, h]
  · rw [hpretty, Option.bind_some, h]

theorem readsBack_class (listed : ListedClass) : ReadsBack classReportOf? listed.document listed.report :=
  readsBack_of_document (classReportOf?_listed listed)

theorem readsBack_package (listed : ListedPackage) :
    ReadsBack packageReportOf? listed.document listed.report :=
  readsBack_of_document (packageReportOf?_listed listed)

theorem readsBack_project (listed : ListedProject) :
    ReadsBack projectReportOf? listed.document listed.report :=
  readsBack_of_document (projectReportOf?_listed listed)

/-- **The JSON of a report loses nothing**: compact or laid out, the text on a project, a package or a class is
read back as the report it was written for. So is the text on a report as it is gathered, in whatever order its
sets give out their dependencies. -/
theorem reports_read_back :
    (∀ report, ReadsBack projectReportOf? (projectDocument report) report) ∧
    (∀ report, ReadsBack packageReportOf? (packageDocument report) report) ∧
    (∀ report, ReadsBack classReportOf? (classDocument report) report) ∧
    (∀ gathered : GatheredProject,
      ReadsBack projectReportOf? gathered.listed.document gathered.report) ∧
    (∀ gathered : GatheredPackage,
      ReadsBack packageReportOf? gathered.listed.document gathered.report) ∧
    (∀ gathered : GatheredClass, ReadsBack classReportOf? gathered.listed.document gathered.report) := by
  refine ⟨?_, ?_, ?_, ?_, ?_, ?_⟩
  · intro report
    have hreads := readsBack_project (ListedProject.ofReport report)
    rwa [ListedProject.report_ofReport] at hreads
  · intro report
    have hreads := readsBack_package (ListedPackage.ofReport report)
    rwa [ListedPackage.report_ofReport] at hreads
  · intro report
    have hreads := readsBack_class (ListedClass.ofReport report)
    rwa [ListedClass.report_ofReport] at hreads
  · intro gathered
    exact gathered.report_listed ▸ readsBack_project gathered.listed
  · intro gathered
    exact gathered.report_listed ▸ readsBack_package gathered.listed
  · intro gathered
    exact gathered.report_listed ▸ readsBack_class gathered.listed

end Json

end JavaAtlas

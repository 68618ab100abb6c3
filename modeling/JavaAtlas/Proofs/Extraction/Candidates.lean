import JavaAtlas.Extraction
import JavaAtlas.Proofs.SourceUnit.Walk

/-!
# What extraction reports

The rules by which a node proposes dependencies are stated here once more, as relations that know nothing of
lists and of the order of a walk: which target a written type has, and which candidates a node offers for each
role. The report on a unit then holds exactly the candidates of the nodes of the unit that exclusion lets
pass. The argument has two halves: what one node proposes is what it offers, and what is accepted one after
the other is what is accepted at all.
-/

namespace JavaAtlas

namespace Extraction

/-- The target that a written type refers to. A reference means what it resolves to, and itself if that is
unknown or cannot be told; an array refers to what its elements refer to. -/
inductive Targets (scope : Scope) (oracle : Oracle) : WrittenType → String → Prop where
  | resolved {written name full : String} {line : Line}
      (hresolve : scope.resolve oracle name = .ok (some full)) :
      Targets scope oracle (.reference written line name) full
  | unknown {written name : String} {line : Line}
      (hresolve : scope.resolve oracle name = .ok none) :
      Targets scope oracle (.reference written line name) written
  | unanswered {written name : String} {line : Line} {failure : OracleFailure}
      (hresolve : scope.resolve oracle name = .error failure) :
      Targets scope oracle (.reference written line name) written
  | void {written : String} {line : Line} : Targets scope oracle (.void written line) "void"
  | primitive {written : String} {line : Line} :
      Targets scope oracle (.primitive written line) written
  | array {written target : String} {line : Line} {inner : WrittenType}
      (hinner : Targets scope oracle inner target) :
      Targets scope oracle (.array written line inner) target

/-- A node offers a candidate in each of its roles: the name of a plain import, the types that a class or an
interface extends and implements, the type of a field that is a reference, the result and the parameters of
a method, and the type of a created object. -/
inductive Offers (scope : Scope) (oracle : Oracle) : Node → Proposal → Prop where
  | imported {item : Import} (hmember : item.isStatic = false) (hpackage : item.isWildcard = false) :
      Offers scope oracle (.imported item)
        ⟨.imported, item.name, "import " ++ item.name ++ ";", item.line⟩
  | extended {header : TypeHeader} {members : List Node} {type : WrittenType} {target : String}
      (hkind : header.kind = .classType ∨ header.kind = .interfaceType)
      (htype : type ∈ header.extended) (htarget : Targets scope oracle type target) :
      Offers scope oracle (.branch (.type header) members)
        ⟨.extended, target, "extends " ++ type.written, type.line⟩
  | implemented {header : TypeHeader} {members : List Node} {type : WrittenType} {target : String}
      (hkind : header.kind = .classType ∨ header.kind = .interfaceType)
      (htype : type ∈ header.implemented) (htarget : Targets scope oracle type target) :
      Offers scope oracle (.branch (.type header) members)
        ⟨.implemented, target, "implements " ++ type.written, type.line⟩
  | field {written name target : String} {start line : Line} {names : List String}
      {values : List Node} (hnames : names ≠ [])
      (htarget : Targets scope oracle (.reference written start name) target) :
      Offers scope oracle (.branch (.field (.reference written start name) names line) values)
        ⟨.field, target, "field " ++ written, start⟩
  | methodReturn {name target : String} {result : WrittenType} {parameters : List Parameter}
      {line : Line} {body : List Node} (htarget : Targets scope oracle result target) :
      Offers scope oracle (.branch (.method name result parameters line) body)
        ⟨.methodReturn, target, "return type " ++ result.written, result.line⟩
  | methodParameter {name target : String} {result : WrittenType} {parameters : List Parameter}
      {parameter : Parameter} {line : Line} {body : List Node} (hparameter : parameter ∈ parameters)
      (htarget : Targets scope oracle parameter.type target) :
      Offers scope oracle (.branch (.method name result parameters line) body)
        ⟨.methodParameter, target, "parameter " ++ parameter.type.written, parameter.type.line⟩
  | instantiated {type : WrittenType} {target : String} {line : Line} {inside : List Node}
      (htarget : Targets scope oracle type target) :
      Offers scope oracle (.branch (.creation type line) inside)
        ⟨.instantiated, target, "new " ++ type.written, type.line⟩

def Proposal.dependency (proposal : Proposal) (source : String) : Dependency :=
  { source, target := proposal.target, kind := proposal.kind, snippet := proposal.snippet
    line := proposal.line }

variable {scope : Scope} {oracle : Oracle}

/-! ### One node -/

theorem target?_array (written : String) (line : Line) (inner : WrittenType) :
    target? scope oracle (.array written line inner) = target? scope oracle inner := by
  simp only [target?, WrittenType.element]

/-- What a reference means: the type it resolves to, or itself as it is written if that is unknown or cannot be
told. -/
def meaning (scope : Scope) (oracle : Oracle) (written name : String) : String :=
  match scope.resolve oracle name with
  | .ok (some full) => full
  | _ => written

theorem meaning_eq_written {written name : String} (h : ¬ ∃ full, scope.resolve oracle name = .ok (some full)) :
    meaning scope oracle written name = written := by
  rw [meaning]
  split
  · next full hfull => exact absurd ⟨full, hfull⟩ h
  · rfl

theorem target?_of_element {type : WrittenType} {written name : String} {line : Line}
    (helement : type.element = .reference written line name) :
    target? scope oracle type = some (meaning scope oracle written name) := by
  simp only [target?, helement, meaning]
  cases scope.resolve oracle name with
  | error failure => rfl
  | ok answer => cases answer <;> rfl

theorem target?_eq_some_iff {type : WrittenType} {target : String} :
    target? scope oracle type = some target ↔ Targets scope oracle type target := by
  constructor
  · intro h
    induction type with
    | reference written line name =>
      simp only [target?, WrittenType.element] at h
      split at h
      · next hresolve =>
        cases h
        exact .resolved hresolve
      · next hother =>
        cases h
        cases hresolve : scope.resolve oracle name with
        | error failure => exact .unanswered hresolve
        | ok answer =>
          cases answer with
          | none => exact .unknown hresolve
          | some full => exact absurd hresolve (hother full)
    | primitive written line =>
      cases h
      exact .primitive
    | void written line =>
      cases h
      exact .void
    | array written line inner ih =>
      rw [target?_array] at h
      exact .array (ih h)
    | other written line => cases h
  · intro h
    induction h with
    | resolved hresolve => simp [target?, WrittenType.element, hresolve]
    | unknown hresolve => simp [target?, WrittenType.element, hresolve]
    | unanswered hresolve => simp [target?, WrittenType.element, hresolve]
    | void => rfl
    | primitive => rfl
    | array _ ih => rw [target?_array, ih]

theorem proposal?_eq_some_iff {kind : DependencyKind} {type : WrittenType} {proposal : Proposal} :
    proposal? scope oracle kind type = some proposal ↔
      ∃ target, Targets scope oracle type target ∧
        proposal = ⟨kind, target, kind.lead ++ " " ++ type.written, type.line⟩ := by
  simp only [proposal?, Option.map_eq_some_iff, target?_eq_some_iff]
  constructor
  · rintro ⟨target, htarget, rfl⟩
    exact ⟨target, htarget, rfl⟩
  · rintro ⟨target, htarget, rfl⟩
    exact ⟨target, htarget, rfl⟩

/-- What a branch proposes: every type that it refers to, under the words that open the role. -/
theorem mem_proposals_branch {head : Head} {below : List Node} {proposal : Proposal} :
    proposal ∈ proposals scope oracle (.branch head below) ↔
      ∃ kind type target, (kind, type) ∈ references (.branch head below) ∧
        Targets scope oracle type target ∧
        proposal = ⟨kind, target, kind.lead ++ " " ++ type.written, type.line⟩ := by
  simp only [proposals, List.mem_filterMap, proposal?_eq_some_iff, Prod.exists]
  constructor
  · rintro ⟨kind, type, hreference, target, htarget, hproposal⟩
    exact ⟨kind, type, target, hreference, htarget, hproposal⟩
  · rintro ⟨kind, type, target, hreference, htarget, hproposal⟩
    exact ⟨kind, type, hreference, target, htarget, hproposal⟩

theorem mem_proposals_imported {item : Import} {proposal : Proposal} :
    proposal ∈ proposals scope oracle (.imported item) ↔
      Offers scope oracle (.imported item) proposal := by
  simp only [proposals, importProposal?, Option.mem_toList]
  constructor
  · intro h
    split at h
    · cases h
    · next hplain =>
      simp only [Bool.or_eq_true, not_or, Bool.not_eq_true] at hplain
      cases h
      exact .imported hplain.1 hplain.2
  · intro h
    cases h with
    | imported hmember hpackage => simp [hmember, hpackage]; rfl

/-! ### References of each kind of node -/

theorem mem_references_type {header : TypeHeader} {members : List Node} {kind : DependencyKind}
    {type : WrittenType} :
    (kind, type) ∈ references (.branch (.type header) members) ↔
      (header.kind = .classType ∨ header.kind = .interfaceType) ∧
        (kind = .extended ∧ type ∈ header.extended ∨
          kind = .implemented ∧ type ∈ header.implemented) := by
  by_cases hkind : header.kind = .classType ∨ header.kind = .interfaceType
  · have hreports : header.isClassOrInterface = true := by
      simpa [TypeHeader.isClassOrInterface] using hkind
    simp only [references, hreports, if_true, List.mem_append, List.mem_map, Prod.mk.injEq,
      hkind, true_and]
    grind
  · have hsilent : ¬ header.isClassOrInterface = true := by
      simpa [TypeHeader.isClassOrInterface] using hkind
    simp [references, hsilent, hkind]

theorem mem_references_field {declared type : WrittenType} {names : List String} {line : Line}
    {values : List Node} {kind : DependencyKind} :
    (kind, type) ∈ references (.branch (.field declared names line) values) ↔
      kind = .field ∧ type = declared ∧ declared.isReference = true ∧ names ≠ [] := by
  by_cases hreference : declared.isReference = true
  · simp only [references, hreference, if_true, List.mem_map, Prod.mk.injEq]
    constructor
    · rintro ⟨name, hname, rfl, rfl⟩
      exact ⟨rfl, rfl, trivial, List.ne_nil_of_mem hname⟩
    · rintro ⟨rfl, rfl, -, hnames⟩
      obtain ⟨name, hname⟩ := List.exists_mem_of_ne_nil names hnames
      exact ⟨name, hname, rfl, rfl⟩
  · simp [references, hreference]

theorem mem_references_method {name : String} {result type : WrittenType}
    {parameters : List Parameter} {line : Line} {body : List Node} {kind : DependencyKind} :
    (kind, type) ∈ references (.branch (.method name result parameters line) body) ↔
      kind = .methodReturn ∧ type = result ∨
        kind = .methodParameter ∧ ∃ parameter ∈ parameters, type = parameter.type := by
  simp only [references, List.mem_cons, Prod.mk.injEq, List.mem_map]
  refine or_congr_right ⟨?_, ?_⟩
  · rintro ⟨parameter, hparameter, rfl, rfl⟩
    exact ⟨rfl, parameter, hparameter, rfl⟩
  · rintro ⟨rfl, parameter, hparameter, rfl⟩
    exact ⟨parameter, hparameter, rfl, rfl⟩

theorem mem_references_creation {created type : WrittenType} {line : Line} {inside : List Node}
    {kind : DependencyKind} :
    (kind, type) ∈ references (.branch (.creation created line) inside) ↔
      kind = .instantiated ∧ type = created := by
  simp [references]

theorem mem_proposals_iff_offers {node : Node} {proposal : Proposal} :
    proposal ∈ proposals scope oracle node ↔ Offers scope oracle node proposal := by
  cases node with
  | package name line =>
    constructor
    · intro h
      simp [proposals, references] at h
    · intro h
      cases h
  | imported item => exact mem_proposals_imported
  | branch head below =>
    rw [mem_proposals_branch]
    constructor
    · rintro ⟨kind, type, target, hreference, htarget, rfl⟩
      cases head with
      | type header =>
        obtain ⟨hkind, ⟨rfl, htype⟩ | ⟨rfl, htype⟩⟩ := mem_references_type.1 hreference
        · exact .extended hkind htype htarget
        · exact .implemented hkind htype htarget
      | field declared names line =>
        obtain ⟨rfl, rfl, hdeclared, hnames⟩ := mem_references_field.1 hreference
        cases type with
        | reference written start name => exact .field hnames htarget
        | _ => cases hdeclared
      | method name result parameters line =>
        obtain ⟨rfl, rfl⟩ | ⟨rfl, parameter, hparameter, rfl⟩ := mem_references_method.1 hreference
        · exact .methodReturn htarget
        · exact .methodParameter hparameter htarget
      | constructor name parameters line => simp [references] at hreference
      | creation created line =>
        obtain ⟨rfl, rfl⟩ := mem_references_creation.1 hreference
        exact .instantiated htarget
    · intro h
      cases h with
      | extended hkind htype htarget =>
        exact ⟨_, _, _, mem_references_type.2 ⟨hkind, Or.inl ⟨rfl, htype⟩⟩, htarget, rfl⟩
      | implemented hkind htype htarget =>
        exact ⟨_, _, _, mem_references_type.2 ⟨hkind, Or.inr ⟨rfl, htype⟩⟩, htarget, rfl⟩
      | field hnames htarget =>
        exact ⟨_, _, _, mem_references_field.2 ⟨rfl, rfl, rfl, hnames⟩, htarget, rfl⟩
      | methodReturn htarget =>
        exact ⟨_, _, _, mem_references_method.2 (Or.inl ⟨rfl, rfl⟩), htarget, rfl⟩
      | methodParameter hparameter htarget =>
        exact ⟨_, _, _, mem_references_method.2 (Or.inr ⟨rfl, _, hparameter, rfl⟩), htarget, rfl⟩
      | instantiated htarget =>
        exact ⟨_, _, _, mem_references_creation.2 ⟨rfl, rfl⟩, htarget, rfl⟩

/-! ### Proposals one after the other -/

@[simp] theorem className_accept (report : ClassReport) (proposal : Proposal) :
    (accept report proposal).className = report.className := by
  unfold accept
  split <;> rfl

theorem className_foldl_accept (proposals : List Proposal) (report : ClassReport) :
    (proposals.foldl accept report).className = report.className := by
  induction proposals generalizing report with
  | nil => rfl
  | cons proposal rest ih => rw [List.foldl_cons, ih, className_accept]

theorem mem_accept {report : ClassReport} {proposal : Proposal} {dependency : Dependency} :
    dependency ∈ (accept report proposal).dependencies ↔
      dependency ∈ report.dependencies ∨
        Exclusion.excludes proposal.target report.className = false ∧
          dependency = proposal.dependency report.className := by
  unfold accept
  split
  · next hexcluded => simp [hexcluded]
  · next hallowed =>
    rw [Bool.not_eq_true] at hallowed
    simp only [ClassReport.add, OrderedSet.mem_insert, hallowed, true_and, Proposal.dependency]
    exact or_comm

/-- Whatever the order and however often, a dependency is reported exactly when some proposal that is not
excluded makes it. -/
theorem mem_foldl_accept {proposals : List Proposal} {report : ClassReport}
    {dependency : Dependency} :
    dependency ∈ (proposals.foldl accept report).dependencies ↔
      dependency ∈ report.dependencies ∨
        ∃ proposal ∈ proposals, Exclusion.excludes proposal.target report.className = false ∧
          dependency = proposal.dependency report.className := by
  induction proposals generalizing report with
  | nil => simp
  | cons proposal rest ih =>
    simp only [List.foldl_cons, ih, mem_accept, className_accept, List.mem_cons,
      exists_eq_or_imp, or_assoc]

/-! ### The whole unit -/

/-- **The report on a unit is complete and holds nothing else.** It names the class of the unit, and its
dependencies are the candidates that nodes at any depth offer, as far as exclusion lets them pass. -/
theorem mem_extract_iff (oracle : Oracle) (unit : SourceUnit) :
    (extract oracle unit).className = unit.className ∧
      ∀ dependency : Dependency, dependency ∈ (extract oracle unit).dependencies ↔
        ∃ node proposal, unit.Holds node ∧ Offers (Scope.ofUnit unit) oracle node proposal ∧
          Exclusion.excludes proposal.target unit.className = false ∧
          dependency = proposal.dependency unit.className := by
  refine ⟨className_foldl_accept _ _, fun dependency => ?_⟩
  simp only [extract, mem_foldl_accept, ClassReport.new, OrderedSet.not_mem_empty, false_or,
    List.mem_flatMap, mem_proposals_iff_offers, SourceUnit.mem_walk]
  constructor
  · rintro ⟨proposal, ⟨node, hnode, hoffer⟩, hallowed, rfl⟩
    exact ⟨node, proposal, hnode, hoffer, hallowed, rfl⟩
  · rintro ⟨node, proposal, hnode, hoffer, hallowed, rfl⟩
    exact ⟨proposal, ⟨node, hnode, hoffer⟩, hallowed, rfl⟩

/-- Every dependency but an import comes from a type that some node refers to. -/
theorem exists_reference_of_mem_extract {unit : SourceUnit} {dependency : Dependency}
    (h : dependency ∈ (extract oracle unit).dependencies) (hkind : dependency.kind ≠ .imported) :
    ∃ node type, unit.Holds node ∧ (dependency.kind, type) ∈ references node ∧
      Targets (Scope.ofUnit unit) oracle type dependency.target ∧
      dependency.snippet = dependency.kind.lead ++ " " ++ type.written ∧ dependency.line = type.line := by
  simp only [extract, mem_foldl_accept, ClassReport.new, OrderedSet.not_mem_empty, false_or,
    List.mem_flatMap, SourceUnit.mem_walk] at h
  obtain ⟨proposal, ⟨node, hnode, hproposal⟩, -, rfl⟩ := h
  cases node with
  | package name line => cases hproposal
  | imported item =>
    cases mem_proposals_imported.1 hproposal
    exact absurd rfl hkind
  | branch head below =>
    obtain ⟨kind, type, target, hreference, htarget, rfl⟩ := mem_proposals_branch.1 hproposal
    exact ⟨_, type, hnode, hreference, htarget, rfl, rfl⟩

end Extraction

end JavaAtlas

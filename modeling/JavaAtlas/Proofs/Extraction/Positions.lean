import JavaAtlas.Proofs.Extraction.Candidates

/-!
# Element types by position

An array refers to what its innermost elements refer to, and it does so as the result or a parameter of a method
and as the type of a created object. A field is the exception: it is asked for a reference before its elements are
looked at, so a field of an array type refers to nothing. What its elements mean is then a target of the unit only
if another field, of a plain type, has it for its target as well.
-/

namespace JavaAtlas

namespace Extraction

/-- The positions at a node where a written type stands that is not a supertype: the type of its variables, its
result, its parameters, the type it creates. -/
inductive Position : Node → DependencyKind → WrittenType → Prop where
  | field {type : WrittenType} {names : List String} {line : Line} {values : List Node} (hnames : names ≠ []) :
      Position (.branch (.field type names line) values) .field type
  | result {name : String} {result : WrittenType} {parameters : List Parameter} {line : Line} {body : List Node} :
      Position (.branch (.method name result parameters line) body) .methodReturn result
  | parameter {name : String} {result : WrittenType} {parameters : List Parameter} {line : Line}
      {body : List Node} {parameter : Parameter} (hparameter : parameter ∈ parameters) :
      Position (.branch (.method name result parameters line) body) .methodParameter parameter.type
  | created {type : WrittenType} {line : Line} {inside : List Node} :
      Position (.branch (.creation type line) inside) .instantiated type

/-- Somewhere in a unit a field of a plain reference type has a target. -/
def FieldTargets (oracle : Oracle) (unit : SourceUnit) (target : String) : Prop :=
  ∃ node type, unit.Holds node ∧ Position node .field type ∧ type.isReference = true ∧
    Targets (Scope.ofUnit unit) oracle type target

/-- A report has an edge of a kind to a target. -/
def Reports (report : ClassReport) (kind : DependencyKind) (target : String) : Prop :=
  ∃ dependency ∈ report.dependencies, dependency.kind = kind ∧ dependency.target = target

variable {scope : Scope} {oracle : Oracle} {unit : SourceUnit} {node : Node} {kind : DependencyKind}
  {type : WrittenType}

/-- The guard on fields is the only one: every other position offers whatever its type has for a target. -/
theorem offers_of_position {target : String} (hposition : Position node kind type)
    (hplain : kind = .field → type.isReference = true) (htarget : Targets scope oracle type target) :
    Offers scope oracle node ⟨kind, target, kind.lead ++ " " ++ type.written, type.line⟩ := by
  cases hposition with
  | field hnames =>
    cases type with
    | reference written line name => exact .field hnames htarget
    | _ => exact absurd (hplain rfl) Bool.false_ne_true
  | result => exact .methodReturn htarget
  | parameter hparameter => exact .methodParameter hparameter htarget
  | created => exact .instantiated htarget

/-- An edge of the kind of fields comes from a field of a plain reference type. -/
theorem position_of_offers_field {proposal : Proposal} (hoffer : Offers scope oracle node proposal)
    (hkind : proposal.kind = .field) :
    ∃ type, Position node .field type ∧ type.isReference = true ∧
      Targets scope oracle type proposal.target := by
  cases hoffer with
  | field hnames htarget => exact ⟨_, .field hnames, rfl, htarget⟩
  | _ => cases hkind

theorem reports_extract_iff {target : String} :
    Reports (extract oracle unit) kind target ↔
      Exclusion.excludes target unit.className = false ∧
        ∃ node proposal, unit.Holds node ∧ Offers (Scope.ofUnit unit) oracle node proposal ∧
          proposal.kind = kind ∧ proposal.target = target := by
  constructor
  · rintro ⟨dependency, hmem, hkind, htarget⟩
    obtain ⟨node, proposal, hnode, hoffer, hallowed, rfl⟩ := ((mem_extract_iff oracle unit).2 dependency).1 hmem
    have hproposal : proposal.target = target := htarget
    exact ⟨hproposal ▸ hallowed, node, proposal, hnode, hoffer, hkind, hproposal⟩
  · rintro ⟨hallowed, node, proposal, hnode, hoffer, hkind, rfl⟩
    refine ⟨proposal.dependency unit.className, ?_, hkind, rfl⟩
    exact ((mem_extract_iff oracle unit).2 _).2 ⟨node, proposal, hnode, hoffer, hallowed, rfl⟩

/-- **The elements of a type are reported in every position, except for fields of array types.** What they mean
is a target of the unit unless it is excluded, and for a field moreover only if some field of a plain type has
that target. -/
theorem element_reported_iff (oracle : Oracle) (unit : SourceUnit) {node : Node} (hnode : unit.Holds node)
    {kind : DependencyKind} {type : WrittenType} (hposition : Position node kind type)
    {written name : String} {line : Line} (helement : type.element = .reference written line name) :
    (Reports (extract oracle unit) kind (meaning (Scope.ofUnit unit) oracle written name) ↔
        Exclusion.excludes (meaning (Scope.ofUnit unit) oracle written name) unit.className = false ∧
          (kind = .field → FieldTargets oracle unit (meaning (Scope.ofUnit unit) oracle written name))) ∧
      ((kind = .field → type.isReference = true) →
        Exclusion.excludes (meaning (Scope.ofUnit unit) oracle written name) unit.className = false →
          ⟨unit.className, meaning (Scope.ofUnit unit) oracle written name, kind,
            kind.lead ++ " " ++ type.written, type.line⟩ ∈ (extract oracle unit).dependencies) := by
  have hmeant : target? (Scope.ofUnit unit) oracle type = some (meaning (Scope.ofUnit unit) oracle written name) :=
    target?_of_element helement
  have htarget := target?_eq_some_iff.1 hmeant
  generalize meaning (Scope.ofUnit unit) oracle written name = target at htarget ⊢
  refine ⟨⟨?_, ?_⟩, ?_⟩
  · intro hreports
    obtain ⟨hallowed, other, proposal, hother, hoffer, hkind, hmeaning⟩ := reports_extract_iff.1 hreports
    refine ⟨hallowed, fun hfield => ?_⟩
    obtain ⟨type, hposition, hplain, htargets⟩ := position_of_offers_field hoffer (hkind.trans hfield)
    exact ⟨other, type, hother, hposition, hplain, hmeaning ▸ htargets⟩
  · rintro ⟨hallowed, hfield⟩
    apply reports_extract_iff.2
    refine ⟨hallowed, ?_⟩
    by_cases hkind : kind = .field
    · obtain ⟨other, plain, hother, hplace, hplain, htargets⟩ := hfield hkind
      have hoffer := offers_of_position hplace (fun _ => hplain) htargets
      exact ⟨other, _, hother, hoffer, hkind.symm, rfl⟩
    · have hoffer := offers_of_position hposition (fun h => absurd h hkind) htarget
      exact ⟨node, _, hnode, hoffer, rfl, rfl⟩
  · intro hplain hallowed
    have hoffer := offers_of_position hposition hplain htarget
    exact ((mem_extract_iff oracle unit).2 _).2 ⟨node, _, hnode, hoffer, hallowed, rfl⟩

/-- The unit `class A { Foo[] all; Bar[][] get(Foo[] foos) { return null; } }`. -/
def arrayClass : SourceUnit :=
  ⟨[.branch (.type ⟨"A", .classType, false, [], [], 1⟩)
    [.branch (.field (.array "Foo[]" 1 (.reference "Foo" 1 "Foo")) ["all"] 1) [],
      .branch (.method "get" (.array "Bar[][]" 1 (.reference "Bar" 1 "Bar"))
        [⟨"foos", .array "Foo[]" 1 (.reference "Foo" 1 "Foo")⟩] 1) []]]⟩

theorem arrayClass_result_reported :
    ∃ node, arrayClass.Holds node ∧
      Position node .methodReturn (.array "Bar[][]" 1 (.reference "Bar" 1 "Bar")) ∧
      Exclusion.excludes "Bar" "A" = false ∧
      Reports (extract (Oracle.failing "down" "out of order") arrayClass) .methodReturn "Bar" := by
  have hholds : arrayClass.Holds (.branch (.method "get" (.array "Bar[][]" 1 (.reference "Bar" 1 "Bar"))
      [⟨"foos", .array "Foo[]" 1 (.reference "Foo" 1 "Foo")⟩] 1) []) :=
    ⟨_, List.mem_singleton_self _, .through (List.mem_cons_of_mem _ (List.mem_singleton_self _)) (.self _)⟩
  have hallowed : Exclusion.excludes "Bar" "A" = false := by decide
  refine ⟨_, hholds, .result, hallowed, ?_⟩
  exact (element_reported_iff _ arrayClass hholds .result rfl).1.2 ⟨hallowed, fun h => nomatch h⟩

/-- The guard on fields loses what the same type means as a parameter. -/
theorem array_field_unreported :
    ¬ ∀ (oracle : Oracle) (unit : SourceUnit) (node : Node) (kind : DependencyKind) (type : WrittenType),
      unit.Holds node → Position node kind type → ∀ written line name,
        type.element = .reference written line name →
        Reports (extract oracle unit) kind (meaning (Scope.ofUnit unit) oracle written name) ∨
          Exclusion.excludes (meaning (Scope.ofUnit unit) oracle written name) unit.className = true := by
  intro hall
  have hreports := hall (Oracle.ofNames "none" []) arrayClass
    (.branch (.field (.array "Foo[]" 1 (.reference "Foo" 1 "Foo")) ["all"] 1) []) .field _
    ⟨_, List.mem_singleton_self _, .through (List.mem_cons_self ..) (.self _)⟩
    (.field (by decide)) _ _ _ rfl
  have hnone : ∀ dependency ∈ (extract (Oracle.ofNames "none" []) arrayClass).dependencies.toList,
      dependency.kind ≠ .field := by decide +kernel
  cases hreports with
  | inl hreports =>
    obtain ⟨dependency, hmem, hkind, -⟩ := hreports
    exact hnone dependency hmem hkind
  | inr hexcluded => exact absurd hexcluded (by decide +kernel)

end Extraction

end JavaAtlas

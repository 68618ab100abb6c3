import JavaAtlas.Line

/-!
# Dependencies

An edge from the class of a source unit to a type that it needs, with the role the type plays, the piece of
code that shows it, and the line. Dependencies are ordered by kind, target, line and snippet; the source
comes last, so that the order tells any two of them apart.
-/

namespace JavaAtlas

/-- The role that the target of a dependency plays in the source. -/
inductive DependencyKind where
  | imported
  | extended
  | implemented
  | instantiated
  | field
  | methodParameter
  | methodReturn
deriving DecidableEq, Repr, Inhabited

namespace DependencyKind

def every : List DependencyKind :=
  [imported, extended, implemented, instantiated, field, methodParameter, methodReturn]

def rank : DependencyKind → Nat
  | imported => 0
  | extended => 1
  | implemented => 2
  | instantiated => 3
  | field => 4
  | methodParameter => 5
  | methodReturn => 6

def label : DependencyKind → String
  | imported => "IMPORT"
  | extended => "EXTENDS"
  | implemented => "IMPLEMENTS"
  | instantiated => "INSTANTIATION"
  | field => "FIELD"
  | methodParameter => "METHOD_PARAMETER"
  | methodReturn => "METHOD_RETURN"

/-- The words that open the snippet of a dependency of a kind. -/
def lead : DependencyKind → String
  | imported => "import"
  | extended => "extends"
  | implemented => "implements"
  | instantiated => "new"
  | field => "field"
  | methodParameter => "parameter"
  | methodReturn => "return type"

def ofLabel? (label : String) : Option DependencyKind :=
  every.find? fun kind => kind.label == label

instance : Ord DependencyKind := ⟨fun a b => compare a.rank b.rank⟩

theorem rank_injective {a b : DependencyKind} (h : a.rank = b.rank) : a = b := by
  cases a <;> cases b <;> simp_all [rank]

theorem compare_def (a b : DependencyKind) : compare a b = compare a.rank b.rank := rfl

instance : Std.TransOrd DependencyKind where
  eq_swap {a b} := by rw [compare_def, compare_def]; exact Std.OrientedCmp.eq_swap
  isLE_trans {a b c} := by
    rw [compare_def, compare_def, compare_def]; exact Std.TransCmp.isLE_trans

instance : Std.LawfulEqOrd DependencyKind where
  eq_of_compare {a b} h := rank_injective (Std.LawfulEqOrd.eq_of_compare (compare_def a b ▸ h))

end DependencyKind

/-- A dependency of the class `source` on the type `target`. -/
structure Dependency where
  source : String
  target : String
  kind : DependencyKind
  snippet : String
  line : Line
deriving DecidableEq, Repr, Inhabited

namespace Dependency

/-- What the order of dependencies looks at, in turn. -/
def key (dependency : Dependency) : DependencyKind × String × Line × String × String :=
  (dependency.kind, dependency.target, dependency.line, dependency.snippet, dependency.source)

theorem key_injective {a b : Dependency} (h : a.key = b.key) : a = b := by
  cases a; cases b; simp_all [key]

/-- The order of dependencies: the first difference among their keys decides. -/
def compareKeys : Dependency → Dependency → Ordering :=
  compareLex (compareOn (·.kind)) (compareLex (compareOn (·.target)) (compareLex
    (compareOn (·.line)) (compareLex (compareOn (·.snippet)) (compareOn (·.source)))))

instance : Ord Dependency := ⟨compareKeys⟩

instance : Std.TransOrd Dependency :=
  show Std.TransCmp compareKeys by
    unfold compareKeys
    infer_instance

theorem compare_def (a b : Dependency) : compare a b = compareKeys a b := rfl

instance : Std.LawfulEqOrd Dependency where
  eq_of_compare {a b} h := by
    rw [compare_def] at h
    simp only [compareKeys, compareLex, compareOn, Ordering.then_eq_eq,
      Std.LawfulEqOrd.compare_eq_iff_eq] at h
    obtain ⟨hkind, htarget, hline, hsnippet, hsource⟩ := h
    apply key_injective
    simp only [key, hkind, htarget, hline, hsnippet, hsource]

def hasLine (dependency : Dependency) : Bool :=
  0 < dependency.line

/-- A dependency in words: its two ends, its kind, and the snippet with its line if both are there. -/
def text (dependency : Dependency) : String :=
  let place :=
    if dependency.hasLine && dependency.snippet != "" then
      s!": {dependency.snippet} at line: {dependency.line}"
    else ""
  s!"{dependency.source} -> {dependency.target} ({dependency.kind.label}{place})"

end Dependency

end JavaAtlas

import JavaAtlas.Dependency

/-!
# Labels of kinds

A label tells the kind that it stands for.
-/

namespace JavaAtlas.DependencyKind

theorem ofLabel?_label (kind : DependencyKind) : ofLabel? kind.label = some kind := by
  cases kind <;> decide

theorem label_injective {kind other : DependencyKind} (h : kind.label = other.label) : kind = other := by
  have hread := congrArg ofLabel? h
  rw [ofLabel?_label, ofLabel?_label] at hread
  exact Option.some.inj hread

end JavaAtlas.DependencyKind

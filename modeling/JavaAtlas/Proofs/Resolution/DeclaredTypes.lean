import JavaAtlas.Resolution
import JavaAtlas.Proofs.SourceUnit.DeclaredTypes

/-!
# Resolution of declared types

A unit's own types come first in its scope, under their paths and under their simple names, in one table in
which the first entry of a name counts. The entry found for a declared path is therefore its own, unless a
type that is listed earlier bears the whole path as its simple name: then the path is *eclipsed*, and stands
for that other type. A nested type is listed before the types around it and after it, so it can eclipse a
type at the top of the unit.
-/

namespace JavaAtlas

open JavaAtlas.Text

namespace SourceUnit

/-- The declared paths that are listed before a given one. -/
def listedBefore (unit : SourceUnit) (path : String) : List String :=
  unit.declaredTypes.takeWhile fun other => other != path

/-- A path is eclipsed when it is the simple name of a type that is listed before it. -/
def Eclipsed (unit : SourceUnit) (path : String) : Prop :=
  ∃ other ∈ unit.listedBefore path, Name.lastSegment other = path

instance (unit : SourceUnit) (path : String) : Decidable (unit.Eclipsed path) :=
  inferInstanceAs (Decidable (∃ other ∈ _, _))

theorem mem_of_mem_listedBefore {unit : SourceUnit} {path other : String}
    (h : other ∈ unit.listedBefore path) : other ∈ unit.declaredTypes :=
  List.takeWhile_subset _ h

theorem ne_of_mem_listedBefore {unit : SourceUnit} {path other : String}
    (h : other ∈ unit.listedBefore path) : other ≠ path := by
  have hkept := List.all_eq_true.1 List.all_takeWhile other h
  simpa using hkept

theorem qualify_injective {package : Option String} {left right : String}
    (h : qualify package left = qualify package right) : left = right := by
  cases package with
  | none => exact h
  | some package =>
    have hlist := congrArg String.toList h
    simp only [qualify, String.toList_append] at hlist
    exact String.toList_injective (List.append_cancel_left hlist)

end SourceUnit

namespace Scope

/-- The entries that a declared path makes in the table of declared types. -/
def localEntries (package : Option String) (path : String) : List (String × String) :=
  [(Name.lastSegment path, SourceUnit.qualify package path), (path, SourceUnit.qualify package path)]

/-- Whether an entry that a path makes is one for a given name. -/
def answers (name path : String) : Bool :=
  name == Name.lastSegment path || name == path

theorem localTypes_ofUnit (unit : SourceUnit) :
    (ofUnit unit).localTypes = unit.declaredTypes.flatMap (localEntries unit.package?) := rfl

theorem lookup_localEntries (package : Option String) (name : String) (paths : List String) :
    (paths.flatMap (localEntries package)).lookup name =
      (paths.find? (answers name)).map (SourceUnit.qualify package) := by
  induction paths with
  | nil => rfl
  | cons path rest ih =>
    rw [List.flatMap_cons, List.find?_cons, localEntries, answers, List.cons_append,
      List.cons_append, List.nil_append, List.lookup_cons, List.lookup_cons, ih]
    cases name == Name.lastSegment path <;> cases name == path <;> rfl

/-- The first entry for a member of a list is one made before it or, without such an entry, its own. -/
theorem find?_answers_self {path : String} {paths : List String} (hpath : path ∈ paths) :
    paths.find? (answers path) =
      ((paths.takeWhile fun other => other != path).find? (answers path)).or (some path) := by
  induction paths with
  | nil => cases hpath
  | cons other rest ih =>
    by_cases hsame : other = path
    · subst hsame
      simp [answers]
    · have hrest : path ∈ rest := (List.mem_cons.1 hpath).resolve_left (Ne.symm hsame)
      rw [List.takeWhile_cons_of_pos (by simpa using hsame), List.find?_cons, List.find?_cons]
      split
      · rfl
      · exact ih hrest

/-- A solid name with an entry among the declared types resolves to it, whatever the oracle says. -/
theorem resolve_of_lookup {scope : Scope} {name full : String} (oracle : Oracle)
    (hsolid : Name.IsSolid name) (hlookup : scope.localTypes.lookup name = some full) :
    scope.resolve oracle name = .ok (some full) := by
  have hne : (name == "") = false := by simpa using hsolid.1
  simp only [resolve, trimmed_eq_self hsolid.2, hne, hlookup, Bool.false_eq_true, if_false]

/-- What a declared path resolves to: the first type that eclipses it, else itself. -/
theorem resolve_declared {unit : SourceUnit} (oracle : Oracle)
    (hnames : ∀ name ∈ unit.typeNames, Name.IsIdentifier name) {path : String}
    (hpath : path ∈ unit.declaredTypes) :
    (ofUnit unit).resolve oracle path = .ok (some (SourceUnit.qualify unit.package?
      (((unit.listedBefore path).find? (answers path)).getD path))) := by
  have hsolid : Name.IsSolid path :=
    SourceUnit.isSolid_of_mem_declaredTypes (fun name hname => (hnames name hname).1) hpath
  refine resolve_of_lookup oracle hsolid ?_
  rw [localTypes_ofUnit, lookup_localEntries, find?_answers_self hpath, ← SourceUnit.listedBefore]
  cases (unit.listedBefore path).find? (answers path) <;> rfl

/-- Before a path is listed, only a type that eclipses it makes an entry for it. -/
theorem answers_iff_of_mem_listedBefore {unit : SourceUnit} {path other : String}
    (hother : other ∈ unit.listedBefore path) :
    answers path other = true ↔ Name.lastSegment other = path := by
  have hne : path ≠ other := (SourceUnit.ne_of_mem_listedBefore hother).symm
  simp only [answers, Bool.or_eq_true, beq_iff_eq, hne, or_false]
  exact eq_comm

theorem resolve_of_not_eclipsed {unit : SourceUnit} (oracle : Oracle)
    (hnames : ∀ name ∈ unit.typeNames, Name.IsIdentifier name) {path : String}
    (hpath : path ∈ unit.declaredTypes) (hclear : ¬ unit.Eclipsed path) :
    (ofUnit unit).resolve oracle path = .ok (some (SourceUnit.qualify unit.package? path)) := by
  have hnone : (unit.listedBefore path).find? (answers path) = none := by
    rw [List.find?_eq_none]
    intro other hother hanswers
    exact hclear ⟨other, hother, (answers_iff_of_mem_listedBefore hother).1 hanswers⟩
  rw [resolve_declared oracle hnames hpath, hnone, Option.getD_none]

theorem resolve_of_eclipsed {unit : SourceUnit} (oracle : Oracle)
    (hnames : ∀ name ∈ unit.typeNames, Name.IsIdentifier name) {path : String}
    (hpath : path ∈ unit.declaredTypes) (heclipsed : unit.Eclipsed path) :
    ∃ other ∈ unit.listedBefore path, Name.lastSegment other = path ∧
      (ofUnit unit).resolve oracle path = .ok (some (SourceUnit.qualify unit.package? other)) := by
  obtain ⟨witness, hwitness, hsimple⟩ := heclipsed
  cases hfind : (unit.listedBefore path).find? (answers path) with
  | none =>
    have hanswers := (answers_iff_of_mem_listedBefore hwitness).2 hsimple
    exact absurd hanswers (List.find?_eq_none.1 hfind witness hwitness)
  | some other =>
    have hother := List.mem_of_find?_eq_some hfind
    have hanswers := List.find?_some hfind
    refine ⟨other, hother, (answers_iff_of_mem_listedBefore hother).1 hanswers, ?_⟩
    rw [resolve_declared oracle hnames hpath, hfind, Option.getD_some]

/-- **A declared type resolves to itself exactly when it is not eclipsed.** Otherwise it resolves to another
type of the unit, one that bears its path as a simple name. -/
theorem resolve_declared_eq_self_iff (unit : SourceUnit) (oracle : Oracle)
    (hnames : ∀ name ∈ unit.typeNames, Name.IsIdentifier name) (path : String)
    (hpath : path ∈ unit.declaredTypes) :
    ((ofUnit unit).resolve oracle path = .ok (some (SourceUnit.qualify unit.package? path)) ↔
        ¬ unit.Eclipsed path) ∧
      (unit.Eclipsed path → ∃ other ∈ unit.declaredTypes,
        other ≠ path ∧ Name.lastSegment other = path ∧
          (ofUnit unit).resolve oracle path =
            .ok (some (SourceUnit.qualify unit.package? other))) := by
  refine ⟨⟨fun hself heclipsed => ?_, resolve_of_not_eclipsed oracle hnames hpath⟩,
    fun heclipsed => ?_⟩
  · obtain ⟨other, hother, -, hresolve⟩ := resolve_of_eclipsed oracle hnames hpath heclipsed
    rw [hresolve] at hself
    have hqualified := Option.some.inj (Except.ok.inj hself)
    exact SourceUnit.ne_of_mem_listedBefore hother (SourceUnit.qualify_injective hqualified)
  · obtain ⟨other, hother, hsimple, hresolve⟩ := resolve_of_eclipsed oracle hnames hpath heclipsed
    exact ⟨other, SourceUnit.mem_of_mem_listedBefore hother,
      SourceUnit.ne_of_mem_listedBefore hother, hsimple, hresolve⟩

/-- The unit `package p; class Outer { class Foo {} } class Foo {}`. -/
def nestedBeforeTop : SourceUnit :=
  ⟨[.package "p" 1,
    .branch (.type ⟨"Outer", .classType, false, [], [], 1⟩)
      [.branch (.type ⟨"Foo", .classType, true, [], [], 1⟩) []],
    .branch (.type ⟨"Foo", .classType, false, [], [], 1⟩) []]⟩

theorem nestedBeforeTop_nested_resolves :
    (∀ name ∈ nestedBeforeTop.typeNames, Name.IsIdentifier name) ∧
      "Outer.Foo" ∈ nestedBeforeTop.declaredTypes ∧ ¬ nestedBeforeTop.Eclipsed "Outer.Foo" ∧
        (ofUnit nestedBeforeTop).resolve (Oracle.failing "down" "out of order") "Outer.Foo" =
          .ok (some "p.Outer.Foo") :=
  ⟨by decide, by decide, by decide,
    (resolve_declared_eq_self_iff nestedBeforeTop (Oracle.failing "down" "out of order")
      (by decide) "Outer.Foo" (by decide)).1.2 (by decide)⟩

/-- Identifiers and distinct paths do not suffice: the nested `Outer.Foo` eclipses the `Foo` behind it. -/
theorem nested_type_eclipses_top_type :
    ¬ ∀ (unit : SourceUnit) (oracle : Oracle),
      (∀ name ∈ unit.typeNames, Name.IsIdentifier name) → unit.declaredTypes.Nodup →
        ∀ path ∈ unit.declaredTypes, (ofUnit unit).resolve oracle path =
          .ok (some (SourceUnit.qualify unit.package? path)) := by
  intro h
  have hself := h nestedBeforeTop (Oracle.ofNames "none" []) (by decide) (by decide) "Foo"
    (by decide)
  have hother : (ofUnit nestedBeforeTop).resolve (Oracle.ofNames "none" []) "Foo" =
      .ok (some "p.Outer.Foo") := by rfl
  have hequal := Option.some.inj (Except.ok.inj (hother.symm.trans hself))
  exact absurd hequal (by decide)

end Scope

end JavaAtlas

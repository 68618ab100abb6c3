import Mathlib.Data.List.Forall2
import Mathlib.Logic.Relation

/-!
# Steps that may fail

How a computation that may fail comes to its result, for single steps and for one step on each member of a
list: it has a result exactly when every step has one, and it fails only as one of its steps does. Steps of a
system that each leave less to be done can be taken up to where none is left.
-/

namespace JavaAtlas

namespace Steps

variable {α β ε : Type}

theorem bind_eq_ok_iff {first : Except ε α} {next : α → Except ε β} {value : β} :
    (first >>= next) = .ok value ↔ ∃ found, first = .ok found ∧ next found = .ok value := by
  cases first with
  | error failure => simp [bind, Except.bind]
  | ok found => simp [bind, Except.bind]

theorem bind_eq_error_iff {first : Except ε α} {next : α → Except ε β} {failure : ε} :
    (first >>= next) = .error failure ↔
      first = .error failure ∨ ∃ found, first = .ok found ∧ next found = .error failure := by
  cases first with
  | error other => simp [bind, Except.bind]
  | ok found => simp [bind, Except.bind]

theorem pure_eq_ok_iff {value other : α} : (pure value : Except ε α) = .ok other ↔ other = value :=
  ⟨fun h => (Except.ok.inj h).symm, fun h => congrArg Except.ok h.symm⟩

theorem pure_ne_error {value : α} {failure : ε} : (pure value : Except ε α) ≠ .error failure :=
  fun h => by cases h

theorem exists_ok_of_map_toOption {result : Except ε α} {look : α → β} {shown : β}
    (h : result.toOption.map look = some shown) : ∃ value, result = .ok value ∧ look value = shown := by
  cases result with
  | error failure => cases h
  | ok value => exact ⟨value, rfl, Option.some.inj h⟩

theorem mapM_eq_ok_iff {step : α → Except ε β} {inputs : List α} {values : List β} :
    inputs.mapM step = .ok values ↔
      List.Forall₂ (fun input value => step input = .ok value) inputs values := by
  induction inputs generalizing values with
  | nil => rw [List.mapM_nil, pure_eq_ok_iff, List.forall₂_nil_left_iff]
  | cons input rest ih =>
    simp only [List.mapM_cons, bind_eq_ok_iff, pure_eq_ok_iff, ih, List.forall₂_cons_left_iff]
    exact ⟨fun ⟨value, hvalue, found, hfound, heq⟩ => ⟨value, found, hvalue, hfound, heq⟩,
      fun ⟨value, found, hvalue, hfound, heq⟩ => ⟨value, hvalue, found, hfound, heq⟩⟩

theorem mapM_eq_ok_congr {step other : α → Except ε β} {inputs : List α} {values : List β}
    (h : ∀ input value, step input = .ok value ↔ other input = .ok value) :
    inputs.mapM step = .ok values ↔ inputs.mapM other = .ok values := by
  simp only [mapM_eq_ok_iff, h]

theorem exists_mapM_eq_ok_iff {step : α → Except ε β} {inputs : List α} :
    (∃ values, inputs.mapM step = .ok values) ↔
      ∀ input ∈ inputs, ∃ value, step input = .ok value := by
  simp only [mapM_eq_ok_iff]
  induction inputs with
  | nil => simp
  | cons input rest ih =>
    constructor
    · rintro ⟨values, hvalues⟩
      obtain ⟨value, found, hvalue, hfound, rfl⟩ := List.forall₂_cons_left_iff.1 hvalues
      exact List.forall_mem_cons.2 ⟨⟨value, hvalue⟩, ih.1 ⟨found, hfound⟩⟩
    · intro h
      obtain ⟨⟨value, hvalue⟩, hrest⟩ := List.forall_mem_cons.1 h
      obtain ⟨found, hfound⟩ := ih.2 hrest
      exact ⟨value :: found, .cons hvalue hfound⟩

theorem mem_iff_of_mapM_eq_ok {step : α → Except ε β} {inputs : List α} {values : List β}
    (h : inputs.mapM step = .ok values) (value : β) :
    value ∈ values ↔ ∃ input ∈ inputs, step input = .ok value := by
  have hbeside := mapM_eq_ok_iff.1 h
  clear h
  induction hbeside with
  | nil => simp
  | cons hvalue _ ih =>
    simp only [List.mem_cons, exists_eq_or_imp, hvalue, Except.ok.injEq, ih]
    exact or_congr_left eq_comm

theorem filter_of_mapM_eq_ok {step : α → Except ε β} {inputs : List α} {values : List β}
    (h : inputs.mapM step = .ok values) (keep : β → Bool) :
    values.filter keep = inputs.filterMap fun input => (step input).toOption.filter keep := by
  have hbeside := mapM_eq_ok_iff.1 h
  clear h
  induction hbeside with
  | nil => rfl
  | @cons input value rest found hvalue _ ih =>
    rw [List.filterMap_cons, hvalue, Except.toOption, Option.filter_some, List.filter_cons, ih]
    split <;> rfl

theorem flatMap_of_mapM_eq_ok {γ : Type} {step : α → Except ε β} {inputs : List α} {values : List β}
    (h : inputs.mapM step = .ok values) {pick : β → List γ} {of : α → List γ}
    (hpick : ∀ input value, step input = .ok value → pick value = of input) :
    values.flatMap pick = inputs.flatMap of := by
  have hbeside := mapM_eq_ok_iff.1 h
  clear h
  induction hbeside with
  | nil => rfl
  | @cons input value rest found hvalue _ ih =>
    rw [List.flatMap_cons, List.flatMap_cons, hpick input value hvalue, ih]

theorem exists_of_mapM_eq_error {step : α → Except ε β} {inputs : List α} {failure : ε}
    (h : inputs.mapM step = .error failure) : ∃ input ∈ inputs, step input = .error failure := by
  induction inputs with
  | nil => exact absurd h pure_ne_error
  | cons input rest ih =>
    rw [List.mapM_cons, bind_eq_error_iff] at h
    rcases h with hinput | ⟨value, -, hrest⟩
    · exact ⟨input, List.mem_cons_self, hinput⟩
    · rcases bind_eq_error_iff.1 hrest with hrest | ⟨found, -, hpure⟩
      · obtain ⟨other, hother, hfailure⟩ := ih hrest
        exact ⟨other, List.mem_cons_of_mem _ hother, hfailure⟩
      · exact absurd hpure pure_ne_error

/-- Where every step leaves less to be done and one can be taken until all is done, a run leads there. -/
theorem exists_reflTransGen_of_work {step : α → α → Prop} {done : α → Prop} (work : α → Nat)
    (hless : ∀ a b, step a b → work b < work a) (hstep : ∀ a, ¬ done a → ∃ b, step a b) (a : α) :
    ∃ b, Relation.ReflTransGen step a b ∧ done b := by
  induction hwork : work a using Nat.strongRecOn generalizing a with
  | ind bound ih =>
    by_cases hdone : done a
    · exact ⟨a, .refl, hdone⟩
    · obtain ⟨next, hnext⟩ := hstep a hdone
      obtain ⟨last, hlast, hend⟩ := ih _ (hwork ▸ hless a next hnext) next rfl
      exact ⟨last, .head hnext hlast, hend⟩

end Steps

end JavaAtlas

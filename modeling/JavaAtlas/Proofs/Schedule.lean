import Mathlib.Data.List.Perm.Basic
import JavaAtlas.Schedule
import JavaAtlas.Proofs.Steps

/-!
# Joins do not depend on the schedule

A join that succeeds has the values of its tasks in the order of their places, whatever the order in which
they ended: it succeeds when the same tasks would succeed one after the other, and with the same values. A
join that fails does so with the failure of one of its tasks. Both facts rest on `lastAt`, which finds the
one value that an order without repetitions brings to a place.
-/

namespace JavaAtlas

namespace Schedule

open Steps

variable {α β : Type}

/-! ### Ended tasks -/

/-- The value of a task with its place, or its failure. -/
def ended (entry : Nat × Completion α) : Except Failure (Nat × α) := do
  return (entry.1, ← entry.2.result)

theorem ended_eq_ok_iff {entry : Nat × Completion α} {found : Nat × α} :
    ended entry = .ok found ↔ found.1 = entry.1 ∧ entry.2.result = .ok found.2 := by
  simp only [ended, bind_eq_ok_iff, pure_eq_ok_iff]
  constructor
  · rintro ⟨value, hvalue, rfl⟩
    exact ⟨rfl, hvalue⟩
  · rintro ⟨hplace, hvalue⟩
    exact ⟨found.2, hvalue, Prod.ext hplace rfl⟩

theorem ended_eq_error_iff {entry : Nat × Completion α} {failure : Failure} :
    ended entry = .error failure ↔ entry.2.result = .error failure := by
  simp only [ended, bind_eq_error_iff, pure_ne_error, and_false, exists_false, or_false]

theorem join_eq_bind (completed : List (Nat × Completion α)) :
    join completed = (completed.mapM ended >>= fun found =>
      pure ((List.range completed.length).filterMap fun place => lastAt place found)) := rfl

/-- The last value at a place is the only one that is there. -/
theorem lastAt_eq_some {place : Nat} {value : α} {found : List (Nat × α)}
    (hmem : (place, value) ∈ found) (honly : ∀ other, (place, other) ∈ found → other = value) :
    lastAt place found = some value := by
  unfold lastAt
  cases hfind : found.reverse.find? fun entry => entry.1 == place with
  | none =>
    have hmissing := List.find?_eq_none.1 hfind (place, value) (List.mem_reverse.2 hmem)
    simp at hmissing
  | some entry =>
    obtain ⟨other, last⟩ := entry
    have hplace : other = place := by simpa using List.find?_some hfind
    subst hplace
    have hlast := List.mem_reverse.1 (List.mem_of_find?_eq_some hfind)
    rw [Option.map_some, honly last hlast]

/-! ### Tasks with their places -/

variable {order : List Nat}

theorem mem_arrange {tasks : List α} {place : Nat} {task : α} :
    (place, task) ∈ arrange order tasks ↔ place ∈ order ∧ tasks[place]? = some task := by
  simp only [arrange, List.mem_filterMap, Option.map_eq_some_iff, Prod.mk.injEq]
  constructor
  · rintro ⟨other, hother, found, hfound, rfl, rfl⟩
    exact ⟨hother, hfound⟩
  · rintro ⟨hplace, htask⟩
    exact ⟨place, hplace, task, htask, rfl, rfl⟩

theorem mem_of_mem_arrange {tasks : List α} {entry : Nat × α} (h : entry ∈ arrange order tasks) :
    entry.2 ∈ tasks :=
  List.mem_of_getElem? (mem_arrange.1 h).2

theorem exists_mem_arrange {tasks : List α} (horder : order.Perm (List.range tasks.length)) {task : α}
    (htask : task ∈ tasks) : ∃ place, (place, task) ∈ arrange order tasks := by
  obtain ⟨place, hplace, hget⟩ := List.getElem_of_mem htask
  refine ⟨place, mem_arrange.2 ⟨horder.mem_iff.2 (List.mem_range.2 hplace), ?_⟩⟩
  rw [List.getElem?_eq_getElem hplace, hget]

theorem forall₂_arrange {related : α → β → Prop} {tasks : List α} {values : List β}
    (h : List.Forall₂ related tasks values) :
    List.Forall₂ (fun entry found => found.1 = entry.1 ∧ related entry.2 found.2)
      (arrange order tasks) (arrange order values) := by
  obtain ⟨hlength, hrelated⟩ := List.forall₂_iff_get.1 h
  induction order with
  | nil => exact .nil
  | cons place rest ih =>
    by_cases hplace : place < tasks.length
    · have hvalue : place < values.length := hlength ▸ hplace
      simp only [arrange, List.filterMap_cons, List.getElem?_eq_getElem hplace,
        List.getElem?_eq_getElem hvalue, Option.map_some]
      exact .cons ⟨rfl, hrelated place hplace hvalue⟩ ih
    · have hvalue : ¬ place < values.length := hlength ▸ hplace
      simp only [arrange, List.filterMap_cons, List.getElem?_eq_none (Nat.le_of_not_lt hplace),
        List.getElem?_eq_none (Nat.le_of_not_lt hvalue), Option.map_none]
      exact ih

theorem length_arrange {tasks : List α} (horder : order.Perm (List.range tasks.length)) :
    (arrange order tasks).length = tasks.length := by
  rw [arrange, List.filterMap_length_eq_length.2 fun place hplace => ?_, horder.length_eq,
    List.length_range]
  have hlt := List.mem_range.1 (horder.mem_iff.1 hplace)
  simp [List.getElem?_eq_getElem hlt]

theorem filterMap_getElem?_range (values : List α) :
    ((List.range values.length).filterMap fun place => values[place]?) = values := by
  induction values with
  | nil => rfl
  | cons value rest ih =>
    rw [List.length_cons, List.range_succ_eq_map, List.filterMap_cons, List.getElem?_cons_zero,
      List.filterMap_map]
    exact congrArg (value :: ·) ih

/-- Values that ended in any order, once each, are found again at their places. -/
theorem filterMap_lastAt_arrange {values : List α}
    (horder : order.Perm (List.range values.length)) :
    ((List.range values.length).filterMap fun place => lastAt place (arrange order values)) =
      values := by
  have hlast : ∀ place ∈ List.range values.length,
      lastAt place (arrange order values) = values[place]? := by
    intro place hplace
    have hget := List.getElem?_eq_getElem (List.mem_range.1 hplace)
    rw [hget]
    refine lastAt_eq_some (mem_arrange.2 ⟨horder.mem_iff.2 hplace, hget⟩) fun other hother => ?_
    exact Option.some.inj ((mem_arrange.1 hother).2.symm.trans hget)
  rw [List.filterMap_congr hlast, filterMap_getElem?_range]

/-! ### Joining -/

variable {tasks : List (Completion α)}

theorem join_arrange_of_mapM (horder : order.Perm (List.range tasks.length)) {values : List α}
    (h : tasks.mapM Completion.result = .ok values) : join (arrange order tasks) = .ok values := by
  have hvalues := mapM_eq_ok_iff.1 h
  have hlength : values.length = tasks.length := hvalues.length_eq.symm
  have hended : (arrange order tasks).mapM ended = .ok (arrange order values) := by
    refine mapM_eq_ok_iff.2 ((forall₂_arrange hvalues).imp fun entry found hfound => ?_)
    exact ended_eq_ok_iff.2 hfound
  rw [join_eq_bind, bind_eq_ok_iff]
  refine ⟨arrange order values, hended, ?_⟩
  rw [pure_eq_ok_iff, length_arrange horder, ← hlength,
    filterMap_lastAt_arrange (hlength.symm ▸ horder)]

/-- **A join succeeds exactly as its tasks do in turn**, in whatever order they end. -/
theorem join_arrange_eq_ok_iff (horder : order.Perm (List.range tasks.length)) (values : List α) :
    join (arrange order tasks) = .ok values ↔ tasks.mapM Completion.result = .ok values := by
  refine ⟨fun h => ?_, join_arrange_of_mapM horder⟩
  obtain ⟨found, hfound, -⟩ := bind_eq_ok_iff.1 (join_eq_bind _ ▸ h)
  have hfinished : ∀ task ∈ tasks, ∃ value, task.result = .ok value := by
    intro task htask
    obtain ⟨place, hplace⟩ := exists_mem_arrange horder htask
    obtain ⟨entry, hentry⟩ := exists_mapM_eq_ok_iff.1 ⟨found, hfound⟩ _ hplace
    exact ⟨entry.2, (ended_eq_ok_iff.1 hentry).2⟩
  obtain ⟨others, hothers⟩ := exists_mapM_eq_ok_iff.2 hfinished
  have hsame := (join_arrange_of_mapM horder hothers).symm.trans h
  exact hothers.trans hsame

/-- A join fails as one of its tasks does. -/
theorem exists_of_join_arrange_eq_error {failure : Failure}
    (h : join (arrange order tasks) = .error failure) :
    ∃ task ∈ tasks, task.result = .error failure := by
  rw [join_eq_bind, bind_eq_error_iff] at h
  rcases h with h | ⟨found, -, hpure⟩
  · obtain ⟨entry, hentry, hfailure⟩ := exists_of_mapM_eq_error h
    exact ⟨entry.2, mem_of_mem_arrange hentry, ended_eq_error_iff.1 hfailure⟩
  · exact absurd hpure pure_ne_error

end Schedule

end JavaAtlas

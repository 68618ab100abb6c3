import JavaAtlas.Proofs.Schedule

/-!
# What a join returns

A join goes through its tasks as they end. Each has a slot to put its value into, and a value that comes to a slot
takes the place of an earlier one; a value without a slot is dropped, and the first failure is the end. So what is
left in the slots are the values of the last tasks to end at their places. One task after the other is looked at in
`collect` only; what a join returns is read off the slots behind the last of them.
-/

namespace JavaAtlas

namespace Schedule

open Steps

variable {α : Type} {place : Nat} {value : α} {found : List (Nat × α)}
  {completed rest : List (Nat × Completion α)}

/-- Takes tasks as they end, with the slots as the earlier ones have left them. -/
def collect : List (Option α) → List (Nat × Completion α) → Except Failure (List (Option α))
  | slots, [] => .ok slots
  | slots, (place, task) :: rest => do collect (slots.set place (some (← task.result))) rest

/-! ### The last value at a place -/

/-- The value that came to a place last, with none to this place behind it. -/
def LastValue (found : List (Nat × α)) (place : Nat) (value : α) : Prop :=
  ∃ before after, found = before ++ (place, value) :: after ∧ ∀ entry ∈ after, entry.1 ≠ place

theorem lastAt_concat (place other : Nat) (value : α) (found : List (Nat × α)) :
    lastAt place (found ++ [(other, value)]) = if other = place then some value else lastAt place found := by
  rw [lastAt, List.reverse_append, List.reverse_singleton, List.singleton_append, List.find?_cons]
  by_cases hplace : other = place
  · simp [hplace]
  · have hother : (other == place) = false := beq_eq_false_iff_ne.2 hplace
    rw [hother, if_neg hplace, lastAt]

theorem lastAt_eq_some_iff : lastAt place found = some value ↔ LastValue found place value := by
  simp only [LastValue, lastAt, Option.map_eq_some_iff, List.find?_eq_some_iff_append, Bool.not_eq_true', beq_iff_eq,
    beq_eq_false_iff_ne]
  constructor
  · rintro ⟨⟨_, _⟩, ⟨rfl, after, before, hfound, hafter⟩, rfl⟩
    refine ⟨before.reverse, after.reverse, ?_, fun entry hentry => hafter entry (List.mem_reverse.1 hentry)⟩
    rw [← List.reverse_reverse found, hfound]
    simp
  · rintro ⟨before, after, rfl, hafter⟩
    refine ⟨(place, value), ⟨rfl, after.reverse, before.reverse, by simp, ?_⟩, rfl⟩
    exact fun entry hentry => hafter entry (List.mem_reverse.1 hentry)

theorem lastAt_eq_none_iff : lastAt place found = none ↔ ∀ entry ∈ found, entry.1 ≠ place := by
  simp [lastAt]

/-! ### The slots -/

/-- The slots behind some tasks that have ended with values. -/
def slotsAfter (count : Nat) (found : List (Nat × α)) : List (Option α) :=
  (List.range count).map fun place => lastAt place found

theorem slotsAfter_nil (count : Nat) : slotsAfter count ([] : List (Nat × α)) = List.replicate count none := by
  rw [slotsAfter, List.eq_replicate_iff]
  simp [lastAt]

/-- One more value changes the slot of its place, if there is one. -/
theorem slotsAfter_concat (count place : Nat) (value : α) (found : List (Nat × α)) :
    slotsAfter count (found ++ [(place, value)]) = (slotsAfter count found).set place (some value) := by
  apply List.ext_getElem
  · simp [slotsAfter]
  · intro slot hslot hset
    rw [List.getElem_set]
    simp only [slotsAfter, List.getElem_map, List.getElem_range]
    exact lastAt_concat slot place value found

/-- Tasks that go on from some slots leave the slots behind all of them, or fail as the first of them to fail. -/
theorem collect_slotsAfter (count : Nat) (found : List (Nat × α)) (rest : List (Nat × Completion α)) :
    collect (slotsAfter count found) rest =
      (rest.mapM ended).map fun more => slotsAfter count (found ++ more) := by
  induction rest generalizing found with
  | nil => simp [collect, pure, Except.pure, Except.map]
  | cons entry rest ih =>
    obtain ⟨place, task⟩ := entry
    rw [collect, List.mapM_cons, ended]
    cases task.result with
    | error failure => rfl
    | ok value =>
      have hnext := ih (found ++ [(place, value)])
      rw [slotsAfter_concat] at hnext
      refine Eq.trans hnext ?_
      cases rest.mapM ended with
      | error failure => rfl
      | ok more =>
        have hfound : found ++ [(place, value)] ++ more = found ++ (place, value) :: more := by simp
        exact congrArg (fun all => Except.ok (slotsAfter count all)) hfound

theorem join_eq_collect (completed : List (Nat × Completion α)) :
    join completed = (collect (List.replicate completed.length none) completed).map fun slots =>
      slots.filterMap id := by
  rw [← slotsAfter_nil, collect_slotsAfter, join_eq_bind]
  cases completed.mapM ended with
  | error failure => rfl
  | ok found =>
    have hslots : (slotsAfter completed.length found).filterMap id =
        (List.range completed.length).filterMap fun place => lastAt place found := by
      rw [slotsAfter, List.filterMap_map, Function.id_comp]
    exact congrArg Except.ok hslots.symm

/-! ### What comes out -/

/-- A task that has ended with a value, from the value with its place. -/
def valued (entry : Nat × α) : Nat × Completion α :=
  (entry.1, .finished (.ok entry.2))

/-- The places with a slot to which a value came, in their order. -/
def takenPlaces (count : Nat) (found : List (Nat × α)) : List Nat :=
  (List.range count).filter fun place => found.any fun entry => entry.1 == place

/-- What some tasks come to that ended one after the other: the values that came last to the taken places if all have
ended with values, and the failure of the first other task if there is one. -/
inductive ComesTo (completed : List (Nat × Completion α)) : Except Failure (List α) → Prop where
  | values {found : List (Nat × α)} {values : List α} (hcompleted : completed = found.map valued)
      (hvalues : List.Forall₂ (LastValue found) (takenPlaces completed.length found) values) :
      ComesTo completed (.ok values)
  | failure {found : List (Nat × α)} {place : Nat} {failure : Failure} {after : List (Nat × Completion α)}
      (hcompleted : completed = found.map valued ++ (place, .finished (.error failure)) :: after) :
      ComesTo completed (.error failure)
  | crash {found : List (Nat × α)} {place : Nat} {report : String} {after : List (Nat × Completion α)}
      (hcompleted : completed = found.map valued ++ (place, .crashed report) :: after) :
      ComesTo completed (.error (.crash report))

theorem forall₂_lastValue_iff {places : List Nat} {values : List α} :
    List.Forall₂ (LastValue found) (places.filter fun place => found.any fun entry => entry.1 == place) values ↔
      (places.filterMap fun place => lastAt place found) = values := by
  induction places generalizing values with
  | nil => simp [eq_comm]
  | cons place places ih =>
    rw [List.filter_cons, List.filterMap_cons]
    cases hlast : lastAt place found with
    | none =>
      have htaken : (found.any fun entry => entry.1 == place) = false := by
        simpa using lastAt_eq_none_iff.1 hlast
      simpa [htaken] using ih
    | some value =>
      have htaken : (found.any fun entry => entry.1 == place) = true := by
        obtain ⟨before, after, rfl, -⟩ := lastAt_eq_some_iff.1 hlast
        simp
      have hlastValue (other : α) : LastValue found place other ↔ other = value := by
        rw [← lastAt_eq_some_iff, hlast, Option.some.injEq, eq_comm]
      simp only [htaken, if_true, List.forall₂_cons_left_iff, hlastValue, ih]
      constructor
      · rintro ⟨_, _, rfl, rfl, rfl⟩
        rfl
      · rintro rfl
        exact ⟨value, _, rfl, rfl, rfl⟩

theorem collect_valued (count : Nat) (found more : List (Nat × α)) (rest : List (Nat × Completion α)) :
    collect (slotsAfter count found) (more.map valued ++ rest) =
      collect (slotsAfter count (found ++ more)) rest := by
  induction more generalizing found with
  | nil => simp
  | cons entry more ih =>
    obtain ⟨place, value⟩ := entry
    have hnext := ih (found ++ [(place, value)])
    rw [slotsAfter_concat, List.append_assoc, List.singleton_append] at hnext
    exact hnext

theorem join_valued (found : List (Nat × α)) :
    join (found.map valued) =
      .ok ((List.range found.length).filterMap fun place => lastAt place found) := by
  have hslots := collect_valued found.length [] found []
  rw [List.append_nil, slotsAfter_nil, List.nil_append, collect] at hslots
  rw [join_eq_collect, List.length_map, hslots, Except.map, slotsAfter, List.filterMap_map, Function.id_comp]

theorem join_valued_append (found : List (Nat × α)) {entry : Nat × Completion α} {failure : Failure}
    (hentry : entry.2.result = .error failure) (after : List (Nat × Completion α)) :
    join (found.map valued ++ entry :: after) = .error failure := by
  obtain ⟨place, task⟩ := entry
  rw [join_eq_collect, ← slotsAfter_nil, collect_valued, collect, hentry]
  rfl

theorem result_eq_ok_iff {task : Completion α} : task.result = .ok value ↔ task = .finished (.ok value) := by
  cases task with
  | finished result => simp [Completion.result]
  | crashed report => simp [Completion.result]

/-- Either all of some tasks have ended with values, or there is a first one that has failed. -/
theorem all_valued_or_first_failed (completed : List (Nat × Completion α)) :
    (∃ found : List (Nat × α), completed = found.map valued) ∨
      ∃ (found : List (Nat × α)) (entry : Nat × Completion α) (after : List (Nat × Completion α)) (failure : Failure),
        completed = found.map valued ++ entry :: after ∧ entry.2.result = .error failure := by
  induction completed with
  | nil => exact Or.inl ⟨[], rfl⟩
  | cons entry rest ih =>
    obtain ⟨place, task⟩ := entry
    cases hresult : task.result with
    | error failure => exact Or.inr ⟨[], (place, task), rest, failure, rfl, hresult⟩
    | ok value =>
      have htask : (place, task) = valued (place, value) := by
        rw [valued, result_eq_ok_iff.1 hresult]
      rw [htask]
      rcases ih with ⟨found, rfl⟩ | ⟨found, other, after, failure, rfl, hother⟩
      · exact Or.inl ⟨(place, value) :: found, rfl⟩
      · exact Or.inr ⟨(place, value) :: found, other, after, failure, rfl, hother⟩

/-- A join returns what its tasks come to. -/
theorem join_eq_iff {outcome : Except Failure (List α)} : join completed = outcome ↔ ComesTo completed outcome := by
  constructor
  · rintro rfl
    rcases all_valued_or_first_failed completed with ⟨found, rfl⟩ | ⟨found, ⟨place, task⟩, after, failure, rfl, htask⟩
    · rw [join_valued]
      refine .values rfl (forall₂_lastValue_iff.2 ?_)
      rw [List.length_map]
    · rw [join_valued_append found htask]
      cases task with
      | finished result =>
        rw [Completion.result] at htask
        rw [htask]
        exact .failure rfl
      | crashed report =>
        cases htask
        exact .crash rfl
  · intro h
    cases h with
    | values hcompleted hvalues =>
      rw [hcompleted, join_valued, ← forall₂_lastValue_iff.1 hvalues, hcompleted, List.length_map]
    | failure hcompleted => exact hcompleted ▸ join_valued_append _ rfl _
    | crash hcompleted => exact hcompleted ▸ join_valued_append _ rfl _

/-- A place is filled twice, another one has no slot, and two slots stay empty. -/
example : join [(1, .finished (.ok "a")), (3, .finished (.ok "b")), (1, .finished (.ok "c"))] = .ok ["c"] := rfl

/-! ### Any order -/

/-- Some tasks, each with its place among them. -/
def placed {β : Type} (tasks : List β) : List (Nat × β) :=
  tasks.zipIdx.map Prod.swap

theorem places_perm_range {β : Type} {tasks : List β} {order : List (Nat × β)} (h : order.Perm (placed tasks)) :
    (order.map Prod.fst).Perm (List.range tasks.length) := by
  have hplaces := h.map Prod.fst
  rw [placed, List.map_map] at hplaces
  rw [List.range_eq_range', ← List.zipIdx_map_snd 0 tasks]
  exact hplaces

/-- Tasks in any order are arranged by the order of their places. -/
theorem arrange_places {β : Type} {tasks : List β} {order : List (Nat × β)} (h : order.Perm (placed tasks)) :
    arrange (order.map Prod.fst) tasks = order := by
  rw [arrange, List.filterMap_map]
  refine (List.filterMap_congr ?_).trans List.filterMap_some
  intro entry hentry
  obtain ⟨⟨task, place⟩, htask, rfl⟩ := List.mem_map.1 (h.mem_iff.1 hentry)
  have hat : tasks[place]? = some task := List.mem_zipIdx_iff_getElem?.1 htask
  simp [hat]

theorem mapM_result_finished (values : List α) :
    (values.map fun value => Completion.finished (.ok value)).mapM Completion.result = .ok values := by
  rw [mapM_eq_ok_iff, List.forall₂_map_left_iff, List.forall₂_same]
  exact fun _ _ => rfl

/-- **A join returns the values that came last to their places, by increasing place, or the first failure**, which is
one of the run time where a task has crashed. Tasks that bring one value to each place are joined to the values in the
order of the places, in whatever order they end. -/
theorem join_in_every_order (completed : List (Nat × Completion α)) :
    (∀ outcome, join completed = outcome ↔ ComesTo completed outcome) ∧ (∀ report, (Failure.crash report).kind = .runtime) ∧
      ∀ values : List α, completed.Perm (placed (values.map fun value => .finished (.ok value))) →
        join completed = .ok values := by
  refine ⟨fun _ => join_eq_iff, fun _ => rfl, ?_⟩
  intro values hperm
  rw [← arrange_places hperm]
  exact join_arrange_of_mapM (places_perm_range hperm) (mapM_result_finished values)

/-- Three tasks of which the last is the first to end. -/
def overtakenTasks : List (Nat × Completion String) :=
  [(2, .finished (.ok "c")), (0, .finished (.ok "a")), (1, .finished (.ok "b"))]

theorem overtakenTasks_joined :
    overtakenTasks.Perm (placed (["a", "b", "c"].map fun value => .finished (.ok value))) ∧
      join overtakenTasks = .ok ["a", "b", "c"] := by
  have hperm : overtakenTasks.Perm (placed (["a", "b", "c"].map fun value => .finished (.ok value))) :=
    (List.Perm.swap _ _ _).trans ((List.Perm.swap _ _ _).cons _)
  exact ⟨hperm, (join_in_every_order overtakenTasks).2.2 _ hperm⟩

end Schedule

end JavaAtlas

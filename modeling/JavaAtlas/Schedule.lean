import JavaAtlas.Failure

/-!
# Joining tasks

Tasks run side by side and end in some order, which is all that is known of them. Each carries the place of
its value among the results. The first failure in the order of completion ends the join; without one the
values stand in the order of their places, whatever the order of completion.
-/

namespace JavaAtlas.Schedule

/-- How a task ends: with a result or by breaking down, which leaves a report behind. -/
inductive Completion (α : Type) where
  | finished (result : Except Failure α)
  | crashed (report : String := "a task panicked")
deriving Inhabited

/-- What a task that has ended leaves behind. -/
def Completion.result {α : Type} : Completion α → Except Failure α
  | finished result => result
  | crashed report => .error (.crash report)

/-- Some tasks with their places, in an order of completion. -/
def arrange {α : Type} (order : List Nat) (tasks : List α) : List (Nat × α) :=
  order.filterMap fun place => tasks[place]?.map fun task => (place, task)

/-- The value of the last of some ended tasks that carries a place. -/
def lastAt {α : Type} (place : Nat) (ended : List (Nat × α)) : Option α :=
  (ended.reverse.find? fun entry => entry.1 == place).map fun entry => entry.2

/-- The values of tasks, given with their places in the order of completion. There are as many places as
tasks, so what carries a larger place is dropped. -/
def join {α : Type} (completed : List (Nat × Completion α)) : Except Failure (List α) := do
  let ended ← completed.mapM fun entry => return (entry.1, ← entry.2.result)
  return (List.range completed.length).filterMap fun place => lastAt place ended

end JavaAtlas.Schedule

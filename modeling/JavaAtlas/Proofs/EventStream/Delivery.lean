import Mathlib.Logic.Relation
import JavaAtlas.EventStream.Delivery
import JavaAtlas.Proofs.Discovery.Listings

/-!
# Every delivery brings the whole stream, in order

The parties of a delivery may move in any order and the channel may have any capacity, yet the subscriber
always has a beginning of the stream, and all of it once the channel is closed. The invariant is an account of
the items: those received, those in the channel, and those that the producer and the supervisor still owe make
up the stream, in this order. It rests on the supervisor keeping still until the producer has ended. Besides,
some party can always move until the channel is closed, and every move leaves less to be done.
-/

namespace JavaAtlas

namespace EventStream

variable {workspace : Workspace} {root path : String} {rest : List String}

/-! ### What a stream consists of -/

/-- A source that can be read, with the event on it. -/
def Reports (workspace : Workspace) (path : String) (event : Event) : Prop :=
  ∃ source, workspace.reader path = .text source ∧
    event = ⟨Event.classNameOf path source, Header.imports source⟩

/-- A source that cannot be read, with the failure that comes of it. -/
inductive Refuses (workspace : Workspace) (path : String) : Failure → Prop where
  | refused {reason : String} (hread : workspace.reader path = .refused reason) :
      Refuses workspace path (.unreadable path reason)
  | crashed {report : String} (hread : workspace.reader path = .crashed report) :
      Refuses workspace path (.crash report)

/-- The events of a stream and the failure that ends it, if one does: the root is no directory, there is no
source below it, or a source cannot be read; then the sources before it have their events. -/
inductive Outcome (workspace : Workspace) (root : String) : List Event → Option Failure → Prop where
  | noDirectory (hroot : workspace.tree.isDirectory root = false) :
      Outcome workspace root [] (some (.invalidPath root))
  | noSources (hfound : Discovery.sources workspace.tree workspace.extension root = .ok []) :
      Outcome workspace root [] (some (.noSources root))
  | complete {found : List String} {events : List Event}
      (hfound : Discovery.sources workspace.tree workspace.extension root = .ok found)
      (hne : found ≠ []) (hevents : List.Forall₂ (Reports workspace) found events) :
      Outcome workspace root events none
  | stopped {before after : List String} {path : String} {events : List Event} {failure : Failure}
      (hfound : Discovery.sources workspace.tree workspace.extension root =
        .ok (before ++ path :: after))
      (hevents : List.Forall₂ (Reports workspace) before events)
      (hfailure : Refuses workspace path failure) : Outcome workspace root events (some failure)

/-- The items for some events and then a failure, if there is one. -/
def itemsFor (events : List Event) (failure? : Option Failure) : List Item :=
  events.map Except.ok ++ failure?.toList.map Except.error

theorem itemAt_eq_ok_iff {event : Event} :
    itemAt workspace path = .ok event ↔ Reports workspace path event := by
  unfold itemAt Reports
  cases hread : workspace.reader path with
  | text source => simp [Event.ofSource, eq_comm]
  | refused reason => simp
  | crashed report => simp

theorem itemAt_eq_error_iff {failure : Failure} :
    itemAt workspace path = .error failure ↔ Refuses workspace path failure := by
  constructor
  · intro h
    unfold itemAt at h
    cases hread : workspace.reader path with
    | text source =>
      rw [hread] at h
      cases h
    | refused reason =>
      simp only [hread, Except.error.injEq] at h
      exact h ▸ .refused hread
    | crashed report =>
      simp only [hread, Except.error.injEq] at h
      exact h ▸ .crashed hread
  · intro h
    cases h with
    | refused hread => simp [itemAt, hread]
    | crashed hread => simp [itemAt, hread]

/-- The items for some sources: an event for each, or events up to the first that cannot be read. -/
theorem itemsOf_cases (workspace : Workspace) (paths : List String) :
    (∃ events, List.Forall₂ (Reports workspace) paths events ∧
      itemsOf workspace paths = itemsFor events none) ∨
    ∃ before path after events failure, paths = before ++ path :: after ∧
      List.Forall₂ (Reports workspace) before events ∧ Refuses workspace path failure ∧
      itemsOf workspace paths = itemsFor events (some failure) := by
  induction paths with
  | nil => exact Or.inl ⟨[], .nil, rfl⟩
  | cons path rest ih =>
    cases hitem : itemAt workspace path with
    | error failure =>
      refine Or.inr ⟨[], path, rest, [], failure, rfl, .nil, itemAt_eq_error_iff.1 hitem, ?_⟩
      rw [itemsOf, hitem]
      rfl
    | ok event =>
      have hitems : itemsOf workspace (path :: rest) = .ok event :: itemsOf workspace rest := by
        rw [itemsOf, hitem]
      have hreports := itemAt_eq_ok_iff.1 hitem
      rcases ih with ⟨events, hevents, heq⟩ | ⟨before, stop, after, events, failure, rfl, hevents, hstop, heq⟩
      · exact Or.inl ⟨event :: events, .cons hreports hevents, by rw [hitems, heq]; rfl⟩
      · exact Or.inr ⟨path :: before, stop, after, event :: events, failure, rfl,
          .cons hreports hevents, hstop, by rw [hitems, heq]; rfl⟩

theorem sources_eq_error {tree : FileTree} {extension : String} {failure : Failure}
    (h : Discovery.sources tree extension root = .error failure) :
    tree.isDirectory root = false ∧ failure = .invalidPath root := by
  have hnone : ¬ ∃ found, Discovery.sources tree extension root = .ok found := by
    intro ⟨found, hfound⟩
    cases h.symm.trans hfound
  rw [Discovery.exists_sources_iff, Bool.not_eq_true] at hnone
  refine ⟨hnone, ?_⟩
  rw [Discovery.sources, Steps.bind_eq_error_iff] at h
  rcases h with h | ⟨entries, -, h⟩
  · unfold Discovery.entriesAt at h
    split at h
    · cases h
    · exact (Except.error.inj h).symm
  · exact absurd h Steps.pure_ne_error

theorem exists_outcome (workspace : Workspace) (root : String) :
    ∃ events failure?, Outcome workspace root events failure? ∧
      items workspace root = itemsFor events failure? := by
  cases hfound : Discovery.sources workspace.tree workspace.extension root with
  | error failure =>
    obtain ⟨hroot, rfl⟩ := sources_eq_error hfound
    exact ⟨[], _, .noDirectory hroot, by rw [items, hfound]; rfl⟩
  | ok found =>
    cases hlist : found with
    | nil =>
      rw [hlist] at hfound
      exact ⟨[], _, .noSources hfound, by rw [items, hfound]; rfl⟩
    | cons path rest =>
      have hne : found ≠ [] := hlist ▸ List.cons_ne_nil path rest
      have hitems : items workspace root = itemsOf workspace found := by
        rw [items, hfound, hlist]
      rcases itemsOf_cases workspace found with
        ⟨events, hevents, heq⟩ | ⟨before, stop, after, events, failure, hsplit, hevents, hstop, heq⟩
      · exact ⟨events, none, .complete hfound hne hevents, hitems.trans heq⟩
      · rw [hsplit] at hfound
        exact ⟨events, some failure, .stopped hfound hevents hstop, hitems.trans heq⟩

theorem eq_nil_of_behind_failure {before after : List Item} {failure : Failure}
    (h : items workspace root = before ++ .error failure :: after) : after = [] := by
  have hordered : (items workspace root).Pairwise fun item _ => ∃ event, item = .ok event := by
    obtain ⟨events, failure?, -, hitems⟩ := exists_outcome workspace root
    rw [hitems, itemsFor, List.pairwise_append]
    refine ⟨List.pairwise_map.2 (List.pairwise_of_forall fun event _ => ⟨event, rfl⟩), ?_, ?_⟩
    · cases failure? with
      | none => exact .nil
      | some failure => exact List.pairwise_singleton _ _
    · intro item hitem _ _
      obtain ⟨event, -, rfl⟩ := List.mem_map.1 hitem
      exact ⟨event, rfl⟩
  rw [h, List.pairwise_append, List.pairwise_cons] at hordered
  apply List.eq_nil_iff_forall_not_mem.2
  intro item hitem
  obtain ⟨event, hevent⟩ := hordered.2.1.1 item hitem
  cases hevent

/-! ### What the tasks still owe -/

/-- The items that a producer has still to put into the channel. -/
def Producer.owed (workspace : Workspace) (root : String) : Producer → List Item
  | .starting => items workspace root
  | .reading rest => itemsOf workspace rest
  | .offering event rest => .ok event :: itemsOf workspace rest
  | .failing failure => [.error failure]
  | .finished => []
  | .crashed _ => []

/-- The failure of a producer that broke down, as an item. -/
def Producer.breakdown : Producer → List Item
  | .crashed report => [.error (.crash report)]
  | _ => []

/-- The items that a supervisor has still to put into the channel, beside a producer. -/
def Supervisor.owed (producer : Producer) : Supervisor → List Item
  | .waiting => producer.breakdown
  | .failing failure => [.error failure]
  | .finished => []

/-- The items that the two tasks have still to put into the channel, those of the producer first. -/
def owed (workspace : Workspace) (root : String) (producer : Producer) (supervisor : Supervisor) :
    List Item :=
  producer.owed workspace root ++ supervisor.owed producer

theorem owed_afterWalk (workspace : Workspace) (root : String) :
    owed workspace root
        (.afterWalk root (Discovery.sources workspace.tree workspace.extension root)) .waiting =
      owed workspace root .starting .waiting := by
  unfold owed Producer.owed items
  cases Discovery.sources workspace.tree workspace.extension root with
  | error failure => rfl
  | ok found =>
    cases found with
    | nil => rfl
    | cons path rest => rfl

/-- No answer of the reader takes anything away from what is owed. If the producer breaks down, the supervisor
owes the failure. -/
theorem owed_afterAnswer (workspace : Workspace) (root path : String) (rest : List String) :
    owed workspace root (.afterAnswer path rest (workspace.reader path)) .waiting =
      owed workspace root (.reading (path :: rest)) .waiting := by
  cases hread : workspace.reader path <;>
    simp [owed, Producer.owed, Supervisor.owed, Producer.breakdown, Producer.afterAnswer, itemsOf, itemAt, hread]

namespace Delivery

variable {state next : Delivery}

theorem put?_eq_some_iff {α : Type} {item : α} {queue longer : List α} :
    put? workspace item queue = some longer ↔
      queue.length < capacity workspace ∧ longer = queue ++ [item] := by
  unfold put?
  split
  · next hroom => simp [hroom, eq_comm]
  · next hfull => simp [hfull]

theorem exists_put?_nil {α : Type} (workspace : Workspace) (item : α) :
    ∃ longer, put? workspace item [] = some longer := by
  refine ⟨_, put?_eq_some_iff.2 ⟨?_, rfl⟩⟩
  simp only [capacity, List.length_nil]
  omega

/-! ### What a move changes -/

/-- What a move of one of the two tasks can do to a delivery. The producer walks, reads a source or comes to the end of
the sources, or puts an item into the channel; the supervisor sees how the producer has ended, or puts the failure
in. -/
inductive Change (workspace : Workspace) (root : String) : Delivery → Delivery → Prop where
  | walks {supervisor : Supervisor} {queue received : List Item} :
      Change workspace root ⟨.starting, supervisor, queue, received⟩
        ⟨.afterWalk root (Discovery.sources workspace.tree workspace.extension root), supervisor, queue, received⟩
  | reads {path : String} {rest : List String} {supervisor : Supervisor} {queue received : List Item} :
      Change workspace root ⟨.reading (path :: rest), supervisor, queue, received⟩
        ⟨.afterAnswer path rest (workspace.reader path), supervisor, queue, received⟩
  | ends {supervisor : Supervisor} {queue received : List Item} :
      Change workspace root ⟨.reading [], supervisor, queue, received⟩ ⟨.finished, supervisor, queue, received⟩
  | offers {event : Event} {rest : List String} {supervisor : Supervisor} {queue received : List Item}
      (hroom : queue.length < capacity workspace) :
      Change workspace root ⟨.offering event rest, supervisor, queue, received⟩
        ⟨.reading rest, supervisor, queue ++ [.ok event], received⟩
  | fails {failure : Failure} {supervisor : Supervisor} {queue received : List Item}
      (hroom : queue.length < capacity workspace) :
      Change workspace root ⟨.failing failure, supervisor, queue, received⟩
        ⟨.finished, supervisor, queue ++ [.error failure], received⟩
  | releases {queue received : List Item} :
      Change workspace root ⟨.finished, .waiting, queue, received⟩ ⟨.finished, .finished, queue, received⟩
  | notices {report : String} {queue received : List Item} :
      Change workspace root ⟨.crashed report, .waiting, queue, received⟩
        ⟨.crashed report, .failing (.crash report), queue, received⟩
  | reports {producer : Producer} {failure : Failure} {queue received : List Item}
      (hroom : queue.length < capacity workspace) :
      Change workspace root ⟨producer, .failing failure, queue, received⟩
        ⟨producer, .finished, queue ++ [.error failure], received⟩

theorem change_of_producerStep (hstep : producerStep? workspace root state = some next) :
    Change workspace root state next := by
  obtain ⟨producer, supervisor, queue, received⟩ := state
  cases producer with
  | starting => exact Option.some.inj hstep ▸ .walks
  | reading rest =>
    cases rest with
    | nil => exact Option.some.inj hstep ▸ .ends
    | cons path rest => exact Option.some.inj hstep ▸ .reads
  | offering event rest =>
    obtain ⟨longer, hput, rfl⟩ := Option.map_eq_some_iff.1 hstep
    obtain ⟨hroom, rfl⟩ := put?_eq_some_iff.1 hput
    exact .offers hroom
  | failing failure =>
    obtain ⟨longer, hput, rfl⟩ := Option.map_eq_some_iff.1 hstep
    obtain ⟨hroom, rfl⟩ := put?_eq_some_iff.1 hput
    exact .fails hroom
  | finished | crashed => cases hstep

theorem change_of_supervisorStep (root : String) (hstep : supervisorStep? workspace state = some next) :
    Change workspace root state next := by
  obtain ⟨producer, supervisor, queue, received⟩ := state
  cases supervisor with
  | waiting =>
    cases producer with
    | finished => exact Option.some.inj hstep ▸ .releases
    | crashed report => exact Option.some.inj hstep ▸ .notices
    | _ => cases hstep
  | failing failure =>
    obtain ⟨longer, hput, rfl⟩ := Option.map_eq_some_iff.1 hstep
    obtain ⟨hroom, rfl⟩ := put?_eq_some_iff.1 hput
    exact .reports hroom
  | finished => cases hstep

/-- Only the subscriber takes items. -/
theorem Change.received_eq (h : Change workspace root state next) : next.received = state.received := by
  cases h <;> rfl

/-! ### The account of a delivery -/

/-- The account of a delivery: nothing of the stream is lost, doubled or out of order. -/
structure Accounts (workspace : Workspace) (root : String) (state : Delivery) : Prop where
  total : state.received ++ state.queue ++ owed workspace root state.producer state.supervisor =
    items workspace root
  supervised : state.producer.hasEnded = false → state.supervisor = .waiting

theorem accounts_start (workspace : Workspace) (root : String) : Accounts workspace root start where
  total := List.append_nil _
  supervised _ := rfl

theorem Accounts.change (haccounts : Accounts workspace root state) (h : Change workspace root state next) :
    Accounts workspace root next := by
  obtain ⟨htotal, hsupervised⟩ := haccounts
  -- A producer that can move has not ended, so the supervisor waits and stays out of the account.
  cases h with
  | @walks _ queue received =>
    cases hsupervised rfl
    have howed := owed_afterWalk workspace root
    exact ⟨(congrArg (received ++ queue ++ ·) howed).trans htotal, fun _ => rfl⟩
  | @reads path rest _ queue received =>
    cases hsupervised rfl
    have howed := owed_afterAnswer workspace root path rest
    exact ⟨(congrArg (received ++ queue ++ ·) howed).trans htotal, fun _ => rfl⟩
  | ends =>
    cases hsupervised rfl
    exact ⟨htotal, fun _ => rfl⟩
  | offers | fails =>
    cases hsupervised rfl
    refine ⟨?_, fun _ => rfl⟩
    simpa [owed, Producer.owed, Supervisor.owed, Producer.breakdown] using htotal
  | releases | notices => exact ⟨htotal, nofun⟩
  | @reports producer failure queue received =>
    -- Behind its item the supervisor owes nothing, and neither does a producer that has ended.
    have hended : producer.hasEnded = true := by
      by_contra hrunning
      cases hsupervised (Bool.not_eq_true _ ▸ hrunning)
    refine ⟨?_, fun hrunning => ?_⟩
    · cases producer with
      | finished | crashed => simpa [owed, Producer.owed, Supervisor.owed] using htotal
      | _ => cases hended
    · cases hended.symm.trans hrunning

theorem accounts_subscriberStep (haccounts : Accounts workspace root state)
    (hstep : subscriberStep? state = some next) : Accounts workspace root next := by
  obtain ⟨producer, supervisor, queue, received⟩ := state
  obtain ⟨htotal, hsupervised⟩ := haccounts
  cases queue with
  | nil => cases hstep
  | cons item queue =>
    cases hstep
    refine ⟨?_, hsupervised⟩
    rw [← htotal, List.append_assoc received, List.singleton_append]

theorem accounts_step {party : Party} (haccounts : Accounts workspace root state)
    (hstep : step? workspace root party state = some next) : Accounts workspace root next := by
  cases party with
  | producer => exact haccounts.change (change_of_producerStep hstep)
  | supervisor => exact haccounts.change (change_of_supervisorStep root hstep)
  | subscriber => exact accounts_subscriberStep haccounts hstep

def Moves (workspace : Workspace) (root : String) (state next : Delivery) : Prop :=
  ∃ party, step? workspace root party state = some next

def Leads (workspace : Workspace) (root : String) : Delivery → Delivery → Prop :=
  Relation.ReflTransGen (Moves workspace root)

theorem accounts_of_leads (h : Leads workspace root start state) : Accounts workspace root state := by
  induction h with
  | refl => exact accounts_start workspace root
  | tail _ hmove ih =>
    obtain ⟨party, hstep⟩ := hmove
    exact accounts_step ih hstep

/-- The items that the subscriber has not received: those in the channel, then those still owed. -/
def remaining (workspace : Workspace) (root : String) (state : Delivery) : List Item :=
  state.queue ++ owed workspace root state.producer state.supervisor

theorem received_append_remaining (haccounts : Accounts workspace root state) :
    state.received ++ remaining workspace root state = items workspace root := by
  rw [remaining, ← List.append_assoc]
  exact haccounts.total

theorem received_isPrefixOf (haccounts : Accounts workspace root state) :
    state.received <+: items workspace root :=
  ⟨_, received_append_remaining haccounts⟩

theorem isClosed_iff :
    state.isClosed = true ↔
      state.producer.hasEnded = true ∧ state.supervisor = .finished ∧ state.queue = [] := by
  simp only [isClosed, Bool.and_eq_true, beq_iff_eq, List.isEmpty_iff, and_assoc]

theorem remaining_of_isClosed (hclosed : state.isClosed = true) : remaining workspace root state = [] := by
  obtain ⟨hended, hsupervisor, hqueue⟩ := isClosed_iff.1 hclosed
  have hnothing : state.producer.owed workspace root = [] := by
    cases hproducer : state.producer with
    | finished => rfl
    | crashed => rfl
    | _ =>
      rw [hproducer] at hended
      cases hended
  rw [remaining, hqueue, hsupervisor, owed, hnothing]
  rfl

theorem received_of_isClosed (haccounts : Accounts workspace root state)
    (hclosed : state.isClosed = true) : state.received = items workspace root := by
  have htotal := received_append_remaining haccounts
  rwa [remaining_of_isClosed hclosed, List.append_nil] at htotal

theorem remaining_eq_of_received_eq (haccounts : Accounts workspace root state)
    (hnext : Accounts workspace root next) (hreceived : next.received = state.received) :
    remaining workspace root next = remaining workspace root state := by
  have htotal := (received_append_remaining hnext).trans (received_append_remaining haccounts).symm
  rw [hreceived] at htotal
  exact List.append_cancel_left htotal

theorem remaining_of_subscriberStep {item : Item} {rest : List Item} (hqueue : state.queue = item :: rest)
    (hstep : subscriberStep? state = some next) :
    remaining workspace root state = item :: remaining workspace root next := by
  rw [subscriberStep?, hqueue] at hstep
  rw [remaining, hqueue, ← Option.some.inj hstep]
  rfl

/-! ### The channel is closed in the end -/

/-- A bound on the moves that a producer has still to make, with those of its items out of the channel. -/
def producerWork (workspace : Workspace) (root : String) : Producer → Nat
  | .starting =>
    match Discovery.sources workspace.tree workspace.extension root with
    | .ok found => 3 * found.length + 5
    | .error _ => 5
  | .reading rest => 3 * rest.length + 2
  | .offering _ rest => 3 * rest.length + 4
  | .failing _ => 3
  | .finished => 0
  | .crashed _ => 0

def supervisorWork : Supervisor → Nat
  | .waiting => 3
  | .failing _ => 2
  | .finished => 0

/-- A bound on the moves that are left. -/
def work (workspace : Workspace) (root : String) (state : Delivery) : Nat :=
  producerWork workspace root state.producer + supervisorWork state.supervisor + state.queue.length

theorem work_afterWalk (workspace : Workspace) (root : String) :
    producerWork workspace root
        (.afterWalk root (Discovery.sources workspace.tree workspace.extension root)) <
      producerWork workspace root .starting := by
  unfold producerWork
  cases Discovery.sources workspace.tree workspace.extension root with
  | error failure => simp [Producer.afterWalk]
  | ok found => cases found <;> simp [Producer.afterWalk]

theorem work_afterAnswer (workspace : Workspace) (root path : String) (rest : List String) :
    producerWork workspace root (.afterAnswer path rest (workspace.reader path)) <
      producerWork workspace root (.reading (path :: rest)) := by
  cases workspace.reader path with
  | text source => simp only [Producer.afterAnswer, producerWork, List.length_cons]; omega
  | refused reason => simp only [Producer.afterAnswer, producerWork, List.length_cons]; omega
  | crashed => simp [Producer.afterAnswer, producerWork]

theorem Change.work_lt (h : Change workspace root state next) :
    work workspace root next < work workspace root state := by
  cases h with
  | walks =>
    have hless := work_afterWalk workspace root
    simp only [work]
    omega
  | @reads path rest =>
    have hless := work_afterAnswer workspace root path rest
    simp only [work]
    omega
  | ends => simp [work, producerWork]
  | offers | fails =>
    simp only [work, producerWork, List.length_append, List.length_singleton]
    omega
  | releases | notices => simp [work, supervisorWork]
  | reports =>
    simp only [work, supervisorWork, List.length_append, List.length_singleton]
    omega

/-- Every move leaves less to be done, so no delivery goes on for ever. -/
theorem work_lt_of_moves (h : Moves workspace root state next) :
    work workspace root next < work workspace root state := by
  obtain ⟨party, hstep⟩ := h
  cases party with
  | producer => exact (change_of_producerStep hstep).work_lt
  | supervisor => exact (change_of_supervisorStep root hstep).work_lt
  | subscriber =>
    obtain ⟨producer, supervisor, queue, received⟩ := state
    cases queue with
    | nil => cases hstep
    | cons item queue =>
      cases hstep
      simp [work]

/-- An item that waits for the channel can be put in, unless the channel is full and the subscriber can move. -/
theorem exists_put_or_subscriberStep (workspace : Workspace) (item : Item) (state : Delivery) :
    (∃ longer, put? workspace item state.queue = some longer) ∨
      ∃ next, subscriberStep? state = some next := by
  obtain ⟨producer, supervisor, queue, received⟩ := state
  cases queue with
  | nil => exact Or.inl (exists_put?_nil workspace item)
  | cons first rest => exact Or.inr ⟨_, rfl⟩

theorem exists_moves_of_running (workspace : Workspace) (root : String)
    (hrunning : state.producer.hasEnded = false) : ∃ next, Moves workspace root state next := by
  obtain ⟨producer, supervisor, queue, received⟩ := state
  cases producer with
  | starting => exact ⟨_, .producer, rfl⟩
  | reading rest =>
    cases rest with
    | nil => exact ⟨_, .producer, rfl⟩
    | cons path rest => exact ⟨_, .producer, rfl⟩
  | offering event rest =>
    rcases exists_put_or_subscriberStep workspace (.ok event)
      ⟨.offering event rest, supervisor, queue, received⟩ with ⟨longer, hput⟩ | ⟨next, hnext⟩
    · exact ⟨_, .producer, Option.map_eq_some_iff.2 ⟨longer, hput, rfl⟩⟩
    · exact ⟨next, .subscriber, hnext⟩
  | failing failure =>
    rcases exists_put_or_subscriberStep workspace (.error failure)
      ⟨.failing failure, supervisor, queue, received⟩ with ⟨longer, hput⟩ | ⟨next, hnext⟩
    · exact ⟨_, .producer, Option.map_eq_some_iff.2 ⟨longer, hput, rfl⟩⟩
    · exact ⟨next, .subscriber, hnext⟩
  | finished => cases hrunning
  | crashed => cases hrunning

theorem exists_moves_of_ended (workspace : Workspace) (root : String)
    (hended : state.producer.hasEnded = true) (hopen : ¬ state.isClosed = true) :
    ∃ next, Moves workspace root state next := by
  obtain ⟨producer, supervisor, queue, received⟩ := state
  cases supervisor with
  | waiting =>
    cases producer with
    | finished => exact ⟨_, .supervisor, rfl⟩
    | crashed => exact ⟨_, .supervisor, rfl⟩
    | _ => cases hended
  | failing failure =>
    rcases exists_put_or_subscriberStep workspace (.error failure)
      ⟨producer, .failing failure, queue, received⟩ with ⟨longer, hput⟩ | ⟨next, hnext⟩
    · exact ⟨_, .supervisor, Option.map_eq_some_iff.2 ⟨longer, hput, rfl⟩⟩
    · exact ⟨next, .subscriber, hnext⟩
  | finished =>
    cases queue with
    | nil => exact absurd (isClosed_iff.2 ⟨hended, rfl, rfl⟩) hopen
    | cons item queue => exact ⟨_, .subscriber, rfl⟩

theorem exists_moves (workspace : Workspace) (root : String) (hopen : ¬ state.isClosed = true) :
    ∃ next, Moves workspace root state next := by
  cases hended : state.producer.hasEnded with
  | false => exact exists_moves_of_running workspace root hended
  | true => exact exists_moves_of_ended workspace root hended hopen

theorem exists_leads_isClosed (workspace : Workspace) (root : String) (state : Delivery) :
    ∃ final, Leads workspace root state final ∧ final.isClosed = true :=
  Steps.exists_reflTransGen_of_work (work workspace root) (fun _ _ => work_lt_of_moves)
    (fun _ => exists_moves workspace root) state

/-- **A delivery brings the stream, whatever the capacity of the channel and the order of the moves.** The
stream is an event for each source in the order of the walk, up to the first failure, which is its last item.
What the subscriber has is at every moment a beginning of it, and all of it when the channel is closed, as it
can always come to be. -/
theorem received_in_every_interleaving (workspace : Workspace) (root : String) :
    ∃ events failure?, Outcome workspace root events failure? ∧
      items workspace root = itemsFor events failure? ∧
      ∀ state, Leads workspace root start state →
        state.received <+: itemsFor events failure? ∧
        (state.isClosed = true → state.received = itemsFor events failure?) ∧
        ∃ final, Leads workspace root state final ∧ final.isClosed = true := by
  obtain ⟨events, failure?, houtcome, hitems⟩ := exists_outcome workspace root
  refine ⟨events, failure?, houtcome, hitems, ?_⟩
  intro state hleads
  have haccounts := accounts_of_leads hleads
  rw [← hitems]
  exact ⟨received_isPrefixOf haccounts, received_of_isClosed haccounts,
    exists_leads_isClosed workspace root state⟩

end Delivery

end EventStream

end JavaAtlas

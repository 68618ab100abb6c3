import JavaAtlas.EventStream

/-!
# Delivery of a stream

How the items of a stream come to its subscriber. A producer walks and reads, and puts what it finds into a
channel of limited capacity; a supervisor waits for the producer to end and, if it broke down, puts one failure
behind its items; the subscriber takes items out in the order in which they were put in. The parties move in
any order. Each of the first two holds the channel open until it ends, so the channel is closed when both have
ended and nothing is left in it.
-/

namespace JavaAtlas.EventStream

abbrev Item := Except Failure Event

/-- Where the producer stands: before the walk, before the sources that it has still to read, before an event or
a failure that waits for room in the channel, or at its end, in order or not. -/
inductive Producer where
  | starting
  | reading (rest : List String)
  | offering (event : Event) (rest : List String)
  | failing (failure : Failure)
  | finished
  | crashed (report : String)
deriving DecidableEq, Repr, Inhabited

/-- Where the supervisor stands: it waits for the producer, has a failure to put into the channel, or has ended. -/
inductive Supervisor where
  | waiting
  | failing (failure : Failure)
  | finished
deriving DecidableEq, Repr, Inhabited

def Producer.afterWalk (root : String) : Except Failure (List String) → Producer
  | .error failure => .failing failure
  | .ok [] => .failing (.noSources root)
  | .ok found => .reading found

def Producer.afterAnswer (path : String) (rest : List String) : Answer → Producer
  | .text source => .offering (Event.ofSource path source) rest
  | .refused reason => .failing (.unreadable path reason)
  | .crashed report => .crashed report

/-- Whether the producer has ended and so let go of the channel. -/
def Producer.hasEnded : Producer → Bool
  | finished => true
  | crashed _ => true
  | _ => false

/-- A moment of a delivery: where the two tasks stand, what is in the channel, and what the subscriber has. -/
structure Delivery where
  producer : Producer
  supervisor : Supervisor
  queue : List Item
  received : List Item

inductive Party where
  | producer
  | supervisor
  | subscriber
deriving DecidableEq, Repr

namespace Delivery

/-- The moment at which a subscriber comes. -/
def start : Delivery where
  producer := .starting
  supervisor := .waiting
  queue := []
  received := []

/-- Whether the subscriber sees the end of the stream. -/
def isClosed (state : Delivery) : Bool :=
  state.producer.hasEnded && state.supervisor == .finished && state.queue.isEmpty

/-- How many items a channel of a workspace holds: at least one. -/
def capacity (workspace : Workspace) : Nat :=
  max workspace.settings.streamBuffer 1

/-- A channel of a workspace with one more item, if there is room for it. -/
def put? {α : Type} (workspace : Workspace) (item : α) (queue : List α) : Option (List α) :=
  if queue.length < capacity workspace then some (queue ++ [item]) else none

variable (workspace : Workspace) (root : String)

def producerStep? (state : Delivery) : Option Delivery :=
  match state.producer with
  | .starting =>
    let found := Discovery.sources workspace.tree workspace.extension root
    some { state with producer := .afterWalk root found }
  | .reading [] => some { state with producer := .finished }
  | .reading (path :: rest) =>
    some { state with producer := .afterAnswer path rest (workspace.reader path) }
  | .offering event rest =>
    (put? workspace (.ok event) state.queue).map fun queue =>
      { state with producer := .reading rest, queue }
  | .failing failure =>
    (put? workspace (.error failure) state.queue).map fun queue =>
      { state with producer := .finished, queue }
  | .finished => none
  | .crashed _ => none

def supervisorStep? (state : Delivery) : Option Delivery :=
  match state.supervisor, state.producer with
  | .waiting, .finished => some { state with supervisor := .finished }
  | .waiting, .crashed report => some { state with supervisor := .failing (.crash report) }
  | .waiting, _ => none
  | .failing failure, _ =>
    (put? workspace (.error failure) state.queue).map fun queue =>
      { state with supervisor := .finished, queue }
  | .finished, _ => none

def subscriberStep? (state : Delivery) : Option Delivery :=
  match state.queue with
  | [] => none
  | item :: rest => some { state with queue := rest, received := state.received ++ [item] }

/-- The next moment if a party moves; none if it has to wait or has ended. -/
def step? (party : Party) (state : Delivery) : Option Delivery :=
  match party with
  | .producer => producerStep? workspace root state
  | .supervisor => supervisorStep? workspace state
  | .subscriber => subscriberStep? state

end Delivery

end JavaAtlas.EventStream

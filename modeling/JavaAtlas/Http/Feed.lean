import JavaAtlas.EventStream.Delivery
import JavaAtlas.Http.Router

/-!
# The feed of a stream

How a stream comes to a client as server-sent events. A forwarder is the subscriber of a delivery: it makes a
reply of each item and puts it into a second channel of limited capacity, and the client takes the replies out in
the order in which they were put in. The forwarder counts events. When it sees the end of the stream it tells
their number and ends; at a failure it tells the failure, ends, and takes no more items. The parties move in any
order. The client reads on to the end, so that the second channel is never let go of.
-/

namespace JavaAtlas.Http

open EventStream

/-- What a client is told: an event, or how the stream ended. -/
inductive Reply where
  | event (event : Event)
  | failure (failure : Failure)
  | complete (files : Nat)
deriving DecidableEq, Repr, Inhabited

namespace Reply

def name : Reply → String
  | .event _ => "class"
  | .failure _ => "error"
  | .complete _ => "complete"

def document : Reply → Json.Document
  | .event found => Json.eventDocument found
  | .failure cause => (Json.ErrorResponse.ofFailure cause).document
  | .complete files => Json.summaryDocument files

def text (reply : Reply) : String :=
  serverEvent reply.name reply.document

end Reply

/-- Where the forwarder stands: before the next item, after some events; before an event, the last of those it has
counted, that waits for room in the channel; before its last reply; or at its end. -/
inductive Forwarder where
  | taking (files : Nat)
  | offering (event : Event) (files : Nat)
  | closing (reply : Reply)
  | finished
deriving DecidableEq, Repr, Inhabited

/-- Where the forwarder stands when it has taken an item. -/
def Forwarder.afterItem (files : Nat) : Item → Forwarder
  | .ok event => .offering event (files + 1)
  | .error failure => .closing (.failure failure)

/-- A moment of a feed: how far the delivery is, where the forwarder stands, what is in its channel, and what the
client has been told. -/
structure Feed where
  delivery : Delivery
  forwarder : Forwarder
  queue : List Reply
  answered : List Reply

namespace Feed

/-- The parties of a feed: those of the delivery, with the forwarder in the place of the subscriber, and the
client. -/
inductive Party where
  | producer
  | supervisor
  | forwarder
  | client
deriving DecidableEq, Repr

/-- The moment at which a request comes. -/
def start : Feed where
  delivery := .start
  forwarder := .taking 0
  queue := []
  answered := []

/-- Whether the client sees the end of the body. -/
def isClosed (feed : Feed) : Bool :=
  feed.forwarder == .finished && feed.queue.isEmpty

def body (feed : Feed) : String :=
  String.join (feed.answered.map Reply.text)

variable (workspace : Workspace) (root : String)

def forwarderStep? (feed : Feed) : Option Feed :=
  match feed.forwarder with
  | .taking files =>
    match feed.delivery.queue with
    | item :: _ =>
      feed.delivery.subscriberStep?.map fun delivery =>
        { feed with delivery, forwarder := .afterItem files item }
    | [] =>
      if feed.delivery.isClosed then some { feed with forwarder := .closing (.complete files) } else none
  | .offering event files =>
    (Delivery.put? workspace (.event event) feed.queue).map fun queue =>
      { feed with forwarder := .taking files, queue }
  | .closing reply =>
    (Delivery.put? workspace reply feed.queue).map fun queue =>
      { feed with forwarder := .finished, queue }
  | .finished => none

def clientStep? (feed : Feed) : Option Feed :=
  match feed.queue with
  | [] => none
  | reply :: rest => some { feed with queue := rest, answered := feed.answered ++ [reply] }

/-- The next moment if a party moves; none if it has to wait or has ended. -/
def step? (party : Party) (feed : Feed) : Option Feed :=
  match party with
  | .producer => (feed.delivery.producerStep? workspace root).map fun delivery => { feed with delivery }
  | .supervisor => (feed.delivery.supervisorStep? workspace).map fun delivery => { feed with delivery }
  | .forwarder => forwarderStep? workspace feed
  | .client => clientStep? feed

end Feed

end JavaAtlas.Http

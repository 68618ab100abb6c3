import JavaAtlas.CommandLine.Outcome
import JavaAtlas.Http.Feed
import JavaAtlas.Proofs.EventStream.Delivery
import JavaAtlas.Proofs.Http.ServerEvents
import JavaAtlas.Proofs.Json.Forms
import JavaAtlas.Proofs.Text.Parts

/-!
# Every feed tells the whole stream, once

However the parties of a feed move and whatever its channels hold, what the client is told is at every moment a
beginning of the same replies: one for each event of the stream, then one for its end. The invariant is an account
as it is for a delivery: the replies that the client has, those in the channel, and those to come from the forwarder
out of the items it has still to take are the replies to the whole stream. The replies go out as server-sent events,
where a reader finds each of them again as one message.
-/

namespace JavaAtlas.Http

open EventStream

variable {workspace : Workspace} {root : String} {sent : Nat}

/-! ### The replies to a stream -/

/-- The replies to the items of a stream behind some events. -/
def repliesOf (sent : Nat) : List Item → List Reply
  | [] => [.complete sent]
  | .ok event :: rest => .event event :: repliesOf (sent + 1) rest
  | .error failure :: _ => [.failure failure]

theorem join_text_singleton (reply : Reply) : String.join ([reply].map Reply.text) = reply.text := by
  rw [List.map_singleton, String.join_cons, String.join_nil, String.append_empty]

theorem join_repliesOf (sent : Nat) (items : List Item) :
    String.join ((repliesOf sent items).map Reply.text) = serverEvents sent items := by
  induction items generalizing sent with
  | nil => exact join_text_singleton (.complete sent)
  | cons item rest ih =>
    cases item with
    | error failure => exact join_text_singleton (.failure failure)
    | ok event =>
      rw [repliesOf, serverEvents, ← ih (sent + 1), List.map_cons, String.join_cons]
      rfl

/-- The replies that are to come from a forwarder before some items. -/
def Forwarder.toCome (rest : List Item) : Forwarder → List Reply
  | .taking files => repliesOf files rest
  | .offering event files => .event event :: repliesOf files rest
  | .closing reply => [reply]
  | .finished => []

/-- Whether the forwarder takes no more items. -/
def Forwarder.isClosing : Forwarder → Bool
  | .closing _ => true
  | .finished => true
  | _ => false

namespace Feed

variable {feed next : Feed}

/-! ### What a move changes -/

def Moves (workspace : Workspace) (root : String) (feed next : Feed) : Prop :=
  ∃ party, step? workspace root party feed = some next

def Leads (workspace : Workspace) (root : String) : Feed → Feed → Prop :=
  Relation.ReflTransGen (Moves workspace root)

/-- What a move can do to a feed: a task of the delivery moves, the forwarder takes an item, sees the end of the
stream, or puts a reply into its channel, or the client takes a reply. -/
inductive Change (workspace : Workspace) (root : String) (feed : Feed) : Feed → Prop where
  | delivers {delivery : Delivery} (hmove : feed.delivery.Moves workspace root delivery)
      (hreceived : delivery.received = feed.delivery.received) :
      Change workspace root feed { feed with delivery }
  | takes {files : Nat} {item : Item} {rest : List Item} {delivery : Delivery}
      (hforwarder : feed.forwarder = .taking files) (hqueue : feed.delivery.queue = item :: rest)
      (hstep : feed.delivery.subscriberStep? = some delivery) :
      Change workspace root feed { feed with delivery, forwarder := .afterItem files item }
  | ends {files : Nat} (hforwarder : feed.forwarder = .taking files)
      (hclosed : feed.delivery.isClosed = true) :
      Change workspace root feed { feed with forwarder := .closing (.complete files) }
  | offers {event : Event} {files : Nat} (hforwarder : feed.forwarder = .offering event files) :
      Change workspace root feed
        { feed with forwarder := .taking files, queue := feed.queue ++ [.event event] }
  | closes {reply : Reply} (hforwarder : feed.forwarder = .closing reply) :
      Change workspace root feed { feed with forwarder := .finished, queue := feed.queue ++ [reply] }
  | answers {reply : Reply} {rest : List Reply} (hqueue : feed.queue = reply :: rest) :
      Change workspace root feed { feed with queue := rest, answered := feed.answered ++ [reply] }

theorem change_of_forwarderStep (hstep : forwarderStep? workspace feed = some next) :
    Change workspace root feed next := by
  unfold forwarderStep? at hstep
  split at hstep
  · next files hforwarder =>
    split at hstep
    · next item rest hqueue =>
      obtain ⟨delivery, htaken, rfl⟩ := Option.map_eq_some_iff.1 hstep
      exact .takes hforwarder hqueue htaken
    · next hqueue =>
      split at hstep
      · next hclosed => exact Option.some.inj hstep ▸ .ends hforwarder hclosed
      · cases hstep
  · next event files hforwarder =>
    obtain ⟨longer, hput, rfl⟩ := Option.map_eq_some_iff.1 hstep
    obtain ⟨-, rfl⟩ := Delivery.put?_eq_some_iff.1 hput
    exact .offers hforwarder
  · next reply hforwarder =>
    obtain ⟨longer, hput, rfl⟩ := Option.map_eq_some_iff.1 hstep
    obtain ⟨-, rfl⟩ := Delivery.put?_eq_some_iff.1 hput
    exact .closes hforwarder
  · cases hstep

theorem change_of_moves (h : Moves workspace root feed next) : Change workspace root feed next := by
  obtain ⟨party, hstep⟩ := h
  cases party with
  | producer =>
    obtain ⟨delivery, hdelivery, rfl⟩ := Option.map_eq_some_iff.1 hstep
    exact .delivers ⟨.producer, hdelivery⟩ (Delivery.change_of_producerStep hdelivery).received_eq
  | supervisor =>
    obtain ⟨delivery, hdelivery, rfl⟩ := Option.map_eq_some_iff.1 hstep
    exact .delivers ⟨.supervisor, hdelivery⟩ (Delivery.change_of_supervisorStep root hdelivery).received_eq
  | forwarder => exact change_of_forwarderStep hstep
  | client =>
    simp only [step?, clientStep?] at hstep
    split at hstep
    · cases hstep
    · next reply rest hqueue => exact Option.some.inj hstep ▸ .answers hqueue

/-! ### The account of a feed -/

/-- The account of a feed: no reply is lost, doubled or out of order, and once its last reply is under way nothing
remains to be taken from the delivery. -/
structure Accounts (workspace : Workspace) (root : String) (feed : Feed) : Prop where
  delivered : feed.delivery.Accounts workspace root
  replied : feed.answered ++ feed.queue ++ feed.forwarder.toCome (feed.delivery.remaining workspace root) =
    repliesOf 0 (items workspace root)
  settled : feed.forwarder.isClosing = true → feed.delivery.remaining workspace root = []

theorem accounts_start (workspace : Workspace) (root : String) : Accounts workspace root start where
  delivered := Delivery.accounts_start workspace root
  replied := by
    have hremaining := Delivery.received_append_remaining (Delivery.accounts_start workspace root)
    exact congrArg (repliesOf 0) hremaining
  settled h := absurd h Bool.false_ne_true

theorem toCome_afterItem (files : Nat) (item : Item) (rest : List Item) :
    (Forwarder.afterItem files item).toCome rest = repliesOf files (item :: rest) := by
  cases item <;> rfl

theorem Accounts.change (haccounts : Accounts workspace root feed) (h : Change workspace root feed next) :
    Accounts workspace root next := by
  obtain ⟨hdelivered, hreplied, hsettled⟩ := haccounts
  cases h with
  | @delivers delivery hmove hreceived =>
    obtain ⟨party, hstep⟩ := hmove
    have hmoved := Delivery.accounts_step hdelivered hstep
    have hremaining := Delivery.remaining_eq_of_received_eq hdelivered hmoved hreceived
    rw [← hremaining] at hreplied hsettled
    exact ⟨hmoved, hreplied, hsettled⟩
  | @takes files item rest delivery hforwarder hqueue hstep =>
    have htaken := Delivery.accounts_subscriberStep hdelivered hstep
    have hremaining : feed.delivery.remaining workspace root = item :: delivery.remaining workspace root :=
      Delivery.remaining_of_subscriberStep hqueue hstep
    rw [hforwarder, hremaining] at hreplied
    refine ⟨htaken, ?_, fun hclosing => ?_⟩
    · rw [toCome_afterItem]
      exact hreplied
    · -- Of the items only a failure makes the forwarder close, and nothing stands behind it.
      cases item with
      | ok event => cases hclosing
      | error failure =>
        have htotal := Delivery.received_append_remaining hdelivered
        rw [hremaining] at htotal
        exact eq_nil_of_behind_failure htotal.symm
  | ends hforwarder hclosed =>
    have hremaining : feed.delivery.remaining workspace root = [] := Delivery.remaining_of_isClosed hclosed
    rw [hforwarder, hremaining] at hreplied
    exact ⟨hdelivered, hreplied, fun _ => hremaining⟩
  | offers hforwarder =>
    rw [hforwarder] at hreplied
    refine ⟨hdelivered, ?_, fun hclosing => absurd hclosing Bool.false_ne_true⟩
    simpa [Forwarder.toCome] using hreplied
  | closes hforwarder =>
    rw [hforwarder] at hreplied hsettled
    refine ⟨hdelivered, ?_, fun _ => hsettled rfl⟩
    simpa [Forwarder.toCome] using hreplied
  | answers hqueue =>
    refine ⟨hdelivered, ?_, hsettled⟩
    rw [← hreplied, hqueue, List.append_assoc feed.answered, List.singleton_append]

theorem accounts_of_leads (h : Leads workspace root start feed) : Accounts workspace root feed := by
  induction h with
  | refl => exact accounts_start workspace root
  | tail _ hmove ih => exact ih.change (change_of_moves hmove)

theorem isClosed_iff : feed.isClosed = true ↔ feed.forwarder = .finished ∧ feed.queue = [] := by
  rw [isClosed, Bool.and_eq_true, beq_iff_eq, List.isEmpty_iff]

theorem Accounts.answered_isPrefixOf (haccounts : Accounts workspace root feed) :
    feed.answered <+: repliesOf 0 (items workspace root) := by
  have hreplied := haccounts.replied
  rw [List.append_assoc] at hreplied
  exact ⟨_, hreplied⟩

theorem Accounts.answered_of_isClosed (haccounts : Accounts workspace root feed) (hclosed : feed.isClosed = true) :
    feed.answered = repliesOf 0 (items workspace root) := by
  obtain ⟨hforwarder, hqueue⟩ := isClosed_iff.1 hclosed
  have hreplied := haccounts.replied
  rwa [hforwarder, hqueue, Forwarder.toCome, List.append_nil, List.append_nil] at hreplied

/-- When the client sees the end, the forwarder has taken the whole stream. -/
theorem Accounts.received_of_isClosed (haccounts : Accounts workspace root feed) (hclosed : feed.isClosed = true) :
    feed.delivery.received = items workspace root := by
  have hremaining := haccounts.settled (by rw [(isClosed_iff.1 hclosed).1]; rfl)
  have htotal := Delivery.received_append_remaining haccounts.delivered
  rwa [hremaining, List.append_nil] at htotal

/-! ### The feed is closed in the end -/

/-- A bound on the moves that a forwarder has still to make with the items that it has taken, with those of its
replies out of the channel. -/
def forwarderWork : Forwarder → Nat
  | .taking _ => 3
  | .offering _ _ => 5
  | .closing _ => 2
  | .finished => 0

/-- A bound on the moves that are left. An item counts three times, as it is taken, put into the second channel and
taken out there. -/
def work (workspace : Workspace) (root : String) (feed : Feed) : Nat :=
  3 * feed.delivery.work workspace root + forwarderWork feed.forwarder + feed.queue.length

theorem work_afterItem_le (files : Nat) (item : Item) : forwarderWork (.afterItem files item) ≤ 5 := by
  cases item <;> simp [Forwarder.afterItem, forwarderWork]

/-- Every move leaves less to be done, so no feed goes on for ever. -/
theorem work_lt_of_moves (h : Moves workspace root feed next) :
    work workspace root next < work workspace root feed := by
  cases change_of_moves h with
  | delivers hmove _ =>
    have hless := Delivery.work_lt_of_moves hmove
    simp only [work]
    omega
  | @takes files item rest delivery hforwarder hqueue hstep =>
    have hless : delivery.work workspace root < feed.delivery.work workspace root :=
      Delivery.work_lt_of_moves ⟨.subscriber, hstep⟩
    have hbefore : forwarderWork feed.forwarder = 3 := congrArg forwarderWork hforwarder
    have hafter := work_afterItem_le files item
    simp only [work]
    omega
  | ends hforwarder _ =>
    simp only [work, hforwarder, forwarderWork]
    omega
  | offers hforwarder =>
    simp only [work, hforwarder, forwarderWork, List.length_append, List.length_singleton]
    omega
  | closes hforwarder =>
    simp only [work, hforwarder, forwarderWork, List.length_append, List.length_singleton]
    omega
  | answers hqueue =>
    simp only [work, hqueue, List.length_cons]
    omega

/-- While the forwarder waits for an item, a task of the delivery can move, unless the stream has ended. -/
theorem exists_moves_of_taking {files : Nat} (hforwarder : feed.forwarder = .taking files) :
    ∃ next, Moves workspace root feed next := by
  obtain ⟨⟨producer, supervisor, items, received⟩, forwarder, queue, answered⟩ := feed
  cases hforwarder
  cases items with
  | cons item rest => exact ⟨_, .forwarder, rfl⟩
  | nil =>
    by_cases hclosed : (Delivery.mk producer supervisor [] received).isClosed = true
    · exact ⟨_, .forwarder, if_pos hclosed⟩
    · obtain ⟨moved, party, hstep⟩ := Delivery.exists_moves workspace root hclosed
      cases party with
      | producer => exact ⟨_, .producer, Option.map_eq_some_iff.2 ⟨moved, hstep, rfl⟩⟩
      | supervisor => exact ⟨_, .supervisor, Option.map_eq_some_iff.2 ⟨moved, hstep, rfl⟩⟩
      | subscriber => cases hstep

theorem exists_moves (workspace : Workspace) (root : String) (hopen : ¬ feed.isClosed = true) :
    ∃ next, Moves workspace root feed next := by
  obtain ⟨delivery, forwarder, queue, answered⟩ := feed
  cases queue with
  | cons reply queue => exact ⟨_, .client, rfl⟩
  | nil =>
    -- The second channel is empty, so that there is room for a reply.
    cases forwarder with
    | taking files => exact exists_moves_of_taking rfl
    | offering event files =>
      obtain ⟨longer, hput⟩ := Delivery.exists_put?_nil workspace (Reply.event event)
      exact ⟨_, .forwarder, Option.map_eq_some_iff.2 ⟨longer, hput, rfl⟩⟩
    | closing reply =>
      obtain ⟨longer, hput⟩ := Delivery.exists_put?_nil workspace reply
      exact ⟨_, .forwarder, Option.map_eq_some_iff.2 ⟨longer, hput, rfl⟩⟩
    | finished => exact absurd (isClosed_iff.2 ⟨rfl, rfl⟩) hopen

theorem exists_leads_isClosed (workspace : Workspace) (root : String) (feed : Feed) :
    ∃ final, Leads workspace root feed final ∧ final.isClosed = true :=
  Steps.exists_reflTransGen_of_work (work workspace root) (fun _ _ => work_lt_of_moves)
    (fun _ => exists_moves workspace root) feed

end Feed

/-! ### What a client reads -/

/-- A message has some name, and its data is JSON that is read as some value. -/
def Message.Carries {α : Type} (of? : Json.Value → Option α) (name : String) (message : Message) (value : α) : Prop :=
  message.name = name ∧ (Json.Value.parse? message.data).bind of? = some value

/-- A message tells how a stream ended: with the number of its events, or with the wording and the kind of its
failure. -/
def Message.Closes (message : Message) (events : List Event) : Option Failure → Prop
  | none => message.Carries Json.summaryOf? "complete" events.length
  | some failure => message.Carries Json.ErrorResponse.ofValue? "error" ⟨failure.message, failure.kind⟩

namespace Reply

/-- The message that a client reads. -/
def message (reply : Reply) : Message :=
  ⟨reply.name, reply.document.compact⟩

theorem printing_name (reply : Reply) : Json.Printing reply.name.toList := by
  cases reply <;> simp [name, Json.Printing]

theorem carries_message {α : Type} {of? : Json.Value → Option α} {value : α} (reply : Reply)
    (h : of? (Json.Value.ofDocument reply.document) = some value) :
    reply.message.Carries of? reply.name value := by
  refine ⟨rfl, ?_⟩
  rw [message, (Json.Value.parse?_document reply.document).1, Option.bind_some, h]

/-- The reply to the end of a stream behind some events. -/
def closing (files : Nat) : Option Failure → Reply
  | none => .complete files
  | some cause => .failure cause

theorem closes_message (events : List Event) (failure? : Option Failure) :
    (closing events.length failure?).message.Closes events failure? := by
  cases failure? with
  | none => exact carries_message (.complete events.length) (Json.summaryOf?_document events.length)
  | some failure => exact carries_message (.failure failure) (Json.ErrorResponse.ofValue?_document _)

end Reply

/-- **Each reply is read as one message**, and nothing else is. -/
theorem messages_join (replies : List Reply) :
    messages (String.join (replies.map Reply.text)) = replies.map Reply.message := by
  induction replies with
  | nil => rfl
  | cons reply rest ih =>
    rw [List.map_cons, String.join_cons, messages, String.toList_append, Reply.text,
      messagesIn_serverEvent _ _ _ reply.printing_name, List.map_cons, ← ih]
    rfl

theorem repliesOf_itemsFor (sent : Nat) (events : List Event) (failure? : Option Failure) :
    repliesOf sent (itemsFor events failure?) =
      events.map Reply.event ++ [Reply.closing (sent + events.length) failure?] := by
  induction events generalizing sent with
  | nil => cases failure? <;> rfl
  | cons event rest ih =>
    have hsent : sent + (event :: rest).length = sent + 1 + rest.length := by
      rw [List.length_cons]
      omega
    rw [hsent, List.map_cons, List.cons_append, ← ih (sent + 1)]
    rfl

/-! ### The answer of the route -/

theorem handle_stream (order : CompletionOrder) {request : Request} (hmethod : request.method = "GET")
    (hroute : Route.ofPath? request.path = some .stream) (hpath : pathIn request.query = .ok root) :
    handle workspace order request =
      ⟨200, some "text/event-stream", serverEvents 0 (items workspace root)⟩ := by
  have hmethod' : ¬ (request.method == "OPTIONS") = true := by
    rw [hmethod]
    decide
  rw [handle, if_neg hmethod', hroute]
  show (if (request.method == "GET") = true then _ else _) = _
  rw [if_pos (beq_iff_eq.2 hmethod), answer, hpath]
  intro h
  cases h

/-! ### What the command line prints -/

/-- The events of a stream are printed one after the other, whatever ends it. -/
theorem output_streamOutcome (path output : String) (sent : Nat) (events : List Event)
    (failure? : Option Failure) :
    (CommandLine.streamOutcome true path output sent (itemsFor events failure?)).output =
      output ++ String.join (events.map (CommandLine.eventLine true)) := by
  induction events generalizing output sent with
  | nil => cases failure? <;> exact (String.append_empty).symm
  | cons event rest ih =>
    have hrest := ih (output ++ CommandLine.eventLine true event) (sent + 1)
    rw [List.map_cons, String.join_cons, ← String.append_assoc, ← hrest]
    rfl

theorem lines_streamOutcome (path : String) (events : List Event) (failure? : Option Failure) :
    (CommandLine.streamOutcome true path "" 0 (itemsFor events failure?)).output.toList.splitOn '\n' =
      events.map (fun event => (Json.eventDocument event).compact.toList) ++ [[]] := by
  have hlines : ∀ line ∈ events.map fun event => (Json.eventDocument event).compact.toList, '\n' ∉ line := by
    intro line hline hmem
    obtain ⟨event, -, rfl⟩ := List.mem_map.1 hline
    exact absurd (Json.printing_compact (Json.eventDocument event) _ hmem) (by decide)
  have hended := Text.splitOn_ended hlines []
  rw [List.append_nil, List.flatMap_map] at hended
  have hline : ∀ event, (CommandLine.eventLine true event).toList =
      (Json.eventDocument event).compact.toList ++ ['\n'] := by
    intro event
    rw [CommandLine.eventLine, if_pos rfl, String.toList_append]
    rfl
  rw [output_streamOutcome, String.toList_append, String.toList_join, List.flatMap_map]
  simp only [hline]
  exact hended

/-- **A client is told the stream in every interleaving**, whatever the capacities of the channels. What it has read
is at every moment a beginning of the same messages: one for each event of the stream, whose data is read back as
that event, then one that tells the number of events or the failure that ended the stream. When it sees the end of
the body, as it can always come to, it has all of them, and the body is that of the route's answer. The data of the
messages for events are the lines that the command line prints of the stream as JSON. -/
theorem stream_told_in_every_interleaving (workspace : Workspace) (root : String) :
    ∃ events failure? told closing, Outcome workspace root events failure? ∧
      List.Forall₂ (Message.Carries Json.eventOf? "class") told events ∧
      Message.Closes closing events failure? ∧
      (∀ feed, Feed.Leads workspace root .start feed →
        messages feed.body <+: told ++ [closing] ∧
        (feed.isClosed = true →
          feed.delivery.received = itemsFor events failure? ∧ messages feed.body = told ++ [closing] ∧
          ∀ order request, request.method = "GET" → Route.ofPath? request.path = some .stream →
            pathIn request.query = .ok root →
            handle workspace order request = ⟨200, some "text/event-stream", feed.body⟩) ∧
        ∃ final, Feed.Leads workspace root feed final ∧ final.isClosed = true) ∧
      (CommandLine.streamOutcome true root "" 0 (items workspace root)).output.toList.splitOn '\n' =
        told.map (fun message => message.data.toList) ++ [[]] := by
  obtain ⟨events, failure?, houtcome, hitems⟩ := exists_outcome workspace root
  have hreplies := repliesOf_itemsFor 0 events failure?
  rw [Nat.zero_add, ← hitems] at hreplies
  have hmessages := congrArg (List.map Reply.message) hreplies
  rw [List.map_append, List.map_map, List.map_singleton] at hmessages
  refine ⟨events, failure?, events.map (Reply.message ∘ Reply.event), _, houtcome, ?_,
    Reply.closes_message events failure?, ?_, ?_⟩
  · rw [List.forall₂_map_left_iff, List.forall₂_same]
    intro event _
    exact Reply.carries_message (.event event) (Json.eventOf?_document event)
  · intro feed hleads
    have haccounts := Feed.accounts_of_leads hleads
    refine ⟨?_, fun hclosed => ?_, Feed.exists_leads_isClosed workspace root feed⟩
    · rw [Feed.body, messages_join, ← hmessages]
      exact haccounts.answered_isPrefixOf.map Reply.message
    · have hanswered := haccounts.answered_of_isClosed hclosed
      refine ⟨(haccounts.received_of_isClosed hclosed).trans hitems, ?_, ?_⟩
      · rw [Feed.body, messages_join, hanswered, hmessages]
      · intro order request hmethod hroute hpath
        rw [Feed.body, hanswered, join_repliesOf]
        exact handle_stream order hmethod hroute hpath
  · rw [hitems, lines_streamOutcome, List.map_map]
    rfl

end JavaAtlas.Http

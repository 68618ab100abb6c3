import JavaAtlas.Analysis
import JavaAtlas.EventStream
import JavaAtlas.Http.Form
import JavaAtlas.Json.Forms

/-!
# Routes

The answers to HTTP requests. Each kind of report has a route that takes the path to analyse from the query
string; the stream is answered as server-sent events. Routes answer `GET`, and `HEAD` without a body, while
`OPTIONS` is granted everywhere, whatever the path.
-/

namespace JavaAtlas.Http

/-- A request: its method and its target, a path with a query string perhaps. -/
structure Request where
  method : String
  target : String
deriving DecidableEq, Repr, Inhabited

structure Response where
  status : Nat
  contentType? : Option String
  body : String
deriving DecidableEq, Repr, Inhabited

inductive Route where
  | health
  | classReport
  | packageReport
  | projectReport
  | stream
deriving DecidableEq, Repr, Inhabited

def Route.ofPath? (path : String) : Option Route :=
  [("/health", health), ("/class", classReport), ("/package", packageReport),
    ("/project", projectReport), ("/stream", stream)].lookup path

namespace Request

/-- The target of a request without a fragment. -/
def plainTarget (request : Request) : List Char :=
  request.target.toList.takeWhile (· != '#')

def path (request : Request) : String :=
  String.ofList (request.plainTarget.takeWhile (· != '?'))

/-- The query string of a request, empty without one. -/
def query (request : Request) : String :=
  String.ofList ((request.plainTarget.dropWhile (· != '?')).drop 1)

end Request

namespace Response

def bare (status : Nat) : Response :=
  ⟨status, none, ""⟩

def ofDocument (status : Nat) (document : Json.Document) : Response :=
  ⟨status, some "application/json", document.compact⟩

def badQuery (reason : String) : Response :=
  ⟨400, some "text/plain; charset=utf-8", "Failed to deserialize query string: " ++ reason⟩

end Response

def statusOf : FailureKind → Nat
  | .invalidPath => 404
  | .parseFailure | .noSources => 422
  | .ioFailure | .runtime => 500

def respond {α : Type} (document : α → Json.Document) : Except Failure α → Response
  | .ok report => .ofDocument 200 (document report)
  | .error failure =>
    .ofDocument (statusOf failure.kind) (Json.ErrorResponse.ofFailure failure).document

def serverEvent (name : String) (document : Json.Document) : String :=
  "event: " ++ name ++ "\ndata: " ++ document.compact ++ "\n\n"

/-- The server-sent events for the items of a stream of which some have been sent: one for each event, then
one that tells of the end or of the failure. -/
def serverEvents (sent : Nat) : List (Except Failure Event) → String
  | [] => serverEvent "complete" (Json.summaryDocument sent)
  | .ok event :: rest =>
    serverEvent "class" (Json.eventDocument event) ++ serverEvents (sent + 1) rest
  | .error failure :: _ => serverEvent "error" (Json.ErrorResponse.ofFailure failure).document

/-- The path that a query string names: its only field of that name. -/
def pathIn (query : String) : Except String String :=
  match (Form.fields query).filter fun field => field.1 == "path" with
  | [field] => .ok field.2
  | [] => .error "missing field `path`"
  | _ => .error "duplicate field `path`"

/-- The answer of a route to a query string. -/
def answer (workspace : Workspace) (order : CompletionOrder) (query : String) : Route → Response
  | .health => .ofDocument 200 Json.healthDocument
  | route =>
    match pathIn query with
    | .error reason => .badQuery reason
    | .ok path =>
      match route with
      | .classReport => respond Json.classDocument (Analysis.classReport workspace path)
      | .packageReport =>
        respond Json.packageDocument (Analysis.packageReport workspace order path)
      | .projectReport =>
        respond Json.projectDocument (Analysis.projectReport workspace order path)
      | _ =>
        ⟨200, some "text/event-stream", serverEvents 0 (EventStream.items workspace path)⟩

def handle (workspace : Workspace) (order : CompletionOrder) (request : Request) : Response :=
  if request.method == "OPTIONS" then .bare 200
  else
    match Route.ofPath? request.path with
    | none => .bare 404
    | some route =>
      if request.method == "GET" then answer workspace order request.query route
      else if request.method == "HEAD" then
        { answer workspace order request.query route with body := "" }
      else .bare 405

end JavaAtlas.Http

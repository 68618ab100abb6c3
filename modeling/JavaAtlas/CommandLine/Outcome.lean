import JavaAtlas.Analysis
import JavaAtlas.CommandLine.Invocation
import JavaAtlas.EventStream
import JavaAtlas.Graph.Dot
import JavaAtlas.Json.Forms

/-!
# Outcomes of commands

What a run of the program leaves behind: an exit code, its output, and its messages. A failure is reported
with what was being done, then its causes, numbered when there are several. Output that was complete
before a failure stays.
-/

namespace JavaAtlas.CommandLine

structure Outcome where
  code : Nat
  output : String
  errors : String
deriving DecidableEq, Repr, Inhabited

/-- The failures and messages that a failure was caused by. -/
def causesOf : Failure → List String
  | .unreadable _ reason => [reason]
  | _ => []

/-- A text with blanks at the start of all lines but the first. -/
def indented (blanks : Nat) (text : String) : String :=
  String.ofList (text.toList.flatMap fun c =>
    if c == '\n' then '\n' :: List.replicate blanks ' ' else [c])

/-- The lines for the causes of a failure: one cause stands alone, more than one are numbered. -/
def causeLines : List String → String
  | [] => ""
  | [cause] => "\n\nCaused by:\n    " ++ indented 4 cause
  | causes =>
    "\n\nCaused by:" ++ String.join (causes.zipIdx.map fun entry =>
      s!"\n    {entry.2}: " ++ indented 7 entry.1)

namespace Outcome

def success (output : String) : Outcome :=
  ⟨0, output, ""⟩

def failed (output headline : String) (causes : List String) : Outcome :=
  ⟨1, output, "Error: " ++ headline ++ causeLines causes ++ "\n"⟩

def failedWhile (output doing : String) (failure : Failure) : Outcome :=
  failed output doing (failure.message :: causesOf failure)

/-- The outcome of a run that failed, with nothing said on what was being done. -/
def failedPlainly (failure : Failure) : Outcome :=
  failed "" failure.message (causesOf failure)

/-- The outcome of an analysis: its report as a text or as a document, or its failure. -/
def ofReport {α : Type} (json : Bool) (text : α → String) (document : α → Json.Document)
    (doing : String) : Except Failure α → Outcome
  | .ok report => success ((if json then (document report).pretty else text report) ++ "\n")
  | .error failure => failedWhile "" doing failure

end Outcome

def eventLine (json : Bool) (event : Event) : String :=
  (if json then (Json.eventDocument event).compact else event.text) ++ "\n"

/-- The outcome of printing the items of a stream over a path, after some output and some events. -/
def streamOutcome (json : Bool) (path output : String) (sent : Nat) :
    List (Except Failure Event) → Outcome
  | [] => ⟨0, output, if json then "" else s!"Analysis complete: {sent} file(s)\n"⟩
  | .ok event :: rest =>
    streamOutcome json path (output ++ eventLine json event) (sent + 1) rest
  | .error failure :: _ => .failedWhile output s!"Stream over {path} failed" failure

def chainText (chain : ReportChain) : String :=
  "=== Class Report ===\n" ++ chain.classReport.text ++ "\n=== Package Report ===\n" ++
    chain.packageReport.text ++ "\n=== Project Report ===\n" ++ chain.projectReport.text

def graphOutcome (path : String) (graph : Graph) : Outcome :=
  if graph.nodes.isEmpty then .failed "" s!"No dependencies found under {path}" []
  else .success (Graph.Dot.text graph)

/-- What a failure to analyse something is headed by. -/
def analysing (granularity path : String) : String :=
  s!"Failed to analyse {granularity} {path}"

/-- The outcome of a command. Serving is announced only: the connection is not made here. -/
def Invocation.run (invocation : Invocation) (tree : FileTree) (order : CompletionOrder) : Outcome :=
  let workspace := Workspace.ofTree tree invocation.settings
  let json := invocation.json
  match invocation.command with
  | .classReport path =>
    .ofReport json ClassReport.text Json.classDocument (analysing "class" path)
      (Analysis.classReport workspace path)
  | .packageReport path =>
    .ofReport json PackageReport.text Json.packageDocument (analysing "package" path)
      (Analysis.packageReport workspace order path)
  | .projectReport path =>
    .ofReport json ProjectReport.text Json.projectDocument (analysing "project" path)
      (Analysis.projectReport workspace order path)
  | .stream path => streamOutcome json path "" 0 (EventStream.items workspace path)
  | .chain path directory root =>
    .ofReport json chainText Json.chainDocument "Incremental analysis failed"
      (Analysis.reportChain workspace order path directory root)
  | .graph path true =>
    match EventStream.events (EventStream.items workspace path) with
    | .ok events => graphOutcome path (Graph.ofEvents events)
    | .error failure => .failedPlainly failure
  | .graph path false =>
    match Analysis.projectReport workspace order path with
    | .ok report => graphOutcome path (Graph.ofProject report)
    | .error failure => .failedWhile "" (analysing "project" path) failure
  | .serve address => ⟨0, "", s!"Listening on http://{address}\n"⟩

def run (tree : FileTree) (order : CompletionOrder) (arguments : List String) : Outcome :=
  match Invocation.parse arguments with
  | .ok invocation => invocation.run tree order
  | .error .version => .success s!"depanalyser {version}\n"
  | .error .help => .success "Usage: depanalyser [OPTIONS] <COMMAND>\n"
  | .error .usage => ⟨2, "", "error: the arguments are not understood\n"⟩

end JavaAtlas.CommandLine

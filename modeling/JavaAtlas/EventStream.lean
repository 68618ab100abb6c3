import JavaAtlas.Discovery
import JavaAtlas.Event
import JavaAtlas.Workspace

/-!
# Event streams

One event for each source below a root, in the order of the walk. A stream ends after the last event or with
the first failure, which is its last item: the root cannot be walked, there is no source below it, or a
source cannot be read.
-/

namespace JavaAtlas.EventStream

/-- What becomes of one source: its event or the failure to read it. -/
def itemAt (workspace : Workspace) (path : String) : Except Failure Event :=
  match workspace.reader path with
  | .text source => .ok (Event.ofSource path source)
  | .refused reason => .error (.unreadable path reason)
  | .crashed report => .error (.crash report)

/-- The items for some sources, up to the first failure. -/
def itemsOf (workspace : Workspace) : List String → List (Except Failure Event)
  | [] => []
  | path :: rest =>
    match itemAt workspace path with
    | .ok event => .ok event :: itemsOf workspace rest
    | .error failure => [.error failure]

def items (workspace : Workspace) (root : String) : List (Except Failure Event) :=
  match Discovery.sources workspace.tree workspace.extension root with
  | .error failure => [.error failure]
  | .ok [] => [.error (.noSources root)]
  | .ok sources => itemsOf workspace sources

/-- The events of a stream, if it ends without a failure. -/
def events (items : List (Except Failure Event)) : Except Failure (List Event) :=
  items.mapM id

end JavaAtlas.EventStream

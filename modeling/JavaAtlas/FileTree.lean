import JavaAtlas.Path

/-!
# File trees

A file system as a tree of named entries with one working directory. A path is looked up segment by segment
from the working directory, or from the root if it is absolute. Every symbolic link on the way is followed,
up to a fixed number of them, and each segment has to stand in a directory, so that a slash or a point after
the name of a file makes the path lead nowhere. A *place* is where a look-up arrives: the names of the
directories from the root down, free of links and of points. Every tree is well formed: its entries bear names
that a path can spell, and no directory has two entries of one name. Names are texts, so an entry the name of
which is no UTF-8 stands in no tree.
-/

namespace JavaAtlas

/-- What stands under a name: a file, with its text unless its bytes spell none, a directory, or a link. -/
inductive Entry where
  | file (text? : Option String)
  | directory (entries : List (String × Entry))
  | link (target : String)
deriving Inhabited

/-- The names from the root of a file system down to an entry. -/
abbrev Place := List String

/-- Whether an entry may bear a name: one that is not empty, has no slash, and is neither `.` nor `..`. -/
def isName (name : String) : Bool :=
  name != "" && name != "." && name != ".." && !name.toList.contains '/'

namespace Entry

mutual

/-- The entries at and below an entry bear names, and different ones inside one directory. -/
def WellFormed : Entry → Prop
  | .directory entries => WellFormedEach entries
  | .file _ => True
  | .link _ => True

/-- The entries of a directory bear different names and are well formed. -/
def WellFormedEach : List (String × Entry) → Prop
  | [] => True
  | (name, entry) :: rest =>
    isName name = true ∧ (∀ other ∈ rest, other.1 ≠ name) ∧ WellFormed entry ∧ WellFormedEach rest

end

def entries : Entry → List (String × Entry)
  | directory below => below
  | _ => []

def child? (entry : Entry) (name : String) : Option Entry :=
  match entry with
  | directory entries => entries.lookup name
  | _ => none

def at? (entry : Entry) : Place → Option Entry
  | [] => some entry
  | name :: rest => (entry.child? name).bind fun next => next.at? rest

mutual

/-- All entries below an entry with their relative places, itself first. The entries of a directory come
in the order of their names, each before what is below it; links are not followed. -/
def walk : Entry → List (Place × Entry)
  | .directory entries =>
    ([], .directory entries) ::
      ((walkEach entries).mergeSort fun a b => a.1 ≤ b.1).flatMap fun found =>
        found.2.map fun below => (found.1 :: below.1, below.2)
  | .file text? => [([], .file text?)]
  | .link target => [([], .link target)]

def walkEach : List (String × Entry) → List (String × List (Place × Entry))
  | [] => []
  | (name, entry) :: rest => (name, walk entry) :: walkEach rest

end

def isFile : Entry → Bool
  | file _ => true
  | _ => false

def isDirectory : Entry → Bool
  | directory _ => true
  | _ => false

def isLink : Entry → Bool
  | link _ => true
  | _ => false

end Entry

/-- A file system and the place of its working directory. -/
structure FileTree where
  root : Entry
  working : Place
  wellFormed : root.WellFormed

namespace FileTree

/-- How far a look-up comes without following a link: to an entry, to a link with the segments that remain
after its target took its place, to a directory in which a name is missing, or to a file that bars the way. -/
inductive Stretch where
  | arrived (place : Place)
  | linked (place : Place) (segments : List String)
  | missing (place : Place) (name : String) (rest : List String)
  | barred
deriving DecidableEq, Repr

/-- The parts of a path between its slashes, empty ones included. -/
def parts (path : String) : List String :=
  (path.toList.splitOnP (· == '/')).map String.ofList

/-- The place at which the look-up of a path starts, if relative paths count from a given place. -/
def startOf (base : Place) (path : String) : Place :=
  if Path.isAbsolute path then [] else base

/-- Whether a part of a path stays where it is. -/
def isStay (part : String) : Bool :=
  part == "" || part == "."

/-- A look-up from a place up to the next link. Every part needs a directory to stand in. -/
def stretch (tree : FileTree) (place : Place) : List String → Stretch
  | [] => .arrived place
  | part :: rest =>
    match tree.root.at? place with
    | some (.directory entries) =>
      if isStay part then stretch tree place rest
      else if part == ".." then stretch tree place.dropLast rest
      else
        match entries.lookup part with
        | none => .missing place part rest
        | some (.link target) => .linked (startOf place target) (parts target ++ rest)
        | some _ => stretch tree (place ++ [part]) rest
    | _ => .barred

/-- A look-up that may follow some number of links. -/
def follow (tree : FileTree) : Nat → Place → List String → Stretch
  | 0, place, segments => stretch tree place segments
  | links + 1, place, segments =>
    match stretch tree place segments with
    | .linked next remaining => follow tree links next remaining
    | reached => reached

def linkLimit : Nat := 40

/-- The look-up of some parts of a path. -/
def lookUp (tree : FileTree) (path : String) (segments : List String) : Stretch :=
  follow tree linkLimit (startOf tree.working path) segments

/-- The place to which a path leads. The empty path leads nowhere. -/
def place? (tree : FileTree) (path : String) : Option Place :=
  if path == "" then none
  else
    match tree.lookUp path (parts path) with
    | .arrived place => some place
    | _ => none

def entryAt? (tree : FileTree) (path : String) : Option Entry :=
  (tree.place? path).bind tree.root.at?

def isFile (tree : FileTree) (path : String) : Bool :=
  ((tree.entryAt? path).map Entry.isFile).getD false

def isDirectory (tree : FileTree) (path : String) : Bool :=
  ((tree.entryAt? path).map Entry.isDirectory).getD false

/-- The entry that the last part of a path names, without following it if it is a link. -/
def named? (tree : FileTree) (path : String) : Option Entry :=
  match tree.lookUp path (parts path).dropLast, (parts path).getLast? with
  | .arrived place, some last =>
    if isStay last || last == ".." then none else tree.root.at? (place ++ [last])
  | _, _ => none

/-- Whether the last part of a path is the name of a link. -/
def isLink (tree : FileTree) (path : String) : Bool :=
  ((tree.named? path).map Entry.isLink).getD false

def text? (tree : FileTree) (path : String) : Option String :=
  match tree.entryAt? path with
  | some (.file text?) => text?
  | _ => none

end FileTree

end JavaAtlas

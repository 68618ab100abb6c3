import JavaAtlas.Failure
import JavaAtlas.FileTree
import JavaAtlas.SourceUnit.OfTrees

/-!
# Discovery of sources

Which files of a tree are sources, and which directories are packages. The deep listing walks down from a
root through real directories and finds regular files; the direct listing of one directory also takes
links that lead to files. A root that is itself a link is walked into, yet is no package directory. Listed
paths are the given path with names joined to it.
-/

namespace JavaAtlas.Discovery

def hasExtension (extension name : String) : Bool :=
  (Path.splitName name).2 == some extension

def isSource (tree : FileTree) (extension path : String) : Bool :=
  tree.isFile path && Path.extension? path == some extension

/-- A path with the names of a relative place joined to it. -/
def joinAll (path : String) (place : Place) : String :=
  place.foldl Path.join path

def entriesAt (tree : FileTree) (path : String) : Except Failure (List (String × Entry)) :=
  match tree.entryAt? path with
  | some (.directory entries) => .ok entries
  | _ => .error (.invalidPath path)

/-- Whether a walk has come to a regular file that is a source. -/
def isSourceEntry (extension : String) (found : Place × Entry) : Bool :=
  found.2.isFile && ((found.1.getLast?).map (hasExtension extension)).getD false

def sources (tree : FileTree) (extension root : String) : Except Failure (List String) := do
  let entries ← entriesAt tree root
  return ((Entry.directory entries).walk.filter (isSourceEntry extension)).map fun found =>
    joinAll root found.1

/-- The sources directly inside a directory, in the order of their names. -/
def directSources (tree : FileTree) (extension directory : String) :
    Except Failure (List String) := do
  let entries ← entriesAt tree directory
  let names := (entries.map (·.1)).mergeSort fun a b => a ≤ b
  return (names.map (Path.join directory)).filter (isSource tree extension)

def holdsSource (tree : FileTree) (extension directory : String) : Bool :=
  match directSources tree extension directory with
  | .ok found => !found.isEmpty
  | .error _ => false

/-- The directories at or below a root that directly hold a source, each before those below it. -/
def packageDirectories (tree : FileTree) (extension root : String) :
    Except Failure (List String) := do
  let entries ← entriesAt tree root
  let walked := (Entry.directory entries).walk
  let visited := if tree.isLink root then walked.tail else walked
  let directories := visited.filter fun found => found.2.isDirectory
  return (directories.map fun found => joinAll root found.1).filter (holdsSource tree extension)

/-- The name of a directory: the last name of its path, else that of the place to which it leads. -/
def directoryName (tree : FileTree) (path : String) : String :=
  (Path.fileName? path <|> (tree.place? path).bind (·.getLast?)).getD path

def unitAt? (tree : FileTree) (path : String) : Option SourceUnit :=
  (tree.text? path).bind SourceUnit.parse?

/-- The name of the package in a directory: the one that its first well-formed source declares, else the
name of the directory. -/
def inferPackageName (tree : FileTree) (extension directory : String) : String :=
  let found := ((directSources tree extension directory).toOption.getD []).findSome? (unitAt? tree)
  (found.bind SourceUnit.package?).getD (directoryName tree directory)

end JavaAtlas.Discovery

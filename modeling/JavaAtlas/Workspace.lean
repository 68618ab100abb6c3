import JavaAtlas.FileTree
import JavaAtlas.Settings

/-!
# Workspaces

What an analysis works on: a file tree, a reader for the texts of its sources, and settings. Listing and
indexing look at the tree itself; only the analysis of a source goes through the reader.
-/

namespace JavaAtlas

/-- What a reader answers for a path: a text, a refusal for some reason, or a crash with the report on it. -/
inductive Answer where
  | text (content : String)
  | refused (reason : String)
  | crashed (report : String := "a task panicked")
deriving DecidableEq, Repr, Inhabited

abbrev Reader := String → Answer

def Reader.ofTree (tree : FileTree) : Reader := fun path =>
  match tree.entryAt? path with
  | some (.file (some content)) => .text content
  | some (.file none) => .refused "stream did not contain valid UTF-8"
  | some (.directory _) => .refused "Is a directory (os error 21)"
  | _ => .refused "No such file or directory (os error 2)"

structure Workspace where
  tree : FileTree
  reader : Reader
  settings : Settings

namespace Workspace

/-- The workspace in which files are read as they are. -/
def ofTree (tree : FileTree) (settings : Settings) : Workspace :=
  ⟨tree, Reader.ofTree tree, settings⟩

def extension (workspace : Workspace) : String :=
  workspace.settings.sourceExtension

end Workspace

end JavaAtlas

import JavaAtlas.CommandLine.Outcome
import JavaAtlas.FileTree.Edit

/-!
# The program

Runs one command over the files that are listed on standard input, one path on a line, with a slash at the
end of the paths of directories. Everything but reading and printing happens in `CommandLine.run`.
-/

namespace JavaAtlas.Main

/-- The lines that are left on a stream. -/
partial def readLines (stream : IO.FS.Stream) : IO (List String) := do
  let line ← stream.getLine
  if line.isEmpty then return []
  let rest ← readLines stream
  return String.ofList (line.toList.filter (· != '\n')) :: rest

/-- A tree with the directory or the file that a listed path names. -/
def addListed (tree : FileTree) (path : String) : IO FileTree := do
  if path.toList.getLast? == some '/' then return tree.makeDirectory path
  return tree.write path (String.fromUTF8? (← IO.FS.readBinFile path))

end JavaAtlas.Main

open JavaAtlas in
/-- Runs the program with some arguments and returns its exit code. -/
def main (arguments : List String) : IO UInt32 := do
  let working := Path.segments ((← IO.getEnv "PWD").getD "")
  let listed ← Main.readLines (← IO.getStdin)
  let tree ← listed.foldlM Main.addListed (FileTree.bare working)
  let outcome := CommandLine.run tree .asStarted arguments
  (← IO.getStdout).putStr outcome.output
  (← IO.getStderr).putStr outcome.errors
  return UInt32.ofNat outcome.code

import JavaAtlas.Path

/-!
# Failures

The ways in which an analysis can fail, the kinds they fall into, and their wording.
-/

namespace JavaAtlas

/-- The stable classification of failures. -/
inductive FailureKind where
  | invalidPath
  | ioFailure
  | parseFailure
  | noSources
  | runtime
deriving DecidableEq, Repr, Inhabited

namespace FailureKind

def every : List FailureKind :=
  [invalidPath, ioFailure, parseFailure, noSources, runtime]

def label : FailureKind → String
  | invalidPath => "invalid_path"
  | ioFailure => "io_failure"
  | parseFailure => "parse_failure"
  | noSources => "no_sources"
  | runtime => "runtime"

def ofLabel? (label : String) : Option FailureKind :=
  every.find? fun kind => kind.label == label

end FailureKind

/-- Why an analysis failed: a path is missing or names the wrong kind of entry, a file cannot be read, a
file is not well formed, a directory holds no source, or a task broke down. -/
inductive Failure where
  | invalidPath (path : String)
  | unreadable (path reason : String)
  | unparseable (file : String)
  | noSources (path : String)
  | broken (report : String)
deriving DecidableEq, Repr, Inhabited

namespace Failure

/-- The failure of a file that is not well formed, which is named by its last name if it has one. -/
def unparseableAt (path : String) : Failure :=
  .unparseable ((Path.fileName? path).getD path)

/-- The failure of a task that broke down without a result, from the report on how it broke down. -/
def crash (report : String := "a task panicked") : Failure :=
  .broken s!"task join error: {report}"

def kind : Failure → FailureKind
  | invalidPath _ => .invalidPath
  | unreadable .. => .ioFailure
  | unparseable _ => .parseFailure
  | noSources _ => .noSources
  | broken _ => .runtime

def message : Failure → String
  | invalidPath path => s!"Invalid path: {path}"
  | unreadable path reason => s!"Error reading file {path}: {reason}"
  | unparseable file => s!"Failed to parse {file}"
  | noSources path => s!"No Java files found in the directory: {path}"
  | broken report => s!"Runtime error: {report}"

end Failure

end JavaAtlas

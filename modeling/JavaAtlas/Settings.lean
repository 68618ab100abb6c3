/-!
# Settings

The knobs of an analysis: which files are sources, how many workers to use, and how the event stream is
paced and buffered. Answers do not depend on the workers, the pace or the buffer.
-/

namespace JavaAtlas

/-- The settings of an analysis. The extension may be written with points in front. -/
structure Settings where
  extension : String := "java"
  workerThreads? : Option Nat := none
  throttleMs : Nat := 0
  streamBuffer : Nat := 16
deriving DecidableEq, Repr, Inhabited

namespace Settings

/-- Settings with a number of workers, at least one. -/
def withWorkerThreads (settings : Settings) (threads : Nat) : Settings :=
  { settings with workerThreads? := some (max threads 1) }

/-- Settings with a pause, in milliseconds, after each event of a stream. -/
def withThrottle (settings : Settings) (milliseconds : Nat) : Settings :=
  { settings with throttleMs := milliseconds }

def bareExtension (extension : String) : String :=
  String.ofList (extension.toList.dropWhile (· == '.'))

def sourceExtension (settings : Settings) : String :=
  bareExtension settings.extension

end Settings

end JavaAtlas

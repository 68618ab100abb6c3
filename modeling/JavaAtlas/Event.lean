import JavaAtlas.Header
import JavaAtlas.Path

/-!
# Events

What a stream tells about one source file: the name of its class, put together from its package statement
and its file name, and the types it imports.
-/

namespace JavaAtlas

structure Event where
  className : String
  imports : List String
deriving DecidableEq, Repr, Inhabited

namespace Event

/-- The name of the class in a file; files without a package belong to the package `default`. -/
def classNameOf (path source : String) : String :=
  (Header.package? source).getD "default" ++ "." ++ (Path.fileStem? path).getD ""

def ofSource (path source : String) : Event :=
  ⟨classNameOf path source, Header.imports source⟩

def text (event : Event) : String :=
  ", ".intercalate (event.className :: event.imports)

end Event

end JavaAtlas

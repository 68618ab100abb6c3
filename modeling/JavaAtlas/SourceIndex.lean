import JavaAtlas.Discovery
import JavaAtlas.Header
import JavaAtlas.Oracle
import JavaAtlas.OrderedSet

/-!
# Source indexes

The types that a source tree provides, as far as file names and headers tell: every source stands for one
type, its stem inside the package that its header names. Files whose bytes spell no text are left out.
-/

namespace JavaAtlas

/-- The types found below a root. -/
structure SourceIndex where
  root : String
  types : OrderedSet String

namespace SourceIndex

/-- The type for which the source at a path stands. -/
def typeAt? (tree : FileTree) (path : String) : Option String := do
  let stem ← Path.fileStem? path
  let source ← tree.text? path
  return SourceUnit.qualify (Header.package? source) stem

def ofRoot (tree : FileTree) (extension root : String) : Except Failure SourceIndex := do
  let found ← Discovery.sources tree extension root
  return ⟨root, OrderedSet.ofList (found.filterMap (typeAt? tree))⟩

def size (index : SourceIndex) : Nat :=
  index.types.size

def oracle (index : SourceIndex) : Oracle where
  name := "source-root"
  knows type := .ok (index.types.contains type)

end SourceIndex

end JavaAtlas

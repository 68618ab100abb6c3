import JavaAtlas.Primitive
import JavaAtlas.Text.Blank

/-!
# Exclusion

Which targets never make a dependency: blank names, `void`, primitive types, types of the standard library,
and the source itself. The standard library is recognised by the text a name starts with, not by whole
packages, so `java.utilities.Helper` falls under it as well.
-/

namespace JavaAtlas.Exclusion

open JavaAtlas.Text

/-- The texts with which the names of the standard library start. -/
def excludedPackages : List String :=
  ["java.lang", "java.util", "java.io", "java.math", "java.time", "java.text", "java.nio",
    "java.net"]

def isExcludedPackage (name : String) : Bool :=
  excludedPackages.any fun start => start.toList.isPrefixOf name.toList

def isPrimitive (name : String) : Bool :=
  primitiveTypes.contains name

/-- Whether a dependency of `source` on `target` is left out. Blanks around the target do not count. -/
def excludes (target source : String) : Bool :=
  let name := trimmed target
  name == "" || name == "void" || isPrimitive name || isExcludedPackage name || name == source

end JavaAtlas.Exclusion

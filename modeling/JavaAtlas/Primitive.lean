/-!
# Primitive types

The names of the primitive types of Java, in one place for the grammar and for the exclusion rules.
-/

namespace JavaAtlas

def primitiveTypes : List String :=
  ["boolean", "byte", "char", "short", "int", "long", "float", "double"]

end JavaAtlas

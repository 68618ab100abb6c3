/-!
# The version

The version that the program reports, on the command line and over HTTP.
-/

namespace JavaAtlas

def version : String := "0.1.0"

end JavaAtlas

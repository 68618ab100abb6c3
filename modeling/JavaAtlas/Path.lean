/-!
# Paths

Paths are texts with slashes. Repeated slashes, slashes at the end and segments of one point count for
nothing when a path is taken apart, yet a path is always shown as it was given. The last name of a path
splits into a stem and an extension at its last point, unless that point comes first. A path is a text: one
with bytes that are no UTF-8 is left out.
-/

namespace JavaAtlas.Path

/-- The segments of a path that count: no empty ones and no single points. -/
def segments (path : String) : List String :=
  ((path.toList.splitOnP (· == '/')).map String.ofList).filter fun segment =>
    segment != "" && segment != "."

def isAbsolute (path : String) : Bool :=
  path.toList.head? == some '/'

/-- The last name of a path; none for a path that ends in `..` or has no segment. -/
def fileName? (path : String) : Option String :=
  match (segments path).getLast? with
  | some ".." => none
  | other => other

/-- A file name cut at its last point, if it has one that does not come first. -/
def splitName (name : String) : String × Option String :=
  let reversed := name.toList.reverse
  match reversed.dropWhile (· != '.') with
  | [] => (name, none)
  | [_] => (name, none)
  | _ :: stem =>
    (String.ofList stem.reverse, some (String.ofList (reversed.takeWhile (· != '.')).reverse))

def fileStem? (path : String) : Option String :=
  (fileName? path).map fun name => (splitName name).1

def extension? (path : String) : Option String :=
  (fileName? path).bind fun name => (splitName name).2

/-- The path of an entry of a directory: a slash comes between, unless the directory ends in one. -/
def join (directory name : String) : String :=
  if directory == "" || directory.toList.getLast? == some '/' then directory ++ name
  else directory ++ "/" ++ name

end JavaAtlas.Path

/-!
# Oracles

An oracle answers whether a fully qualified type exists, or fails to answer. Several oracles are asked in
turn as one: a type is known when any of them knows it, and a failure of one hides no answer of another;
it shows only when none knows the type, and then the first failure does.
-/

namespace JavaAtlas

/-- Why an oracle has no answer: it is out of order, or one of the oracles it asks is. -/
inductive OracleFailure where
  | unavailable (reason : String)
  | inMember (member : String) (cause : OracleFailure)
deriving DecidableEq, Repr, Inhabited

/-- A failure in words, the outermost oracle first. -/
def OracleFailure.message : OracleFailure → String
  | .unavailable reason => reason
  | .inMember member cause => s!"{member} solver: {cause.message}"

/-- A named source of knowledge about which types exist. -/
structure Oracle where
  name : String
  knows : String → Except OracleFailure Bool

namespace Oracle

def ofNames (name : String) (known : List String) : Oracle where
  name := name
  knows type := .ok (known.contains type)

def failing (name reason : String) : Oracle where
  name := name
  knows _ := .error (.unavailable reason)

/-- The answer of several oracles asked in turn, after the failure of an earlier one if there was one. -/
def askAll (type : String) (failure : Option OracleFailure) :
    List Oracle → Except OracleFailure Bool
  | [] =>
    match failure with
    | some found => .error found
    | none => .ok false
  | oracle :: rest =>
    match oracle.knows type with
    | .ok true => .ok true
    | .ok false => askAll type failure rest
    | .error cause => askAll type (failure <|> some (.inMember oracle.name cause)) rest

def combined (members : List Oracle) : Oracle where
  name := "combined"
  knows type := askAll type none members

end Oracle

end JavaAtlas

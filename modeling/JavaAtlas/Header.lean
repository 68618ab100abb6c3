import JavaAtlas.Text.Blank
import JavaAtlas.Text.Word

/-!
# Headers by line

A quick look at the package and the imports of a source, without reading it as Java: its lines are cut
into statements at semicolons, and a statement counts by its first word. Only the first statement of a
line can name the package. What looks like a header inside a comment or a literal is taken for one, and a
statement that is spread over lines is not seen.
-/

namespace JavaAtlas.Header

open JavaAtlas.Text

/-- The lines of a text. Carriage returns stay, since they are blanks. -/
def lines (text : List Char) : List (List Char) :=
  text.splitOnP (· == '\n')

/-- The statements of a line: what stands before each semicolon, without the blanks in front. -/
def statements (line : List Char) : List (List Char) :=
  (line.splitOnP (· == ';')).dropLast.map fun part => part.dropWhile isBlank

/-- Whether a character may stand in a dotted name with blanks between its parts. -/
def isNameChar (c : Char) : Bool :=
  isWordChar c || c == '.' || isBlank c

/-- What follows a keyword in a statement: a blank, then at least one more character of a name. -/
def afterKeyword? (keyword statement : List Char) : Option (List Char) :=
  if keyword.isPrefixOf statement then
    match statement.drop keyword.length with
    | first :: second :: rest =>
      if isBlank first && (second :: rest).all isNameChar then some (first :: second :: rest) else none
    | _ => none
  else none

def packageName? (statement : List Char) : Option String :=
  (afterKeyword? ['p', 'a', 'c', 'k', 'a', 'g', 'e'] statement).map fun body =>
    String.ofList (unspaced body)

/-- Whether the body of an import names a static member: the word `static` and more after a blank. -/
def isStaticBody (body : List Char) : Bool :=
  (afterKeyword? ['s', 't', 'a', 't', 'i', 'c'] (body.dropWhile isBlank)).isSome

/-- The type that a statement imports; none for static imports and for imports with a wildcard. -/
def importedName? (statement : List Char) : Option String :=
  match afterKeyword? ['i', 'm', 'p', 'o', 'r', 't'] statement with
  | some body => if isStaticBody body then none else some (String.ofList (unspaced body))
  | none => none

/-- The package that the first line with a package statement in front names. -/
def package? (source : String) : Option String :=
  (lines source.toList).findSome? fun line => (statements line).head?.bind packageName?

/-- The types that a source imports by name, in order. -/
def imports (source : String) : List String :=
  ((lines source.toList).flatMap statements).filterMap importedName?

end JavaAtlas.Header

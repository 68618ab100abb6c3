import JavaAtlas.Proofs.Header
import JavaAtlas.Proofs.Text.Parts

/-!
# Headers read back

A canonical header is written down with the blanks it is given: lines of package and import statements, where blanks
may stand around every point, star and semicolon and at least one stands behind every keyword. The look at the lines
gives back what was written, whatever the blanks are. Cutting at line feeds and at semicolons finds the statements,
since neither mark stands inside one; the rest is told by the kinds of characters. A star is no character of a name,
and a dotted name shows the word of static imports only as its whole first run.
-/

namespace JavaAtlas.Header

open JavaAtlas.Text

/-! ### Canonical headers -/

/-- Blanks that stay on one line. -/
structure Gap where
  text : List Char
  blank : ∀ c ∈ text, isBlank c = true := by exact List.all_eq_true.1 (by decide)
  newline_not_mem : '\n' ∉ text := by decide

/-- Blanks that stay on one line, at least one. -/
structure Break extends Gap where
  ne_nil : text ≠ [] := by decide

/-- Word characters, at least one. -/
structure Run where
  text : List Char
  word : ∀ c ∈ text, isWordChar c = true := by exact List.all_eq_true.1 (by decide)
  ne_nil : text ≠ [] := by decide

/-- A point between blanks, and the run behind it. -/
structure Joint where
  before : Gap
  after : Gap
  run : Run

def importWord : List Char :=
  ['i', 'm', 'p', 'o', 'r', 't']

def staticWord : List Char :=
  ['s', 't', 'a', 't', 'i', 'c']

/-- A dotted name, which does not open with the word of static imports. -/
structure DottedName where
  first : Run
  joints : List Joint
  not_static : first.text ≠ staticWord := by decide

/-- A point and a star with blanks in front of each. -/
structure Wildcard where
  before : Gap
  after : Gap

/-- A statement up to its semicolon, with the blanks before that. -/
inductive Statement where
  | package (space : Break) (name : DottedName) (close : Gap)
  | imported (space : Break) (static? : Option Break) (name : DottedName) (wildcard? : Option Wildcard) (close : Gap)

/-- Statements, each behind blanks, on a line that ends in blanks and perhaps a carriage return. -/
structure CanonicalLine where
  statements : List (Gap × Statement)
  trailing : Gap
  returned : Bool

def Joint.text (joint : Joint) : List Char :=
  joint.before.text ++ '.' :: (joint.after.text ++ joint.run.text)

namespace DottedName

def text (name : DottedName) : List Char :=
  name.first.text ++ name.joints.flatMap Joint.text

def spelled (name : DottedName) : String :=
  String.ofList (name.first.text ++ name.joints.flatMap fun joint => '.' :: joint.run.text)

end DottedName

def Wildcard.text (wildcard : Wildcard) : List Char :=
  wildcard.before.text ++ '.' :: (wildcard.after.text ++ ['*'])

namespace Statement

def text : Statement → List Char
  | package space name close => keyword ++ (space.text ++ (name.text ++ close.text))
  | imported space static? name wildcard? close =>
    importWord ++ (space.text ++ ((static?.elim [] fun mark => staticWord ++ mark.text) ++
      (name.text ++ (wildcard?.elim [] Wildcard.text ++ close.text))))

def package? : Statement → Option String
  | package _ name _ => some name.spelled
  | imported .. => none

def imported? : Statement → Option String
  | imported _ none name none _ => some name.spelled
  | _ => none

end Statement

namespace CanonicalLine

/-- What stands before each semicolon of a line. -/
def parts (line : CanonicalLine) : List (List Char) :=
  line.statements.map fun found => found.1.text ++ found.2.text

/-- What stands behind the last semicolon of a line. -/
def rest (line : CanonicalLine) : List Char :=
  line.trailing.text ++ if line.returned then ['\r'] else []

def text (line : CanonicalLine) : List Char :=
  line.parts.flatMap (fun part => part ++ [';']) ++ line.rest

def package? (line : CanonicalLine) : Option String :=
  line.statements.head?.bind fun found => found.2.package?

def imports (line : CanonicalLine) : List String :=
  line.statements.filterMap fun found => found.2.imported?

end CanonicalLine

def written (header : List CanonicalLine) : String :=
  String.ofList (['\n'].intercalate (header.map CanonicalLine.text))

variable {body rest word : List Char}

/-! ### Characters of a name -/

/-- What holds of blanks, word characters and points holds of all characters of a dotted name. -/
theorem DottedName.forall_mem_text {P : Char → Prop} (hgap : ∀ gap : Gap, ∀ c ∈ gap.text, P c)
    (hrun : ∀ run : Run, ∀ c ∈ run.text, P c) (hpoint : P '.') (name : DottedName) : ∀ c ∈ name.text, P c := by
  rw [DottedName.text, List.forall_mem_append]
  refine ⟨hrun name.first, fun c hc => ?_⟩
  obtain ⟨joint, -, hc⟩ := List.mem_flatMap.1 hc
  have hjoint : ∀ c ∈ joint.text, P c := by
    rw [Joint.text, List.forall_mem_append, List.forall_mem_cons, List.forall_mem_append]
    exact ⟨hgap joint.before, hpoint, hgap joint.after, hrun joint.run⟩
  exact hjoint c hc

theorem isNameChar_of_isWordChar {c : Char} (h : isWordChar c = true) : isNameChar c = true := by
  rw [isNameChar, h, Bool.true_or, Bool.true_or]

theorem not_isNameChar_star : isNameChar '*' = false := by
  decide +kernel

theorem Gap.isNameChar (gap : Gap) : ∀ c ∈ gap.text, isNameChar c = true :=
  fun c hc => isNameChar_of_isBlank (gap.blank c hc)

theorem DottedName.isNameChar (name : DottedName) : ∀ c ∈ name.text, isNameChar c = true :=
  name.forall_mem_text Gap.isNameChar (fun run c hc => isNameChar_of_isWordChar (run.word c hc)) (by decide)

theorem DottedName.text_ne_nil (name : DottedName) : name.text ≠ [] :=
  List.append_ne_nil_of_left_ne_nil name.first.ne_nil _

/-- What stands between the keyword and the semicolon reads as a body if a name stands there without a star. -/
theorem Break.isBody (space : Break) (hne : rest ≠ []) (hname : ∀ c ∈ rest, isNameChar c = true) :
    IsBody (space.text ++ rest) := by
  obtain ⟨first, more, hspace⟩ := List.exists_cons_of_ne_nil space.ne_nil
  have hblank := space.blank first (hspace ▸ List.mem_cons_self)
  refine ⟨?_, ?_, List.forall_mem_append.2 ⟨space.toGap.isNameChar, hname⟩⟩
  · have hlong := List.length_pos_iff.2 hne
    rw [hspace, List.length_append, List.length_cons]
    omega
  · rw [hspace]
    intro c hc
    cases hc
    exact hblank

theorem Break.isBody_name (space : Break) (name : DottedName) (close : Gap) :
    IsBody (space.text ++ (name.text ++ close.text)) :=
  space.isBody (List.append_ne_nil_of_left_ne_nil name.text_ne_nil _)
    (List.forall_mem_append.2 ⟨name.isNameChar, close.isNameChar⟩)

/-! ### Names without blanks -/

theorem unspaced_append (front back : List Char) : unspaced (front ++ back) = unspaced front ++ unspaced back :=
  List.filter_append _ _

theorem Gap.unspaced (gap : Gap) : unspaced gap.text = [] :=
  List.filter_eq_nil_iff.2 fun c hc => by simp [gap.blank c hc]

theorem Run.unspaced (run : Run) : unspaced run.text = run.text :=
  unspaced_eq_self fun c hc => isBlank_of_isWordChar (run.word c hc)

theorem Joint.unspaced (joint : Joint) : unspaced joint.text = '.' :: joint.run.text := by
  have hpoint : Text.unspaced ['.'] = ['.'] := rfl
  rw [Joint.text, ← List.singleton_append, unspaced_append, unspaced_append, unspaced_append, joint.before.unspaced,
    hpoint, joint.after.unspaced, joint.run.unspaced]
  rfl

theorem DottedName.unspaced (name : DottedName) : String.ofList (unspaced name.text) = name.spelled := by
  have hjoints (joints : List Joint) :
      Text.unspaced (joints.flatMap Joint.text) = joints.flatMap fun joint => '.' :: joint.run.text := by
    induction joints with
    | nil => rfl
    | cons joint joints ih => rw [List.flatMap_cons, unspaced_append, joint.unspaced, ih, List.flatMap_cons]
  rw [DottedName.text, unspaced_append, name.first.unspaced, hjoints, DottedName.spelled]

theorem DottedName.unspaced_body (name : DottedName) (space close : Gap) :
    String.ofList (Text.unspaced (space.text ++ (name.text ++ close.text))) = name.spelled := by
  rw [unspaced_append, unspaced_append, space.unspaced, close.unspaced, List.nil_append, List.append_nil,
    name.unspaced]

/-! ### Static imports -/

theorem afterKeyword?_body (word : List Char) (h : IsBody body) : afterKeyword? word (word ++ body) = some body :=
  afterKeyword?_eq_some_iff.2 ⟨rfl, h⟩

theorem Gap.dropWhile (gap : Gap) (h : ∀ c ∈ rest.head?, isBlank c = false) :
    (gap.text ++ rest).dropWhile isBlank = rest := by
  rw [List.dropWhile_append_of_pos gap.blank, dropWhile_isBlank_of_head? h]

theorem Run.head_not_blank (run : Run) (rest : List Char) : ∀ c ∈ (run.text ++ rest).head?, isBlank c = false := by
  intro c hc
  rw [List.head?_append_of_ne_nil _ run.ne_nil] at hc
  exact isBlank_of_isWordChar (run.word c (List.mem_of_head? hc))

theorem Gap.head_not_word (gap : Gap) (h : ∀ c ∈ rest.head?, isWordChar c = false) :
    ∀ c ∈ (gap.text ++ rest).head?, isWordChar c = false := by
  cases hgap : gap.text with
  | nil => exact h
  | cons first more =>
    intro c hc
    cases hc
    exact isWordChar_of_isBlank (gap.blank first (hgap ▸ List.mem_cons_self))

/-- The first run of a name is complete: a point, a blank or nothing follows. -/
theorem DottedName.head_not_word (name : DottedName) (close : Gap) :
    ∀ c ∈ (name.joints.flatMap Joint.text ++ close.text).head?, isWordChar c = false := by
  cases name.joints with
  | nil =>
    have hclose := close.head_not_word (fun c (hc : c ∈ ([] : List Char).head?) => absurd hc (by simp))
    rwa [List.append_nil] at hclose
  | cons joint joints =>
    rw [List.flatMap_cons, Joint.text, List.append_assoc, List.append_assoc]
    refine joint.before.head_not_word fun c hc => ?_
    cases hc
    decide +kernel

/-- A keyword counts only where it is a whole run of word characters. -/
theorem afterKeyword?_run {run : Run} (hword : ∀ c ∈ word, isWordChar c = true) (hne : run.text ≠ word)
    (hrest : ∀ c ∈ rest.head?, isWordChar c = false) : afterKeyword? word (run.text ++ rest) = none := by
  rw [Option.eq_none_iff_forall_ne_some]
  intro body h
  obtain ⟨hsame, -, hopens, -⟩ := afterKeyword?_eq_some_iff.1 h
  rcases List.append_eq_append_iff.1 hsame with ⟨longer, hlonger, hbody⟩ | ⟨longer, hlonger, hbody⟩
  · cases longer with
    | nil => exact hne (hlonger.trans (List.append_nil _)).symm
    | cons c longer =>
      have hmore := hword c (hlonger ▸ List.mem_append_right _ List.mem_cons_self)
      rw [hrest c (by rw [hbody]; rfl)] at hmore
      cases hmore
  · cases longer with
    | nil => exact hne (hlonger.trans (List.append_nil _))
    | cons c longer =>
      have hmore := run.word c (hlonger ▸ List.mem_append_right _ List.mem_cons_self)
      rw [isWordChar_of_isBlank (hopens c (by rw [hbody]; rfl))] at hmore
      cases hmore

theorem Break.isBody_mark (space mark : Break) (name : DottedName) (close : Gap) :
    IsBody (space.text ++ (staticWord ++ (mark.text ++ (name.text ++ close.text)))) := by
  have hword : ∀ c ∈ staticWord, JavaAtlas.Header.isNameChar c = true := List.all_eq_true.1 (by decide)
  refine space.isBody (List.cons_ne_nil _ _) ?_
  simp only [List.forall_mem_append]
  exact ⟨hword, mark.toGap.isNameChar, name.isNameChar, close.isNameChar⟩

theorem isStaticBody_mark (space mark : Break) (name : DottedName) (close : Gap) :
    isStaticBody (space.text ++ (staticWord ++ (mark.text ++ (name.text ++ close.text)))) = true := by
  have hopens : ∀ c ∈ (staticWord ++ (mark.text ++ (name.text ++ close.text))).head?, isBlank c = false := by
    intro c hc
    cases hc
    decide
  rw [isStaticBody, space.toGap.dropWhile hopens]
  exact congrArg Option.isSome (afterKeyword?_body staticWord (mark.isBody_name name close))

theorem isStaticBody_name (space : Break) (name : DottedName) (close : Gap) :
    isStaticBody (space.text ++ (name.text ++ close.text)) = false := by
  have hword : ∀ c ∈ staticWord, isWordChar c = true := List.all_eq_true.1 (by decide)
  rw [DottedName.text, List.append_assoc, isStaticBody, space.toGap.dropWhile (name.first.head_not_blank _)]
  exact congrArg Option.isSome (afterKeyword?_run hword name.not_static (name.head_not_word close))

/-! ### Statements -/

theorem packageName?_text (statement : Statement) : packageName? statement.text = statement.package? := by
  cases statement with
  | package space name close =>
    exact packageName?_eq_some_iff.2 ⟨space.isBody_name name close, name.unspaced_body space.toGap close⟩
  | imported space static? name wildcard? close => rfl

theorem importedName?_eq (statement : List Char) :
    importedName? statement = (afterKeyword? importWord statement).bind fun body =>
      if isStaticBody body then none else some (String.ofList (unspaced body)) := by
  have himport : importWord = ['i', 'm', 'p', 'o', 'r', 't'] := rfl
  rw [importedName?, himport]
  cases afterKeyword? ['i', 'm', 'p', 'o', 'r', 't'] statement <;> rfl

/-- A star is no character of a name, so an import with one is passed over. -/
theorem importedName?_wildcard (hstar : '*' ∈ body) : importedName? (importWord ++ body) = none := by
  rw [importedName?_eq, Option.bind_eq_none_iff]
  intro found h
  obtain ⟨hsame, hbody⟩ := afterKeyword?_eq_some_iff.1 h
  cases List.append_cancel_left hsame
  exact absurd hstar (hbody.not_mem not_isNameChar_star)

theorem importedName?_body (h : IsBody body) :
    importedName? (importWord ++ body) =
      if isStaticBody body then none else some (String.ofList (unspaced body)) := by
  rw [importedName?_eq, afterKeyword?_body importWord h, Option.bind_some]

theorem importedName?_text (statement : Statement) : importedName? statement.text = statement.imported? := by
  cases statement with
  | package space name close => rfl
  | imported space static? name wildcard? close =>
    cases wildcard? with
    | some wildcard =>
      have himported : (Statement.imported space static? name (some wildcard) close).imported? = none := by
        cases static? <;> rfl
      rw [himported]
      exact importedName?_wildcard (by simp [Wildcard.text])
    | none =>
      cases static? with
      | some mark =>
        have htext : (Statement.imported space (some mark) name none close).text =
            importWord ++ (space.text ++ (staticWord ++ (mark.text ++ (name.text ++ close.text)))) := by
          simp [Statement.text]
        rw [htext, importedName?_body (space.isBody_mark mark name close), isStaticBody_mark]
        rfl
      | none =>
        have htext : (Statement.imported space none name none close).text =
            importWord ++ (space.text ++ (name.text ++ close.text)) := rfl
        rw [htext, importedName?_body (space.isBody_name name close), isStaticBody_name, name.unspaced_body]
        rfl

/-! ### Lines -/

/-- A character that ends neither a statement nor a line. -/
def isInner (c : Char) : Bool :=
  c != ';' && c != '\n'

theorem isInner_iff {c : Char} : isInner c = true ↔ c ≠ ';' ∧ c ≠ '\n' := by
  rw [isInner, Bool.and_eq_true, bne_iff_ne, bne_iff_ne]

theorem Gap.inner (gap : Gap) : ∀ c ∈ gap.text, isInner c = true := by
  intro c hc
  refine isInner_iff.2 ⟨?_, fun hnewline => gap.newline_not_mem (hnewline ▸ hc)⟩
  rintro rfl
  exact absurd (gap.blank _ hc) (by decide)

theorem Run.inner (run : Run) : ∀ c ∈ run.text, isInner c = true := by
  intro c hc
  rw [isInner_iff]
  constructor
  · rintro rfl
    exact absurd (run.word _ hc) (by decide +kernel)
  · rintro rfl
    exact absurd (run.word _ hc) (by decide +kernel)

theorem Wildcard.inner (wildcard : Wildcard) : ∀ c ∈ wildcard.text, isInner c = true := by
  rw [Wildcard.text, List.forall_mem_append, List.forall_mem_cons, List.forall_mem_append, List.forall_mem_singleton]
  exact ⟨wildcard.before.inner, by decide, wildcard.after.inner, by decide⟩

theorem DottedName.inner (name : DottedName) : ∀ c ∈ name.text, isInner c = true :=
  name.forall_mem_text Gap.inner Run.inner (by decide)

theorem Statement.inner (statement : Statement) : ∀ c ∈ statement.text, isInner c = true := by
  cases statement with
  | package space name close =>
    simp only [Statement.text, List.forall_mem_append]
    exact ⟨List.all_eq_true.1 (by decide), space.inner, name.inner, close.inner⟩
  | imported space static? name wildcard? close =>
    simp only [Statement.text, List.forall_mem_append]
    refine ⟨List.all_eq_true.1 (by decide), space.inner, ?_, name.inner, ?_, close.inner⟩
    · cases static? with
      | none => simp
      | some mark => exact List.forall_mem_append.2 ⟨List.all_eq_true.1 (by decide), mark.inner⟩
    · cases wildcard? with
      | none => simp
      | some wildcard => exact wildcard.inner

theorem Statement.head_not_blank (statement : Statement) : ∀ c ∈ statement.text.head?, isBlank c = false := by
  intro c hc
  cases statement <;> cases hc <;> decide

namespace CanonicalLine

theorem inner_part (line : CanonicalLine) : ∀ part ∈ line.parts, ∀ c ∈ part, isInner c = true := by
  intro part hpart
  obtain ⟨⟨gap, statement⟩, -, rfl⟩ := List.mem_map.1 hpart
  exact List.forall_mem_append.2 ⟨gap.inner, statement.inner⟩

theorem inner_rest (line : CanonicalLine) : ∀ c ∈ line.rest, isInner c = true := by
  refine List.forall_mem_append.2 ⟨line.trailing.inner, ?_⟩
  cases line.returned <;> exact List.all_eq_true.1 (by decide)

theorem newline_not_mem (line : CanonicalLine) : '\n' ∉ line.text := by
  intro hmem
  rcases List.mem_append.1 hmem with hmem | hmem
  · obtain ⟨part, hpart, hmem⟩ := List.mem_flatMap.1 hmem
    rcases List.mem_append.1 hmem with hmem | hmem
    · exact (isInner_iff.1 (line.inner_part part hpart _ hmem)).2 rfl
    · exact absurd hmem (by decide)
  · exact (isInner_iff.1 (line.inner_rest _ hmem)).2 rfl

theorem statements_text (line : CanonicalLine) :
    Header.statements line.text = line.statements.map fun found => found.2.text := by
  have hrest : line.rest.splitOn ';' = [line.rest] :=
    List.splitOnP_eq_singleton fun c hc => beq_eq_false_iff_ne.2 (isInner_iff.1 (line.inner_rest c hc)).1
  have hsplit : line.text.splitOnP (· == ';') = line.parts ++ [line.rest] := by
    rw [← List.splitOn_eq_splitOnP, text, splitOn_ended, hrest]
    exact fun part hpart hmem => (isInner_iff.1 (line.inner_part part hpart _ hmem)).1 rfl
  rw [Header.statements, hsplit, List.dropLast_concat, parts, List.map_map]
  exact List.map_congr_left fun found _ => found.1.dropWhile found.2.head_not_blank

theorem namedOn_text (line : CanonicalLine) : namedOn line.text = line.package? := by
  rw [namedOn, line.statements_text, List.head?_map, package?, Option.bind_map]
  exact Option.bind_congr fun found _ => packageName?_text found.2

theorem filterMap_text (line : CanonicalLine) :
    (Header.statements line.text).filterMap importedName? = line.imports := by
  rw [line.statements_text, List.filterMap_map]
  exact List.filterMap_congr fun found _ => importedName?_text found.2

end CanonicalLine

/-! ### Headers -/

theorem lines_written {header : List CanonicalLine} (h : header ≠ []) :
    lines (written header).toList = header.map CanonicalLine.text := by
  rw [written, String.toList_ofList, lines, ← List.splitOn_eq_splitOnP]
  refine List.splitOn_intercalate '\n' ?_ (by simpa using h)
  exact List.forall_mem_map.2 fun line _ => line.newline_not_mem

/-- **What stands in a canonical header is read back, whatever its blanks are.** The imports are the names that are
imported one by one, in order; the package is that of the first package statement that opens a line. -/
theorem header_read_back (header : List CanonicalLine) :
    imports (written header) = header.flatMap CanonicalLine.imports ∧
      package? (written header) = header.findSome? CanonicalLine.package? := by
  by_cases hempty : header = []
  · subst hempty
    decide
  · rw [imports, package?_eq, lines_written hempty]
    constructor
    · rw [List.flatMap_map, List.filterMap_flatMap]
      exact List.flatMap_congr fun line _ => line.filterMap_text
    · rw [List.findSome?_map]
      exact congrArg (List.findSome? · header) (funext CanonicalLine.namedOn_text)

/-- Statements of all kinds on one line. -/
def sharedLine : CanonicalLine :=
  let tight : Gap := { text := [] }
  let blank : Break := { text := [' '] }
  let first : Run := { text := ['p'] }
  let joint : Joint := { before := blank.toGap, after := tight, run := { text := ['Q'] } }
  { statements := [
      (tight, .package blank { first, joints := [] } blank.toGap),
      (blank.toGap, .imported blank none { first, joints := [joint] } none tight),
      (tight, .imported blank (some blank) { first, joints := [] } (some { before := tight, after := tight }) tight)]
    trailing := tight
    returned := true }

example : written [sharedLine] = "package p ; import p .Q;import static p.*;\r" := by
  decide

end JavaAtlas.Header

import JavaAtlas.Extraction
import JavaAtlas.Proofs.Header
import JavaAtlas.Proofs.SourceUnit.Relined
import JavaAtlas.Proofs.Syntax.LineEnds
import JavaAtlas.Proofs.Text.Squeezed

/-!
# Sources with carriage returns

Line ends may be written with a carriage return before the line feed: a source declares the same unit either way, on
the same lines, and the scans for headers find the same. Where raw text is kept it is kept without blanks or with
single blanks, and a carriage return before a line feed is only one more blank in a row.
-/

namespace JavaAtlas

open JavaAtlas.Syntax JavaAtlas.Text

/-- A source with a carriage return before every line feed. -/
def withReturns (source : String) : String :=
  String.ofList (returned source.toList)

namespace SourceUnit

open ParseTree

variable {tokens others : List Token} {trees children below : List JavaTree} {source : String}

/-! ### Texts -/

theorem unspaced_returned (text : List Char) : unspaced (returned text) = unspaced text := by
  induction text with
  | nil => rfl
  | cons c rest ih =>
    rw [unspaced, unspaced] at ih
    by_cases hc : c = '\n'
    · subst hc
      rw [returned_lineFeed]
      exact ih
    · rw [returned_cons hc, unspaced, unspaced, List.filter_cons, List.filter_cons, ih]

/-- The words of a text are the same, whatever has been read of it. -/
theorem words_append_returned (front text : List Char) : words (front ++ returned text) = words (front ++ text) := by
  induction text generalizing front with
  | nil => rfl
  | cons c rest ih =>
    by_cases hc : c = '\n'
    · subst hc
      have hempty : words ('\n' :: returned rest) = words (returned rest) := words_append_cons (by decide) [] _
      rw [returned_lineFeed, words_append_cons (by decide), words_append_cons (by decide), hempty]
      exact congrArg (words front ++ ·) (ih [])
    · have hnext := ih (front ++ [c])
      rwa [List.append_assoc, List.append_assoc, List.singleton_append, List.singleton_append,
        ← returned_cons hc] at hnext

theorem squeezed_returned (text : List Char) : squeezed (returned text) = squeezed text := by
  have hwords : words (returned text) = words text := words_append_returned [] text
  rw [squeezed, hwords, squeezed]

/-! ### Tokens -/

def IsReturned (token other : Token) : Prop :=
  other = token.returned

theorem indistinct_isReturned : Indistinct IsReturned := by
  rintro token other rfl
  refine ⟨rfl, ?_⟩
  rw [Token.touching, Token.touching, Token.returned, Bool.eq_iff_iff, List.isEmpty_iff, List.isEmpty_iff]
  exact returned_eq_nil_iff

theorem source_returned (h : List.Forall₂ IsReturned tokens others) :
    Token.source others = returned (Token.source tokens) := by
  induction h with
  | nil => rfl
  | cons hhead htail ih =>
    rw [hhead]
    simp only [Token.source, List.flatMap_cons, returned_append] at ih ⊢
    rw [ih]
    rfl

theorem slice_returned (h : List.Forall₂ IsReturned tokens others) :
    Token.slice others = returned (Token.slice tokens) := by
  cases h with
  | nil => rfl
  | cons hhead htail =>
    rw [hhead, Token.slice, Token.slice, returned_append, source_returned htail]
    rfl

theorem writtenText_returned (h : List.Forall₂ IsReturned (tokensOfAll children) (tokensOfAll below)) :
    writtenText below = writtenText children := by
  rw [writtenText, sourceOf, slice_returned h, squeezed_returned, writtenText, sourceOf]

/-! ### Trees and units -/

theorem textsAlike_returned {P : Part → List JavaTree → List JavaTree → Prop}
    (h : List.Forall₂ (ParseTree.Alike IsReturned P) children below) : TextsAlike (.relined id) children below := by
  intro start count
  have hpart := List.forall₂_take count (List.forall₂_drop start h)
  exact writtenText_returned (forall₂_tokensOfAll hpart)

/-- No line feed is part of a name. -/
theorem sourceOf_name_returned {P : Part → List JavaTree → List JavaTree → Prop}
    (hscan : scan source.toList = some tokens) (hparse : javaGrammar.parse? tokens = some trees)
    (hwithin : Within (.node .name children) trees)
    (h : List.Forall₂ (ParseTree.Alike IsReturned P) children below) : sourceOf below = sourceOf children := by
  obtain ⟨token, spelling, rfl, hlexeme⟩ := name_children hparse hwithin
  have hmem : token ∈ tokens := by
    rw [← (javaGrammar.derives_of_parse? hparse).2]
    apply mem_tokensOfAll_of_within _ hwithin
    simp
  have hfeed : '\n' ∉ token.spelled := by
    intro hfeed
    have hidentifier := isIdentifier_of_mem_scan hscan hmem hlexeme
    exact absurd (isIdentifierPart_of_isIdentifier hidentifier '\n' hfeed) (by decide)
  have hslice : sourceOf [(.leaf token : JavaTree)] = token.spelled := by
    simp [sourceOf, Token.slice, Token.source]
  rw [sourceOf, slice_returned (forall₂_tokensOfAll h), ← sourceOf, hslice, returned_eq_self hfeed]

theorem readsAlike_returned {label : Part} (hscan : scan source.toList = some tokens)
    (hparse : javaGrammar.parse? tokens = some trees) (hwithin : Within (.node label children) trees)
    (h : List.Forall₂ (ParseTree.Alike IsReturned fun _ _ _ => True) children below) :
    ReadsAlike (.relined id) label children below where
  name := by
    rintro rfl
    exact sourceOf_name_returned hscan hparse hwithin h
  header _ := by
    rw [sourceOf, sourceOf, slice_returned (forall₂_tokensOfAll h), unspaced_returned]
    rfl
  texts := textsAlike_returned h

theorem firstLine_returned (h : List.Forall₂ IsReturned (tokensOfAll children) (tokensOfAll below)) :
    firstLine below = firstLine children := by
  unfold firstLine
  generalize tokensOfAll children = ours at h ⊢
  generalize tokensOfAll below = theirs at h ⊢
  cases h with
  | nil => rfl
  | cons hhead htail => rw [hhead, Token.returned]

theorem respects_isReturned : Respects IsReturned (.relined id) where
  lexeme token other h := (indistinct_isReturned token other h).1
  line h := congrArg UInt32.ofNat (firstLine_returned (forall₂_tokensOfAll h))
  nameless := rfl
  textless := rfl

theorem parse?_withReturns (h : Unescaped source.toList) : parse? (withReturns source) = parse? source := by
  have hscan : Option.Rel (List.Forall₂ IsReturned) (scan source.toList) (scan (withReturns source).toList) := by
    rw [withReturns, String.toList_ofList, scan_returned h]
    cases scan source.toList with
    | none => exact .none
    | some tokens =>
      rw [Option.map_some]
      exact .some (List.forall₂_map_right_iff.2 (List.forall₂_same.2 fun _ _ => rfl))
  have htrees := trees?_alike indistinct_isReturned hscan
  have hreads : Option.Rel (TreesAlike IsReturned (.relined id)) (trees? source) (trees? (withReturns source)) := by
    refine rel_of_rel htrees ?_
    intro trees others hours hsame
    obtain ⟨tokens, htokens, hparse⟩ := trees?_eq_some_iff.1 hours
    refine ParseTree.Alike.refine hsame ?_
    intro label children below hwithin hchildren _
    exact readsAlike_returned htokens hparse hwithin hchildren
  rw [parse?_eq_relined (parse?_alike respects_isReturned hreads), funext relined_id, Option.map_id']

end SourceUnit

/-! ### Headers by line -/

namespace Header

/-- What stands behind the last semicolon of a line is no statement. -/
theorem statements_append_return (line : List Char) : statements (line ++ ['\r']) = statements line := by
  have hparts : ((line ++ ['\r']).splitOnP (· == ';')).dropLast = (line.splitOnP (· == ';')).dropLast := by
    induction line with
    | nil => rfl
    | cons c line ih =>
      rw [List.cons_append, List.splitOnP_cons_eq_if_modifyHead, List.splitOnP_cons_eq_if_modifyHead]
      split
      · rw [List.dropLast_cons_of_ne_nil (List.splitOnP_ne_nil _ _),
          List.dropLast_cons_of_ne_nil (List.splitOnP_ne_nil _ _), ih]
      · have hhead (parts : List (List Char)) :
            (parts.modifyHead (c :: ·)).dropLast = parts.dropLast.modifyHead (c :: ·) := by
          rcases parts with _ | ⟨first, _ | ⟨second, rest⟩⟩ <;> rfl
        rw [hhead, hhead, ih]
  rw [statements, hparts, statements]

/-- What a carriage return at the end of a line does not change it changes on no line. -/
theorem map_lines_returned {β : Type} {f : List Char → β} (hf : ∀ line, f (line ++ ['\r']) = f line)
    (text : List Char) : (lines (returned text)).map f = (lines text).map f := by
  -- The line that is being read is carried along, up to its line feed.
  have hall : ∀ front : List Char, '\n' ∉ front →
      (lines (front ++ returned text)).map f = (lines (front ++ text)).map f := by
    induction text with
    | nil => exact fun _ _ => rfl
    | cons c text ih =>
      intro front hfront
      by_cases hc : c = '\n'
      · subst hc
        have hline (line rest : List Char) (hline : '\n' ∉ line) : lines (line ++ '\n' :: rest) = line :: lines rest :=
          List.splitOn_append_cons_self_of_not_mem hline rest
        have hreturn : '\n' ∉ front ++ ['\r'] := by simp [hfront]
        have hsplit := hline _ (returned text) hreturn
        rw [List.append_assoc, List.singleton_append] at hsplit
        rw [returned_lineFeed, hsplit, hline front text hfront, List.map_cons, List.map_cons, hf]
        exact congrArg (f front :: ·) (ih [] (by simp))
      · have hnext := ih (front ++ [c]) (by simp [hfront, Ne.symm hc])
        rwa [List.append_assoc, List.append_assoc, List.singleton_append, List.singleton_append,
          ← returned_cons hc] at hnext
  exact hall [] (by simp)

theorem lines_withReturns_statements (source : String) :
    (lines (withReturns source).toList).map statements = (lines source.toList).map statements := by
  rw [withReturns, String.toList_ofList, map_lines_returned statements_append_return]

theorem package?_withReturns (source : String) : package? (withReturns source) = package? source := by
  have hpackage (source : String) : package? source =
      ((lines source.toList).map statements).findSome? fun parts => parts.head?.bind packageName? := by
    rw [List.findSome?_map]
    rfl
  rw [hpackage, hpackage, lines_withReturns_statements]

theorem imports_withReturns (source : String) : imports (withReturns source) = imports source := by
  rw [imports, imports, List.flatMap_def, List.flatMap_def, lines_withReturns_statements]

end Header

namespace SourceUnit

variable {source : String}

/-- **Carriage returns before line feeds change nothing**, where no backslash stands before a line feed: the source
declares the same unit or none, every oracle leads to the same report, and the headers by line are the same. -/
theorem withReturns_alike (h : Unescaped source.toList) :
    parse? (withReturns source) = parse? source ∧
      (∀ oracle, (parse? (withReturns source)).map (Extraction.extract oracle) =
        (parse? source).map (Extraction.extract oracle)) ∧
      Header.package? (withReturns source) = Header.package? source ∧
      Header.imports (withReturns source) = Header.imports source := by
  have hparse := parse?_withReturns h
  refine ⟨hparse, ?_, Header.package?_withReturns source, Header.imports_withReturns source⟩
  intro oracle
  rw [hparse]

/-- Line ends inside a dotted name, type arguments, a comment and a text block. -/
def manyLines : String :=
  "package p.\nq;\nclass A extends B<C,\n D> \x7b // e\n  String s = \"\"\"\n f\n\"\"\";\n\x7d\n"

theorem manyLines_withReturns :
    Unescaped manyLines.toList ∧ parse? (withReturns manyLines) = parse? manyLines ∧
      (parse? (withReturns manyLines)).isSome = true ∧ withReturns manyLines ≠ manyLines := by
  have hplain : Unescaped manyLines.toList := by
    rw [Unescaped]
    decide +kernel
  have hparse := (withReturns_alike hplain).1
  refine ⟨hplain, hparse, ?_, by decide +kernel⟩
  rw [hparse]
  decide +kernel

end SourceUnit

end JavaAtlas

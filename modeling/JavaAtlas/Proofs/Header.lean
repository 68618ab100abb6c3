import Mathlib.Data.List.Basic
import JavaAtlas.Header
import JavaAtlas.Proofs.Text.Characters

/-!
# Reading headers by line

Where the keyword of a package declaration opens its line, the line names a package exactly when the declaration
stands on it in plain: nothing but characters of a name up to the semicolon. Then it names the package that is
declared. Lines before it come first, so the whole source names that package if they name none.
-/

namespace JavaAtlas.Header

open JavaAtlas.Text

/-! ### Lines -/

def lastLine (text : List Char) : List Char :=
  (lines text).getLast?.getD []

def firstLine (text : List Char) : List Char :=
  (lines text).head?.getD []

variable {text front back before body after blanks line : List Char} {c : Char}

theorem lines_nil : lines [] = [[]] :=
  List.splitOnP_nil

theorem lines_ne_nil (text : List Char) : lines text ≠ [] :=
  List.splitOnP_ne_nil _ text

theorem lines_newline (text : List Char) : lines ('\n' :: text) = [] :: lines text := by
  rw [lines, List.splitOnP_cons_eq_if_modifyHead, if_pos (by decide), lines]

theorem lines_cons (h : c ≠ '\n') : lines (c :: text) = (lines text).modifyHead (c :: ·) := by
  rw [lines, List.splitOnP_cons_eq_if_modifyHead, if_neg (by simpa using h), lines]

theorem lines_eq_firstLine_cons (text : List Char) : lines text = firstLine text :: (lines text).tail := by
  obtain ⟨first, rest, heq⟩ := List.exists_cons_of_ne_nil (lines_ne_nil text)
  rw [firstLine, heq]
  rfl

theorem lines_eq_append_lastLine (text : List Char) :
    lines text = (lines text).dropLast ++ [lastLine text] := by
  have hlast := List.dropLast_append_getLast (lines_ne_nil text)
  rw [lastLine, List.getLast?_eq_some_getLast (lines_ne_nil text), Option.getD_some, hlast]

theorem lastLine_eq {init : List (List Char)} (h : lines text = init ++ [line]) :
    (lines text).dropLast = init ∧ lastLine text = line := by
  rw [lastLine, h]
  simp

/-- Two texts one after the other share the line on which they meet. -/
theorem lines_append (front back : List Char) :
    lines (front ++ back) =
      (lines front).dropLast ++ (lastLine front ++ firstLine back) :: (lines back).tail := by
  induction front with
  | nil =>
    have hback := lines_eq_firstLine_cons back
    simpa [lines_nil, lastLine] using hback
  | cons c front ih =>
    have hlines := lines_eq_append_lastLine front
    -- A line break makes a line of its own; any other character opens the first line, which may be the last.
    rw [List.cons_append]
    by_cases hbreak : c = '\n'
    · subst hbreak
      have hfront : lines ('\n' :: front) = ([] :: (lines front).dropLast) ++ [lastLine front] := by
        rw [lines_newline, List.cons_append, ← hlines]
      obtain ⟨hinit, hlast⟩ := lastLine_eq hfront
      rw [lines_newline, ih, hinit, hlast, List.cons_append]
    · cases hcase : (lines front).dropLast with
      | nil =>
        rw [hcase] at hlines ih
        have hfront : lines (c :: front) = [] ++ [c :: lastLine front] := by
          rw [lines_cons hbreak, hlines]
          rfl
        obtain ⟨hinit, hlast⟩ := lastLine_eq hfront
        rw [lines_cons hbreak, ih, hinit, hlast]
        rfl
      | cons first rest =>
        rw [hcase] at hlines ih
        have hfront : lines (c :: front) = ((c :: first) :: rest) ++ [lastLine front] := by
          rw [lines_cons hbreak, hlines]
          rfl
        obtain ⟨hinit, hlast⟩ := lastLine_eq hfront
        rw [lines_cons hbreak, ih, hinit, hlast]
        rfl

theorem firstLine_cons (h : c ≠ '\n') : firstLine (c :: text) = c :: firstLine text := by
  rw [firstLine, lines_cons h, lines_eq_firstLine_cons text]
  rfl

theorem firstLine_append (h : '\n' ∉ front) : firstLine (front ++ back) = front ++ firstLine back := by
  induction front with
  | nil => rfl
  | cons c front ih =>
    rw [List.mem_cons, not_or] at h
    rw [List.cons_append, firstLine_cons (Ne.symm h.1), ih h.2, List.cons_append]

theorem firstLine_isPrefixOf (text : List Char) : firstLine text <+: text := by
  induction text with
  | nil => exact List.prefix_rfl
  | cons c text ih =>
    by_cases hbreak : c = '\n'
    · subst hbreak
      rw [firstLine, lines_newline]
      exact List.nil_prefix
    · rw [firstLine_cons hbreak]
      exact (List.prefix_cons_inj c).2 ih

theorem newline_not_mem_firstLine (text : List Char) : '\n' ∉ firstLine text := by
  induction text with
  | nil => simp [firstLine, lines_nil]
  | cons c text ih =>
    by_cases hbreak : c = '\n'
    · subst hbreak
      simp [firstLine, lines_newline]
    · rw [firstLine_cons hbreak, List.mem_cons, not_or]
      exact ⟨Ne.symm hbreak, ih⟩

/-! ### The package that a line names -/

/-- The package that the first statement of a line names. -/
def namedOn (line : List Char) : Option String :=
  (statements line).head?.bind packageName?

theorem package?_eq (source : String) :
    package? source = (lines source.toList).findSome? namedOn := rfl

theorem head?_statements (h : ';' ∉ front) :
    (statements (front ++ ';' :: back)).head? = some (front.dropWhile isBlank) := by
  have hparts : List.splitOnP (· == ';') (front ++ ';' :: back) =
      front :: List.splitOnP (· == ';') back := by
    refine List.splitOnP_append_cons_of_forall_mem ?_ ';' (by decide) back
    intro c hc
    rw [beq_eq_false_iff_ne]
    intro hsame
    exact h (hsame ▸ hc)
  rw [statements, hparts, List.dropLast_cons_of_ne_nil (List.splitOnP_ne_nil _ _), List.map_cons,
    List.head?_cons]

theorem namedOn_eq_none (h : ';' ∉ line) : namedOn line = none := by
  have hparts : List.splitOnP (· == ';') line = [line] := by
    refine List.splitOnP_eq_singleton ?_
    intro c hc
    rw [beq_eq_false_iff_ne]
    intro hsame
    exact h (hsame ▸ hc)
  rw [namedOn, statements, hparts]
  rfl

def keyword : List Char :=
  ['p', 'a', 'c', 'k', 'a', 'g', 'e']

theorem isNameChar_of_isBlank (h : isBlank c = true) : isNameChar c = true := by
  rw [isNameChar, h, Bool.or_true]

/-- A text reads as the body of a statement: a blank, then at least one more character of a name. -/
def IsBody (text : List Char) : Prop :=
  2 ≤ text.length ∧ (∀ c ∈ text.head?, isBlank c = true) ∧ ∀ c ∈ text, isNameChar c = true

/-- A keyword has something after it exactly when it opens a statement whose rest reads as a body. -/
theorem afterKeyword?_eq_some_iff {word statement : List Char} :
    afterKeyword? word statement = some body ↔ statement = word ++ body ∧ IsBody body := by
  by_cases hopens : word.isPrefixOf statement
  · obtain ⟨rest, rfl⟩ := List.isPrefixOf_iff_prefix.1 hopens
    rw [afterKeyword?, if_pos hopens, List.drop_left, List.append_cancel_left_eq]
    match rest with
    | [] =>
      refine ⟨fun h => (by cases h), ?_⟩
      rintro ⟨rfl, hlong, -⟩
      exact absurd hlong (by simp)
    | [_] =>
      refine ⟨fun h => (by cases h), ?_⟩
      rintro ⟨rfl, hlong, -⟩
      exact absurd hlong (by simp)
    | first :: second :: more =>
      dsimp only
      constructor
      · intro h
        split at h
        · next hname =>
          cases h
          rw [Bool.and_eq_true, List.all_eq_true] at hname
          refine ⟨rfl, by simp, by simpa using hname.1, ?_⟩
          exact List.forall_mem_cons.2 ⟨isNameChar_of_isBlank hname.1, hname.2⟩
        · cases h
      · rintro ⟨rfl, -, hblank, hname⟩
        refine if_pos ?_
        rw [Bool.and_eq_true, List.all_eq_true]
        exact ⟨hblank first rfl, (List.forall_mem_cons.1 hname).2⟩
  · rw [afterKeyword?, if_neg hopens]
    refine ⟨fun h => (by cases h), ?_⟩
    rintro ⟨rfl, -⟩
    exact absurd (List.isPrefixOf_iff_prefix.2 (List.prefix_append _ _)) hopens

theorem packageName?_eq_some_iff {name : String} :
    packageName? (keyword ++ body) = some name ↔
      IsBody body ∧ String.ofList (unspaced body) = name := by
  have hmap : packageName? (keyword ++ body) =
      (afterKeyword? keyword (keyword ++ body)).map fun found => String.ofList (unspaced found) := rfl
  rw [hmap, Option.map_eq_some_iff]
  simp only [afterKeyword?_eq_some_iff]
  constructor
  · intro h
    obtain ⟨found, ⟨hsame, hbody⟩, hname⟩ := h
    cases List.append_cancel_left hsame
    exact ⟨hbody, hname⟩
  · intro h
    exact ⟨body, ⟨rfl, h.1⟩, h.2⟩

theorem semicolon_not_mem (hblanks : ∀ c ∈ blanks, isBlank c = true) (h : ';' ∉ body) :
    ';' ∉ blanks ++ (keyword ++ body) := by
  intro hmem
  rcases List.mem_append.1 hmem with hmem | hmem
  · exact absurd (hblanks _ hmem) (by decide)
  · rcases List.mem_append.1 hmem with hmem | hmem
    · exact absurd hmem (by decide)
    · exact h hmem

/-- A line that blanks and the keyword open names the package of its first statement. -/
theorem namedOn_keyword_line {name : String} (hblanks : ∀ c ∈ blanks, isBlank c = true)
    (hsemicolon : ';' ∉ body) :
    namedOn (blanks ++ (keyword ++ (body ++ ';' :: after))) = some name ↔
      IsBody body ∧ String.ofList (unspaced body) = name := by
  have hline : blanks ++ (keyword ++ (body ++ ';' :: after)) =
      (blanks ++ (keyword ++ body)) ++ ';' :: after := by
    simp
  have hdrop : (blanks ++ (keyword ++ body)).dropWhile isBlank = keyword ++ body := by
    rw [List.dropWhile_append_of_pos hblanks]
    exact List.dropWhile_cons_of_neg (by decide)
  rw [namedOn, hline, head?_statements (semicolon_not_mem hblanks hsemicolon), hdrop]
  exact packageName?_eq_some_iff

theorem not_isNameChar_semicolon : isNameChar ';' = false := by
  decide +kernel

theorem not_isNameChar_slash : isNameChar '/' = false := by
  decide +kernel

theorem IsBody.not_mem (h : IsBody body) (hc : isNameChar c = false) : c ∉ body := by
  intro hmem
  have hname := h.2.2 c hmem
  rw [hc] at hname
  cases hname

/-- Where the first semicolon outside comments ends a text, the first of all that follows a body does too. -/
theorem eq_of_append_semicolon {rest : List Char} (hcomment : ';' ∉ body.takeWhile (· != '/'))
    (hfront : IsBody front) (h : front ++ ';' :: rest = body ++ ';' :: after) : front = body := by
  have hslash : ∀ c ∈ front, (c != '/') = true := by
    intro c hc
    rw [bne_iff_ne]
    intro hsame
    exact hfront.not_mem not_isNameChar_slash (hsame ▸ hc)
  rcases List.append_eq_append_iff.1 h with ⟨more, hbody, hrest⟩ | ⟨more, hmore, hrest⟩
  · cases more with
    | nil => rw [hbody, List.append_nil]
    | cons c more =>
      -- The body would go on with the semicolon that ended its front, with no comment before it.
      cases hrest
      refine absurd ?_ hcomment
      rw [hbody, List.takeWhile_append_of_pos hslash, List.takeWhile_cons_of_pos (by decide)]
      exact List.mem_append_right _ List.mem_cons_self
  · cases more with
    | nil => rw [hmore, List.append_nil]
    | cons c more =>
      cases hrest
      refine absurd ?_ (hfront.not_mem not_isNameChar_semicolon)
      rw [hmore]
      exact List.mem_append_right _ List.mem_cons_self

/-- **The line that the keyword of a declaration opens names a package exactly when the declaration stands on it
in plain**, and then it names what stands between keyword and semicolon. -/
theorem namedOn_declaration {name : String} (hblanks : ∀ c ∈ blanks, isBlank c = true)
    (hcomment : ';' ∉ body.takeWhile (· != '/')) :
    namedOn (blanks ++ (keyword ++ firstLine (body ++ ';' :: after))) = some name ↔
      (IsBody body ∧ '\n' ∉ body) ∧ String.ofList (unspaced body) = name := by
  constructor
  · intro h
    by_cases hsemicolon : ';' ∈ firstLine (body ++ ';' :: after)
    · obtain ⟨front, rest, hline, hfirst⟩ := List.eq_append_cons_of_mem hsemicolon
      rw [hline] at h
      obtain ⟨hfront, hname⟩ := (namedOn_keyword_line hblanks hfirst).1 h
      obtain ⟨later, hlater⟩ := firstLine_isPrefixOf (body ++ ';' :: after)
      rw [hline, List.append_assoc, List.cons_append] at hlater
      cases eq_of_append_semicolon hcomment hfront hlater
      refine ⟨⟨hfront, ?_⟩, hname⟩
      have hnewline := newline_not_mem_firstLine (body ++ ';' :: after)
      rw [hline] at hnewline
      exact fun hmem => hnewline (List.mem_append_left _ hmem)
    · rw [namedOn_eq_none (semicolon_not_mem hblanks hsemicolon)] at h
      cases h
  · intro h
    obtain ⟨⟨hbody, hnewline⟩, hname⟩ := h
    rw [firstLine_append hnewline, firstLine_cons (by decide)]
    exact (namedOn_keyword_line hblanks (hbody.not_mem not_isNameChar_semicolon)).2 ⟨hbody, hname⟩

/-- A source in which blanks and the keyword of a declaration open a line: earlier lines count first, then the line
of the declaration, then the lines after it. -/
theorem package?_keyword {source : String} (hsource : source.toList = before ++ (keyword ++ (body ++ ';' :: after)))
    (hopens : ∀ c ∈ lastLine before, isBlank c = true) :
    package? source = ((package? (String.ofList before)).or
      (namedOn (lastLine before ++ (keyword ++ firstLine (body ++ ';' :: after))))).or
        ((lines (keyword ++ (body ++ ';' :: after))).tail.findSome? namedOn) := by
  have hblank : namedOn (lastLine before) = none := by
    refine namedOn_eq_none ?_
    intro hmem
    exact absurd (hopens _ hmem) (by decide)
  have hearlier : package? (String.ofList before) = (lines before).dropLast.findSome? namedOn := by
    rw [package?_eq, String.toList_ofList]
    conv_lhs => rw [lines_eq_append_lastLine before]
    rw [List.findSome?_append, List.findSome?_cons, hblank, List.findSome?_nil, Option.or_none]
  have hline : firstLine (keyword ++ (body ++ ';' :: after)) =
      keyword ++ firstLine (body ++ ';' :: after) :=
    firstLine_append (by decide)
  rw [package?_eq, hsource, lines_append, List.findSome?_append, List.findSome?_cons, hearlier, hline,
    Option.or_assoc]
  cases namedOn (lastLine before ++ (keyword ++ firstLine (body ++ ';' :: after))) <;> rfl

end JavaAtlas.Header

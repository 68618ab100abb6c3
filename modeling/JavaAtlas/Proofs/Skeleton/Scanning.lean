import JavaAtlas.Proofs.Skeleton.Trees
import JavaAtlas.Proofs.Syntax.Comments
import JavaAtlas.Proofs.Syntax.Derivation

/-!
# Scanning what was printed

The printed form of every part of a skeleton comes apart into the tokens of its trees. What follows a text counts only
by its first character: a word must not go on, nor must a point or a star.
-/

namespace JavaAtlas.Skeleton

open JavaAtlas.Syntax JavaAtlas.SourceUnit JavaAtlas.Text ParseTree

/-! ### Characters -/

variable {c : Char} {text more after : List Char}

/-- The characters that the printed form is made of. -/
def isPrinted (c : Char) : Bool :=
  0 < c.toNat && c.toNat < 128

theorem isNamePart_of_isNameStart (h : isNameStart c = true) : isNamePart c = true := by
  rw [isNamePart, h, Bool.true_or]

theorem isAlpha_eq_isAsciiLetter (c : Char) : c.isAlpha = isAsciiLetter c := by
  have hupper : c.isUpper = (decide ('A' ≤ c) && decide (c ≤ 'Z')) := Bool.decide_and ..
  calc c.isAlpha
    _ = (c.isLower || c.isUpper) := Bool.or_comm c.isUpper c.isLower
    _ = isAsciiLetter c := congrArg (c.isLower || ·) hupper

theorem isNameStart_iff : isNameStart c = true ↔ (isAsciiLetter c = true ∨ c = '_') ∨ c = '$' := by
  rw [isNameStart, isAlpha_eq_isAsciiLetter, Bool.or_eq_true, Bool.or_eq_true, beq_iff_eq, beq_iff_eq]

/-- The name characters are known by their code points. -/
theorem nameStart_code (h : isNameStart c = true) :
    c.toNat = 36 ∨ (65 ≤ c.toNat ∧ c.toNat ≤ 90) ∨ c.toNat = 95 ∨ (97 ≤ c.toNat ∧ c.toNat ≤ 122) := by
  rcases isNameStart_iff.1 h with (hletter | rfl) | rfl
  · simp only [isAsciiLetter, Bool.or_eq_true, Bool.and_eq_true, decide_eq_true_eq] at hletter
    rcases hletter with h | h
    · exact Or.inr (Or.inr (Or.inr ⟨UInt32.le_iff_toNat_le.1 h.1, UInt32.le_iff_toNat_le.1 h.2⟩))
    · exact Or.inr (Or.inl ⟨UInt32.le_iff_toNat_le.1 h.1, UInt32.le_iff_toNat_le.1 h.2⟩)
  · decide
  · decide

theorem digit_code (h : c.isDigit = true) : 48 ≤ c.toNat ∧ c.toNat ≤ 57 := by
  simp only [Char.isDigit, Bool.and_eq_true, decide_eq_true_eq] at h
  exact ⟨UInt32.le_iff_toNat_le.1 h.1, UInt32.le_iff_toNat_le.1 h.2⟩

theorem namePart_code (h : isNamePart c = true) : 36 ≤ c.toNat ∧ c.toNat ≤ 122 := by
  rw [isNamePart, Bool.or_eq_true] at h
  rcases h with h | h
  · have hcode := nameStart_code h
    omega
  · have hcode := digit_code h
    omega

theorem isPrinted_of_isNamePart (h : isNamePart c = true) : isPrinted c = true := by
  have hcode := namePart_code h
  simp only [isPrinted, Bool.and_eq_true, decide_eq_true_eq]
  omega

theorem isIdentifierStart_of_isNameStart (h : isNameStart c = true) : isIdentifierStart c = true := by
  have hsmall : c.toNat < 128 := by
    have hcode := nameStart_code h
    omega
  rw [isIdentifierStart, isXidStart, if_pos hsmall, Bool.or_eq_true, Bool.or_eq_true, beq_iff_eq, beq_iff_eq]
  exact isNameStart_iff.1 h

theorem isIdentifierPart_of_isNamePart (h : isNamePart c = true) : isIdentifierPart c = true := by
  rw [isNamePart, Bool.or_eq_true] at h
  rcases h with h | h
  · exact isIdentifierPart_of_isIdentifierStart (isIdentifierStart_of_isNameStart h)
  · have hsmall : c.toNat < 128 := by
      have hcode := digit_code h
      omega
    have hdigit : isAsciiDigit c = true := h
    rw [isIdentifierPart, isXidContinue, if_pos hsmall, hdigit]
    simp

theorem isIdentifier_of_isName (h : isName text = true) : isIdentifier text = true := by
  cases text with
  | nil => cases h
  | cons first rest =>
    rw [isName, Bool.and_eq_true, List.all_eq_true] at h
    rw [isIdentifier, isIdentifierStart_of_isNameStart h.1, Bool.true_and, List.all_eq_true]
    exact fun c hc => isIdentifierPart_of_isNamePart (h.2 c hc)

theorem isPrinted_of_isName (h : isName text = true) : ∀ c ∈ text, isPrinted c = true := by
  cases text with
  | nil => cases h
  | cons first rest =>
    rw [isName, Bool.and_eq_true, List.all_eq_true] at h
    intro c hc
    rcases List.mem_cons.1 hc with rfl | hc
    · exact isPrinted_of_isNamePart (isNamePart_of_isNameStart h.1)
    · exact isPrinted_of_isNamePart (h.2 c hc)

/-! ### Single tokens -/

/-- The gaps in front of tokens, with the line that is reached through them. -/
inductive Leads : List Char → Nat → Nat → Prop where
  | nothing {line : Nat} : Leads [] line line
  | blank {line : Nat} : Leads [' '] line line
  | feed {line : Nat} : Leads ['\n'] line (line + 1)

variable {gap : List Char} {start middle line : Nat} {spelling : String} {tree : JavaTree} {trees others : List JavaTree}

theorem Leads.isGapBlank (h : Leads gap start line) : ∀ c ∈ gap, isGapBlank c = true := by
  cases h <;> exact List.all_eq_true.1 rfl

theorem Leads.isPrinted (h : Leads gap start line) : ∀ c ∈ gap, isPrinted c = true := by
  cases h <;> exact List.all_eq_true.1 rfl

theorem Leads.line_eq (h : Leads gap start line) : line = start + lineFeeds gap := by
  cases h <;> rfl

/-- Where a word may end: no identifier goes on. -/
def Breaks (after : List Char) : Prop :=
  ∀ c ∈ after.head?, isIdentifierPart c = false

/-- A text comes apart into the tokens of some trees and leads from one line to another. -/
structure Prints (start : Nat) (trees : List JavaTree) (text : List Char) (line : Nat) (after : List Char) : Prop where
  scanned : ∀ later, scanFrom line [] after = some later →
    scanFrom start [] (text ++ after) = some (tokensOfAll trees ++ later)
  printed : ∀ c ∈ text, isPrinted c = true

/-- One token, in front of anything that leaves it as it is. -/
theorem Prints.leaf (token : Token) {first : Char} {tail : List Char} (hgap : Leads token.gap start token.line)
    (hspelled : token.spelled = first :: tail) (hprinted : ∀ c ∈ first :: tail, isPrinted c = true)
    (hopen : isGapBlank first = false ∧ first ≠ '/') (hfeeds : lineFeeds token.spelled = 0)
    (hlexeme : lexeme? [] first (tail ++ after) = some ⟨token.lexeme, tail.length, []⟩) :
    Prints start [.leaf token] (token.gap ++ token.spelled) token.line after where
  scanned := by
    intro later hlater
    rw [tokensOfAll_cons, tokens_leaf, tokensOfAll_nil, List.append_nil, List.singleton_append]
    refine scanFrom_eq_cons_iff.2 ⟨[], after, ⟨List.append_assoc _ _ _, ?_, ⟨first, tail, hspelled, hlexeme⟩,
      hgap.line_eq⟩, ?_⟩
    · rw [List.append_assoc]
      refine gapLength_blanks hgap.isGapBlank ?_
      rw [hspelled, List.cons_append]
      exact gapLength_eq_zero_iff.2 ⟨hopen.1, fun hslash => absurd hslash hopen.2⟩
    · rw [hfeeds]
      exact hlater
  printed := by
    intro c hc
    rcases List.mem_append.1 hc with hc | hc
    · exact hgap.isPrinted c hc
    · exact hprinted c (hspelled ▸ hc)

/-- A word, in front of what is no part of it. -/
theorem Prints.word (spelling : String) (hgap : Leads gap start line) (hname : isName spelling.toList = true)
    (hafter : Breaks after) : Prints start [wordLeaf gap line spelling] (gap ++ spelling.toList) line after := by
  have hidentifier := isIdentifier_of_isName hname
  have hprinted := isPrinted_of_isName hname
  have hparts := isIdentifierPart_of_isIdentifier hidentifier
  have hspelling : String.ofList spelling.toList = spelling := String.ofList_toList
  cases hspelled : spelling.toList with
  | nil =>
    rw [hspelled] at hname
    cases hname
  | cons first tail =>
    rw [hspelled] at hidentifier hprinted hparts hspelling
    have hstart : isIdentifierStart first = true := (Bool.and_eq_true_iff.1 hidentifier).1
    have htail : (tail ++ after).takeWhile isIdentifierPart = tail := by
      rw [List.takeWhile_append_of_pos fun c hc => hparts c (List.mem_cons_of_mem first hc)]
      have hstop : after.takeWhile isIdentifierPart = [] := by
        cases after with
        | nil => rfl
        | cons c more => exact List.takeWhile_cons_of_neg (by simp [hafter c rfl])
      rw [hstop, List.append_nil]
    have hnoFeed : lineFeeds spelling.toList = 0 := by
      rw [hspelled, lineFeeds, List.count_eq_zero]
      intro hmem
      exact absurd (hparts _ hmem) (by decide)
    rw [← hspelled]
    refine Prints.leaf (wordToken gap line spelling) hgap hspelled hprinted ?_ hnoFeed ?_
    · have hfirst := hparts first List.mem_cons_self
      constructor
      · cases hblank : isGapBlank first with
        | false => rfl
        | true => rw [← isBlank_of_isGapBlank hblank, isBlank_of_isIdentifierPart hfirst]
      · rintro rfl
        exact absurd hfirst (by decide)
    · rw [lexeme?_eq, onset_eq_word_iff.2 hstart]
      dsimp only
      rw [htail, hspelling]
      rfl

/-- A symbol of one character, in front of what makes it no other symbol. -/
theorem Prints.symbol (hgap : Leads gap start line) (hspelling : spelling.toList = [c]) (hprinted : isPrinted c = true)
    (hopen : isGapBlank c = false ∧ c ≠ '/')
    (hlexeme : lexeme? [] c after = some ⟨.symbol spelling, 0, []⟩) :
    Prints start [symbolLeaf gap line spelling] (gap ++ [c]) line after := by
  have hnoFeed : lineFeeds spelling.toList = 0 := by
    rw [hspelling, lineFeeds, List.count_eq_zero, List.mem_singleton]
    rintro rfl
    cases hopen.1
  have hleaf : Prints start [symbolLeaf gap line spelling] (gap ++ spelling.toList) line after :=
    Prints.leaf (symbolToken gap line spelling) hgap hspelling (by simpa using hprinted) hopen hnoFeed hlexeme
  rwa [hspelling] at hleaf

/-- The symbols that no other symbol begins with. -/
def brackets : List (Char × String) :=
  [('(', "("), (')', ")"), ('{', "\x7b"), ('}', "\x7d"), ('[', "["), (']', "]"), (';', ";"), (',', ",")]

theorem bracket_spelled : ∀ pair ∈ brackets, pair.2.toList = [pair.1] ∧ isPrinted pair.1 = true ∧
    isGapBlank pair.1 = false ∧ pair.1 ≠ '/' := by
  decide

theorem lexeme?_bracket (hmem : (c, spelling) ∈ brackets) :
    lexeme? [] c after = some ⟨.symbol spelling, 0, []⟩ := by
  simp only [brackets, List.mem_cons, List.not_mem_nil, or_false, Prod.mk.injEq] at hmem
  rcases hmem with ⟨rfl, rfl⟩ | ⟨rfl, rfl⟩ | ⟨rfl, rfl⟩ | ⟨rfl, rfl⟩ | ⟨rfl, rfl⟩ | ⟨rfl, rfl⟩ | ⟨rfl, rfl⟩ | ⟨rfl, rfl⟩
  all_goals rfl

theorem Prints.bracket (hgap : Leads gap start line) (hmem : (c, spelling) ∈ brackets) :
    Prints start [symbolLeaf gap line spelling] (gap ++ [c]) line after := by
  obtain ⟨hspelling, hprinted, hopen⟩ := bracket_spelled _ hmem
  exact Prints.symbol hgap hspelling hprinted hopen (lexeme?_bracket hmem)

/-- A point, in front of no digit and no other point. -/
theorem Prints.point (hafter : ∀ c ∈ after.head?, isAsciiDigit c = false ∧ c ≠ '.') :
    Prints line [symbolLeaf [] line "."] ['.'] line after := by
  refine Prints.symbol .nothing rfl (by decide) (by decide) ?_
  cases after with
  | nil => rfl
  | cons c more =>
    obtain ⟨hdigit, hpoint⟩ := hafter c rfl
    have hpoint' : ('.' == c) = false := by simpa using hpoint.symm
    have hnumeral : (isAsciiDigit '.' || ('.' == '.' && ((c :: more).head?.map isAsciiDigit).getD false)) = false := by
      rw [List.head?_cons, Option.map_some, Option.getD_some, hdigit]
      rfl
    unfold lexeme?
    rw [if_neg (by decide), hnumeral, if_neg Bool.false_ne_true, if_neg (by decide), if_neg (by decide)]
    simp [symbols, List.isPrefixOf, hpoint']

/-- A star, in front of no equals sign. -/
theorem Prints.star (hafter : ∀ c ∈ after.head?, c ≠ '=') : Prints line [symbolLeaf [] line "*"] ['*'] line after := by
  refine Prints.symbol .nothing rfl (by decide) (by decide) ?_
  cases after with
  | nil => rfl
  | cons c more =>
    have hequals : ('=' == c) = false := by simpa using (hafter c rfl).symm
    unfold lexeme?
    rw [if_neg (by decide), if_neg (by simp [isAsciiDigit]), if_neg (by decide), if_neg (by decide)]
    simp [symbols, List.isPrefixOf, hequals]

/-! ### Pieces together -/

theorem breaks_cons (h : isIdentifierPart c = false) : Breaks (c :: text) := by
  intro d hd
  cases hd
  exact h

namespace Prints

theorem nil : Prints line [] [] line after where
  scanned := by
    intro later hlater
    simpa using hlater
  printed := by simp

theorem of_eq (h : Prints start trees text middle after) (htext : text = more) (hline : middle = line) :
    Prints start trees more line after := by
  subst htext hline
  exact h

theorem append (h : Prints start trees text middle (more ++ after)) (hmore : Prints middle others more line after) :
    Prints start (trees ++ others) (text ++ more) line after where
  scanned := by
    intro later hlater
    rw [List.append_assoc, h.scanned _ (hmore.scanned _ hlater), tokensOfAll_append, List.append_assoc]
  printed := by
    intro c hc
    exact (List.mem_append.1 hc).elim (h.printed c) (hmore.printed c)

theorem cons (h : Prints start [tree] text middle (more ++ after)) (hmore : Prints middle others more line after) :
    Prints start (tree :: others) (text ++ more) line after :=
  append h hmore

theorem node (h : Prints start trees text line after) (label : Part) :
    Prints start [.node label trees] text line after where
  scanned := by simpa using h.scanned
  printed := h.printed

/-- A bracket or a mark in front of what is printed. -/
theorem behind (c : Char) (spelling : String) (hgap : Leads gap start line) (hmem : (c, spelling) ∈ brackets)
    (hmore : Prints line trees text middle after) :
    Prints start (symbolLeaf gap line spelling :: trees) (gap ++ c :: text) middle after := by
  have hboth := cons (bracket hgap hmem) hmore
  rwa [List.append_assoc] at hboth

/-- A bracket or a mark at the end of what is printed. -/
theorem ended (spelling : String) (hmem : (c, spelling) ∈ brackets) (h : Prints start trees text line (c :: after)) :
    Prints start (trees ++ [symbolLeaf [] line spelling]) (text ++ [c]) line after := by
  have hmark : Prints line [symbolLeaf [] line spelling] [c] line after := bracket .nothing hmem
  exact append h hmark

/-- Many items, each of which may count on what holds of the next as well as of what follows them all. -/
theorem flatMap {α : Type} {items : List α} {treesOf : α → List JavaTree} {textOf : α → List Char}
    (hafter : Breaks after)
    (hitem : ∀ item ∈ items, ∀ after, Breaks after →
      Prints line (treesOf item) (textOf item) line after ∧ Breaks (textOf item ++ after)) :
    Prints line (items.flatMap treesOf) (items.flatMap textOf) line after ∧ Breaks (items.flatMap textOf ++ after) := by
  induction items with
  | nil => exact ⟨nil, hafter⟩
  | cons item items ih =>
    obtain ⟨hmore, hbreaks⟩ := ih fun other hmem => hitem other (List.mem_cons_of_mem _ hmem)
    obtain ⟨hfirst, hbreak⟩ := hitem item List.mem_cons_self _ hbreaks
    rw [List.flatMap_cons, List.flatMap_cons, List.append_assoc]
    exact ⟨append hfirst hmore, hbreak⟩

end Prints

theorem toList_intercalate_cons (mark part : String) (parts : List String) :
    (mark.intercalate (part :: parts)).toList =
      part.toList ++ parts.flatMap fun other => mark.toList ++ other.toList := by
  rw [String.toList_intercalate, List.map_cons]
  induction parts generalizing part with
  | nil => simp
  | cons other parts ih =>
    rw [List.map_cons, List.intercalate_cons_cons, ih, List.flatMap_cons, List.append_assoc, List.append_assoc]

theorem toList_separated_cons (part : String) (parts : List String) :
    (separated (part :: parts)).toList = part.toList ++ parts.flatMap fun other => ',' :: ' ' :: other.toList :=
  toList_intercalate_cons ", " part parts

theorem Dotted.toList_text (name : Dotted) :
    name.text.toList = name.first.text.toList ++ name.rest.flatMap fun part => '.' :: part.text.toList := by
  rw [Dotted.text, toList_intercalate_cons, List.flatMap_map]
  rfl

/-- What is known of the text of an item wherever it stands. -/
def PrintsAnywhere (line : Nat) (treeOf : List Char → JavaTree) (text : String) : Prop :=
  ∀ {gap : List Char} {start : Nat} {after : List Char}, Leads gap start line → Breaks after →
    Prints start [treeOf gap] (gap ++ text.toList) line after

section Commas

variable {α : Type} (treeOf : List Char → α → JavaTree) {item : α} {items : List α} {part : String} {parts : List String}

theorem Prints.commas_cons (hgap : Leads gap start line) (hafter : Breaks after)
    (hitem : PrintsAnywhere line (treeOf · item) part)
    (hitems : List.Forall₂ (fun item part => PrintsAnywhere line (treeOf · item) part) items parts) :
    Prints start (commaTrees line treeOf gap (item :: items)) (gap ++ (separated (part :: parts)).toList) line
      after := by
  have hothers : Prints line (markedTrees (symbolLeaf [] line ",") (treeOf [' ']) items)
      (parts.flatMap fun part => ',' :: ' ' :: part.toList) line after ∧
        Breaks ((parts.flatMap fun part => ',' :: ' ' :: part.toList) ++ after) := by
    induction hitems with
    | nil => exact ⟨.nil, hafter⟩
    | cons hpart _ ih =>
      exact ⟨.behind ',' "," .nothing (by decide) (.append (hpart .blank ih.2) ih.1), breaks_cons (by decide)⟩
  rw [toList_separated_cons, ← List.append_assoc]
  exact (hitem hgap hothers.2).cons hothers.1

theorem Prints.commas (hafter : Breaks after)
    (hitems : List.Forall₂ (fun item part => PrintsAnywhere line (treeOf · item) part) items parts) :
    Prints line (commaTrees line treeOf [] items) (separated parts).toList line after := by
  cases hitems with
  | nil => exact .nil
  | cons hitem hitems => exact commas_cons treeOf .nothing hafter hitem hitems

omit treeOf in
theorem forall₂_printsAnywhere {treeOf : List Char → α → JavaTree} {textOf : α → String}
    (h : ∀ item, PrintsAnywhere line (treeOf · item) (textOf item)) (items : List α) :
    List.Forall₂ (fun item part => PrintsAnywhere line (treeOf · item) part) items (items.map textOf) := by
  induction items with
  | nil => exact .nil
  | cons item items ih => exact .cons (h item) ih

end Commas

/-! ### Names and types -/

theorem Name.prints (name : Name) (line : Nat) : PrintsAnywhere line (name.tree line) name.text :=
  fun hgap hafter => (Prints.word name.text hgap name.isName hafter).node _

theorem Name.exists_start (name : Name) : ∃ first rest, name.text.toList = first :: rest ∧ isNameStart first = true := by
  have hname := name.isName
  cases hspelled : name.text.toList with
  | nil =>
    rw [hspelled] at hname
    cases hname
  | cons first rest =>
    rw [hspelled] at hname
    exact ⟨first, rest, rfl, (Bool.and_eq_true_iff.1 hname).1⟩

theorem Prints.point_name (name : Name) (text : List Char) :
    Prints line [symbolLeaf [] line "."] ['.'] line (name.text.toList ++ text) := by
  obtain ⟨first, rest, hspelled, hstart⟩ := name.exists_start
  have hcode := nameStart_code hstart
  refine .point ?_
  intro c hc
  rw [hspelled] at hc
  cases hc
  constructor
  · rw [Bool.eq_false_iff]
    intro hdigit
    have hdigit := digit_code (c := first) hdigit
    omega
  · rintro rfl
    revert hcode
    decide

theorem Dotted.prints_parts (name : Dotted) {treeOf : List Char → Name → JavaTree}
    (h : ∀ part : Name, PrintsAnywhere line (treeOf · part) part.text) (hgap : Leads gap start line)
    (hafter : Breaks after) : Prints start (name.parts line treeOf gap) (gap ++ name.text.toList) line after := by
  have hpart (part : Name) {after : List Char} (hafter : Breaks after) :
      Prints line [symbolLeaf [] line ".", treeOf [] part] ('.' :: part.text.toList) line after :=
    (Prints.point_name part after).cons (h part .nothing hafter)
  have hrest : Prints line (markedTrees (symbolLeaf [] line ".") (treeOf []) name.rest)
      (name.rest.flatMap fun part => '.' :: part.text.toList) line after ∧
        Breaks ((name.rest.flatMap fun part => '.' :: part.text.toList) ++ after) :=
    Prints.flatMap hafter fun part _ _ hafter => ⟨hpart part hafter, breaks_cons (by decide)⟩
  rw [Dotted.toList_text, ← List.append_assoc]
  exact (h name.first hgap hrest.2).cons hrest.1

theorem Dotted.prints_typeTree (name : Dotted) (line : Nat) : PrintsAnywhere line (name.typeTree line) name.text :=
  fun hgap hafter => (name.prints_parts (fun part => part.prints line) hgap hafter).node _

theorem Dotted.prints_qualifiedTree (name : Dotted) (line : Nat) :
    PrintsAnywhere line (name.qualifiedTree line) name.text :=
  fun hgap hafter => (name.prints_parts (fun part _ _ _ => (Prints.word part.text · part.isName)) hgap hafter).node _

theorem Dotted.prints_useTree (name : Dotted) (line : Nat) : PrintsAnywhere line (name.useTree line) name.text :=
  fun hgap hafter => (name.prints_typeTree line hgap hafter).node _

theorem isName_of_mem_primitiveTypes : ∀ word ∈ primitiveTypes, isName word.toList = true := by
  decide

theorem Base.prints (base : Base) (line : Nat) : PrintsAnywhere line (base.tree line) base.text := by
  intro gap start after hgap hafter
  cases base with
  | named name => exact name.prints_typeTree line hgap hafter
  | primitive word known => exact (Prints.word word hgap (isName_of_mem_primitiveTypes word known) hafter).node _

theorem toList_dimensions (n : Nat) :
    (String.join (List.replicate n "[]")).toList = (List.replicate n ()).flatMap fun _ => ['[', ']'] := by
  rw [String.toList_join]
  induction n with
  | zero => rfl
  | succ n ih =>
    rw [List.replicate_succ, List.flatMap_cons, ih]
    rfl

theorem prints_dimensionTrees (line n : Nat) (hafter : Breaks after) :
    Prints line (dimensionTrees line n) (String.join (List.replicate n "[]")).toList line after ∧
      Breaks ((String.join (List.replicate n "[]")).toList ++ after) := by
  have hpairs (pairs : List Unit) :
      Prints line (pairs.flatMap fun _ => [symbolLeaf [] line "[", symbolLeaf [] line "]"])
        (pairs.flatMap fun _ => ['[', ']']) line after ∧ Breaks ((pairs.flatMap fun _ => ['[', ']']) ++ after) :=
    Prints.flatMap hafter fun _ _ after _ =>
      ⟨.behind '[' "[" .nothing (by decide) (.bracket .nothing (by decide)), breaks_cons (by decide)⟩
  rw [toList_dimensions]
  refine ⟨?_, (hpairs _).2⟩
  cases n with
  | zero => exact .nil
  | succ n => exact (hpairs _).1.node _

theorem TypeForm.prints (type : TypeForm) (line : Nat) : PrintsAnywhere line (type.tree line) type.text := by
  intro gap start after hgap hafter
  obtain ⟨hdimensions, hbreaks⟩ := prints_dimensionTrees line type.dimensions hafter
  rw [TypeForm.text, String.toList_append, ← List.append_assoc]
  exact ((type.base.prints line hgap hbreaks).cons hdimensions).node _

theorem prints_resultTree (result : Option TypeForm) (line : Nat) :
    PrintsAnywhere line (resultTree line · result) (resultText result) := by
  intro gap start after hgap hafter
  cases result with
  | none => exact ((Prints.word "void" hgap (by decide) hafter).node _).node _
  | some type => exact type.prints line hgap hafter

/-! ### Parts of declarations -/

theorem ParameterForm.prints (parameter : ParameterForm) (line : Nat) :
    PrintsAnywhere line (parameter.tree line) parameter.text := by
  intro gap start after hgap hafter
  have hname := parameter.name.prints line .blank hafter
  have htype : Prints start [parameter.type.tree line gap] (gap ++ parameter.type.text.toList) line
      ([' '] ++ parameter.name.text.toList ++ after) :=
    parameter.type.prints line hgap (breaks_cons (by decide))
  exact ((htype.cons hname).node .parameter).of_eq (by simp [ParameterForm.text]) rfl

/-- A name and the parameters behind it. -/
theorem prints_signature (hgap : Leads gap start line) (name : Name) (parameters : List ParameterForm) :
    Prints start [name.tree line gap, parametersTree line parameters] (gap ++ (signature name parameters).toList) line
      after := by
  have hparameters : Prints line (commaTrees line (ParameterForm.tree line) [] parameters)
      (separated (parameters.map ParameterForm.text)).toList line (')' :: after) :=
    .commas _ (breaks_cons (by decide)) (forall₂_printsAnywhere (fun parameter => parameter.prints line) parameters)
  have hbrackets := ((hparameters.ended ")" (by decide)).behind '(' "(" .nothing (by decide)).node .parameters
  have hall := (name.prints line hgap (breaks_cons (by decide))).cons hbrackets
  exact hall.of_eq (by simp [signature]) rfl

theorem prints_creationTree (hgap : Leads gap start line) (type : Dotted) {arguments : List JavaTree}
    (harguments : Prints line arguments text line (')' :: after)) :
    Prints start [creationTree line gap type arguments]
      (gap ++ ("new ".toList ++ type.text.toList ++ '(' :: (text ++ [')']))) line after := by
  have hbrackets := (harguments.ended ")" (by decide)).behind '(' "(" .nothing (by decide)
  have htype := (type.prints_useTree line .blank (breaks_cons (by decide))).cons hbrackets
  have hword := (Prints.word "new" hgap (by decide) (breaks_cons (by decide))).cons htype
  exact ((hword.node .creation).node .chain).of_eq (by simp) rfl

/-- The instantiations that are arguments, each wherever it stands. -/
theorem Creations.prints_chains (creations : Creations) :
    List.Forall₂ (PrintsAnywhere line) (creations.chains line) creations.texts := by
  induction creations with
  | none => exact .nil
  | new type arguments rest harguments hrest =>
    refine .cons ?_ hrest
    intro gap start after hgap hafter
    have hcommas : Prints line (argumentTrees line arguments) (separated arguments.texts).toList line (')' :: after) :=
      .commas placed (breaks_cons (by decide)) harguments
    exact (prints_creationTree hgap type hcommas).of_eq (by simp) rfl

theorem Creations.prints_arguments (arguments : Creations) (hafter : Breaks after) :
    Prints line (argumentTrees line arguments) (separated arguments.texts).toList line after :=
  .commas placed hafter arguments.prints_chains

/-- The characters of some lines, each behind a line feed. -/
def led (lines : List String) : List Char :=
  lines.flatMap fun text => '\n' :: text.toList

@[simp] theorem led_nil : led [] = [] := rfl

@[simp] theorem led_cons (front : String) (lines : List String) :
    led (front :: lines) = '\n' :: (front.toList ++ led lines) := by
  rw [led, List.flatMap_cons, List.cons_append, led]

@[simp] theorem led_append (front back : List String) : led (front ++ back) = led front ++ led back :=
  List.flatMap_append

theorem Creations.lines_new (type : Dotted) (arguments rest : Creations) :
    (Creations.new type arguments rest).lines =
      ("new " ++ type.text ++ "(" ++ separated arguments.texts ++ ")" ++ ";") :: rest.lines := by
  rw [Creations.lines, Creations.texts, List.map_cons, Creations.lines]

theorem Creations.prints_statements (creations : Creations) (line : Nat) :
    Prints line (creations.statements (line + 1)) (led creations.lines) (line + creations.lines.length) after := by
  induction creations generalizing line with
  | none => exact .nil
  | new type arguments rest _ hrest =>
    have hend := (hrest (line + 1)).behind ';' ";" .nothing (by decide)
    have hall := (prints_creationTree .feed type (arguments.prints_arguments (breaks_cons (by decide)))).cons hend
    rw [Creations.lines_new]
    exact hall.of_eq (by simp) (by rw [List.length_cons]; omega)

theorem prints_blockTree (label : Part) {inside : List JavaTree} {last : Nat}
    (hinside : Prints line inside text last ('\n' :: '}' :: after)) :
    Prints line [blockTree label line (last + 1) inside] (' ' :: '{' :: (text ++ ['\n', '}'])) (last + 1) after := by
  have hclose : Prints last [symbolLeaf ['\n'] (last + 1) "\x7d"] ['\n', '}'] (last + 1) after :=
    .bracket .feed (by decide)
  exact ((hinside.append hclose).behind '{' "\x7b" .blank (by decide)).node label

theorem prints_bodyTree (body : Creations) :
    Prints line [bodyTree line body] (' ' :: '{' :: (led body.lines ++ ['\n', '}'])) (line + 1 + body.lines.length)
      after := by
  have hblock : Prints line [blockTree .block line (line + body.lines.length + 1) (body.statements (line + 1))]
      (' ' :: '{' :: (led body.lines ++ ['\n', '}'])) (line + body.lines.length + 1) after :=
    prints_blockTree .block (body.prints_statements line)
  rwa [Nat.add_right_comm] at hblock

/-! ### Declarations -/

theorem prints_clauseTrees (line : Nat) (label : Part) (word : String) (hword : isName word.toList = true)
    (types : List Dotted) (hafter : Breaks after) :
    Prints line (clauseTrees label word line types) (clause word types).toList line after := by
  cases types with
  | nil => exact .nil
  | cons type types =>
    have htypes : Prints line (commaTrees line (Dotted.useTree line) [' '] (type :: types))
        ([' '] ++ (separated (type.text :: types.map Dotted.text)).toList) line after :=
      Prints.commas_cons _ .blank hafter (type.prints_useTree line)
        (forall₂_printsAnywhere (fun type => type.prints_useTree line) types)
    have hall := ((Prints.word word .blank hword (breaks_cons (by decide))).cons htypes).node label
    exact hall.of_eq (by simp [clause]) rfl

theorem Header.prints (hgap : Leads gap start line) (header : Header) (hafter : Breaks after) :
    Prints start (header.trees line gap) (gap ++ header.text.toList) line after := by
  have hbreaks (word : String) (types : List Dotted) {after : List Char} (hafter : Breaks after) :
      Breaks ((clause word types).toList ++ after) := by
    cases types with
    | nil => exact hafter
    | cons type types =>
      have hblank : (clause word (type :: types)).toList =
          ' ' :: (word ++ " " ++ separated ((type :: types).map Dotted.text)).toList := by simp [clause]
      rw [hblank]
      exact breaks_cons (by decide)
  cases header with
  | classType name extended implemented =>
    have himplemented := prints_clauseTrees line .implemented "implements" (by decide) implemented hafter
    have hextended := prints_clauseTrees line .extended "extends" (by decide) extended.toList
      (hbreaks "implements" implemented hafter)
    have hclauses := hbreaks "extends" extended.toList (hbreaks "implements" implemented hafter)
    rw [← List.append_assoc] at hclauses
    have hname := (name.prints line .blank hclauses).cons (hextended.append himplemented)
    have hall := (Prints.word "class" hgap (by decide) (breaks_cons (by decide))).cons hname
    exact hall.of_eq (by simp [Header.text]) rfl
  | interfaceType name extended =>
    have hextended := prints_clauseTrees line .extended "extends" (by decide) extended hafter
    have hname := (name.prints line .blank (hbreaks "extends" extended hafter)).cons hextended
    have hall := (Prints.word "interface" hgap (by decide) (breaks_cons (by decide))).cons hname
    exact hall.of_eq (by simp [Header.text]) rfl

/-- The characters of a block behind the text in front of it. -/
theorem led_blockLines (front : String) (inside : List String) :
    led (blockLines front inside) = '\n' :: (front.toList ++ ' ' :: '{' :: (led inside ++ ['\n', '}'])) := by
  simp [blockLines, led]

theorem length_blockLines (front : String) (inside : List String) :
    (blockLines front inside).length = inside.length + 2 := by
  simp [blockLines]

theorem prints_typeTree (hgap : Leads gap start line) (header : Header) {inside : List JavaTree} {lines : List String}
    (hinside : Prints line inside (led lines) (line + lines.length) ('\n' :: '}' :: after)) :
    Prints start [typeTree line gap header lines.length inside]
      (gap ++ (header.text.toList ++ ' ' :: '{' :: (led lines ++ ['\n', '}']))) (line + 1 + lines.length) after := by
  have hblock := prints_blockTree .typeBody hinside
  rw [Nat.add_right_comm] at hblock
  have hall := ((header.prints hgap (breaks_cons (by decide))).append hblock).node header.label
  exact (hall.node .declaration).of_eq (by simp) rfl

theorem prints_fieldTree (type : TypeForm) (first : Name) (others : List Name) :
    Prints line
      [declarationTree .field (type.tree (line + 1) ['\n'] ::
        (commaTrees (line + 1) (declaratorTree (line + 1)) [' '] (first :: others) ++ [symbolLeaf [] (line + 1) ";"]))]
      ('\n' :: (fieldText type (first :: others)).toList) (line + 1) after := by
  have hvariable (name : Name) : PrintsAnywhere (line + 1) (declaratorTree (line + 1) · name) name.text :=
    fun hgap hafter => (name.prints (line + 1) hgap hafter).node _
  have hvariables : Prints (line + 1) (commaTrees (line + 1) (declaratorTree (line + 1)) [' '] (first :: others))
      ([' '] ++ (separated (first.text :: others.map Name.text)).toList) (line + 1) (';' :: after) :=
    .commas_cons _ .blank (breaks_cons (by decide)) (hvariable first) (forall₂_printsAnywhere hvariable others)
  have hfield := (type.prints (line + 1) .feed (breaks_cons (by decide))).cons (hvariables.ended ";" (by decide))
  exact ((hfield.node .field).node .declaration).of_eq (by simp [fieldText]) rfl

theorem prints_methodEnd (line : Nat) (after : List Char) (front : String) (body : Option Creations) :
    ∃ text, led (methodLines front body) = '\n' :: (front.toList ++ text) ∧ Breaks (text ++ after) ∧
      Prints line [methodEnd line body] text (line + (methodLines front body).length - 1) after := by
  cases body with
  | none => exact ⟨[';'], by simp [methodLines, led], breaks_cons (by decide), .bracket .nothing (by decide)⟩
  | some body =>
    refine ⟨_, led_blockLines front body.lines, breaks_cons (by decide), ?_⟩
    exact (prints_bodyTree body).of_eq rfl (by rw [methodLines, length_blockLines]; omega)

theorem prints_methodTree (result : Option TypeForm) (name : Name) (parameters : List ParameterForm)
    (body : Option Creations) :
    Prints line
      [declarationTree .method [resultTree (line + 1) ['\n'] result, name.tree (line + 1) [' '],
        parametersTree (line + 1) parameters, methodEnd (line + 1) body]]
      (led (methodLines (resultText result ++ " " ++ signature name parameters) body))
      (line + (methodLines (resultText result ++ " " ++ signature name parameters) body).length) after := by
  obtain ⟨text, htext, hbreaks, hend⟩ :=
    prints_methodEnd (line + 1) after (resultText result ++ " " ++ signature name parameters) body
  have hsignature := (prints_signature .blank name parameters).append hend
  have hhead := (prints_resultTree result (line + 1) .feed (breaks_cons (by decide))).cons hsignature
  exact ((hhead.node .method).node .declaration).of_eq (by simp [htext]) (by omega)

theorem prints_constructorTree (name : Name) (parameters : List ParameterForm) (body : Creations) :
    Prints line
      [declarationTree .constructor [name.tree (line + 1) ['\n'], parametersTree (line + 1) parameters,
        bodyTree (line + 1) body]]
      (led (blockLines (signature name parameters) body.lines))
      (line + (blockLines (signature name parameters) body.lines).length) after := by
  have hbody : Prints (line + 1) [bodyTree (line + 1) body] (' ' :: '{' :: (led body.lines ++ ['\n', '}']))
      (line + 1 + 1 + body.lines.length) after := prints_bodyTree body
  have hall := (prints_signature .feed name parameters).append hbody
  exact ((hall.node .constructor).node .declaration).of_eq (by simp [led_blockLines])
    (by rw [length_blockLines]; omega)

theorem Members.prints {isClass : Bool} (members : Members isClass) (line : Nat) (after : List Char) :
    Prints line (members.trees (line + 1)) (led members.lines) (line + members.lines.length) after := by
  induction members generalizing line after with
  | none => exact .nil
  | field type first others rest ih =>
    have hall := (prints_fieldTree type first others).cons (ih (line + 1) after)
    exact hall.of_eq (by simp [Members.lines]) (by simp [Members.lines]; omega)
  | method result name parameters body rest ih =>
    have hrest := ih (line + (methodLines (resultText result ++ " " ++ signature name parameters) body).length) after
    have hall := (prints_methodTree result name parameters body).cons hrest
    rw [Nat.add_right_comm] at hall
    exact hall.of_eq (by simp [Members.lines]) (by simp [Members.lines]; omega)
  | constructor name parameters body rest ih =>
    have hrest := ih (line + (blockLines (signature name parameters) body.lines).length) after
    have hall := (prints_constructorTree name parameters body).cons hrest
    rw [Nat.add_right_comm] at hall
    exact hall.of_eq (by simp [Members.lines]) (by simp [Members.lines]; omega)
  | nested header inside rest ihInside ihRest =>
    have hrest := ihRest (line + (blockLines header.text inside.lines).length) after
    have htype : Prints line [typeTree (line + 1) ['\n'] header inside.lines.length (inside.trees (line + 1 + 1))]
        (led (blockLines header.text inside.lines)) (line + (blockLines header.text inside.lines).length)
        (led rest.lines ++ after) :=
      (prints_typeTree .feed header (ihInside _ _)).of_eq (by simp [led_blockLines]) (by rw [length_blockLines]; omega)
    have hall := htype.cons hrest
    rw [Nat.add_right_comm line (blockLines header.text inside.lines).length 1] at hall
    exact hall.of_eq (by simp [Members.lines]) (by simp [Members.lines]; omega)

/-! ### Whole sources -/

theorem prints_importTree (hgap : Leads gap start line) (item : ImportForm) :
    Prints start [(Item.imported item).tree line gap] (gap ++ item.text.toList) line after := by
  have hsemicolon : Prints line [symbolLeaf [] line ";"] [';'] line after := .bracket .nothing (by decide)
  have hname {text : List Char} (hbreaks : Breaks (text ++ after)) {ending : List JavaTree}
      (hend : Prints line ending text line after) :
      Prints line (item.name.qualifiedTree line [' '] :: ending) (' ' :: (item.name.text.toList ++ text)) line after :=
    (item.name.prints_qualifiedTree line .blank hbreaks).cons hend
  have hending : Prints line (item.name.qualifiedTree line [' '] ::
      ((if item.isWildcard then [symbolLeaf [] line ".", symbolLeaf [] line "*"] else []) ++ [symbolLeaf [] line ";"]))
      (' ' :: (item.name.text ++ (if item.isWildcard then ".*" else "") ++ ";").toList) line after := by
    cases item.isWildcard with
    | false => exact (hname (breaks_cons (by decide)) hsemicolon).of_eq (by simp) rfl
    | true =>
      have hstar : Prints line [symbolLeaf [] line "*"] ['*'] line ([';'] ++ after) := .star (by simp)
      have hpoint : Prints line [symbolLeaf [] line "."] ['.'] line (['*'] ++ [';'] ++ after) :=
        .point (by simp [isAsciiDigit])
      exact (hname (breaks_cons (by decide)) (hpoint.cons (hstar.cons hsemicolon))).of_eq (by simp) rfl
  cases hstatic : item.isStatic with
  | false =>
    have hall := (Prints.word "import" hgap (by decide) (breaks_cons (by decide))).cons hending
    rw [Item.tree, hstatic]
    exact (hall.node _).of_eq (by simp [ImportForm.text, hstatic]) rfl
  | true =>
    have hword := (Prints.word "static" .blank (by decide) (breaks_cons (by decide))).cons hending
    have hall := (Prints.word "import" hgap (by decide) (breaks_cons (by decide))).cons hword
    rw [Item.tree, hstatic]
    exact (hall.node _).of_eq (by simp [ImportForm.text, hstatic]) rfl

/-- The characters of some lines, with a gap in front of the first and a line feed in front of each other. -/
def ledBy (gap : List Char) : List String → List Char
  | [] => []
  | first :: rest => gap ++ first.toList ++ led rest

theorem ledBy_feed (lines : List String) : ledBy ['\n'] lines = led lines := by
  cases lines with
  | nil => rfl
  | cons first rest => simp [ledBy]

theorem Item.lines_ne_nil (item : Item) : item.lines ≠ [] := by
  cases item <;> simp [Item.lines, blockLines]

theorem Item.prints (hgap : Leads gap start line) (item : Item) :
    Prints start [item.tree line gap] (ledBy gap item.lines) (line + item.lines.length - 1) after := by
  cases item with
  | package name =>
    have hend : Prints line [symbolLeaf [] line ";"] [';'] line after := .bracket .nothing (by decide)
    have hname := (name.prints_qualifiedTree line .blank (breaks_cons (by decide))).cons hend
    have hall := (Prints.word "package" hgap (by decide) (breaks_cons (by decide))).cons hname
    exact (hall.node _).of_eq (by simp [Item.lines, ledBy, led]) rfl
  | imported item => exact (prints_importTree hgap item).of_eq (by simp [Item.lines, ledBy, led]) rfl
  | type header members =>
    exact (prints_typeTree hgap header (members.prints _ _)).of_eq (by simp [Item.lines, ledBy, blockLines])
      (by rw [Item.lines, length_blockLines]; omega)

theorem prints_itemTrees (items : List Item) (line : Nat) (after : List Char) :
    Prints line (itemTrees (line + 1) ['\n'] items) (led (items.flatMap Item.lines))
      (line + (items.flatMap Item.lines).length) after := by
  induction items generalizing line with
  | nil => exact .nil
  | cons item items ih =>
    have hpos := List.length_pos_iff.2 item.lines_ne_nil
    have hrest := ih (line + item.lines.length)
    have hfirst : Prints line [item.tree (line + 1) ['\n']] (led item.lines) (line + item.lines.length)
        (led (items.flatMap Item.lines) ++ after) :=
      (item.prints .feed).of_eq (ledBy_feed _) (by omega)
    have hall := hfirst.cons hrest
    rw [Nat.add_right_comm line item.lines.length 1] at hall
    exact hall.of_eq (by simp) (by simp; omega)

/-- A whole source, up to the line feed at its end. -/
theorem prints_trees (item : Item) (items : List Item) :
    ∃ last, Prints 1 (itemTrees 1 [] (item :: items)) (ledBy [] ((item :: items).flatMap Item.lines)) last ['\n'] := by
  have hpos := List.length_pos_iff.2 item.lines_ne_nil
  have hrest := prints_itemTrees items item.lines.length ['\n']
  have hfirst : Prints 1 [item.tree 1 []] (ledBy [] item.lines) item.lines.length
      (led (items.flatMap Item.lines) ++ ['\n']) :=
    (item.prints .nothing).of_eq rfl (by omega)
  have htext :
      ledBy [] item.lines ++ led (items.flatMap Item.lines) = ledBy [] ((item :: items).flatMap Item.lines) := by
    obtain ⟨first, more, hlines⟩ := List.exists_cons_of_ne_nil item.lines_ne_nil
    rw [List.flatMap_cons, hlines]
    simp [ledBy]
  have hall := hfirst.cons hrest
  rw [Nat.add_comm item.lines.length 1] at hall
  exact ⟨_, hall.of_eq htext rfl⟩

/-- Lines that end in a line feed are the same characters as lines that begin with one, but for the ends. -/
theorem toList_join_lines (first : String) (rest : List String) :
    (String.join ((first :: rest).map (· ++ "\n"))).toList = ledBy [] (first :: rest) ++ ['\n'] := by
  rw [String.toList_join, List.flatMap_map, ledBy]
  induction rest generalizing first with
  | nil => simp
  | cons second rest ih =>
    rw [List.flatMap_cons, ih]
    simp

/-- **A printed skeleton is scanned into the tokens of its trees.** -/
theorem scan_text (skeleton : Skeleton) : scan skeleton.text.toList = some (tokensOfAll skeleton.trees) := by
  rw [text, lines, Skeleton.trees]
  cases skeleton.items with
  | nil => exact scanFrom_eq_nil_iff.2 rfl
  | cons item items =>
    obtain ⟨last, hprints⟩ := prints_trees item items
    obtain ⟨first, more, hlines⟩ : ∃ first more, (item :: items).flatMap Item.lines = first :: more := by
      obtain ⟨first, more, hlines⟩ := List.exists_cons_of_ne_nil item.lines_ne_nil
      exact ⟨first, more ++ items.flatMap Item.lines, by rw [List.flatMap_cons, hlines, List.cons_append]⟩
    rw [hlines] at hprints ⊢
    have hprinted : ∀ c ∈ ledBy [] (first :: more) ++ ['\n'], isPrinted c = true := by
      intro c hc
      rcases List.mem_append.1 hc with hc | hc
      · exact hprints.printed c hc
      · rw [List.mem_singleton.1 hc]
        decide
    have hnull : ¬(ledBy [] (first :: more) ++ ['\n']).contains '\x00' = true := by
      rw [List.contains_iff_mem]
      exact fun hmem => absurd (hprinted _ hmem) (by decide)
    have hmark : mark (ledBy [] (first :: more) ++ ['\n']) = [] := by
      refine mark_eq_nil fun rest heq => ?_
      rw [heq] at hprinted
      exact absurd (hprinted _ List.mem_cons_self) (by decide)
    have hend : scanFrom last [] ['\n'] = some [] := scanFrom_eq_nil_iff.2 rfl
    rw [toList_join_lines, scan_eq, if_neg hnull, hmark, List.length_nil, List.drop_zero, hprints.scanned _ hend,
      List.append_nil]

end JavaAtlas.Skeleton

import JavaAtlas.Proofs.Syntax.Scan
import JavaAtlas.Proofs.Syntax.Comments

/-!
# Carriage returns at line ends

A text in which every line feed has got a carriage return in front of it comes apart into the same tokens. The
carriage return is blank in a gap, stops what a line feed stops, and is passed in a piece of text as the line feed
is. Only behind a backslash the two part ways, since an escape takes a single character.
-/

namespace JavaAtlas.Syntax

open JavaAtlas.Text

/-- A text with a carriage return before every line feed. -/
def returned (text : List Char) : List Char :=
  text.flatMap fun c => if c = '\n' then ['\r', '\n'] else [c]

/-- No line feed of a text has a backslash directly before it. -/
def Unescaped (text : List Char) : Prop :=
  ¬ ['\\', '\n'] <:+: text

def Token.returned (token : Token) : Token :=
  { token with gap := Syntax.returned token.gap, spelled := Syntax.returned token.spelled }

variable {text rest : List Char} {c : Char}

/-! ### Texts with carriage returns -/

@[simp] theorem returned_nil : returned [] = [] := rfl

@[simp] theorem returned_lineFeed (text : List Char) : returned ('\n' :: text) = '\r' :: '\n' :: returned text := rfl

theorem returned_cons (h : c ≠ '\n') : returned (c :: text) = c :: returned text := by
  rw [returned, List.flatMap_cons, if_neg h]
  rfl

@[simp] theorem returned_append (text more : List Char) : returned (text ++ more) = returned text ++ returned more :=
  List.flatMap_append

theorem returned_eq_self (h : '\n' ∉ text) : returned text = text := by
  induction text with
  | nil => rfl
  | cons c rest ih =>
    rw [List.mem_cons, not_or] at h
    rw [returned_cons (Ne.symm h.1), ih h.2]

theorem returned_eq_nil_iff : returned text = [] ↔ text = [] := by
  cases text with
  | nil => simp
  | cons c rest =>
    by_cases hc : c = '\n'
    · subst hc
      simp
    · simp [returned_cons hc]

/-- Other than carriage returns, what stands in front stood there before. -/
theorem returned_eq_cons {more : List Char} (h : returned text = c :: more) (hc : c ≠ '\r') :
    ∃ rest, text = c :: rest ∧ more = returned rest := by
  cases text with
  | nil => cases h
  | cons d rest =>
    by_cases hd : d = '\n'
    · subst hd
      cases h
      exact absurd rfl hc
    · rw [returned_cons hd] at h
      cases h
      exact ⟨rest, rfl, rfl⟩

theorem lineFeeds_returned (text : List Char) : lineFeeds (returned text) = lineFeeds text := by
  induction text with
  | nil => rfl
  | cons c rest ih =>
    by_cases hc : c = '\n'
    · subst hc
      simpa [lineFeeds] using ih
    · simpa [lineFeeds, returned_cons hc, hc] using ih

theorem take_returned (text : List Char) (n : Nat) :
    (returned text).take (returned (text.take n)).length = returned (text.take n) := by
  conv_lhs => rw [← List.take_append_drop n text, returned_append]
  simp

theorem drop_returned (text : List Char) (n : Nat) :
    (returned text).drop (returned (text.take n)).length = returned (text.drop n) := by
  conv_lhs => rw [← List.take_append_drop n text, returned_append]
  simp

theorem Unescaped.drop (h : Unescaped text) (n : Nat) : Unescaped (text.drop n) :=
  fun hheld => h (hheld.trans (List.drop_suffix n text).isInfix)

theorem Unescaped.tail (h : Unescaped (c :: text)) : Unescaped text :=
  h.drop 1

theorem Unescaped.ne_lineFeed (h : Unescaped ('\\' :: c :: text)) : c ≠ '\n' := by
  rintro rfl
  exact h ⟨[], text, rfl⟩

/-- Nothing new comes to stand in front of a text but a carriage return. -/
theorem mem_head?_returned (h : c ∈ (returned text).head?) : c = '\r' ∨ c ∈ text.head? := by
  obtain ⟨more, hmore⟩ := List.head?_eq_some_iff.1 h
  by_cases hc : c = '\r'
  · exact Or.inl hc
  · obtain ⟨rest, rfl, -⟩ := returned_eq_cons hmore hc
    exact Or.inr rfl

theorem head?_returned (text : List Char) :
    (returned text).head? = text.head?.map fun c => if c = '\n' then '\r' else c := by
  cases text with
  | nil => rfl
  | cons c rest =>
    by_cases hc : c = '\n'
    · subst hc
      rfl
    · rw [returned_cons hc, List.head?_cons, List.head?_cons, Option.map_some, if_neg hc]

theorem takeWhile_returned {p : Char → Bool} (hp : p '\r' = false ∧ p '\n' = false) :
    (returned text).takeWhile p = text.takeWhile p := by
  induction text with
  | nil => rfl
  | cons c rest ih =>
    by_cases hc : c = '\n'
    · subst hc
      rw [returned_lineFeed, List.takeWhile_cons_of_neg (by simp [hp.1]), List.takeWhile_cons_of_neg (by simp [hp.2])]
    · rw [returned_cons hc, List.takeWhile_cons, List.takeWhile_cons, ih]

theorem dropWhile_returned {p : Char → Bool} (hp : p '\r' = false ∧ p '\n' = false) :
    (returned text).dropWhile p = returned (text.dropWhile p) := by
  induction text with
  | nil => rfl
  | cons c rest ih =>
    by_cases hc : c = '\n'
    · subst hc
      rw [returned_lineFeed, List.dropWhile_cons_of_neg (by simp [hp.1]), List.dropWhile_cons_of_neg (by simp [hp.2]),
        returned_lineFeed]
    · rw [returned_cons hc, List.dropWhile_cons, List.dropWhile_cons]
      split
      · exact ih
      · exact (returned_cons hc).symm

/-! ### Gaps -/

theorem gapLength_returned (state : GapState) (text : List Char) :
    gapLength state (returned text) = (gapLength state text).map fun n => (returned (text.take n)).length := by
  fun_induction gapLength state text with
  | case1 rest ih =>
    rw [returned_cons (by decide), returned_cons (by decide), gapLength, ih]
    cases gapLength .lineComment rest <;> simp [returned_cons]
  | case2 rest ih =>
    rw [returned_cons (by decide), returned_cons (by decide), gapLength, ih]
    cases gapLength .blockComment rest <;> simp [returned_cons]
  | case3 c rest hline hblock hblank ih =>
    by_cases hc : c = '\n'
    · subst hc
      rw [returned_lineFeed, gapLength_blank (by decide), gapLength_blank (by decide), ih]
      cases gapLength .outside rest <;> simp
    · rw [returned_cons hc, gapLength_blank hblank, ih]
      cases gapLength .outside rest <;> simp [returned_cons hc]
  | case4 c rest hline hblock hblank =>
    have hc : c ≠ '\n' := by
      rintro rfl
      exact hblank (by decide)
    rw [returned_cons hc]
    refine gapLength_eq_zero_iff.2 ⟨Bool.eq_false_iff.2 hblank, ?_⟩
    intro hslash d hd
    rcases mem_head?_returned hd with rfl | hd
    · decide
    · obtain ⟨more, rfl⟩ := List.head?_eq_some_iff.1 hd
      constructor
      · rintro rfl
        exact hline more hslash rfl
      · rintro rfl
        exact hblock more hslash rfl
  | case5 rest ih =>
    rw [returned_lineFeed, gapLength, gapLength, ih]
    · cases gapLength .outside rest <;> simp
    · decide
  | case6 c rest hbreak ih =>
    have hc : c ≠ '\n' := hbreak
    rw [returned_cons hc, gapLength, ih]
    · cases gapLength .lineComment rest <;> simp [returned_cons hc]
    · exact hc
  | case7 rest ih =>
    rw [returned_cons (by decide), returned_cons (by decide), gapLength, ih]
    cases gapLength .outside rest <;> simp [returned_cons]
  | case8 c rest hend ih =>
    by_cases hc : c = '\n'
    · subst hc
      rw [returned_lineFeed, gapLength, gapLength, ih]
      · cases gapLength .blockComment rest <;> simp
      all_goals
        intros
        contradiction
    · rw [returned_cons hc, gapLength, ih]
      · cases gapLength .blockComment rest <;> simp [returned_cons hc]
      · intro more hstar hmore
        obtain ⟨after, hrest, -⟩ := returned_eq_cons hmore (by decide)
        exact hend after hstar hrest
  | case9 => rfl
  | case10 => rfl
  | case11 => rfl

/-! ### Characters and texts -/

theorem characterTail_returned (h : Unescaped text) (seen : Nat) :
    characterTail seen (returned text) =
      (characterTail seen text).map fun n => (returned (text.take n)).length := by
  fun_induction characterTail seen text with
  | case1 rest =>
    rw [returned_cons (by decide), characterTail, if_pos rfl]
    rfl
  | case2 seen rest hseen =>
    rw [returned_cons (by decide), characterTail, if_neg hseen]
    simp [returned_cons]
  | case3 seen rest =>
    rw [returned_lineFeed, characterTail, characterTail]
    · rfl
    all_goals
      intros
      contradiction
  | case4 seen escaped rest ih =>
    have hc := h.ne_lineFeed
    rw [returned_cons (by decide), returned_cons hc, characterTail, ih h.tail.tail]
    cases characterTail (seen + 1) rest <;> simp [returned_cons, hc]
  | case5 => rfl
  | case6 seen c rest hquote hbreak hescape hend ih =>
    have hc := ne_backslash hescape hend
    rw [returned_cons hbreak, characterTail, ih h.tail]
    · cases characterTail (seen + 1) rest <;> simp [returned_cons hbreak]
    · exact hquote
    · exact hbreak
    · exact fun _ _ hslash => absurd hslash hc
    · exact fun hslash => absurd hslash hc
  | case7 => rfl

theorem isPrefixOf_returned {front : List Char} (hfront : ∀ c ∈ front, c ≠ '\r' ∧ c ≠ '\n') (text : List Char) :
    front.isPrefixOf (returned text) = front.isPrefixOf text := by
  induction front generalizing text with
  | nil => simp
  | cons c front ih =>
    obtain ⟨⟨hreturn, hbreak⟩, hmore⟩ := List.forall_mem_cons.1 hfront
    cases text with
    | nil => rfl
    | cons d rest =>
      by_cases hd : d = '\n'
      · subst hd
        rw [returned_lineFeed, List.isPrefixOf, List.isPrefixOf, beq_false_of_ne hreturn, beq_false_of_ne hbreak,
          Bool.false_and, Bool.false_and]
      · rw [returned_cons hd, List.isPrefixOf, List.isPrefixOf, ih hmore]

theorem blockTail_returned (h : Unescaped text) :
    blockTail (returned text) =
      (blockTail text).map fun found => ((returned (text.take found.1)).length, found.2) := by
  fun_induction blockTail text with
  | case1 rest => simp [returned_cons, blockTail]
  | case2 rest => simp [returned_cons, blockTail]
  | case3 escaped rest hopening ih =>
    have hc := h.ne_lineFeed
    rw [returned_cons (by decide), returned_cons hc, blockTail, ih h.tail.tail]
    · cases blockTail rest <;> simp [returned_cons, hc]
    · exact hopening
  | case4 => rfl
  | case5 c rest hclosed hopening hescape hend ih =>
    have hslash := ne_backslash hescape hend
    by_cases hc : c = '\n'
    · subst hc
      rw [returned_lineFeed, blockTail, blockTail, ih h.tail]
      · cases blockTail rest <;> simp
      all_goals
        intros
        contradiction
    · rw [returned_cons hc, blockTail, ih h.tail]
      · cases blockTail rest <;> simp [returned_cons hc]
      · intro after hquote hafter
        obtain ⟨more, hrest, hmore⟩ := returned_eq_cons hafter (by decide)
        obtain ⟨rest, rfl, -⟩ := returned_eq_cons hmore.symm (by decide)
        exact hclosed rest hquote hrest
      · exact fun _ hc => absurd hc hslash
      · exact fun _ _ hc => absurd hc hslash
      · exact fun hc => absurd hc hslash
  | case6 => rfl

theorem isBracedEscape_returned (text : List Char) : isBracedEscape (returned text) = isBracedEscape text := by
  have hclosing (rest : List Char) : ((returned rest).head? == some '}') = (rest.head? == some '}') := by
    rw [head?_returned]
    cases rest with
    | nil => rfl
    | cons c rest =>
      by_cases hc : c = '\n'
      · subst hc
        rfl
      · simp [hc]
  rw [isBracedEscape, isBracedEscape, takeWhile_returned (by decide), dropWhile_returned (by decide), hclosing]

theorem returned_digit_cons (hc : isHexDigit c = true) : returned (c :: text) = c :: returned text := by
  apply returned_cons
  rintro rfl
  cases hc

/-- Digits that stand in front of a text stood there before. -/
theorem exists_of_returned_eq_digits {digits more : List Char} (hdigits : digits.all isHexDigit = true)
    (h : returned text = digits ++ more) : ∃ rest, text = digits ++ rest := by
  induction digits generalizing text with
  | nil => exact ⟨text, rfl⟩
  | cons c digits ih =>
    rw [List.all_cons, Bool.and_eq_true] at hdigits
    have hreturn : c ≠ '\r' := by
      rintro rfl
      cases hdigits.1
    obtain ⟨after, rfl, hafter⟩ := returned_eq_cons h hreturn
    obtain ⟨rest, rfl⟩ := ih hdigits.2 hafter.symm
    exact ⟨rest, rfl⟩

/-- An escape that lacks its two digits leaves a string without an end. -/
theorem stringTail_shortEscape (h : ∀ a b more, rest = a :: b :: more → [a, b].all isHexDigit = false) :
    stringTail ('\\' :: 'x' :: rest) = none := by
  rcases rest with _ | ⟨a, _ | ⟨b, more⟩⟩
  · rfl
  · rfl
  · rw [stringTail, if_neg]
    simpa using h a b more rfl

theorem stringTail_returned_shortEscape
    (h : ∀ a b more, rest = a :: b :: more → [a, b].all isHexDigit = false) :
    stringTail ('\\' :: 'x' :: returned rest) = none := by
  apply stringTail_shortEscape
  intro a b more hmore
  apply Bool.eq_false_iff.2
  intro hdigits
  obtain ⟨after, rfl⟩ := exists_of_returned_eq_digits hdigits hmore
  rw [h a b after rfl] at hdigits
  cases hdigits

/-- An escape that lacks its four digits leaves a string without an end. -/
theorem stringTail_longEscape (hbrace : ∀ more, rest ≠ '{' :: more)
    (h : ∀ a b c d more, rest = a :: b :: c :: d :: more → [a, b, c, d].all isHexDigit = false) :
    stringTail ('\\' :: 'u' :: rest) = none := by
  rcases rest with _ | ⟨a, _ | ⟨b, _ | ⟨c, _ | ⟨d, more⟩⟩⟩⟩
  case cons.cons.cons.cons =>
    rw [stringTail, if_neg]
    · simpa [and_assoc] using h a b c d more rfl
    · exact fun ha => hbrace _ (congrArg (· :: b :: c :: d :: more) ha)
  all_goals
    rw [stringTail]
    · exact hbrace
    · intro _ _ _ _ _ hmore
      cases hmore

theorem stringTail_returned_longEscape (hbrace : ∀ more, rest ≠ '{' :: more)
    (h : ∀ a b c d more, rest = a :: b :: c :: d :: more → [a, b, c, d].all isHexDigit = false) :
    stringTail ('\\' :: 'u' :: returned rest) = none := by
  refine stringTail_longEscape ?_ ?_
  · intro more hmore
    obtain ⟨after, rfl, -⟩ := returned_eq_cons hmore (by decide)
    exact hbrace _ rfl
  · intro a b c d more hmore
    apply Bool.eq_false_iff.2
    intro hdigits
    obtain ⟨after, rfl⟩ := exists_of_returned_eq_digits hdigits hmore
    rw [h a b c d after rfl] at hdigits
    cases hdigits

theorem stringTail_returned (h : Unescaped text) :
    stringTail (returned text) =
      (stringTail text).map fun found => ((returned (text.take found.1)).length, found.2) := by
  fun_induction stringTail text with
  | case1 => simp [returned_cons, stringTail]
  | case2 => simp [returned_cons, stringTail]
  | case3 a b rest hdigits ih =>
    obtain ⟨ha, hb⟩ := Bool.and_eq_true_iff.1 hdigits
    rw [returned_cons (by decide), returned_cons (by decide), returned_digit_cons ha, returned_digit_cons hb,
      stringTail, if_pos hdigits, ih (h.drop 4)]
    cases stringTail rest <;> simp [returned_cons, returned_digit_cons, ha, hb]
  | case4 a b rest hdigits =>
    rw [returned_cons (by decide), returned_cons (by decide), stringTail_returned_shortEscape]
    · rfl
    · rintro a b more ⟨⟩
      simpa using hdigits
  | case5 rest hescape ih =>
    rw [returned_cons (by decide), returned_cons (by decide), returned_cons (by decide), stringTail,
      isBracedEscape_returned, if_pos hescape, ih (h.drop 3)]
    cases stringTail rest <;> simp [returned_cons]
  | case6 rest hescape =>
    rw [returned_cons (by decide), returned_cons (by decide), returned_cons (by decide), stringTail,
      isBracedEscape_returned, if_neg hescape]
    rfl
  | case7 a b c d rest hbrace hdigits ih =>
    have hall := hdigits
    simp only [Bool.and_eq_true] at hall
    obtain ⟨⟨⟨ha, hb⟩, hc⟩, hd⟩ := hall
    rw [returned_cons (by decide), returned_cons (by decide), returned_digit_cons ha, returned_digit_cons hb,
      returned_digit_cons hc, returned_digit_cons hd, stringTail, if_pos hdigits, ih (h.drop 6)]
    · cases stringTail rest <;> simp [returned_cons, returned_digit_cons, ha, hb, hc, hd]
    · exact hbrace
  | case8 a b c d rest hbrace hdigits =>
    rw [returned_cons (by decide), returned_cons (by decide), stringTail_returned_longEscape]
    · rfl
    · rintro more ⟨⟩
      exact hbrace rfl
    · rintro a b c d more ⟨⟩
      simpa [and_assoc] using hdigits
  | case9 rest hshort =>
    rw [returned_cons (by decide), returned_cons (by decide), stringTail_returned_shortEscape]
    · rfl
    · exact fun a b more hmore => (hshort a b more hmore).elim
  | case10 rest hbrace hshort =>
    rw [returned_cons (by decide), returned_cons (by decide), stringTail_returned_longEscape hbrace]
    · rfl
    · exact fun a b c d more hmore => (hshort a b c d more hmore).elim
  | case11 escaped rest hbrace _ _ _ hx hu ih =>
    have hc := h.ne_lineFeed
    rw [returned_cons (by decide), returned_cons hc, stringTail, ih h.tail.tail]
    · cases stringTail rest <;> simp [returned_cons, hc]
    · exact hbrace
    all_goals
      intros
      contradiction
  | case12 => rfl
  | case13 c rest hquote _ _ _ _ _ _ hescape hend ih =>
    have hslash := ne_backslash hescape hend
    by_cases hc : c = '\n'
    · subst hc
      rw [returned_lineFeed, stringTail_cons (by decide) (by decide), stringTail_cons (by decide) (by decide),
        ih h.tail]
      cases stringTail rest <;> simp
    · rw [returned_cons hc, stringTail_cons hquote hslash, ih h.tail]
      cases stringTail rest <;> simp [returned_cons hc]
  | case14 => rfl

theorem textTail_returned (inBlock : Bool) (h : Unescaped text) :
    textTail inBlock (returned text) =
      (textTail inBlock text).map fun found => ((returned (text.take found.1)).length, found.2) := by
  cases inBlock with
  | true => exact blockTail_returned h
  | false => exact stringTail_returned h

/-! ### Lexemes -/

theorem exists_firstLine (text : List Char) :
    ∃ line rest, text = line ++ rest ∧ '\n' ∉ line ∧ Halts rest ∧ Halts (returned rest) := by
  induction text with
  | nil => exact ⟨[], [], rfl, by simp, by simp [Halts], by simp [Halts]⟩
  | cons c text ih =>
    by_cases hc : c = '\n'
    · subst hc
      refine ⟨[], '\n' :: text, rfl, by simp, ?_, ?_⟩
      · intro c hc
        cases hc
        decide
      · intro c hc
        cases hc
        decide
    · obtain ⟨line, rest, rfl, hline, hrest, hreturned⟩ := ih
      refine ⟨c :: line, rest, rfl, ?_, hrest, hreturned⟩
      rw [List.mem_cons, not_or]
      exact ⟨Ne.symm hc, hline⟩

theorem numeralLength_returned (first : Char) (text : List Char) :
    numeralLength (first :: returned text) = numeralLength (first :: text) ∧
      '\n' ∉ text.take (numeralLength (first :: text) - 1) := by
  obtain ⟨line, rest, rfl, hline, hrest, hreturned⟩ := exists_firstLine text
  have hshort := numeralLength_le (first :: line)
  rw [returned_append, returned_eq_self hline, ← List.cons_append, ← List.cons_append,
    numeralLength_append hreturned, numeralLength_append hrest]
  refine ⟨rfl, ?_⟩
  rw [List.take_append_of_le_length]
  · exact fun hmem => hline (List.mem_of_mem_take hmem)
  · rw [List.length_cons] at hshort
    omega

theorem find?_symbols_returned (first : Char) (text : List Char) :
    symbols.find? (·.toList.isPrefixOf (first :: returned text)) =
      symbols.find? (·.toList.isPrefixOf (first :: text)) := by
  obtain ⟨line, rest, rfl, hline, hrest, hreturned⟩ := exists_firstLine text
  rw [returned_append, returned_eq_self hline, find?_symbols_append first hreturned,
    find?_symbols_append first hrest]

theorem lineFeed_not_mem_symbols : ∀ symbol ∈ symbols, '\n' ∉ symbol.toList := by decide

/-- A symbol is on one line, and it is as long as it is spelled. -/
theorem lineFeed_not_mem_take_symbol {first : Char} {symbol : String}
    (h : symbols.find? (·.toList.isPrefixOf (first :: text)) = some symbol) :
    '\n' ∉ text.take (symbol.toList.length - 1) ∧ symbol.toList.length - 1 ≤ text.length := by
  have hfits := List.find?_some h
  have hprefix : symbol.toList <+: first :: text := List.isPrefixOf_iff_prefix.1 hfits
  have hbreak := lineFeed_not_mem_symbols symbol (List.mem_of_find?_eq_some h)
  refine ⟨?_, Nat.sub_le_of_le_add hprefix.length_le⟩
  intro hmem
  apply hbreak
  rw [List.prefix_iff_eq_take.1 hprefix]
  cases hlength : symbol.toList.length with
  | zero => simp [hlength] at hmem
  | succ n =>
    rw [hlength] at hmem
    exact List.mem_cons_of_mem first hmem

/-- What is recognised in front of a text with its line ends written out has as many more characters. -/
def Recognised.returned (text : List Char) (found : Recognised) : Recognised :=
  { found with more := (Syntax.returned (text.take found.more)).length }

theorem openText_returned {embeddings : List Embedding} {inBlock : Bool} (front : List Char)
    (hfront : '\n' ∉ front) (h : Unescaped text) :
    openText embeddings inBlock front.length (returned text) =
      (openText embeddings inBlock front.length text).map (Recognised.returned (front ++ text)) := by
  rw [openText, openText, textTail_returned inBlock h]
  cases textTail inBlock text with
  | none => rfl
  | some found =>
    obtain ⟨n, tail⟩ := found
    cases tail <;> simp [Recognised.returned, List.take_length_add_append, returned_eq_self hfront]

theorem onset_returned (first : Char) (text : List Char) : onset first (returned text) = onset first text := by
  have hdigit : ((returned text).head?.map isAsciiDigit).getD false = (text.head?.map isAsciiDigit).getD false := by
    rw [head?_returned]
    cases text with
    | nil => rfl
    | cons c rest =>
      by_cases hc : c = '\n'
      · subst hc
        rfl
      · simp [hc]
  unfold onset
  rw [hdigit, isPrefixOf_returned (by simp)]

theorem markLexeme?_returned {embeddings : List Embedding} (first : Char) (h : Unescaped text) :
    markLexeme? embeddings first (returned text) =
      (markLexeme? embeddings first text).map (Recognised.returned text) := by
  unfold markLexeme?
  split
  · rw [textTail_returned _ h]
    cases textTail _ text with
    | none => rfl
    | some found => cases hend : found.2 <;> simp [Recognised.returned, hend]
  · rfl
  · rfl
  · rw [find?_symbols_returned]
    cases hsymbol : symbols.find? (·.toList.isPrefixOf (first :: text)) with
    | none => rfl
    | some symbol =>
      obtain ⟨hplain, hle⟩ := lineFeed_not_mem_take_symbol hsymbol
      simp [Recognised.returned, returned_eq_self hplain, hle]

theorem lexeme?_returned {embeddings : List Embedding} (first : Char) (h : Unescaped text) :
    lexeme? embeddings first (returned text) =
      (lexeme? embeddings first text).map (Recognised.returned text) := by
  rw [lexeme?_eq, lexeme?_eq, onset_returned]
  cases honset : onset first text with
  | word =>
    have hpart : isIdentifierPart '\r' = false ∧ isIdentifierPart '\n' = false := by decide
    have hword : text.take (text.takeWhile isIdentifierPart).length = text.takeWhile isIdentifierPart :=
      (List.prefix_iff_eq_take.1 (List.takeWhile_prefix _)).symm
    have hplain : '\n' ∉ text.takeWhile isIdentifierPart := by
      intro hmem
      have hbreak := List.all_eq_true.1 List.all_takeWhile _ hmem
      rw [hpart.2] at hbreak
      cases hbreak
    simp [takeWhile_returned hpart, Recognised.returned, hword, returned_eq_self hplain]
  | numeral =>
    obtain ⟨hlength, hplain⟩ := numeralLength_returned first text
    have hle := numeralLength_le (first :: text)
    rw [List.length_cons] at hle
    simp [Recognised.returned, hlength, returned_eq_self hplain]
    omega
  | character =>
    dsimp only
    rw [characterTail_returned h]
    cases characterTail 0 text <;> rfl
  | block =>
    obtain ⟨more, rfl⟩ := quotes_isPrefix_of_onset honset
    have hfront : '\n' ∉ ['"', '"'] := by decide
    rw [returned_append, returned_eq_self hfront]
    exact openText_returned ['"', '"'] hfront (h.drop 2)
  | string => exact openText_returned [] (by simp) h
  | mark => exact markLexeme?_returned first h

/-! ### The scan -/

variable {source : List Char}

/-- The rest of a source comes apart into the same tokens with the line ends written out. -/
theorem scanFrom_returned (line : Nat) (embeddings : List Embedding) (h : Unescaped source) :
    scanFrom line embeddings (returned source) =
      (scanFrom line embeddings source).map (List.map Token.returned) := by
  induction hlength : source.length using Nat.strongRecOn generalizing line embeddings source with
  | ind length ih =>
    rw [scanFrom_eq, scanFrom_eq, gapLength_returned]
    cases hgap : gapLength .outside source with
    | none => rfl
    | some gap =>
      have hopen := gapLength_drop hgap
      simp only [Option.map_some, Option.bind_some, drop_returned, take_returned, lineFeeds_returned]
      cases hopened : source.drop gap with
      | nil => rfl
      | cons first rest =>
        rw [hopened] at hopen
        have hfirst : first ≠ '\n' := by
          rintro rfl
          cases (gapLength_eq_zero_iff.1 hopen).1
        have hrest : Unescaped rest := (hopened ▸ h.drop gap : Unescaped (first :: rest)).tail
        rw [returned_cons hfirst]
        dsimp only
        rw [lexeme?_returned first hrest]
        cases lexeme? embeddings first rest with
        | none => rfl
        | some found =>
          have hshorter := congrArg List.length hopened
          rw [List.length_drop, List.length_cons] at hshorter
          simp only [Option.map_some, Option.bind_some, Recognised.returned, drop_returned, take_returned,
            ← returned_cons hfirst, lineFeeds_returned]
          rw [ih (rest.drop found.more).length _ _ _ (hrest.drop found.more) rfl]
          · cases scanFrom _ found.embeddings (rest.drop found.more) <;> simp [Token.returned]
          · rw [List.length_drop]
            omega

theorem contains_returned {c : Char} (hc : c ≠ '\r') (text : List Char) :
    (returned text).contains c = text.contains c := by
  induction text with
  | nil => rfl
  | cons d rest ih =>
    by_cases hd : d = '\n'
    · subst hd
      rw [returned_lineFeed, List.contains_cons, List.contains_cons, List.contains_cons, ih, beq_false_of_ne hc,
        Bool.false_or]
    · rw [returned_cons hd, List.contains_cons, List.contains_cons, ih]

/-- **A source with its line ends written out comes apart into the same tokens**, or neither does. -/
theorem scan_returned (h : Unescaped source) :
    scan (returned source) = (scan source).map (List.map Token.returned) := by
  have hmark : (returned source).drop (mark (returned source)).length =
      returned (source.drop (mark source).length) := by
    by_cases hfirst : ∃ rest, source = '\ufeff' :: rest
    · obtain ⟨rest, rfl⟩ := hfirst
      rw [returned_cons (by decide)]
      rfl
    · rw [mark_eq_nil, mark_eq_nil]
      · rfl
      · exact fun rest hsource => hfirst ⟨rest, hsource⟩
      · intro rest hsource
        obtain ⟨more, hmore, -⟩ := returned_eq_cons hsource (by decide)
        exact hfirst ⟨more, hmore⟩
  rw [scan_eq, scan_eq, contains_returned (by decide), hmark]
  split
  · rfl
  · exact scanFrom_returned 1 [] (h.drop _)

end JavaAtlas.Syntax

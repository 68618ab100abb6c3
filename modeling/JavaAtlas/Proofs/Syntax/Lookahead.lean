import JavaAtlas.Proofs.Syntax.Numerals

/-!
# Lexemes do not look into gaps

What the scan recognises in front of a text is decided by the characters of the lexeme itself and by at most a few
behind it, which stop counting where a gap opens. Quoted pieces of text end by themselves, words and numerals end in
front of a stop, and no symbol goes on with one. So a lexeme that fits in front of a stop is recognised again when
something else that halts is put there.
-/

namespace JavaAtlas.Syntax

open JavaAtlas.Text

variable {text rest other : List Char} {n : Nat} {tail : TextEnd}

/-! ### Characters and texts

A quoted piece is read up to its end and no further. -/

/-- A character that opens no escape, and is no backslash at the end, is no backslash. -/
theorem ne_backslash {c : Char} (hescape : ∀ next more, c = '\\' → rest = next :: more → False)
    (hend : c = '\\' → rest = [] → False) : c ≠ '\\' := by
  rintro rfl
  cases rest with
  | nil => exact hend rfl rfl
  | cons next more => exact hescape next more rfl rfl

theorem characterTail_le {seen : Nat} (h : characterTail seen text = some n) : n ≤ text.length := by
  fun_induction characterTail seen text generalizing n with
  | case2 => cases h; simp
  | case4 seen escaped rest ih =>
    obtain ⟨m, hm, rfl⟩ := Option.map_eq_some_iff.1 h
    exact Nat.add_le_add_right (ih hm) 2
  | case6 seen c rest _ _ _ _ ih =>
    obtain ⟨m, hm, rfl⟩ := Option.map_eq_some_iff.1 h
    exact Nat.succ_le_succ (ih hm)
  | _ => cases h

theorem characterTail_take_append {seen : Nat} (h : characterTail seen text = some n) (other : List Char) :
    characterTail seen (text.take n ++ other) = some n := by
  fun_induction characterTail seen text generalizing n with
  | case1 => cases h
  | case2 seen rest hseen =>
    cases h
    exact if_neg hseen
  | case3 => cases h
  | case4 seen escaped rest ih =>
    obtain ⟨m, hm, rfl⟩ := Option.map_eq_some_iff.1 h
    show characterTail seen ('\\' :: escaped :: (rest.take m ++ other)) = some (m + 2)
    rw [characterTail, ih hm]
    rfl
  | case5 => cases h
  | case6 seen c rest hquote hbreak hescape hend ih =>
    obtain ⟨m, hm, rfl⟩ := Option.map_eq_some_iff.1 h
    show characterTail seen (c :: (rest.take m ++ other)) = some (m + 1)
    have hc := ne_backslash hescape hend
    rw [characterTail, ih hm]
    · rfl
    · exact hquote
    · exact hbreak
    · exact fun _ _ hslash => absurd hslash hc
    · exact fun hslash => absurd hslash hc
  | case7 => cases h

theorem blockTail_le (h : blockTail text = some (n, tail)) : n ≤ text.length := by
  fun_induction blockTail text generalizing n with
  | case1 => cases h; simp
  | case2 => cases h; simp
  | case3 escaped rest hopening ih =>
    obtain ⟨found, hfound, heq⟩ := Option.map_eq_some_iff.1 h
    cases heq
    exact Nat.add_le_add_right (ih hfound) 2
  | case5 c rest _ _ _ _ ih =>
    obtain ⟨found, hfound, heq⟩ := Option.map_eq_some_iff.1 h
    cases heq
    exact Nat.succ_le_succ (ih hfound)
  | _ => cases h

/-- A piece of a text block has two characters at least, be it the two that open an embedded expression. -/
theorem exists_of_blockTail (h : blockTail text = some (n, tail)) :
    ∃ first second more m, text = first :: second :: more ∧ n = m + 2 := by
  fun_induction blockTail text generalizing n with
  | case1 more =>
    cases h
    exact ⟨'"', '"', '"' :: more, 1, rfl, rfl⟩
  | case2 more =>
    cases h
    exact ⟨'\\', '{', more, 0, rfl, rfl⟩
  | case3 escaped rest hopening ih =>
    obtain ⟨found, -, heq⟩ := Option.map_eq_some_iff.1 h
    cases heq
    exact ⟨'\\', escaped, rest, found.1, rfl, rfl⟩
  | case4 => cases h
  | case5 c rest hclosed hopening hescape hend ih =>
    obtain ⟨found, hfound, heq⟩ := Option.map_eq_some_iff.1 h
    cases heq
    obtain ⟨first, second, more, m, rfl, hm⟩ := ih hfound
    exact ⟨c, first, second :: more, m + 1, rfl, by rw [hm]⟩
  | case6 => cases h

theorem blockTail_take_append (h : blockTail text = some (n, tail)) (other : List Char) :
    blockTail (text.take n ++ other) = some (n, tail) := by
  fun_induction blockTail text generalizing n with
  | case1 => cases h; rfl
  | case2 => cases h; rfl
  | case3 escaped rest hopening ih =>
    obtain ⟨⟨m, found⟩, hm, heq⟩ := Option.map_eq_some_iff.1 h
    cases heq
    show blockTail ('\\' :: escaped :: (rest.take m ++ other)) = some (m + 2, found)
    rw [blockTail, ih hm]
    · rfl
    · exact hopening
  | case4 => cases h
  | case5 c rest hclosed hopening hescape hend ih =>
    obtain ⟨⟨m, found⟩, hm, heq⟩ := Option.map_eq_some_iff.1 h
    cases heq
    show blockTail (c :: (rest.take m ++ other)) = some (m + 1, found)
    have hc := ne_backslash hescape hend
    obtain ⟨first, second, more, m, rfl, rfl⟩ := exists_of_blockTail hm
    rw [blockTail, ih hm]
    · rfl
    · intro after hquote hafter
      -- Two more quotes behind this one are there in the full rest as well.
      cases hafter
      exact hclosed more hquote rfl
    · exact fun _ hslash => absurd hslash hc
    · exact fun _ _ hslash => absurd hslash hc
    · exact fun hslash => absurd hslash hc
  | case6 => cases h

theorem stringTail_le (h : stringTail text = some (n, tail)) : n ≤ text.length := by
  fun_induction stringTail text generalizing n with
  | case1 => cases h; simp
  | case2 => cases h; simp
  | case3 | case5 | case7 | case11 | case13 =>
    rename_i ih
    obtain ⟨found, hfound, heq⟩ := Option.map_eq_some_iff.1 h
    cases heq
    have hle := ih hfound
    simp only [List.length_cons]
    omega
  | _ => cases h

/-- What is neither a quote nor a backslash is passed one by one. -/
theorem stringTail_cons {c : Char} (hquote : c ≠ '"') (hslash : c ≠ '\\') :
    stringTail (c :: rest) = (stringTail rest).map fun found => (found.1 + 1, found.2) := by
  rw [stringTail]
  · exact hquote
  all_goals
    intros
    contradiction

theorem stringTail_hexDigit {c : Char} (hc : isHexDigit c = true) :
    stringTail (c :: rest) = (stringTail rest).map fun found => (found.1 + 1, found.2) := by
  apply stringTail_cons
  · rintro rfl
    cases hc
  · rintro rfl
    cases hc

theorem closing_brace_take_append (h : stringTail text = some (n, tail))
    (hclosing : (text.dropWhile isHexDigit).head? = some '}') (other : List Char) :
    ((text.take n ++ other).dropWhile isHexDigit).head? = some '}' := by
  induction text generalizing n with
  | nil => cases h
  | cons c rest ih =>
    by_cases hc : isHexDigit c = true
    · rw [stringTail_hexDigit hc] at h
      obtain ⟨⟨m, found⟩, hm, heq⟩ := Option.map_eq_some_iff.1 h
      cases heq
      rw [List.dropWhile_cons_of_pos hc] at hclosing
      rw [List.take_succ_cons, List.cons_append, List.dropWhile_cons_of_pos hc]
      exact ih hm hclosing
    · rw [List.dropWhile_cons_of_neg hc] at hclosing
      cases hclosing
      rw [stringTail_cons (by decide) (by decide)] at h
      obtain ⟨⟨m, found⟩, hm, heq⟩ := Option.map_eq_some_iff.1 h
      cases heq
      rfl

/-- The digits of a braced escape and its closing brace belong to the string that goes on after them. -/
theorem isBracedEscape_take_append (h : stringTail text = some (n, tail)) (hescape : isBracedEscape text = true)
    (other : List Char) : isBracedEscape (text.take n ++ other) = true := by
  simp only [isBracedEscape, Bool.and_eq_true, Bool.not_eq_true', List.isEmpty_eq_false_iff, beq_iff_eq] at hescape ⊢
  refine ⟨?_, closing_brace_take_append h hescape.2 other⟩
  cases text with
  | nil => cases h
  | cons c rest =>
    by_cases hc : isHexDigit c = true
    · rw [stringTail_hexDigit hc] at h
      obtain ⟨⟨m, found⟩, hm, heq⟩ := Option.map_eq_some_iff.1 h
      cases heq
      rw [List.take_succ_cons, List.cons_append, List.takeWhile_cons_of_pos hc]
      exact List.cons_ne_nil _ _
    · rw [List.takeWhile_cons_of_neg hc] at hescape
      exact absurd rfl hescape.1

theorem stringTail_take_append (h : stringTail text = some (n, tail)) (other : List Char) :
    stringTail (text.take n ++ other) = some (n, tail) := by
  fun_induction stringTail text generalizing n with
  | case1 => cases h; rfl
  | case2 => cases h; rfl
  | case3 a b rest hdigits ih =>
    obtain ⟨⟨m, found⟩, hm, heq⟩ := Option.map_eq_some_iff.1 h
    cases heq
    show stringTail ('\\' :: 'x' :: a :: b :: (rest.take m ++ other)) = some (m + 4, found)
    rw [stringTail, if_pos hdigits, ih hm]
    rfl
  | case5 rest hdigits ih =>
    obtain ⟨⟨m, found⟩, hm, heq⟩ := Option.map_eq_some_iff.1 h
    cases heq
    show stringTail ('\\' :: 'u' :: '{' :: (rest.take m ++ other)) = some (m + 3, found)
    rw [stringTail, if_pos (isBracedEscape_take_append hm hdigits other), ih hm]
    rfl
  | case7 a b c d rest hbrace hdigits ih =>
    obtain ⟨⟨m, found⟩, hm, heq⟩ := Option.map_eq_some_iff.1 h
    cases heq
    show stringTail ('\\' :: 'u' :: a :: b :: c :: d :: (rest.take m ++ other)) = some (m + 6, found)
    rw [stringTail, if_pos hdigits, ih hm]
    · rfl
    · exact hbrace
  | case11 escaped rest hbrace _ _ _ hx hu ih =>
    obtain ⟨⟨m, found⟩, hm, heq⟩ := Option.map_eq_some_iff.1 h
    cases heq
    show stringTail ('\\' :: escaped :: (rest.take m ++ other)) = some (m + 2, found)
    rw [stringTail, ih hm]
    · rfl
    · exact hbrace
    all_goals
      intros
      contradiction
  | case13 c rest hquote _ _ _ _ _ _ hescape hend ih =>
    obtain ⟨⟨m, found⟩, hm, heq⟩ := Option.map_eq_some_iff.1 h
    cases heq
    show stringTail (c :: (rest.take m ++ other)) = some (m + 1, found)
    have hc := ne_backslash hescape hend
    rw [stringTail_cons hquote hc, ih hm]
    rfl
  | _ => cases h

theorem textTail_le {inBlock : Bool} (h : textTail inBlock text = some (n, tail)) : n ≤ text.length := by
  cases inBlock with
  | true => exact blockTail_le h
  | false => exact stringTail_le h

theorem textTail_take_append {inBlock : Bool} (h : textTail inBlock text = some (n, tail)) (other : List Char) :
    textTail inBlock (text.take n ++ other) = some (n, tail) := by
  cases inBlock with
  | true => exact blockTail_take_append h other
  | false => exact stringTail_take_append h other

/-! ### The onset of a lexeme -/

/-- What a lexeme is by the characters that it opens with. -/
inductive Onset where
  | word
  | numeral
  | character
  | block
  | string
  | mark

def onset (first : Char) (text : List Char) : Onset :=
  if isIdentifierStart first then .word
  else if isAsciiDigit first || (first == '.' && (text.head?.map isAsciiDigit).getD false) then .numeral
  else if first == '\'' then .character
  else if first == '"' then
    if ['"', '"'].isPrefixOf text then .block else .string
  else .mark

/-- The lexeme of a mark: a brace where an expression is embedded, or a symbol. -/
def markLexeme? (embeddings : List Embedding) (first : Char) (text : List Char) : Option Recognised :=
  match first, embeddings with
  | '}', ⟨inBlock, 0⟩ :: outer =>
    (textTail inBlock text).map fun found =>
      match found.2 with
      | .closed => ⟨.textClosing, found.1, outer⟩
      | .embedding => ⟨.textMiddle, found.1, embeddings⟩
  | '}', ⟨inBlock, braces + 1⟩ :: outer => some ⟨.symbol "\x7d", 0, ⟨inBlock, braces⟩ :: outer⟩
  | '{', ⟨inBlock, braces⟩ :: outer => some ⟨.symbol "\x7b", 0, ⟨inBlock, braces + 1⟩ :: outer⟩
  | _, _ =>
    (symbols.find? (·.toList.isPrefixOf (first :: text))).map fun symbol =>
      ⟨.symbol symbol, symbol.toList.length - 1, embeddings⟩

/-- The onset of a lexeme tells how it goes on. -/
theorem lexeme?_eq (embeddings : List Embedding) (first : Char) (text : List Char) :
    lexeme? embeddings first text =
      match onset first text with
      | .word =>
        let tail := text.takeWhile isIdentifierPart
        some ⟨.word (String.ofList (first :: tail)), tail.length, embeddings⟩
      | .numeral => some ⟨.literal, numeralLength (first :: text) - 1, embeddings⟩
      | .character => (characterTail 0 text).map fun n => ⟨.literal, n, embeddings⟩
      | .block => openText embeddings true 2 (text.drop 2)
      | .string => openText embeddings false 0 text
      | .mark => markLexeme? embeddings first text := by
  unfold lexeme? onset
  split
  · rfl
  split
  · rfl
  split
  · rfl
  split
  · split <;> rfl
  · rfl

theorem onset_eq_word_iff {first : Char} : onset first text = .word ↔ isIdentifierStart first = true := by
  unfold onset
  split
  · next hstart => exact iff_of_true rfl hstart
  · next hstart =>
    refine iff_of_false ?_ hstart
    repeat' split
    all_goals nofun

theorem quotes_isPrefix_of_onset {first : Char} (h : onset first text = .block) : ['"', '"'] <+: text := by
  unfold onset at h
  split at h
  · cases h
  split at h
  · cases h
  split at h
  · cases h
  split at h
  · split at h
    · next hblock => exact List.isPrefixOf_iff_prefix.1 hblock
    · cases h
  · cases h

/-! ### Lexemes -/

theorem take_append_append (hn : n ≤ text.length) (rest other : List Char) :
    (text ++ rest).take n ++ (text.drop n ++ other) = text ++ other := by
  rw [List.take_append_of_le_length hn, ← List.append_assoc, List.take_append_drop]

theorem characterTail_append (h : characterTail 0 (text ++ rest) = some n) (hn : n ≤ text.length) :
    characterTail 0 (text ++ other) = some n := by
  rw [← take_append_append hn rest other]
  exact characterTail_take_append h _

theorem textTail_append {inBlock : Bool} {found : Nat × TextEnd}
    (h : textTail inBlock (text ++ rest) = some found) (hn : found.1 ≤ text.length) :
    textTail inBlock (text ++ other) = some found := by
  rw [← take_append_append hn rest other]
  exact textTail_take_append h _

theorem takeWhile_append_of_halts {p : Char → Bool} (hp : StopFree p) (hrest : Halts rest) :
    (text ++ rest).takeWhile p = text.takeWhile p := by
  induction text with
  | cons c more ih => rw [List.cons_append, List.takeWhile_cons, List.takeWhile_cons, ih]
  | nil =>
    cases rest with
    | nil => rfl
    | cons c more => exact List.takeWhile_cons_of_neg (by simp [hp c (hrest c rfl)])

theorem isIdentifierPart_stopFree : StopFree isIdentifierPart := by
  decide +kernel

theorem symbols_stopFree : ∀ symbol ∈ symbols, StopFree symbol.toList.tail.contains := by
  decide +kernel

theorem isPrefixOf_cons_append {front : List Char} (hfront : StopFree front.tail.contains) (first : Char)
    (hrest : Halts rest) : front.isPrefixOf (first :: (text ++ rest)) = front.isPrefixOf (first :: text) := by
  cases front with
  | nil => rfl
  | cons c more =>
    have hmore : more.isPrefixOf (text ++ rest) = more.isPrefixOf text := isPrefixOf_append_of_halts hfront hrest
    rw [List.isPrefixOf, List.isPrefixOf, hmore]

theorem find?_symbols_append (first : Char) (hrest : Halts rest) :
    symbols.find? (·.toList.isPrefixOf (first :: (text ++ rest))) =
      symbols.find? (·.toList.isPrefixOf (first :: text)) := by
  apply List.find?_congr
  intro symbol hmem
  exact isPrefixOf_cons_append (symbols_stopFree symbol hmem) first hrest

theorem openText_append {embeddings : List Embedding} {inBlock : Bool} {more : Nat} {found : Recognised}
    (h : openText embeddings inBlock more (text ++ rest) = some found) (hmore : found.more ≤ more + text.length) :
    openText embeddings inBlock more (text ++ other) = some found := by
  unfold openText at h ⊢
  obtain ⟨⟨n, tail⟩, hfound, rfl⟩ := Option.map_eq_some_iff.1 h
  have hn : n ≤ text.length := by
    cases tail with
    | closed => exact Nat.le_of_add_le_add_left hmore
    | embedding => exact Nat.le_of_add_le_add_left hmore
  rw [textTail_append hfound hn]
  rfl

theorem onset_append (first : Char) (hrest : Halts rest) : onset first (text ++ rest) = onset first text := by
  have hquotes : StopFree ['"', '"'].contains := by decide
  unfold onset
  rw [head?_append_of_halts isAsciiDigit_stopFree.1 hrest, isPrefixOf_append_of_halts hquotes hrest]

theorem markLexeme?_append {embeddings : List Embedding} {first : Char} {found : Recognised} (hrest : Halts rest)
    (hother : Halts other) (h : markLexeme? embeddings first (text ++ rest) = some found)
    (hmore : found.more ≤ text.length) : markLexeme? embeddings first (text ++ other) = some found := by
  unfold markLexeme? at h ⊢
  split at h
  · obtain ⟨⟨n, tail⟩, hfound, rfl⟩ := Option.map_eq_some_iff.1 h
    have hn : n ≤ text.length := by
      cases tail with
      | closed => exact hmore
      | embedding => exact hmore
    rw [textTail_append hfound hn]
    rfl
  · exact h
  · exact h
  · rw [find?_symbols_append first hrest] at h
    rw [find?_symbols_append first hother]
    exact h

/-- **A lexeme in front of a stop is found again in front of any other.** -/
theorem lexeme?_append {embeddings : List Embedding} {first : Char} {found : Recognised} (hrest : Halts rest)
    (hother : Halts other) (h : lexeme? embeddings first (text ++ rest) = some found)
    (hmore : found.more ≤ text.length) : lexeme? embeddings first (text ++ other) = some found := by
  rw [lexeme?_eq, onset_append first hrest] at h
  rw [lexeme?_eq, onset_append first hother]
  generalize honset : onset first text = start at h ⊢
  cases start with
  | word =>
    dsimp only at h ⊢
    rw [takeWhile_append_of_halts isIdentifierPart_stopFree hrest] at h
    rw [takeWhile_append_of_halts isIdentifierPart_stopFree hother]
    exact h
  | numeral =>
    dsimp only at h ⊢
    rw [← List.cons_append, numeralLength_append hrest] at h
    rw [← List.cons_append, numeralLength_append hother]
    exact h
  | character =>
    obtain ⟨n, hn, rfl⟩ := Option.map_eq_some_iff.1 h
    dsimp only
    rw [characterTail_append hn hmore]
    rfl
  | block =>
    have htwo : 2 ≤ text.length := (quotes_isPrefix_of_onset honset).length_le
    dsimp only at h ⊢
    rw [List.drop_append_of_le_length htwo] at h ⊢
    refine openText_append h ?_
    rw [List.length_drop]
    omega
  | string =>
    refine openText_append h ?_
    rw [Nat.zero_add]
    exact hmore
  | mark => exact markLexeme?_append hrest hother h hmore

theorem more_le_of_openText {embeddings : List Embedding} {inBlock : Bool} {more : Nat} {found : Recognised}
    (h : openText embeddings inBlock more text = some found) : found.more ≤ more + text.length := by
  obtain ⟨⟨n, tail⟩, hfound, rfl⟩ := Option.map_eq_some_iff.1 h
  cases tail with
  | closed => exact Nat.add_le_add_left (textTail_le hfound) more
  | embedding => exact Nat.add_le_add_left (textTail_le hfound) more

theorem more_le_of_markLexeme? {embeddings : List Embedding} {first : Char} {found : Recognised}
    (h : markLexeme? embeddings first text = some found) : found.more ≤ text.length := by
  unfold markLexeme? at h
  split at h
  · obtain ⟨⟨n, tail⟩, hfound, rfl⟩ := Option.map_eq_some_iff.1 h
    cases tail with
    | closed => exact textTail_le hfound
    | embedding => exact textTail_le hfound
  · cases h
    exact Nat.zero_le _
  · cases h
    exact Nat.zero_le _
  · obtain ⟨symbol, hsymbol, rfl⟩ := Option.map_eq_some_iff.1 h
    have hfits := List.find?_some hsymbol
    exact Nat.sub_le_of_le_add (List.isPrefixOf_iff_prefix.1 hfits).length_le

theorem more_le_of_lexeme? {embeddings : List Embedding} {first : Char} {found : Recognised}
    (h : lexeme? embeddings first text = some found) : found.more ≤ text.length := by
  rw [lexeme?_eq] at h
  generalize honset : onset first text = start at h
  cases start with
  | word =>
    cases h
    exact (List.takeWhile_prefix _).length_le
  | numeral =>
    cases h
    exact Nat.sub_le_of_le_add (numeralLength_le (first :: text))
  | character =>
    obtain ⟨n, hn, rfl⟩ := Option.map_eq_some_iff.1 h
    exact characterTail_le hn
  | block =>
    have htwo : 2 ≤ text.length := (quotes_isPrefix_of_onset honset).length_le
    have hmore := more_le_of_openText h
    rw [List.length_drop] at hmore
    omega
  | string =>
    have hmore := more_le_of_openText h
    rwa [Nat.zero_add] at hmore
  | mark => exact more_le_of_markLexeme? h

end JavaAtlas.Syntax

import JavaAtlas.Proofs.Syntax.Lookahead
import JavaAtlas.Syntax.Scan

/-!
# How a source comes apart into tokens

What the rest of the theory knows about scanning: the gaps and spellings of the tokens make up the source, each
gap is what `gapLength` says of the rest of the source, and each token is what `lexeme?` finds there. From this
follow the facts about single tokens: words and symbols are spelled as they are, words are identifiers, and two
words do not touch.
-/

namespace JavaAtlas.Syntax

open JavaAtlas.Text

/-- A lexeme is what the scan finds in front of a text, with a spelling that leaves a rest. -/
def Spells (lexeme : Lexeme) (spelled rest : List Char) : Prop :=
  ∃ embeddings first after found, lexeme? embeddings first after = some found ∧
    found.lexeme = lexeme ∧ spelled = first :: after.take found.more ∧ rest = after.drop found.more

/-- A source comes apart into tokens, with a gap at its end. -/
inductive Cut : List Char → List Token → Prop where
  | done {source : List Char} (hgap : gapLength .outside source = some source.length) : Cut source []
  | token {source rest : List Char} {token : Token} {tokens : List Token}
      (hsource : source = token.gap ++ (token.spelled ++ rest))
      (hgap : gapLength .outside source = some token.gap.length)
      (hspells : Spells token.lexeme token.spelled rest) (hrest : Cut rest tokens) :
      Cut source (token :: tokens)

/-! ### Gaps -/

theorem gapLength_le {state : GapState} {text : List Char} {n : Nat}
    (h : gapLength state text = some n) : n ≤ text.length := by
  induction state, text using gapLength.induct generalizing n with
  | case3 c rest _ _ hblank ih =>
    rw [gapLength, if_pos hblank] at h
    · obtain ⟨m, hm, rfl⟩ := Option.map_eq_some_iff.1 h
      have hle := ih hm
      simp only [List.length_cons]
      omega
    all_goals assumption
  | case4 c rest _ _ hblank =>
    rw [gapLength, if_neg hblank] at h
    · cases h
      exact Nat.zero_le _
    all_goals assumption
  | case9 => cases h
  | case10 => cases h; exact Nat.le_refl _
  | case11 => cases h; exact Nat.le_refl _
  -- Everywhere else one or two characters are passed, and the rest is counted.
  | _ =>
    rename_i ih
    rw [gapLength] at h
    · obtain ⟨m, hm, rfl⟩ := Option.map_eq_some_iff.1 h
      have hle := ih hm
      simp only [List.length_cons]
      omega
    all_goals assumption

/-- A gap opens with a blank or with the slash of a comment. -/
theorem head_gap {c : Char} {rest : List Char} {n : Nat}
    (h : gapLength .outside (c :: rest) = some (n + 1)) : isGapBlank c = true ∨ c = '/' := by
  by_cases hslash : c = '/'
  · exact Or.inr hslash
  · rw [gapLength] at h
    · split at h
      · next hblank => exact Or.inl hblank
      · cases h
    all_goals
      intro _ hc
      exact absurd hc hslash

/-- A gap is blank up to the first comment in it. -/
theorem isGapBlank_of_mem_gap {text : List Char} {n : Nat} (h : gapLength .outside text = some n) :
    ∀ c ∈ (text.take n).takeWhile (· != '/'), isGapBlank c = true := by
  induction text generalizing n with
  | nil =>
    intro c hc
    simp at hc
  | cons first rest ih =>
    cases n with
    | zero =>
      intro c hc
      simp at hc
    | succ n =>
      rw [List.take_succ_cons]
      by_cases hslash : first = '/'
      · intro c hc
        rw [List.takeWhile_cons_of_neg (by simpa using hslash)] at hc
        cases hc
      · have hblank := (head_gap h).resolve_right hslash
        rw [gapLength, if_pos hblank] at h
        · obtain ⟨m, hm, hlength⟩ := Option.map_eq_some_iff.1 h
          cases hlength
          intro c hc
          rw [List.takeWhile_cons_of_pos (by simpa using hslash)] at hc
          rcases List.mem_cons.1 hc with rfl | hc
          · exact hblank
          · exact ih hm c hc
        all_goals
          intro _ hfirst
          exact absurd hfirst hslash

theorem isBlank_of_isGapBlank {c : Char} (h : isGapBlank c = true) : isBlank c = true := by
  simp only [isGapBlank, Bool.or_eq_true, beq_iff_eq, Bool.and_eq_true, decide_eq_true_eq] at h
  rcases h with rfl | h
  · decide
  · simp [isBlank, h]

/-! ### Lexemes -/

/-- The lexemes of which only the kind is known: numerals, characters, and pieces of text. -/
def Lexeme.isQuoted : Lexeme → Bool
  | .word _ | .symbol _ => false
  | _ => true

variable {embeddings : List Embedding} {first : Char} {after spelled rest : List Char} {found : Recognised}

theorem lexeme?_of_start (hstart : isIdentifierStart first = true)
    (h : lexeme? embeddings first after = some found) :
    found.lexeme = .word (String.ofList (first :: after.takeWhile isIdentifierPart)) ∧
      found.more = (after.takeWhile isIdentifierPart).length := by
  rw [lexeme?_eq, onset_eq_word_iff.2 hstart] at h
  cases h
  exact ⟨rfl, rfl⟩

theorem isQuoted_openText {inBlock : Bool} {more : Nat}
    (h : openText embeddings inBlock more after = some found) : found.lexeme.isQuoted = true := by
  obtain ⟨tail, -, rfl⟩ := Option.map_eq_some_iff.1 h
  cases tail.2 <;> rfl

theorem symbols_ne_nil : ∀ symbol ∈ symbols, symbol.toList ≠ [] := by decide

theorem markLexeme?_spelled (h : markLexeme? embeddings first after = some found) :
    found.lexeme.isQuoted = true ∨
      ∃ spelling, found.lexeme = .symbol spelling ∧
        spelling.toList = first :: after.take found.more := by
  unfold markLexeme? at h
  split at h
  · obtain ⟨tail, -, rfl⟩ := Option.map_eq_some_iff.1 h
    cases tail.2 with
    | closed => exact Or.inl rfl
    | embedding => exact Or.inl rfl
  · cases h
    exact Or.inr ⟨_, rfl, rfl⟩
  · cases h
    exact Or.inr ⟨_, rfl, rfl⟩
  · obtain ⟨symbol, hsymbol, rfl⟩ := Option.map_eq_some_iff.1 h
    refine Or.inr ⟨symbol, rfl, ?_⟩
    have hfits := List.find?_some hsymbol
    have hfront : symbol.toList <+: first :: after := List.isPrefixOf_iff_prefix.1 hfits
    obtain ⟨c, more, heq⟩ :=
      List.exists_cons_of_ne_nil (symbols_ne_nil symbol (List.mem_of_find?_eq_some hsymbol))
    rw [List.prefix_iff_eq_take, heq, List.length_cons, List.take_succ_cons] at hfront
    rw [heq]
    simpa using hfront

/-- A lexeme that opens no identifier is a symbol, spelled as it is, or none of which the spelling counts. -/
theorem lexeme?_of_not_start (hstart : isIdentifierStart first = false)
    (h : lexeme? embeddings first after = some found) :
    found.lexeme.isQuoted = true ∨
      ∃ spelling, found.lexeme = .symbol spelling ∧
        spelling.toList = first :: after.take found.more := by
  rw [lexeme?_eq] at h
  generalize honset : onset first after = start at h
  cases start with
  | word =>
    rw [onset_eq_word_iff.1 honset] at hstart
    cases hstart
  | numeral =>
    cases h
    exact Or.inl rfl
  | character =>
    obtain ⟨n, -, rfl⟩ := Option.map_eq_some_iff.1 h
    exact Or.inl rfl
  | block | string => exact Or.inl (isQuoted_openText h)
  | mark => exact markLexeme?_spelled h

theorem spells_word {spelling : String} (h : Spells (.word spelling) spelled rest) :
    spelled = spelling.toList ∧ isIdentifier spelled = true ∧
      ∀ c ∈ rest.head?, isIdentifierPart c = false := by
  obtain ⟨embeddings, first, after, found, hfound, hlexeme, rfl, rfl⟩ := h
  cases hstart : isIdentifierStart first with
  | false =>
    rcases lexeme?_of_not_start hstart hfound with hquoted | ⟨symbol, hsymbol, -⟩
    · rw [hlexeme] at hquoted
      cases hquoted
    · rw [hlexeme] at hsymbol
      cases hsymbol
  | true =>
    obtain ⟨hword, hmore⟩ := lexeme?_of_start hstart hfound
    have htake : after.take found.more = after.takeWhile isIdentifierPart := by
      rw [hmore]
      exact (List.prefix_iff_eq_take.1 (List.takeWhile_prefix _)).symm
    -- What is left behind the longest run of identifier parts cannot go on with one.
    have hdrop : after.drop found.more = after.dropWhile isIdentifierPart := by
      have hwhole := List.take_append_drop found.more after
      conv at hwhole => rhs; rw [← List.takeWhile_append_dropWhile (p := isIdentifierPart) (l := after)]
      rw [htake] at hwhole
      exact List.append_cancel_left hwhole
    rw [hlexeme] at hword
    cases hword
    rw [htake, hdrop, String.toList_ofList]
    refine ⟨rfl, ?_, ?_⟩
    · rw [isIdentifier, hstart, Bool.true_and]
      exact List.all_takeWhile
    · intro c hc
      have := List.head?_dropWhile_not isIdentifierPart after
      rw [hc] at this
      simpa using this

theorem spells_symbol {spelling : String} (h : Spells (.symbol spelling) spelled rest) :
    spelled = spelling.toList := by
  obtain ⟨embeddings, first, after, found, hfound, hlexeme, rfl, rfl⟩ := h
  cases hstart : isIdentifierStart first with
  | false =>
    rcases lexeme?_of_not_start hstart hfound with hquoted | ⟨symbol, hsymbol, hspelled⟩
    · rw [hlexeme] at hquoted
      cases hquoted
    · rw [hlexeme] at hsymbol
      cases hsymbol
      exact hspelled.symm
  | true =>
    have hword := (lexeme?_of_start hstart hfound).1
    rw [hlexeme] at hword
    cases hword

/-! ### The scan -/

variable {line : Nat} {source : List Char} {token : Token} {tokens : List Token}

/-- A source opens with a token: a gap, and then the lexeme that is found there, in front of the rest. -/
structure OpensWith (line : Nat) (embeddings : List Embedding) (source : List Char) (token : Token)
    (later : List Embedding) (rest : List Char) : Prop where
  pieces : source = token.gap ++ (token.spelled ++ rest)
  gap : gapLength .outside source = some token.gap.length
  lexeme : ∃ first tail, token.spelled = first :: tail ∧
    lexeme? embeddings first (tail ++ rest) = some ⟨token.lexeme, tail.length, later⟩
  line : token.line = line + lineFeeds token.gap

theorem scanFrom_eq (line : Nat) (embeddings : List Embedding) (source : List Char) :
    scanFrom line embeddings source =
      (gapLength .outside source).bind fun gap =>
        match source.drop gap with
        | [] => some []
        | first :: rest =>
          (lexeme? embeddings first rest).bind fun found =>
            (scanFrom (line + lineFeeds (source.take gap) + lineFeeds (first :: rest.take found.more))
              found.embeddings (rest.drop found.more)).map
                (⟨found.lexeme, source.take gap, first :: rest.take found.more,
                  line + lineFeeds (source.take gap)⟩ :: ·) := by
  conv_lhs => unfold scanFrom
  cases hgap : gapLength .outside source with
  | none => rfl
  | some gap =>
    simp only [Option.bind_some]
    split
    · next hopened => rw [hopened]
    · next hopened =>
      simp only [hopened]
      split
      · next hlexeme => rw [hlexeme, Option.bind_none]
      · next hlexeme => rw [hlexeme, Option.bind_some]

theorem scanFrom_eq_nil_iff :
    scanFrom line embeddings source = some [] ↔ gapLength .outside source = some source.length := by
  rw [scanFrom_eq]
  constructor
  · intro h
    obtain ⟨gap, hgap, hopened⟩ := Option.bind_eq_some_iff.1 h
    split at hopened
    · next hend =>
      rw [hgap, Nat.le_antisymm (gapLength_le hgap) (List.drop_eq_nil_iff.1 hend)]
    · obtain ⟨found, -, hmore⟩ := Option.bind_eq_some_iff.1 hopened
      obtain ⟨more, -, hcons⟩ := Option.map_eq_some_iff.1 hmore
      cases hcons
  · intro h
    rw [h, Option.bind_some, List.drop_length]

theorem scanFrom_eq_cons_iff :
    scanFrom line embeddings source = some (token :: tokens) ↔
      ∃ later rest, OpensWith line embeddings source token later rest ∧
        scanFrom (token.line + lineFeeds token.spelled) later rest = some tokens := by
  rw [scanFrom_eq]
  constructor
  · intro h
    obtain ⟨gap, hgap, hopened⟩ := Option.bind_eq_some_iff.1 h
    split at hopened
    · cases hopened
    next first after hafter =>
    obtain ⟨found, hlexeme, hmore⟩ := Option.bind_eq_some_iff.1 hopened
    obtain ⟨more, hmore, hcons⟩ := Option.map_eq_some_iff.1 hmore
    cases hcons
    have hgapLength : (source.take gap).length = gap := List.length_take_of_le (gapLength_le hgap)
    have htailLength : (after.take found.more).length = found.more :=
      List.length_take_of_le (more_le_of_lexeme? hlexeme)
    refine ⟨found.embeddings, after.drop found.more, ⟨?_, ?_, ?_, rfl⟩, hmore⟩
    · rw [List.cons_append, List.take_append_drop, ← hafter, List.take_append_drop]
    · rw [hgap, hgapLength]
    · refine ⟨first, after.take found.more, rfl, ?_⟩
      rw [List.take_append_drop, htailLength, hlexeme]
  · rintro ⟨later, rest, hopens, hmore⟩
    obtain ⟨first, tail, hspelled, hlexeme⟩ := hopens.lexeme
    have htake : source.take token.gap.length = token.gap := by
      rw [hopens.pieces, List.take_left]
    have hdrop : source.drop token.gap.length = first :: (tail ++ rest) := by
      rw [hopens.pieces, List.drop_left, hspelled, List.cons_append]
    rw [hopens.gap, Option.bind_some, hdrop, htake]
    simp only [hlexeme, Option.bind_some, List.take_left, List.drop_left, ← hspelled, ← hopens.line, hmore]
    rfl

theorem OpensWith.spells {later : List Embedding} (h : OpensWith line embeddings source token later rest) :
    Spells token.lexeme token.spelled rest := by
  obtain ⟨first, tail, hspelled, hlexeme⟩ := h.lexeme
  refine ⟨embeddings, first, tail ++ rest, _, hlexeme, rfl, ?_, ?_⟩
  · rw [List.take_left, hspelled]
  · rw [List.drop_left]

/-- **A scan cuts its source into the tokens.** -/
theorem cut_scanFrom (h : scanFrom line embeddings source = some tokens) : Cut source tokens := by
  induction tokens generalizing line embeddings source with
  | nil => exact .done (scanFrom_eq_nil_iff.1 h)
  | cons token tokens ih =>
    obtain ⟨later, rest, hopens, hmore⟩ := scanFrom_eq_cons_iff.1 h
    exact .token hopens.pieces hopens.gap hopens.spells (ih hmore)

/-- The byte order mark at the very start of a source, if there is one. -/
def mark : List Char → List Char
  | '\ufeff' :: _ => ['\ufeff']
  | _ => []

theorem mark_eq_nil {text : List Char} (h : ∀ rest, text ≠ '\ufeff' :: rest) : mark text = [] := by
  unfold mark
  split
  · exact absurd rfl (h _)
  · rfl

theorem mark_append_drop (text : List Char) : mark text ++ text.drop (mark text).length = text := by
  unfold mark
  split <;> rfl

theorem scan_eq (source : List Char) :
    scan source =
      if source.contains '\x00' then none else scanFrom 1 [] (source.drop (mark source).length) := by
  unfold scan
  split
  · rfl
  · split
    · rfl
    · next hmark => rw [mark_eq_nil hmark, List.length_nil, List.drop_zero]

theorem cut_scan {source : List Char} {tokens : List Token} (h : scan source = some tokens) :
    ∃ rest, source = mark source ++ rest ∧ Cut rest tokens := by
  rw [scan_eq] at h
  split at h
  · cases h
  · exact ⟨_, (mark_append_drop source).symm, cut_scanFrom h⟩

theorem Cut.spells {source : List Char} {tokens : List Token} (h : Cut source tokens) :
    ∀ token ∈ tokens, ∃ rest, Spells token.lexeme token.spelled rest := by
  induction h with
  | done hgap =>
    intro token hmem
    cases hmem
  | token hsource hgap hspells hrest ih =>
    intro other hmem
    rcases List.mem_cons.1 hmem with rfl | hmem
    · exact ⟨_, hspells⟩
    · exact ih other hmem

theorem isIdentifier_of_mem_scan {source : List Char} {tokens : List Token} {token : Token}
    {spelling : String} (h : scan source = some tokens) (hmem : token ∈ tokens)
    (hword : token.lexeme = .word spelling) : isIdentifier token.spelled = true := by
  obtain ⟨rest, -, hcut⟩ := cut_scan h
  obtain ⟨after, hspells⟩ := hcut.spells token hmem
  rw [hword] at hspells
  exact (spells_word hspells).2.1

/-- The gap before the first token of a cut source is blank up to the first comment in it. -/
theorem Cut.isBlank_of_mem_gap {source : List Char} {token : Token} {tokens : List Token}
    (h : Cut source (token :: tokens)) : ∀ c ∈ token.gap.takeWhile (· != '/'), isBlank c = true := by
  cases h with
  | token hsource hgap hspells hrest =>
    have hblank := isGapBlank_of_mem_gap hgap
    rw [hsource, List.take_left] at hblank
    intro c hc
    exact isBlank_of_isGapBlank (hblank c hc)

theorem Cut.exists_append {source : List Char} {front back : List Token}
    (h : Cut source (front ++ back)) : ∃ rest, source = Token.source front ++ rest ∧ Cut rest back := by
  induction front generalizing source with
  | nil => exact ⟨source, rfl, h⟩
  | cons token front ih =>
    cases h with
    | token hsource hgap hspells hrest =>
      obtain ⟨rest, hrest, hcut⟩ := ih hrest
      refine ⟨rest, ?_, hcut⟩
      rw [hsource, hrest]
      simp [Token.source]

/-- A word in front of a cut source is spelled as it is, and no identifier goes on after it. -/
theorem Cut.exists_word {source : List Char} {token : Token} {tokens : List Token} {spelling : String}
    (h : Cut source (token :: tokens)) (hword : token.lexeme = .word spelling) :
    ∃ rest, source = token.gap ++ (spelling.toList ++ rest) ∧
      (∀ c ∈ rest.head?, isIdentifierPart c = false) ∧ Cut rest tokens := by
  cases h with
  | token hsource hgap hspells hrest =>
    rw [hword] at hspells
    obtain ⟨hspelled, -, hstop⟩ := spells_word hspells
    exact ⟨_, hspelled ▸ hsource, hstop, hrest⟩

theorem Cut.exists_symbol {source : List Char} {token : Token} {tokens : List Token} {spelling : String}
    (h : Cut source (token :: tokens)) (hsymbol : token.lexeme = .symbol spelling) :
    ∃ rest, source = token.gap ++ (spelling.toList ++ rest) ∧ Cut rest tokens := by
  cases h with
  | token hsource hgap hspells hrest =>
    rw [hsymbol] at hspells
    exact ⟨_, spells_symbol hspells ▸ hsource, hrest⟩

/-- Two words do not touch: a gap with a blank or a comment in front keeps them apart. -/
theorem Cut.exists_gap {source : List Char} {token : Token} {tokens : List Token} {spelling : String}
    (h : Cut source (token :: tokens)) (hword : token.lexeme = .word spelling)
    (hstop : ∀ c ∈ source.head?, isIdentifierPart c = false) :
    ∃ c gap, token.gap = c :: gap ∧ (isBlank c = true ∨ c = '/') := by
  cases h with
  | token hsource hgap hspells hrest =>
    rw [hword] at hspells
    have hidentifier := (spells_word hspells).2.1
    cases hopen : token.gap with
    | nil =>
      obtain ⟨first, more, hspelled⟩ := List.exists_cons_of_ne_nil (ne_nil_of_isIdentifier hidentifier)
      rw [hsource, hopen, hspelled] at hstop
      have hpart := isIdentifierPart_of_isIdentifier hidentifier first (hspelled ▸ List.mem_cons_self)
      rw [hstop first rfl] at hpart
      cases hpart
    | cons c gap =>
      rw [hsource, hopen] at hgap
      exact ⟨c, gap, rfl, (head_gap hgap).imp_left isBlank_of_isGapBlank⟩

end JavaAtlas.Syntax

import Mathlib.Data.List.Forall2
import JavaAtlas.Proofs.Syntax.Scan

/-!
# Sources without comments

A source from which every comment is taken out, with one blank in its place, still comes apart into the same tokens.
A gap becomes a gap that is blank throughout, and no gap appears or vanishes; so every lexeme stands in front of the
same characters as before, up to a stop, and that is as far as it looks.
-/

namespace JavaAtlas.Syntax

/-- A gap with one blank for each of its comments. The line feed behind a line comment belongs to the gap and stays. -/
def blanked : GapState → List Char → List Char
  | .outside, '/' :: '/' :: rest => ' ' :: blanked .lineComment rest
  | .outside, '/' :: '*' :: rest => ' ' :: blanked .blockComment rest
  | .outside, c :: rest => c :: blanked .outside rest
  | .lineComment, '\n' :: rest => '\n' :: blanked .outside rest
  | .lineComment, _ :: rest => blanked .lineComment rest
  | .blockComment, '*' :: '/' :: rest => blanked .outside rest
  | .blockComment, _ :: rest => blanked .blockComment rest
  | _, [] => []

def Token.uncommented (token : Token) : Token :=
  { token with gap := blanked .outside token.gap }

/-- What is left of a source that starts with the given tokens, and goes on with nothing but a gap. -/
def uncommentedFrom (tokens : List Token) (source : List Char) : List Char :=
  Token.source (tokens.map Token.uncommented) ++
    blanked .outside (source.drop (Token.source tokens).length)

/-- A source with one blank for each comment; a source that is not made of tokens stays as it is. -/
def uncommented (source : List Char) : List Char :=
  match scan source with
  | none => source
  | some tokens => mark source ++ uncommentedFrom tokens (source.drop (mark source).length)

variable {state : GapState} {text rest source : List Char} {n : Nat} {tokens : List Token}

/-! ### Gaps -/

/-- A gap without its comments is blank throughout. -/
theorem isGapBlank_of_mem_blanked (h : gapLength state text = some n) :
    ∀ c ∈ blanked state (text.take n), isGapBlank c = true := by
  fun_induction gapLength state text generalizing n with
  | case1 rest ih =>
    obtain ⟨m, hm, rfl⟩ := Option.map_eq_some_iff.1 h
    exact List.forall_mem_cons.2 ⟨rfl, ih hm⟩
  | case2 rest ih =>
    obtain ⟨m, hm, rfl⟩ := Option.map_eq_some_iff.1 h
    exact List.forall_mem_cons.2 ⟨rfl, ih hm⟩
  | case3 c rest _ _ hblank ih =>
    obtain ⟨m, hm, rfl⟩ := Option.map_eq_some_iff.1 h
    have hslash : c ≠ '/' := by
      rintro rfl
      cases hblank
    rw [List.take_succ_cons, blanked]
    · exact List.forall_mem_cons.2 ⟨hblank, ih hm⟩
    · exact fun _ hc => absurd hc hslash
    · exact fun _ hc => absurd hc hslash
  | case4 =>
    cases h
    exact List.forall_mem_nil _
  | case5 rest ih =>
    obtain ⟨m, hm, rfl⟩ := Option.map_eq_some_iff.1 h
    exact List.forall_mem_cons.2 ⟨rfl, ih hm⟩
  | case6 c rest hbreak ih =>
    obtain ⟨m, hm, rfl⟩ := Option.map_eq_some_iff.1 h
    rw [List.take_succ_cons, blanked]
    · exact ih hm
    · exact hbreak
  | case7 rest ih =>
    obtain ⟨m, hm, rfl⟩ := Option.map_eq_some_iff.1 h
    exact ih hm
  | case8 c rest hend ih =>
    obtain ⟨m, hm, rfl⟩ := Option.map_eq_some_iff.1 h
    rw [List.take_succ_cons, blanked]
    · exact ih hm
    · intro more hstar hmore
      refine hend (more ++ rest.drop m) hstar ?_
      rw [← List.cons_append, ← hmore, List.take_append_drop]
  | case9 => cases h
  | case10 =>
    cases h
    exact List.forall_mem_nil _
  | case11 =>
    cases h
    exact List.forall_mem_nil _

example : blanked .outside " /* b */ // c\n".toList = "    \n".toList := by decide

theorem gapLength_drop (h : gapLength state text = some n) : gapLength .outside (text.drop n) = some 0 := by
  fun_induction gapLength state text generalizing n with
  | case4 c rest hline hblock hblank =>
    cases h
    rw [List.drop_zero, gapLength, if_neg hblank]
    · exact hline
    · exact hblock
  | case9 => cases h
  | case10 => cases h; rfl
  | case11 => cases h; rfl
  | _ =>
    rename_i ih
    obtain ⟨m, hm, rfl⟩ := Option.map_eq_some_iff.1 h
    exact ih hm

theorem gapLength_blank {c : Char} (h : isGapBlank c = true) :
    gapLength .outside (c :: rest) = (gapLength .outside rest).map (· + 1) := by
  have hslash : c ≠ '/' := by
    rintro rfl
    cases h
  rw [gapLength, if_pos h]
  · exact fun _ hc => absurd hc hslash
  · exact fun _ hc => absurd hc hslash

theorem gapLength_blanks {blanks : List Char} (hblanks : ∀ c ∈ blanks, isGapBlank c = true)
    (h : gapLength .outside text = some 0) : gapLength .outside (blanks ++ text) = some blanks.length := by
  induction blanks with
  | nil => exact h
  | cons c blanks ih =>
    obtain ⟨hc, hblanks⟩ := List.forall_mem_cons.1 hblanks
    rw [List.cons_append, gapLength_blank hc, ih hblanks, Option.map_some, List.length_cons]

theorem blanked_cons_ne_nil (c : Char) (rest : List Char) : blanked .outside (c :: rest) ≠ [] := by
  unfold blanked
  split
  · exact List.cons_ne_nil _ _
  · exact List.cons_ne_nil _ _
  · exact List.cons_ne_nil _ _
  all_goals contradiction

theorem blanked_eq_self (h : '/' ∉ text) : blanked .outside text = text := by
  induction text with
  | nil => rfl
  | cons c rest ih =>
    rw [List.mem_cons, not_or] at h
    rw [blanked, ih h.2]
    · exact fun _ hc => absurd hc.symm h.1
    · exact fun _ hc => absurd hc.symm h.1

theorem mem_of_mem_blanked {c : Char} (h : c ∈ blanked state text) : c ∈ text ∨ c = ' ' := by
  fun_induction blanked state text with grind

/-! ### Where the source and what is left of it part -/

theorem mem_stops_of_isGapBlank {c : Char} (h : isGapBlank c = true) : c ∈ stops := by
  simp only [isGapBlank, Bool.or_eq_true, beq_iff_eq, Bool.and_eq_true, decide_eq_true_eq] at h
  rcases h with rfl | h
  · decide
  · have hcode : c.toNat = 9 ∨ c.toNat = 10 ∨ c.toNat = 11 ∨ c.toNat = 12 ∨ c.toNat = 13 := by omega
    rw [← Char.ofNat_toNat c]
    rcases hcode with hcode | hcode | hcode | hcode | hcode
    all_goals
      rw [hcode]
      decide

/-- Two texts agree up to a place where the first one halts and the second one is blank or ends. -/
def Forks (text other : List Char) : Prop :=
  ∃ shared rest blanks, text = shared ++ rest ∧ other = shared ++ blanks ∧ Halts rest ∧
    ∀ c ∈ blanks.head?, isGapBlank c = true

theorem Forks.append {other : List Char} (shared : List Char) (h : Forks text other) :
    Forks (shared ++ text) (shared ++ other) := by
  obtain ⟨more, rest, blanks, rfl, rfl, hrest, hblanks⟩ := h
  exact ⟨shared ++ more, rest, blanks, by rw [List.append_assoc], by rw [List.append_assoc], hrest, hblanks⟩

theorem forks_gap {gap : List Char} (hgap : gapLength .outside (gap ++ text) = some gap.length)
    (hne : gap ≠ []) (more : List Char) : Forks (gap ++ text) (blanked .outside gap ++ more) := by
  have hblanks := isGapBlank_of_mem_blanked hgap
  rw [List.take_left] at hblanks
  obtain ⟨first, rest, rfl⟩ := List.exists_cons_of_ne_nil hne
  obtain ⟨blank, blanks, heq⟩ := List.exists_cons_of_ne_nil (blanked_cons_ne_nil first rest)
  rw [heq] at hblanks ⊢
  refine ⟨[], _, _, rfl, rfl, ?_, ?_⟩
  · intro c hc
    cases hc
    rcases head_gap hgap with hblank | rfl
    · exact mem_stops_of_isGapBlank hblank
    · exact List.mem_cons_self
  · intro c hc
    cases hc
    exact hblanks blank List.mem_cons_self

@[simp] theorem uncommentedFrom_nil (source : List Char) :
    uncommentedFrom [] source = blanked .outside source := rfl

theorem uncommentedFrom_cons (token : Token) (tokens : List Token) (rest : List Char) :
    uncommentedFrom (token :: tokens) (token.gap ++ (token.spelled ++ rest)) =
      blanked .outside token.gap ++ (token.spelled ++ uncommentedFrom tokens rest) := by
  have hdrop : (token.gap ++ (token.spelled ++ rest)).drop (Token.source (token :: tokens)).length =
      rest.drop (Token.source tokens).length := by
    rw [← List.append_assoc, Token.source, List.flatMap_cons, List.length_append, ← Token.source,
      List.drop_length_add_append]
  rw [uncommentedFrom, hdrop, uncommentedFrom]
  simp [Token.source, Token.uncommented]

theorem Cut.forks (h : Cut source tokens) : Forks source (uncommentedFrom tokens source) := by
  induction h with
  | @done source hgap =>
    rw [uncommentedFrom_nil]
    by_cases hne : source = []
    · subst hne
      exact ⟨[], [], [], rfl, rfl, by simp [Halts], by simp⟩
    · have hwhole : gapLength .outside (source ++ []) = some source.length := by rwa [List.append_nil]
      have hfork := forks_gap hwhole hne []
      rwa [List.append_nil, List.append_nil] at hfork
  | @token source rest token tokens hsource hgap hspells hrest ih =>
    rw [hsource, uncommentedFrom_cons]
    by_cases hne : token.gap = []
    · rw [hne]
      exact ih.append token.spelled
    · rw [hsource] at hgap
      exact forks_gap hgap hne _

/-! ### The scan -/

variable {line : Nat} {embeddings : List Embedding}

theorem gapLength_eq_zero_iff {first : Char} {after : List Char} :
    gapLength .outside (first :: after) = some 0 ↔
      isGapBlank first = false ∧ (first = '/' → ∀ c ∈ after.head?, c ≠ '/' ∧ c ≠ '*') := by
  have hmore (k : Nat) (length : Option Nat) : length.map (· + (k + 1)) ≠ some 0 := by
    intro h
    obtain ⟨m, -, hm⟩ := Option.map_eq_some_iff.1 h
    cases hm
  unfold gapLength
  split
  · next heq =>
    cases heq
    exact iff_of_false (hmore 1 _) fun h => (h.2 rfl '/' rfl).1 rfl
  · next heq =>
    cases heq
    exact iff_of_false (hmore 1 _) fun h => (h.2 rfl '*' rfl).2 rfl
  · next c rest hline hblock _ heq =>
    cases heq
    split
    · next hblank =>
      refine iff_of_false (hmore 0 _) fun h => ?_
      rw [hblank] at h
      cases h.1
    · next hblank =>
      refine iff_of_true rfl ⟨Bool.eq_false_iff.2 hblank, ?_⟩
      intro hslash d hd
      obtain ⟨more, rfl⟩ := List.head?_eq_some_iff.1 hd
      constructor
      · rintro rfl
        exact hline more hslash rfl
      · rintro rfl
        exact hblock more hslash rfl
  all_goals contradiction

/-- A lexeme that opens no gap opens none in front of blanks. -/
theorem gapLength_append {first : Char} {other : List Char} (hother : ∀ c ∈ other.head?, isGapBlank c = true)
    (h : gapLength .outside (first :: (text ++ rest)) = some 0) :
    gapLength .outside (first :: (text ++ other)) = some 0 := by
  rw [gapLength_eq_zero_iff] at h ⊢
  refine ⟨h.1, ?_⟩
  intro hslash c hc
  cases text with
  | cons next more => exact h.2 hslash c hc
  | nil =>
    have hblank := hother c hc
    constructor
    · rintro rfl
      cases hblank
    · rintro rfl
      cases hblank

/-- A token and what it becomes when the comments are gone. -/
structure Uncomments (token other : Token) : Prop where
  lexeme : other.lexeme = token.lexeme
  spelled : other.spelled = token.spelled
  gap : other.gap = blanked .outside token.gap
  blank : ∀ c ∈ other.gap, isGapBlank c = true

/-- **The tokens of a source stay when the comments go.** -/
theorem scanFrom_uncommented (h : scanFrom line embeddings source = some tokens) (start : Nat) :
    ∃ others, scanFrom start embeddings (uncommentedFrom tokens source) = some others ∧
      List.Forall₂ Uncomments tokens others := by
  induction tokens generalizing line embeddings source start with
  | nil =>
    have hgap := scanFrom_eq_nil_iff.1 h
    have hblanks := isGapBlank_of_mem_blanked hgap
    rw [List.take_length] at hblanks
    refine ⟨[], scanFrom_eq_nil_iff.2 ?_, .nil⟩
    have hend := gapLength_blanks hblanks (show gapLength .outside [] = some 0 from rfl)
    rwa [List.append_nil] at hend
  | cons token tokens ih =>
    obtain ⟨later, rest, hopens, hmore⟩ := scanFrom_eq_cons_iff.1 h
    obtain ⟨shared, after, blanks, hafter, hbare, hhalts, hblank⟩ := (cut_scanFrom hmore).forks
    obtain ⟨first, tail, hspelled, hlexeme⟩ := hopens.lexeme
    let other : Token := { token.uncommented with line := start + lineFeeds token.uncommented.gap }
    obtain ⟨others, hothers, hsame⟩ := ih hmore (other.line + lineFeeds other.spelled)
    have hpieces : uncommentedFrom (token :: tokens) source =
        blanked .outside token.gap ++ (token.spelled ++ uncommentedFrom tokens rest) := by
      rw [hopens.pieces, uncommentedFrom_cons]
    have hblanks := isGapBlank_of_mem_blanked hopens.gap
    rw [hopens.pieces, List.take_left] at hblanks
    refine ⟨other :: others, scanFrom_eq_cons_iff.2 ⟨later, uncommentedFrom tokens rest, ⟨hpieces, ?_, ?_, rfl⟩,
      hothers⟩, .cons ⟨rfl, rfl, rfl, hblanks⟩ hsame⟩
    · rw [hpieces]
      refine gapLength_blanks hblanks ?_
      have hzero := gapLength_drop hopens.gap
      rw [hopens.pieces, List.drop_left, hspelled, hafter, ← List.append_assoc, List.cons_append,
        List.cons_append] at hzero
      rw [hspelled, hbare, ← List.append_assoc, List.cons_append, List.cons_append]
      exact gapLength_append hblank hzero
    · refine ⟨first, tail, hspelled, ?_⟩
      rw [hafter, ← List.append_assoc] at hlexeme
      rw [hbare, ← List.append_assoc]
      refine lexeme?_append hhalts ?_ hlexeme ?_
      · exact fun c hc => mem_stops_of_isGapBlank (hblank c hc)
      · simp

theorem mem_of_mem_uncommentedFrom {c : Char} (h : Cut source tokens) (hc : c ∈ uncommentedFrom tokens source) :
    c ∈ source ∨ c = ' ' := by
  induction h with
  | done hgap => exact mem_of_mem_blanked hc
  | @token source rest token tokens hsource hgap hspells hrest ih =>
    rw [hsource, uncommentedFrom_cons, List.mem_append, List.mem_append] at hc
    rw [hsource, List.mem_append, List.mem_append]
    rcases hc with hc | hc | hc
    · exact (mem_of_mem_blanked hc).imp_left Or.inl
    · exact Or.inl (Or.inr (Or.inl hc))
    · exact (ih hc).imp_left fun hmem => Or.inr (Or.inr hmem)

/-- Where two texts part, it is too late for a mark. -/
theorem Forks.mark_eq {other : List Char} (h : Forks text other) : mark other = mark text := by
  obtain ⟨shared, rest, blanks, rfl, rfl, hrest, hblanks⟩ := h
  have hnone {text : List Char} (htext : Halts text) : mark text = [] := by
    apply mark_eq_nil
    rintro rest rfl
    exact absurd (htext _ rfl) (by decide)
  cases shared with
  | nil => exact (hnone fun c hc => mem_stops_of_isGapBlank (hblanks c hc)).trans (hnone hrest).symm
  | cons c shared =>
    by_cases hc : c = '\ufeff'
    · subst hc
      rfl
    · have hother (text : List Char) : mark (c :: text) = [] := by
        apply mark_eq_nil
        intro rest heq
        exact hc (List.cons.inj heq).1
      exact (hother _).trans (hother _).symm

theorem mark_append_of_forks {other : List Char} (h : Forks (text.drop (mark text).length) other) :
    mark (mark text ++ other) = mark text := by
  by_cases hmark : ∃ rest, text = '\ufeff' :: rest
  · obtain ⟨rest, rfl⟩ := hmark
    rfl
  · have hnil : mark text = [] := mark_eq_nil fun rest heq => hmark ⟨rest, heq⟩
    rw [hnil] at h ⊢
    exact h.mark_eq.trans hnil

/-- **A source that can be scanned can be scanned without its comments**, and then it has the same tokens. -/
theorem scan_uncommented (h : scan source = some tokens) :
    ∃ others, scan (uncommented source) = some others ∧ List.Forall₂ Uncomments tokens others := by
  have hbare : uncommented source = mark source ++ uncommentedFrom tokens (source.drop (mark source).length) := by
    rw [uncommented, h]
  rw [scan_eq] at h
  split at h
  · cases h
  next hnull =>
  have hcut := cut_scanFrom h
  obtain ⟨others, hothers, hsame⟩ := scanFrom_uncommented h 1
  refine ⟨others, ?_, hsame⟩
  have hclean : ¬ (uncommented source).contains '\x00' = true := by
    intro hmem
    rw [List.contains_iff_mem] at hnull hmem
    rw [← mark_append_drop source, List.mem_append, not_or] at hnull
    rw [hbare, List.mem_append] at hmem
    rcases hmem with hmem | hmem
    · exact hnull.1 hmem
    · rcases mem_of_mem_uncommentedFrom hcut hmem with hmem | hblank
      · exact hnull.2 hmem
      · cases hblank
  rw [scan_eq, if_neg hclean, hbare, mark_append_of_forks hcut.forks, List.drop_left, hothers]

end JavaAtlas.Syntax

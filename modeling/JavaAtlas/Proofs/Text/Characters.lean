import JavaAtlas.Text.Blank
import JavaAtlas.Text.Word

/-!
# Blanks, identifiers and trimming

No blank and no point can stand in an identifier, since the tables of identifier characters leave them out; nor is a
blank a word character. A text that opens and ends with other characters than blanks is still in front after
trimming.
-/

namespace JavaAtlas.Text

variable {c : Char} {text front : List Char}

/-! ### Identifiers -/

/-- The code points of the blanks. -/
def blankCodes : List Nat :=
  [9, 10, 11, 12, 13, 0x20, 0x85, 0xa0, 0x1680, 0x2000, 0x2001, 0x2002, 0x2003, 0x2004, 0x2005, 0x2006,
    0x2007, 0x2008, 0x2009, 0x200a, 0x2028, 0x2029, 0x202f, 0x205f, 0x3000]

theorem mem_blankCodes (h : isBlank c = true) : c.toNat ∈ blankCodes := by
  simp only [isBlank, Bool.or_eq_true, Bool.and_eq_true, decide_eq_true_eq, beq_iff_eq] at h
  simp only [blankCodes, List.mem_cons, List.not_mem_nil, or_false]
  omega

/-- A kind of characters that leaves out the code points of the blanks has no blank. -/
theorem isBlank_of_kind {kind : Char → Bool} (hkind : ∀ code ∈ blankCodes, kind (Char.ofNat code) = false)
    (h : kind c = true) : isBlank c = false := by
  cases hblank : isBlank c with
  | false => rfl
  | true =>
    have hnot := hkind _ (mem_blankCodes hblank)
    rw [Char.ofNat_toNat, h] at hnot
    cases hnot

theorem isBlank_of_isIdentifierPart (h : isIdentifierPart c = true) : isBlank c = false :=
  isBlank_of_kind (by decide +kernel) h

theorem isBlank_of_isWordChar (h : isWordChar c = true) : isBlank c = false :=
  isBlank_of_kind (by decide +kernel) h

theorem isWordChar_of_isBlank (h : isBlank c = true) : isWordChar c = false := by
  rw [Bool.eq_false_iff]
  intro hword
  rw [isBlank_of_isWordChar hword] at h
  cases h

theorem isIdentifierPart_of_isIdentifierStart (h : isIdentifierStart c = true) :
    isIdentifierPart c = true := by
  simp only [isIdentifierStart, isXidStart, Bool.or_eq_true, beq_iff_eq] at h
  simp only [isIdentifierPart, isXidContinue, Bool.or_eq_true, beq_iff_eq]
  rcases h with (h | rfl) | rfl
  · refine Or.inl (Or.inl ?_)
    split
    · next hsmall =>
      rw [if_pos hsmall] at h
      simp [h]
    · next hlarge =>
      rw [if_neg hlarge] at h
      simp [h]
  · decide
  · decide

theorem isIdentifierPart_of_isIdentifier (h : isIdentifier text = true) :
    ∀ c ∈ text, isIdentifierPart c = true := by
  cases text with
  | nil => cases h
  | cons first rest =>
    rw [isIdentifier, Bool.and_eq_true, List.all_eq_true] at h
    intro c hc
    rcases List.mem_cons.1 hc with rfl | hc
    · exact isIdentifierPart_of_isIdentifierStart h.1
    · exact h.2 c hc

theorem ne_nil_of_isIdentifier (h : isIdentifier text = true) : text ≠ [] := by
  rintro rfl
  cases h

theorem isBlank_of_isIdentifier (h : isIdentifier text = true) : ∀ c ∈ text, isBlank c = false :=
  fun c hc => isBlank_of_isIdentifierPart (isIdentifierPart_of_isIdentifier h c hc)

theorem point_not_mem_of_isIdentifier (h : isIdentifier text = true) : '.' ∉ text := by
  intro hpoint
  exact absurd (isIdentifierPart_of_isIdentifier h '.' hpoint) (by decide +kernel)

/-! ### Texts without blanks -/

theorem isBlank_of_mem_unspaced (h : c ∈ unspaced text) : isBlank c = false := by
  simpa using (List.mem_filter.1 h).2

theorem unspaced_eq_self (h : ∀ c ∈ text, isBlank c = false) : unspaced text = text :=
  List.filter_eq_self.2 fun c hc => by simp [h c hc]

/-! ### Trimming -/

theorem dropWhile_isBlank_of_head? (h : ∀ c ∈ text.head?, isBlank c = false) :
    text.dropWhile isBlank = text := by
  cases text with
  | nil => rfl
  | cons c rest => rw [List.dropWhile_cons_of_neg (by simp [h c rfl])]

/-- A text that trimming leaves alone opens and ends with no blank. -/
theorem ends_of_trim_eq_self (h : trim text = text) :
    (∀ c ∈ text.head?, isBlank c = false) ∧ ∀ c ∈ text.getLast?, isBlank c = false := by
  have hend : (trim text).length ≤ (text.dropWhile isBlank).length := by
    simpa [trim, trimEnd] using ((text.dropWhile isBlank).reverse.dropWhile_sublist isBlank).length_le
  have hdrop : text.dropWhile isBlank = text := by
    rw [h] at hend
    exact (List.dropWhile_sublist _).eq_of_length_le hend
  have hreverse : text.reverse.dropWhile isBlank = text.reverse := by
    rw [trim, hdrop, trimEnd] at h
    rw [← List.reverse_reverse (text.reverse.dropWhile isBlank), h]
  constructor
  · intro c hc
    have hnot := List.head?_dropWhile_not isBlank text
    rw [hdrop, hc] at hnot
    exact hnot
  · intro c hc
    have hnot := List.head?_dropWhile_not isBlank text.reverse
    rw [hreverse, List.head?_reverse, hc] at hnot
    exact hnot

theorem trim_eq_self (hhead : ∀ c ∈ text.head?, isBlank c = false)
    (hlast : ∀ c ∈ text.getLast?, isBlank c = false) : trim text = text := by
  have hreverse : ∀ c ∈ text.reverse.head?, isBlank c = false := by rwa [List.head?_reverse]
  rw [trim, dropWhile_isBlank_of_head? hhead, trimEnd, dropWhile_isBlank_of_head? hreverse,
    List.reverse_reverse]

/-- What stands in front of a text stays there if its ends are no blanks. -/
theorem prefix_trim (hfront : front <+: text) (hne : front ≠ [])
    (hhead : ∀ c ∈ front.head?, isBlank c = false)
    (hlast : ∀ c ∈ front.getLast?, isBlank c = false) : front <+: trim text := by
  obtain ⟨rest, rfl⟩ := hfront
  have hdrop : (front ++ rest).dropWhile isBlank = front ++ rest := by
    refine dropWhile_isBlank_of_head? ?_
    cases front with
    | nil => exact absurd rfl hne
    | cons c more => exact hhead
  have hreverse : front.reverse.dropWhile isBlank = front.reverse := by
    refine dropWhile_isBlank_of_head? ?_
    rwa [List.head?_reverse]
  rw [trim, hdrop, trimEnd, List.reverse_append, List.dropWhile_append]
  split
  · simp only [hreverse, List.reverse_reverse, List.prefix_rfl]
  · rw [List.reverse_append, List.reverse_reverse]
    exact List.prefix_append _ _

end JavaAtlas.Text

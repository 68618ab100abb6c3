import Mathlib.Data.List.Chain
import JavaAtlas.Text.Blank

/-!
# Squeezed texts

Words are not empty and have no blank in them. A squeezed text is its words with one blank between two of them, so it
neither opens nor ends with a blank, and no two blanks stand in a row.
-/

namespace JavaAtlas.Text

variable {text word : List Char}

theorem words_append_cons {c : Char} (hc : isBlank c = true) (front back : List Char) :
    words (front ++ c :: back) = words front ++ words back := by
  rw [words, List.splitOnP_append_cons front back hc, List.filter_append, words, words]

theorem squeezed_eq_self (h : ∀ c ∈ text, isBlank c = false) : squeezed text = text := by
  have hwhole : text.splitOnP isBlank = [text] := by
    refine List.splitOnP_eq_singleton fun c hc => ?_
    simp [h c hc]
  rw [squeezed, words, hwhole]
  cases text with
  | nil => rfl
  | cons c rest => simp

/-- A text without blanks at its ends and without two of them in a row. -/
structure IsSqueezed (text : List Char) : Prop where
  head : ∀ c ∈ text.head?, isBlank c = false
  last : ∀ c ∈ text.getLast?, isBlank c = false
  apart : text.IsChain fun c next => isBlank c = false ∨ isBlank next = false

theorem isBlank_of_mem_splitOnP (h : word ∈ text.splitOnP isBlank) : ∀ c ∈ word, isBlank c = false := by
  induction text generalizing word with
  | nil =>
    rw [List.splitOnP_nil, List.mem_singleton] at h
    simp [h]
  | cons first rest ih =>
    rw [List.splitOnP_cons_eq_if_modifyHead] at h
    split at h
    · rcases List.mem_cons.1 h with rfl | h
      · simp
      · exact ih h
    · next hfirst =>
      obtain ⟨piece, pieces, hpieces⟩ := List.exists_cons_of_ne_nil (List.splitOnP_ne_nil isBlank rest)
      rw [hpieces, List.modifyHead_cons] at h
      rw [hpieces] at ih
      rcases List.mem_cons.1 h with rfl | h
      · intro c hc
        rcases List.mem_cons.1 hc with rfl | hc
        · simpa using hfirst
        · exact ih List.mem_cons_self c hc
      · exact ih (List.mem_cons_of_mem _ h)

theorem mem_words (h : word ∈ words text) : word ≠ [] ∧ ∀ c ∈ word, isBlank c = false := by
  obtain ⟨hword, hne⟩ := List.mem_filter.1 h
  exact ⟨by simpa using hne, isBlank_of_mem_splitOnP hword⟩

theorem isSqueezed_of_not_blank (h : ∀ c ∈ text, isBlank c = false) : IsSqueezed text where
  head c hc := h c (List.mem_of_mem_head? hc)
  last c hc := h c (List.mem_of_mem_getLast? hc)
  apart := by
    induction text with
    | nil => exact .nil
    | cons first rest ih =>
      rw [List.forall_mem_cons] at h
      exact List.isChain_cons.2 ⟨fun _ _ => Or.inl h.1, ih h.2⟩

theorem intercalate_ne_nil {rest : List (List Char)} (h : word ≠ []) : [' '].intercalate (word :: rest) ≠ [] := by
  cases rest with
  | nil => rwa [List.intercalate_singleton]
  | cons next more => simp [List.intercalate_cons_cons]

theorem isSqueezed_intercalate {words : List (List Char)}
    (h : ∀ word ∈ words, word ≠ [] ∧ ∀ c ∈ word, isBlank c = false) : IsSqueezed ([' '].intercalate words) := by
  induction words with
  | nil => exact isSqueezed_of_not_blank (by simp)
  | cons word rest ih =>
    obtain ⟨⟨hne, hword⟩, hrest⟩ := List.forall_mem_cons.1 h
    cases rest with
    | nil =>
      rw [List.intercalate_singleton]
      exact isSqueezed_of_not_blank hword
    | cons next more =>
      have hfront := isSqueezed_of_not_blank hword
      have hback := ih hrest
      have hrest_ne : [' '].intercalate (next :: more) ≠ [] := intercalate_ne_nil (hrest next List.mem_cons_self).1
      rw [List.intercalate_cons_cons, List.append_assoc, List.singleton_append]
      -- The blank between two words has a character on either side that is none.
      refine ⟨?_, ?_, ?_⟩
      · rw [List.head?_append_of_ne_nil _ hne]
        exact hfront.head
      · rw [List.getLast?_append_of_ne_nil _ (List.cons_ne_nil _ _), List.getLast?_cons_of_ne_nil hrest_ne]
        exact hback.last
      · refine hfront.apart.append (List.isChain_cons.2 ⟨fun c hc => Or.inr (hback.head c hc), hback.apart⟩) ?_
        exact fun c hc _ _ => Or.inl (hfront.last c hc)

/-- **A squeezed text has no blank at its ends and no two blanks in a row.** -/
theorem isSqueezed_squeezed (text : List Char) : IsSqueezed (squeezed text) :=
  isSqueezed_intercalate fun _ hword => mem_words hword

end JavaAtlas.Text

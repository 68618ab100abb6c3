import Mathlib.Data.List.Find
import JavaAtlas.Proofs.Text.Characters
import JavaAtlas.Syntax.Scan

/-!
# Numerals do not look past their end

The length of a numeral is the longest of several, each of which is counted from runs of digits, marks, signs and
suffixes. No blank and no slash is one of these, so what follows behind such a character does not count: every
function that measures a numeral, or a part of one, gives the same length for a text and for the text with a stop and
anything else behind it.
-/

namespace JavaAtlas.Syntax

open JavaAtlas.Text

/-- The characters that a gap can open with: the slash of a comment, and the blanks. -/
def stops : List Char :=
  ['/', ' ', '\t', '\n', '\x0b', '\x0c', '\x0d']

/-- A text is empty or opens with a stop. -/
def Halts (text : List Char) : Prop :=
  ∀ c ∈ text.head?, c ∈ stops

/-- No stop satisfies a condition. -/
def StopFree (p : Char → Bool) : Prop :=
  ∀ c ∈ stops, p c = false

-- The stops are tried, not all characters.
instance (p : Char → Bool) : Decidable (StopFree p) :=
  List.decidableBAll (p · = false) stops

variable {text rest : List Char} {isDigit : Char → Bool} {c : Char} {n : Nat} {marks : List Char}

/-- Whether the first character of a text satisfies a condition that no stop satisfies is seen in front of a stop. -/
theorem head?_append_of_halts {p : Char → Bool} (hp : StopFree p) (hrest : Halts rest) :
    ((text ++ rest).head?.map p).getD false = (text.head?.map p).getD false := by
  cases text with
  | cons c more => rfl
  | nil =>
    cases rest with
    | nil => rfl
    | cons c more => exact hp c (hrest c rfl)

theorem isPrefixOf_append_of_halts {front : List Char} (hfront : StopFree front.contains) (hrest : Halts rest) :
    front.isPrefixOf (text ++ rest) = front.isPrefixOf text := by
  induction front generalizing text with
  | nil => rfl
  | cons first front ih =>
    have hboth (c : Char) (hc : c ∈ stops) : (c == first) = false ∧ front.contains c = false := by
      have hnone := hfront c hc
      rwa [List.contains_cons, Bool.or_eq_false_iff] at hnone
    have hbehind : StopFree front.contains := fun c hc => (hboth c hc).2
    cases text with
    | cons c more => rw [List.cons_append, List.isPrefixOf, List.isPrefixOf, ih hbehind]
    | nil =>
      cases rest with
      | nil => rfl
      | cons c more =>
        have hne := (hboth c (hrest c rfl)).1
        rw [Bool.beq_comm] at hne
        show (first == c && front.isPrefixOf more) = List.isPrefixOf (first :: front) []
        rw [hne, Bool.false_and]
        rfl

/-! ### Runs of digits -/

theorem digitsTail_cons (hline : isDigit '_' = false) (c : Char) (text : List Char) :
    digitsTail isDigit (c :: text) =
      if isDigit c || (c == '_' && (text.head?.map isDigit).getD false) then digitsTail isDigit text + 1 else 0 := by
  by_cases hc : c = '_'
  · subst hc
    cases text with
    | nil => simp [digitsTail, hline]
    | cons next more => simp [digitsTail, hline]
  · rw [digitsTail]
    · simp [hc]
    · intro next more heq
      exact absurd heq hc

theorem digitsTail_le (isDigit : Char → Bool) (text : List Char) : digitsTail isDigit text ≤ text.length := by
  fun_induction digitsTail isDigit text <;> simp only [List.length_cons, List.length_nil] at * <;> omega

theorem digitsTail_append (hdigit : StopFree isDigit ∧ isDigit '_' = false) (hrest : Halts rest) :
    digitsTail isDigit (text ++ rest) = digitsTail isDigit text := by
  obtain ⟨hstop, hline⟩ := hdigit
  induction text with
  | cons c more ih =>
    rw [List.cons_append, digitsTail_cons hline, digitsTail_cons hline, head?_append_of_halts hstop hrest, ih]
  | nil =>
    cases rest with
    | nil => rfl
    | cons c more =>
      have hc := hrest c rfl
      have hne : (c == '_') = false := by
        apply beq_false_of_ne
        rintro rfl
        exact absurd hc (by decide)
      rw [List.nil_append, digitsTail_cons hline, hstop c hc, hne]
      rfl

theorem digits?_eq (isDigit : Char → Bool) (text : List Char) :
    digits? isDigit text =
      if (text.head?.map isDigit).getD false then some (digitsTail isDigit text) else none := by
  cases text <;> rfl

theorem digits?_le (h : digits? isDigit text = some n) : n ≤ text.length := by
  rw [digits?_eq] at h
  split at h
  · cases h
    exact digitsTail_le isDigit text
  · cases h

theorem getD_digits?_le (isDigit : Char → Bool) (text : List Char) :
    (digits? isDigit text).getD 0 ≤ text.length := by
  cases hdigits : digits? isDigit text with
  | none => exact Nat.zero_le _
  | some n => exact digits?_le hdigits

theorem digits?_append (hdigit : StopFree isDigit ∧ isDigit '_' = false) (hrest : Halts rest) :
    digits? isDigit (text ++ rest) = digits? isDigit text := by
  rw [digits?_eq, digits?_eq, digitsTail_append hdigit hrest,
    head?_append_of_halts hdigit.1 hrest]

theorem isAsciiDigit_stopFree : StopFree isAsciiDigit ∧ isAsciiDigit '_' = false := by decide

theorem isHexDigit_stopFree : StopFree isHexDigit ∧ isHexDigit '_' = false := by decide

theorem looseDigitsTail_le (text : List Char) : looseDigitsTail text ≤ text.length := by
  fun_induction looseDigitsTail text <;> simp only [List.length_cons, List.length_nil] at * <;> omega

theorem looseDigitsTail_append (hrest : Halts rest) :
    looseDigitsTail (text ++ rest) = looseDigitsTail text := by
  induction text with
  | cons c more ih => rw [List.cons_append, looseDigitsTail, looseDigitsTail, ih]
  | nil =>
    cases rest with
    | nil => rfl
    | cons c more =>
      have hnone : StopFree fun c => isAsciiDigit c || c == '_' := by decide
      obtain ⟨hdigit, hline⟩ := Bool.or_eq_false_iff.1 (hnone c (hrest c rfl))
      rw [List.nil_append, looseDigitsTail.eq_def]
      simp only [hdigit, hline, Bool.false_eq_true, if_false]
      rfl

theorem integer?_cons (c : Char) (text : List Char) :
    integer? (c :: text) =
      if c = '0' then some 1
      else if isAsciiDigit c then some (if ['_', '_'].isPrefixOf text then 1 else looseDigitsTail text + 1)
      else none := by
  by_cases hzero : c = '0'
  · subst hzero
    rfl
  · rw [if_neg hzero]
    unfold integer?
    split
    · next heq =>
      cases heq
      exact absurd rfl hzero
    · next heq =>
      cases heq
      rfl
    · next hother heq =>
      cases heq
      have hlines : ¬ ['_', '_'].isPrefixOf text = true := by
        intro h
        obtain ⟨more, rfl⟩ := List.isPrefixOf_iff_prefix.1 h
        exact hother more rfl
      rw [if_neg hlines]
    · next heq => cases heq

theorem integer?_le (h : integer? text = some n) : n ≤ text.length := by
  cases text with
  | nil => cases h
  | cons c more =>
    have hle := looseDigitsTail_le more
    rw [integer?_cons] at h
    split at h
    · cases h
      exact Nat.succ_le_succ (Nat.zero_le _)
    split at h
    · cases h
      split
      · exact Nat.succ_le_succ (Nat.zero_le _)
      · exact Nat.succ_le_succ hle
    · cases h

theorem integer?_append (hrest : Halts rest) : integer? (text ++ rest) = integer? text := by
  cases text with
  | cons c more =>
    rw [List.cons_append, integer?_cons, integer?_cons, looseDigitsTail_append hrest,
      isPrefixOf_append_of_halts (by decide) hrest]
  | nil =>
    cases rest with
    | nil => rfl
    | cons c more =>
      have hdigit := isAsciiDigit_stopFree.1 c (hrest c rfl)
      have hzero : c ≠ '0' := by
        rintro rfl
        cases hdigit
      rw [List.nil_append, integer?_cons, if_neg hzero, hdigit]
      rfl

/-! ### Marks, signs and suffixes -/

theorem oneOf_eq (marks text : List Char) :
    oneOf marks text = if (text.head?.map marks.contains).getD false then 1 else 0 := by
  cases text <;> rfl

theorem oneOf_le (marks text : List Char) : oneOf marks text ≤ text.length := by
  cases text with
  | nil => exact Nat.le_refl _
  | cons c more =>
    rw [oneOf]
    split
    · exact Nat.succ_le_succ (Nat.zero_le _)
    · exact Nat.zero_le _

theorem oneOf_append (hmarks : StopFree marks.contains) (hrest : Halts rest) :
    oneOf marks (text ++ rest) = oneOf marks text := by
  rw [oneOf_eq, oneOf_eq, head?_append_of_halts hmarks hrest]

/-- What may follow the first `n` characters is seen in front of a stop. -/
theorem oneOf_drop_append (hmarks : StopFree marks.contains) (hrest : Halts rest)
    (hle : n ≤ text.length) : oneOf marks ((text ++ rest).drop n) = oneOf marks (text.drop n) := by
  rw [List.drop_append_of_le_length hle, oneOf_append hmarks hrest]

theorem add_oneOf_drop_le (marks : List Char) (hle : n ≤ text.length) :
    n + oneOf marks (text.drop n) ≤ text.length := by
  have h := oneOf_le marks (text.drop n)
  rw [List.length_drop] at h
  omega

theorem exponent?_eq (marks text : List Char) :
    exponent? marks text =
      if oneOf marks text = 0 then none
      else
        (digits? isAsciiDigit
          (text.drop (oneOf marks text + oneOf ['-', '+'] (text.drop (oneOf marks text))))).map
            (· + oneOf marks text + oneOf ['-', '+'] (text.drop (oneOf marks text))) := by
  unfold exponent?
  split
  · next hzero => rw [if_pos hzero]
  · next hmark => rw [if_neg hmark]

theorem exponent?_le (h : exponent? marks text = some n) : n ≤ text.length := by
  rw [exponent?_eq] at h
  split at h
  · cases h
  · obtain ⟨digits, hdigits, rfl⟩ := Option.map_eq_some_iff.1 h
    have hdigits := digits?_le hdigits
    have hsign := add_oneOf_drop_le ['-', '+'] (oneOf_le marks text)
    rw [List.length_drop] at hdigits
    omega

theorem add_exponent_drop_le {k : Nat} (hn : n ≤ text.length) (h : exponent? marks (text.drop n) = some k) :
    n + k ≤ text.length := by
  have hk := exponent?_le h
  rw [List.length_drop] at hk
  omega

theorem exponent?_append (hmarks : StopFree marks.contains) (hrest : Halts rest) :
    exponent? marks (text ++ rest) = exponent? marks text := by
  have hmark := oneOf_le marks text
  have hsign := add_oneOf_drop_le ['-', '+'] hmark
  rw [exponent?_eq, exponent?_eq, oneOf_append hmarks hrest, oneOf_drop_append (by decide) hrest hmark,
    List.drop_append_of_le_length hsign, digits?_append isAsciiDigit_stopFree hrest]

/-! ### Numerals -/

/-- One of some fronts that no stop stands in is found in front of a stop. -/
theorem find?_isPrefixOf_append {fronts : List (List Char)} (hfronts : ∀ front ∈ fronts, StopFree front.contains)
    (hrest : Halts rest) :
    fronts.find? (·.isPrefixOf (text ++ rest)) = fronts.find? (·.isPrefixOf text) := by
  apply List.find?_congr
  intro front hmem
  exact isPrefixOf_append_of_halts (hfronts front hmem) hrest

theorem length_le_of_find? {fronts : List (List Char)} {front : List Char}
    (h : fronts.find? (·.isPrefixOf text) = some front) : front.length ≤ text.length := by
  have hfound : front.isPrefixOf text = true := by simpa using List.find?_some h
  exact (List.isPrefixOf_iff_prefix.1 hfound).length_le

theorem basedInteger?_le {fronts : List (List Char)} (h : basedInteger? fronts isDigit text = some n) :
    n ≤ text.length := by
  unfold basedInteger? at h
  split at h
  · cases h
  · next front hfound =>
    have hfront := length_le_of_find? hfound
    obtain ⟨digits, hdigits, rfl⟩ := Option.map_eq_some_iff.1 h
    have hdigits := digits?_le hdigits
    rw [List.length_drop] at hdigits
    exact add_oneOf_drop_le _ (by omega)

theorem basedInteger?_append (fronts : List (List Char)) (isDigit : Char → Bool)
    (hfronts : ∀ front ∈ fronts, StopFree front.contains)
    (hdigit : StopFree isDigit ∧ isDigit '_' = false) (hrest : Halts rest) :
    basedInteger? fronts isDigit (text ++ rest) = basedInteger? fronts isDigit text := by
  unfold basedInteger?
  rw [find?_isPrefixOf_append hfronts hrest]
  split
  · rfl
  · next front hfound =>
    have hlength := length_le_of_find? hfound
    rw [List.drop_append_of_le_length hlength, digits?_append hdigit hrest]
    apply Option.map_congr
    intro digits hdigits
    have hdigits := digits?_le hdigits
    rw [List.length_drop] at hdigits
    rw [oneOf_drop_append (by decide) hrest (by omega)]

theorem pointed?_le (h : pointed? text = some n) : n ≤ text.length := by
  have hwhole := getD_digits?_le isAsciiDigit text
  unfold pointed? at h
  dsimp only at h
  split at h
  · next more hpoint =>
    have hlength := congrArg List.length hpoint
    rw [List.length_drop, List.length_cons] at hlength
    split at h
    · next digits hdigits =>
      cases h
      have hdigits := digits?_le hdigits
      omega
    · split at h
      · cases h
      · cases h
        omega
  · cases h

theorem pointed?_append (hrest : Halts rest) : pointed? (text ++ rest) = pointed? text := by
  have hwhole := getD_digits?_le isAsciiDigit text
  unfold pointed?
  simp only [digits?_append isAsciiDigit_stopFree hrest, List.drop_append_of_le_length hwhole]
  cases hopened : text.drop ((digits? isAsciiDigit text).getD 0) with
  | cons c more =>
    by_cases hpoint : c = '.'
    · subst hpoint
      simp only [List.cons_append, digits?_append isAsciiDigit_stopFree hrest]
    · rw [List.cons_append]
      split
      · next heq =>
        cases heq
        exact absurd rfl hpoint
      · split
        · next heq =>
          cases heq
          exact absurd rfl hpoint
        · rfl
  | nil =>
    cases rest with
    | nil => rfl
    | cons c more =>
      rw [List.nil_append]
      split
      · next heq =>
        cases heq
        exact absurd (hrest '.' rfl) (by decide)
      · rfl

theorem getD_exponent?_le (marks text : List Char) : (exponent? marks text).getD 0 ≤ text.length := by
  cases hexponent : exponent? marks text with
  | none => exact Nat.zero_le _
  | some n => exact exponent?_le hexponent

/-- The number of hexadecimal digits behind the point that opens a text, if one does. -/
def fractionLength (text : List Char) : Nat :=
  if oneOf ['.'] text = 0 then 0 else (digits? isHexDigit (text.drop 1)).getD 0

theorem oneOf_add_fractionLength_le (text : List Char) : oneOf ['.'] text + fractionLength text ≤ text.length := by
  have hpoint := oneOf_le ['.'] text
  have hdigits := getD_digits?_le isHexDigit (text.drop 1)
  rw [List.length_drop] at hdigits
  rw [fractionLength]
  split
  · omega
  · next hpresent =>
    have hone : oneOf ['.'] text ≤ 1 := by
      rw [oneOf_eq]
      split <;> omega
    omega

theorem fractionLength_append (text : List Char) (hrest : Halts rest) :
    fractionLength (text ++ rest) = fractionLength text := by
  rw [fractionLength, fractionLength, oneOf_append (by decide) hrest]
  split
  · rfl
  · next hpresent =>
    have hpoint := oneOf_le ['.'] text
    rw [List.drop_append_of_le_length (by omega), digits?_append isHexDigit_stopFree hrest]

theorem hexFraction?_le (h : hexFraction? text = some n) : n ≤ text.length := by
  unfold hexFraction? at h
  split at h
  · cases h
  · next front hfound =>
    have hfront := length_le_of_find? hfound
    have hwhole := getD_digits?_le isHexDigit (text.drop front.length)
    rw [List.length_drop] at hwhole
    dsimp only at h
    generalize (digits? isHexDigit (text.drop front.length)).getD 0 = whole at h hwhole
    have hfraction := oneOf_add_fractionLength_le (text.drop (front.length + whole))
    rw [List.length_drop, fractionLength] at hfraction
    generalize (ite (oneOf ['.'] (text.drop (front.length + whole)) = 0) 0 _) = fraction at h hfraction
    split at h
    · cases h
    · split at h
      · next e he =>
        cases h
        exact add_oneOf_drop_le _ (add_exponent_drop_le (by omega) he)
      · cases h
        omega

theorem hexFraction?_append (hrest : Halts rest) : hexFraction? (text ++ rest) = hexFraction? text := by
  unfold hexFraction?
  rw [find?_isPrefixOf_append (by decide) hrest]
  split
  · rfl
  · next front hfound =>
    have hfront := length_le_of_find? hfound
    have hwhole := getD_digits?_le isHexDigit (text.drop front.length)
    rw [List.length_drop] at hwhole
    rw [List.drop_append_of_le_length hfront, digits?_append isHexDigit_stopFree hrest]
    generalize (digits? isHexDigit (text.drop front.length)).getD 0 = whole at hwhole
    have hbehind : front.length + whole ≤ text.length := by omega
    have hfraction := oneOf_add_fractionLength_le (text.drop (front.length + whole))
    rw [List.length_drop] at hfraction
    have hsame := fractionLength_append (text.drop (front.length + whole)) hrest
    have hpoint : oneOf ['.'] (text.drop (front.length + whole) ++ rest) = _ := oneOf_append (by decide) hrest
    simp only [fractionLength, hpoint] at hsame hfraction
    simp only [List.drop_append_of_le_length hbehind, hpoint, hsame]
    generalize (ite (oneOf ['.'] (text.drop (front.length + whole)) = 0) 0 _) = fraction at hfraction ⊢
    split
    · rfl
    · rw [List.drop_append_of_le_length (by omega), exponent?_append (by decide) hrest]
      split
      · next e he =>
        have he := exponent?_le he
        rw [List.length_drop] at he
        rw [oneOf_drop_append (by decide) hrest (by omega)]
      · rfl

theorem numeralLength_le (text : List Char) : numeralLength text ≤ text.length := by
  have hinteger (marks : List Char) :
      ∀ k ∈ (integer? text).map fun n => n + oneOf marks (text.drop n), k ≤ text.length := by
    intro k hk
    obtain ⟨n, hn, rfl⟩ := Option.map_eq_some_iff.1 hk
    exact add_oneOf_drop_le marks (integer?_le hn)
  have hall : ∀ length ∈ numeralLengths text, ∀ k ∈ length, k ≤ text.length := by
    simp only [numeralLengths, List.forall_mem_cons]
    refine ⟨hinteger ['l', 'L'], fun k => basedInteger?_le, fun k => basedInteger?_le, fun k => basedInteger?_le,
      ?_, ?_, hinteger ['f', 'F', 'd', 'D'], fun k => hexFraction?_le, List.forall_mem_nil _⟩
    · intro k hk
      obtain ⟨n, hn, rfl⟩ := Option.map_eq_some_iff.1 hk
      refine add_oneOf_drop_le _ ?_
      cases he : exponent? ['e', 'E'] (text.drop n) with
      | none => exact pointed?_le hn
      | some e => exact add_exponent_drop_le (pointed?_le hn) he
    · intro k hk
      obtain ⟨n, hn, hscaled⟩ := Option.bind_eq_some_iff.1 hk
      obtain ⟨e, he, rfl⟩ := Option.map_eq_some_iff.1 hscaled
      exact add_oneOf_drop_le _ (add_exponent_drop_le (integer?_le hn) he)
  unfold numeralLength
  refine List.foldlRecOn (motive := (· ≤ text.length)) _ _ ?_ ?_
  · exact Nat.zero_le _
  · intro longest hlongest length hlength
    apply Nat.max_le.2
    refine ⟨hlongest, ?_⟩
    cases length with
    | none => exact Nat.zero_le _
    | some k => exact hall _ hlength k rfl

/-- **A numeral ends in front of a stop**, whatever comes behind it. -/
theorem numeralLength_append (hrest : Halts rest) : numeralLength (text ++ rest) = numeralLength text := by
  have hsuffix : StopFree ['f', 'F', 'd', 'D'].contains := by decide
  have hinteger (marks : List Char) (hmarks : StopFree marks.contains) :
      ((integer? (text ++ rest)).map fun n => n + oneOf marks ((text ++ rest).drop n)) =
        (integer? text).map fun n => n + oneOf marks (text.drop n) := by
    rw [integer?_append hrest]
    apply Option.map_congr
    intro n hn
    rw [oneOf_drop_append hmarks hrest (integer?_le hn)]
  have hpointed : ((pointed? (text ++ rest)).map fun n =>
      n + (exponent? ['e', 'E'] ((text ++ rest).drop n)).getD 0 + oneOf ['f', 'F', 'd', 'D']
        ((text ++ rest).drop (n + (exponent? ['e', 'E'] ((text ++ rest).drop n)).getD 0))) =
      (pointed? text).map fun n =>
        n + (exponent? ['e', 'E'] (text.drop n)).getD 0 + oneOf ['f', 'F', 'd', 'D']
          (text.drop (n + (exponent? ['e', 'E'] (text.drop n)).getD 0)) := by
    rw [pointed?_append hrest]
    apply Option.map_congr
    intro n hn
    have hn := pointed?_le hn
    have hexponent := getD_exponent?_le ['e', 'E'] (text.drop n)
    rw [List.length_drop] at hexponent
    rw [List.drop_append_of_le_length hn, exponent?_append (by decide) hrest,
      oneOf_drop_append hsuffix hrest (by omega)]
  have hscaled : ((integer? (text ++ rest)).bind fun n =>
      (exponent? ['e', 'E', 'p', 'P'] ((text ++ rest).drop n)).map fun e =>
        n + e + oneOf ['f', 'F', 'd', 'D'] ((text ++ rest).drop (n + e))) =
      (integer? text).bind fun n =>
        (exponent? ['e', 'E', 'p', 'P'] (text.drop n)).map fun e =>
          n + e + oneOf ['f', 'F', 'd', 'D'] (text.drop (n + e)) := by
    rw [integer?_append hrest]
    apply Option.bind_congr
    intro n hn
    have hn := integer?_le hn
    rw [List.drop_append_of_le_length hn, exponent?_append (by decide) hrest]
    apply Option.map_congr
    intro e he
    have he := exponent?_le he
    rw [List.length_drop] at he
    rw [oneOf_drop_append hsuffix hrest (by omega)]
  simp only [numeralLength, numeralLengths, hinteger ['l', 'L'] (by decide), hinteger _ hsuffix, hpointed, hscaled,
    hexFraction?_append hrest,
    basedInteger?_append [['0', 'x'], ['0', 'X']] isHexDigit (by decide) isHexDigit_stopFree hrest,
    basedInteger?_append [['0', 'o'], ['0', 'O'], ['0']] (fun c => '0' ≤ c && c ≤ '7') (by decide) (by decide) hrest,
    basedInteger?_append [['0', 'b'], ['0', 'B']] (fun c => c == '0' || c == '1') (by decide) (by decide) hrest]

end JavaAtlas.Syntax

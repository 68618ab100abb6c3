import JavaAtlas.Json.Value

/-!
# Texts and numbers read back

A text that is written between quotes, with its escapes, is read back character by character, and a natural in
decimal digits is read back as that natural. Both say what follows: a text ends at its closing quote, a number
where the next character belongs to no number.
-/

namespace JavaAtlas.Json.Value

open JavaAtlas.Text

variable {c escape : Char} {rest : List Char}

/-! ### Texts -/

theorem hexValue?_hexDigit : ∀ value < 16, hexValue? (hexDigit value) = some value := by
  decide

/-- One more character in front of the pieces of a text. -/
def withChar (c : Char) (found? : Option (List Piece × List Char)) : Option (List Piece × List Char) :=
  found?.map fun found => (.char c :: found.1, found.2)

theorem pieces?_simple (hspells : simpleEscape? escape = some c) (hletter : escape ≠ 'u') :
    pieces? ('\\' :: escape :: rest) = withChar c (pieces? rest) := by
  rw [pieces?.eq_3 escape rest fun _ _ _ _ _ h _ => hletter h, hspells]
  cases pieces? rest with
  | none => rfl
  | some found => rfl

theorem pieces?_plain (hquote : c ≠ '"') (hslash : c ≠ '\\') (hcontrol : ¬ c.toNat < 0x20) :
    pieces? (c :: rest) = withChar c (pieces? rest) := by
  rw [pieces?.eq_4 c rest hquote (fun _ _ _ _ _ h _ => hslash h) (fun _ _ h _ => hslash h),
    if_neg (by simp [hslash, hcontrol])]
  cases pieces? rest with
  | none => rfl
  | some found => rfl

/-- Below the printing characters two hexadecimal digits spell a character. -/
theorem pieces?_control (hcontrol : c.toNat < 0x20) :
    pieces? ('\\' :: 'u' :: '0' :: '0' :: hexDigit (c.toNat / 16) :: hexDigit (c.toNat % 16) :: rest) =
      withChar c (pieces? rest) := by
  have hunit : unit? '0' '0' (hexDigit (c.toNat / 16)) (hexDigit (c.toNat % 16)) = some c.toNat := by
    have hzero : hexValue? '0' = some 0 := by decide
    have hvalue : ((0 * 16 + 0) * 16 + c.toNat / 16) * 16 + c.toNat % 16 = c.toNat := by omega
    simp only [unit?, hzero, hexValue?_hexDigit (c.toNat / 16) (by omega),
      hexValue?_hexDigit (c.toNat % 16) (by omega), Option.bind_eq_bind, Option.bind_some, hvalue,
      Option.pure_def]
  have hpiece : unitPiece c.toNat = .char c := by
    rw [unitPiece, if_neg (by simp; omega), Char.ofNat_toNat]
  rw [pieces?, hunit]
  cases pieces? rest with
  | none => rfl
  | some found =>
    change some (unitPiece c.toNat :: found.1, found.2) = _
    rw [hpiece]
    rfl

theorem pieces?_escapeChar_append (c : Char) (rest : List Char) :
    pieces? (escapeChar c ++ rest) = withChar c (pieces? rest) := by
  unfold escapeChar
  by_cases hquote : c = '"'
  · subst hquote
    exact pieces?_simple (by decide) (by decide)
  by_cases hslash : c = '\\'
  · subst hslash
    exact pieces?_simple (by decide) (by decide)
  by_cases hnewline : c = '\n'
  · subst hnewline
    exact pieces?_simple (by decide) (by decide)
  by_cases hreturn : c = '\r'
  · subst hreturn
    exact pieces?_simple (by decide) (by decide)
  by_cases htab : c = '\t'
  · subst htab
    exact pieces?_simple (by decide) (by decide)
  by_cases hback : c = '\x08'
  · subst hback
    exact pieces?_simple (by decide) (by decide)
  by_cases hfeed : c = '\x0c'
  · subst hfeed
    exact pieces?_simple (by decide) (by decide)
  simp only [beq_iff_eq, hquote, hslash, hnewline, hreturn, htab, hback, hfeed, if_false]
  split
  · next hcontrol => exact pieces?_control hcontrol
  · next hcontrol => exact pieces?_plain hquote hslash hcontrol

/-- The pieces of an escaped text are its characters. -/
theorem pieces?_escaped (content rest : List Char) :
    pieces? (content.flatMap escapeChar ++ '"' :: rest) = some (content.map .char, rest) := by
  induction content with
  | nil => exact pieces?.eq_1 rest
  | cons c more ih =>
    rw [List.flatMap_cons, List.append_assoc, pieces?_escapeChar_append, ih]
    rfl

theorem assemble?_chars (content : List Char) : assemble? (content.map .char) = some content := by
  induction content with
  | nil => rfl
  | cons c more ih => rw [List.map_cons, assemble?, ih, Option.map_some]

/-- **A quoted text is read back**, whatever characters it holds. -/
theorem content?_quoted (content : String) (rest : List Char) :
    ∃ inside, quoted content ++ rest = '"' :: inside ∧ content? inside = some (some content, rest) := by
  refine ⟨content.toList.flatMap escapeChar ++ '"' :: rest, by simp [quoted], ?_⟩
  rw [content?, pieces?_escaped, Option.map_some, assemble?_chars, Option.map_some, String.ofList_toList]

/-! ### Naturals -/

/-- Whether a character may go on a number that has digits so far. -/
def extendsNumber (c : Char) : Bool :=
  isDigit c || c == '.' || c == 'e' || c == 'E'

/-- Nothing that follows goes on a number. -/
def EndsNumber (rest : List Char) : Prop :=
  ∀ c ∈ rest.head?, extendsNumber c = false

theorem isDigit_of_mem_toDigits {value : Nat} (h : c ∈ Nat.toDigits 10 value) : isDigit c = true :=
  Nat.isDigit_of_mem_toDigits (by decide) (by decide) h

theorem naturalOf_toDigits (value : Nat) : naturalOf (Nat.toDigits 10 value) = value := by
  have hfold := Nat.ofDigitChars_ten_toDigits (n := value)
  rw [Nat.ofDigitChars_eq_foldl] at hfold
  have hstep : (fun (n : Nat) (c : Char) => n * 10 + (c.toNat - 48)) =
      fun n c => 10 * n + (c.toNat - '0'.toNat) := by
    funext n c
    rw [Nat.mul_comm]
    rfl
  rw [naturalOf, hstep, hfold]

theorem zero_of_digitChar : ∀ value < 10, value.digitChar = '0' → value = 0 := by
  decide

/-- Decimals open with a digit, and only that of zero opens with a zero. -/
theorem exists_toDigits (value : Nat) : ∃ first more, Nat.toDigits 10 value = first :: more ∧
    isDigit first = true ∧ (first = '0' → value = 0) := by
  induction value using Nat.strongRecOn with
  | ind value ih =>
    by_cases hsmall : value < 10
    · have hdigits := Nat.toDigits_of_lt_base hsmall
      exact ⟨_, [], hdigits, isDigit_of_mem_toDigits (hdigits ▸ List.mem_cons_self),
        zero_of_digitChar value hsmall⟩
    · obtain ⟨first, more, hfront, hdigit, hzero⟩ := ih (value / 10) (by omega)
      have hdigits := Nat.toDigits_of_base_le (b := 10) (n := value) (by decide) (by omega)
      rw [hfront, List.cons_append] at hdigits
      refine ⟨first, _, hdigits, hdigit, fun hfirst => ?_⟩
      have := hzero hfirst
      omega

theorem digits?_toDigits (value : Nat) (hrest : EndsNumber rest) :
    digits? (Nat.toDigits 10 value ++ rest) = some (Nat.toDigits 10 value, rest) := by
  have hstop : ∀ c ∈ rest.head?, isDigit c = false := by
    intro c hc
    have hends := hrest c hc
    simp only [extendsNumber, Bool.or_eq_false_iff] at hends
    exact hends.1.1.1
  have hall : ∀ c ∈ Nat.toDigits 10 value, isDigit c = true := fun _ h => isDigit_of_mem_toDigits h
  have htake : rest.takeWhile isDigit = [] ∧ rest.dropWhile isDigit = rest := by
    cases rest with
    | nil => exact ⟨rfl, rfl⟩
    | cons c more => simp [hstop c rfl]
  rw [digits?, List.takeWhile_append_of_pos hall, List.dropWhile_append_of_pos hall, htake.1, htake.2,
    List.append_nil]
  split
  · next hnil => exact absurd hnil Nat.toDigits_ne_nil
  · rfl

theorem integer?_toDigits (value : Nat) (hrest : EndsNumber rest) :
    integer? (Nat.toDigits 10 value ++ rest) = some (Nat.toDigits 10 value, rest) := by
  obtain ⟨first, more, hdigits, -, hzero⟩ := exists_toDigits value
  by_cases hfirst : first = '0'
  · rw [hzero hfirst]
    rfl
  · have hread := digits?_toDigits value hrest
    rw [hdigits, List.cons_append] at hread ⊢
    rw [integer?, hread]
    intro _ h
    exact hfirst (List.cons.inj h).1

theorem afterFraction?_of_endsNumber (hrest : EndsNumber rest) :
    afterFraction? rest = some (false, rest) := by
  unfold afterFraction?
  split
  · exact absurd (hrest '.' rfl) (by decide)
  · rfl

theorem afterExponent?_of_endsNumber (hrest : EndsNumber rest) :
    afterExponent? rest = some (false, rest) := by
  cases rest with
  | nil => rfl
  | cons c more =>
    have hends := hrest c rfl
    simp only [extendsNumber, Bool.or_eq_false_iff] at hends
    simp [afterExponent?, hends.1.2, hends.2]

/-- **A natural is read back from its decimal digits.** -/
theorem number?_toDigits (value : Nat) (hrest : EndsNumber rest) :
    number? (Nat.toDigits 10 value ++ rest) = some (.natural value, rest) := by
  have hsign : ((Nat.toDigits 10 value ++ rest).head? == some '-') = false := by
    obtain ⟨first, more, hdigits, hdigit, -⟩ := exists_toDigits value
    rw [hdigits, List.cons_append, List.head?_cons, beq_eq_false_iff_ne]
    intro h
    cases Option.some.inj h
    exact absurd hdigit (by decide)
  simp only [number?, hsign, Bool.false_eq_true, if_false, integer?_toDigits value hrest,
    afterFraction?_of_endsNumber hrest, afterExponent?_of_endsNumber hrest, Option.bind_eq_bind,
    Option.bind_some, Bool.or_self, naturalOf_toDigits, Option.pure_def]

end JavaAtlas.Json.Value

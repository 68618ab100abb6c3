import Mathlib.Data.List.Forall2
import JavaAtlas.Proofs.Json.Scalars

/-!
# Documents read back

Both forms of a document are read back as the value that the document stands for. What is needed of a form is
stated apart from the two: a stretch of text *spells* a value if the reader takes just this stretch for the
value, whatever follows that cannot go on a number. A list spells its items if its parts spell them, with any
layout before each part and before the closing mark; so one argument serves the compact form, without layout,
and the laid out form, with a new line before every part.
-/

namespace JavaAtlas.Json

namespace Value

variable {chars lead trail gap rest source : List Char} {value : Value} {steps : Nat}

/-! ### Layout -/

/-- Nothing but blanks between the parts of a value. -/
def IsLayout (lead : List Char) : Prop :=
  ∀ c ∈ lead, isLayout c = true

theorem IsLayout.nil : IsLayout [] :=
  fun _ h => absurd h List.not_mem_nil

theorem IsLayout.dropWhile (hlead : IsLayout lead) :
    (lead ++ source).dropWhile isLayout = source.dropWhile isLayout :=
  List.dropWhile_append_of_pos hlead

theorem IsLayout.dropWhile_cons {c : Char} (hlead : IsLayout lead) (hc : isLayout c = false) :
    (lead ++ c :: source).dropWhile isLayout = c :: source := by
  rw [hlead.dropWhile, List.dropWhile_cons_of_neg (by simp [hc])]

theorem value?_layout (hlead : IsLayout lead) : value? steps (lead ++ source) = value? steps source := by
  cases steps with
  | zero => rfl
  | succ steps => rw [value?, value?, hlead.dropWhile]

/-! ### Stretches that spell values -/

/-- A character that stands behind a value without going on it. -/
theorem endsNumber_cons {c : Char} (hc : extendsNumber c = false) : EndsNumber (c :: rest) := by
  intro found hfound
  cases Option.some.inj hfound
  exact hc

theorem endsNumber_layout {c : Char} (htrail : IsLayout trail) (hc : extendsNumber c = false) :
    EndsNumber (trail ++ c :: rest) := by
  cases trail with
  | nil => exact endsNumber_cons hc
  | cons first more =>
    have hfirst := htrail first List.mem_cons_self
    simp only [isLayout, Bool.or_eq_true, beq_iff_eq] at hfirst
    refine endsNumber_cons ?_
    rcases hfirst with ((rfl | rfl) | rfl) | rfl <;> decide

/-- A stretch of text spells a value: it opens with a character that is no layout and closes no list, and it is
read as the value within twice as many steps as it has characters, whatever follows that goes on no number. -/
structure Spells (chars : List Char) (value : Value) : Prop where
  opens : ∃ first more, chars = first :: more ∧ isLayout first = false ∧ first ≠ ']'
  read : ∀ steps rest, 2 * chars.length < steps → EndsNumber rest →
    value? steps (chars ++ rest) = some (value, rest)

theorem spells_natural (value : Nat) : Spells (toString value).toList (.natural value) := by
  rw [Nat.toString_eq_ofList_toDigits, String.toList_ofList]
  obtain ⟨first, more, hdigits, hdigit, -⟩ := exists_toDigits value
  have hrange : 48 ≤ first.toNat ∧ first.toNat ≤ 57 := by
    rw [isDigit, Bool.and_eq_true, decide_eq_true_eq, decide_eq_true_eq] at hdigit
    exact hdigit
  have hne : ∀ other : Char, ¬ (48 ≤ other.toNat ∧ other.toNat ≤ 57) → first ≠ other := by
    intro other hother heq
    exact hother (heq ▸ hrange)
  have hlayout : isLayout first = false := by
    simp only [isLayout, Bool.or_eq_false_iff, beq_eq_false_iff_ne]
    exact ⟨⟨⟨hne _ (by decide), hne _ (by decide)⟩, hne _ (by decide)⟩, hne _ (by decide)⟩
  refine ⟨⟨first, more, hdigits, hlayout, hne _ (by decide)⟩, ?_⟩
  intro steps rest hsteps hrest
  obtain ⟨steps, rfl⟩ := Nat.exists_eq_succ_of_ne_zero (Nat.ne_of_gt (Nat.zero_lt_of_lt hsteps))
  have hread := number?_toDigits value hrest
  rw [hdigits, List.cons_append] at hread ⊢
  rw [value?, List.dropWhile_cons_of_neg (by simp [hlayout])]
  split
  case h_7 => exact hread
  all_goals
    next heq => exact absurd (List.cons.inj heq).1 (hne _ (by decide))

theorem spells_quoted (content : String) : Spells (quoted content) (.text content) := by
  refine ⟨⟨'"', _, rfl, rfl, by decide⟩, ?_⟩
  intro steps rest hsteps _
  obtain ⟨steps, rfl⟩ := Nat.exists_eq_succ_of_ne_zero (Nat.ne_of_gt (Nat.zero_lt_of_lt hsteps))
  obtain ⟨inside, hinside, hread⟩ := content?_quoted content rest
  rw [value?, hinside, List.dropWhile_cons_of_neg (by decide)]
  simp only [hread, Option.map_some]

/-! ### Parts between marks -/

/-- Some parts between two marks, with layout before each part and before the closing mark; marks without parts
stay together. -/
def bracketed (opening closing : Char) (lead trail : List Char) (parts : List (List Char)) : List Char :=
  if parts.isEmpty then [opening, closing]
  else opening :: separated [','] (parts.map (lead ++ ·)) ++ trail ++ [closing]

theorem bracketed_of_ne_nil {opening closing : Char} {parts : List (List Char)} (h : parts ≠ []) :
    bracketed opening closing lead trail parts =
      opening :: separated [','] (parts.map (lead ++ ·)) ++ trail ++ [closing] := by
  rw [bracketed, if_neg (by simpa using h)]

theorem separated_singleton (part : List Char) : separated [','] [part] = part :=
  List.intercalate_singleton

theorem separated_cons_cons (part next : List Char) (parts : List (List Char)) :
    separated [','] (part :: next :: parts) = part ++ ',' :: separated [','] (next :: parts) := by
  rw [separated, List.intercalate_cons_cons, List.append_assoc]
  rfl

/-- Behind the layout, separated parts open as the first of them does. -/
theorem exists_dropWhile_separated {first : Char} {part : List Char} (hlead : IsLayout lead)
    (hfirst : isLayout first = false) (hpart : ∃ more, part = first :: more)
    (parts : List (List Char)) (after : List Char) :
    ∃ inside, (separated [','] ((part :: parts).map (lead ++ ·)) ++ after).dropWhile isLayout =
      first :: inside := by
  obtain ⟨more, rfl⟩ := hpart
  cases parts with
  | nil =>
    rw [List.map_singleton, separated_singleton, List.append_assoc, List.cons_append,
      hlead.dropWhile_cons hfirst]
    exact ⟨_, rfl⟩
  | cons next parts =>
    rw [List.map_cons, List.map_cons, separated_cons_cons, List.append_assoc, List.append_assoc,
      List.cons_append, hlead.dropWhile_cons hfirst]
    exact ⟨_, rfl⟩

theorem items?_separated {parts : List (List Char)} {values : List Value} (hlead : IsLayout lead)
    (htrail : IsLayout trail) (hparts : List.Forall₂ Spells parts values) (hne : parts ≠ [])
    (hsteps : 2 * ((separated [','] (parts.map (lead ++ ·))).length + 1) ≤ steps) :
    items? steps (separated [','] (parts.map (lead ++ ·)) ++ (trail ++ ']' :: rest)) =
      some (values, rest) := by
  induction hparts generalizing steps with
  | nil => exact absurd rfl hne
  | @cons part value parts values hpart hparts ih =>
    obtain ⟨steps, rfl⟩ := Nat.exists_eq_succ_of_ne_zero (n := steps) (by omega)
    cases hparts with
    | nil =>
      simp only [List.map_cons, List.map_nil, separated_singleton, List.length_append] at hsteps ⊢
      rw [items?, List.append_assoc, value?_layout hlead,
        hpart.read _ _ (by omega) (endsNumber_layout htrail (by decide))]
      simp only [htrail.dropWhile_cons (show isLayout ']' = false by decide)]
    | @cons next following parts values hnext hparts =>
      have hread := @ih steps (List.cons_ne_nil _ _)
      simp only [List.map_cons, separated_cons_cons, List.length_append, List.length_cons,
        List.append_assoc, List.cons_append] at hsteps hread ⊢
      rw [items?, value?_layout hlead, hpart.read _ _ (by omega) (endsNumber_cons (by decide))]
      simp only [List.dropWhile_cons_of_neg (show ¬ isLayout ',' = true by decide)]
      rw [hread (by omega)]
      rfl

/-- A part of a record spells a field: a quoted name, a colon, any layout, and what spells the value. -/
def SpellsField (part : List Char) (field : Option String × Value) : Prop :=
  ∃ name gap chars, part = quoted name ++ ':' :: (gap ++ chars) ∧ IsLayout gap ∧
    field.1 = some name ∧ Spells chars field.2

theorem SpellsField.opens {part : List Char} {field : Option String × Value} (h : SpellsField part field) :
    ∃ more, part = '"' :: more := by
  obtain ⟨name, gap, chars, rfl, -, -, -⟩ := h
  exact ⟨_, rfl⟩

theorem fields?_separated {parts : List (List Char)} {fields : List (Option String × Value)}
    (hlead : IsLayout lead) (htrail : IsLayout trail) (hparts : List.Forall₂ SpellsField parts fields)
    (hne : parts ≠ [])
    (hsteps : 2 * ((separated [','] (parts.map (lead ++ ·))).length + 1) ≤ steps) :
    fields? steps (separated [','] (parts.map (lead ++ ·)) ++ (trail ++ '}' :: rest)) =
      some (fields, rest) := by
  induction hparts generalizing steps with
  | nil => exact absurd rfl hne
  | @cons part field parts fields hpart hparts ih =>
    obtain ⟨steps, rfl⟩ := Nat.exists_eq_succ_of_ne_zero (n := steps) (by omega)
    obtain ⟨name, gap, chars, rfl, hgap, hname, hvalue⟩ := hpart
    obtain ⟨found, value⟩ := field
    obtain rfl : found = some name := hname
    -- What the reader does up to the value, whatever stands behind it.
    have hopen : ∀ after, ∃ inside, quoted name ++ ':' :: (gap ++ (chars ++ after)) = '"' :: inside ∧
        content? inside = some (some name, ':' :: (gap ++ (chars ++ after))) :=
      fun after => content?_quoted name _
    cases hparts with
    | nil =>
      obtain ⟨inside, hinside, hread⟩ := hopen (trail ++ '}' :: rest)
      simp only [List.map_cons, List.map_nil, separated_singleton, List.length_append, List.length_cons,
        List.append_assoc, List.cons_append] at hsteps ⊢
      rw [fields?, hinside, hlead.dropWhile_cons (by decide)]
      simp only [hread, List.dropWhile_cons_of_neg (show ¬ isLayout ':' = true by decide)]
      rw [value?_layout hgap, hvalue.read _ _ (by omega) (endsNumber_layout htrail (by decide))]
      simp only [htrail.dropWhile_cons (show isLayout '}' = false by decide)]
    | @cons next following parts fields hnext hparts =>
      have hrest := @ih steps (List.cons_ne_nil _ _)
      simp only [List.map_cons, separated_cons_cons, List.length_append, List.length_cons,
        List.append_assoc, List.cons_append] at hsteps hrest ⊢
      obtain ⟨inside, hinside, hread⟩ := hopen
        (',' :: (separated [','] ((lead ++ next) :: parts.map (lead ++ ·)) ++ (trail ++ '}' :: rest)))
      rw [fields?, hinside, hlead.dropWhile_cons (by decide)]
      simp only [hread, List.dropWhile_cons_of_neg (show ¬ isLayout ':' = true by decide)]
      rw [value?_layout hgap, hvalue.read _ _ (by omega) (endsNumber_cons (by decide))]
      simp only [List.dropWhile_cons_of_neg (show ¬ isLayout ',' = true by decide)]
      rw [hrest (by omega)]
      rfl

theorem spells_array {parts : List (List Char)} {values : List Value} (hlead : IsLayout lead)
    (htrail : IsLayout trail) (hparts : List.Forall₂ Spells parts values) :
    Spells (bracketed '[' ']' lead trail parts) (.array values) := by
  cases hparts with
  | nil =>
    refine ⟨⟨'[', _, rfl, rfl, by decide⟩, ?_⟩
    intro steps rest hsteps _
    obtain ⟨steps, rfl⟩ := Nat.exists_eq_succ_of_ne_zero (Nat.ne_of_gt (Nat.zero_lt_of_lt hsteps))
    rfl
  | @cons part value parts values hpart hparts =>
    rw [bracketed_of_ne_nil (List.cons_ne_nil _ _)]
    refine ⟨⟨'[', _, rfl, rfl, by decide⟩, ?_⟩
    intro steps rest hsteps _
    obtain ⟨steps, rfl⟩ := Nat.exists_eq_succ_of_ne_zero (Nat.ne_of_gt (Nat.zero_lt_of_lt hsteps))
    simp only [List.length_append, List.length_cons, List.length_nil] at hsteps
    -- The first part does not open with the closing mark, so the reader looks for items.
    obtain ⟨first, more, hfirst, hlayout, hclose⟩ := hpart.opens
    obtain ⟨inside, hinside⟩ := exists_dropWhile_separated hlead hlayout ⟨more, hfirst⟩ parts
      (trail ++ ']' :: rest)
    simp only [List.append_assoc, List.cons_append, List.nil_append]
    rw [value?, List.dropWhile_cons_of_neg (by decide)]
    simp only [hinside]
    split
    · next heq => exact absurd (List.cons.inj heq).1 hclose
    · rw [items?_separated hlead htrail (.cons hpart hparts) (List.cons_ne_nil _ _) (by omega)]
      rfl

theorem spells_object {parts : List (List Char)} {fields : List (Option String × Value)}
    (hlead : IsLayout lead) (htrail : IsLayout trail) (hparts : List.Forall₂ SpellsField parts fields) :
    Spells (bracketed '{' '}' lead trail parts) (.object fields) := by
  cases hparts with
  | nil =>
    refine ⟨⟨'{', _, rfl, rfl, by decide⟩, ?_⟩
    intro steps rest hsteps _
    obtain ⟨steps, rfl⟩ := Nat.exists_eq_succ_of_ne_zero (Nat.ne_of_gt (Nat.zero_lt_of_lt hsteps))
    rfl
  | @cons part field parts fields hpart hparts =>
    rw [bracketed_of_ne_nil (List.cons_ne_nil _ _)]
    refine ⟨⟨'{', _, rfl, rfl, by decide⟩, ?_⟩
    intro steps rest hsteps _
    obtain ⟨steps, rfl⟩ := Nat.exists_eq_succ_of_ne_zero (Nat.ne_of_gt (Nat.zero_lt_of_lt hsteps))
    simp only [List.length_append, List.length_cons, List.length_nil] at hsteps
    -- The first part opens with a quote, so the reader looks for fields.
    obtain ⟨inside, hinside⟩ := exists_dropWhile_separated hlead (by decide) hpart.opens parts
      (trail ++ '}' :: rest)
    simp only [List.append_assoc, List.cons_append, List.nil_append]
    rw [value?, List.dropWhile_cons_of_neg (by decide)]
    simp only [hinside]
    rw [fields?_separated hlead htrail (.cons hpart hparts) (List.cons_ne_nil _ _) (by omega)]
    rfl

/-! ### The two forms -/

theorem bracketed_nil (opening closing : Char) (parts : List (List Char)) :
    bracketed opening closing [] [] parts = opening :: separated [','] parts ++ [closing] := by
  cases parts with
  | nil => rfl
  | cons part parts => simp [bracketed]

theorem isLayout_newLine (depth : Nat) : IsLayout (Document.newLine depth) := by
  intro c hc
  rcases List.mem_cons.1 hc with rfl | hc
  · rfl
  · rw [List.eq_of_mem_replicate hc]
    rfl

mutual

/-- **The compact form of a document spells its value.** -/
theorem spells_compactChars : ∀ document : Document,
    Spells document.compactChars (ofDocument document)
  | .natural value => spells_natural value
  | .text content => spells_quoted content
  | .list items => by
    have hitems := spells_array .nil .nil (spells_compactItems items)
    rwa [bracketed_nil] at hitems
  | .record fields => by
    have hfields := spells_object .nil .nil (spells_compactFields fields)
    rwa [bracketed_nil] at hfields

theorem spells_compactItems : ∀ items : List Document,
    List.Forall₂ Spells (Document.compactItems items) (ofItems items)
  | [] => .nil
  | item :: rest => .cons (spells_compactChars item) (spells_compactItems rest)

theorem spells_compactFields : ∀ fields : List (String × Document),
    List.Forall₂ SpellsField (Document.compactFields fields) (ofFields fields)
  | [] => .nil
  | (name, value) :: rest =>
    .cons ⟨name, [], _, rfl, .nil, rfl, spells_compactChars value⟩ (spells_compactFields rest)

end

mutual

/-- **The laid out form of a document spells its value**, at every depth. -/
theorem spells_prettyChars : ∀ (depth : Nat) (document : Document),
    Spells (document.prettyChars depth) (ofDocument document)
  | _, .natural value => spells_natural value
  | _, .text content => spells_quoted content
  | depth, .list items =>
    spells_array (isLayout_newLine (depth + 1)) (isLayout_newLine depth)
      (spells_prettyItems (depth + 1) items)
  | depth, .record fields =>
    spells_object (isLayout_newLine (depth + 1)) (isLayout_newLine depth)
      (spells_prettyFields (depth + 1) fields)

theorem spells_prettyItems : ∀ (depth : Nat) (items : List Document),
    List.Forall₂ Spells (Document.prettyItems depth items) (ofItems items)
  | _, [] => .nil
  | depth, item :: rest => .cons (spells_prettyChars depth item) (spells_prettyItems depth rest)

theorem spells_prettyFields : ∀ (depth : Nat) (fields : List (String × Document)),
    List.Forall₂ SpellsField (Document.prettyFields depth fields) (ofFields fields)
  | _, [] => .nil
  | depth, (name, value) :: rest =>
    .cons ⟨name, [' '], _, rfl, by simp [IsLayout, isLayout], rfl, spells_prettyChars depth value⟩
      (spells_prettyFields depth rest)

end

theorem parse?_of_spells (h : Spells chars value) : parse? (String.ofList chars) = some value := by
  have hread := h.read (2 * chars.length + 1) [] (Nat.lt_succ_self _) fun _ hc => by cases hc
  rw [List.append_nil] at hread
  simp only [parse?, String.toList_ofList, hread, List.all_nil, if_true]

/-- **Both forms of a document are read back as the value that it stands for.** -/
theorem parse?_document (document : Document) :
    parse? document.compact = some (ofDocument document) ∧
      parse? document.pretty = some (ofDocument document) :=
  ⟨parse?_of_spells (spells_compactChars document), parse?_of_spells (spells_prettyChars 0 document)⟩

end Value

/-! ### The compact form stands on one line -/

/-- No character of a text is a control character. -/
def Printing (chars : List Char) : Prop :=
  ∀ c ∈ chars, 0x20 ≤ c.toNat

theorem Printing.append {chars more : List Char} (h : Printing chars) (hmore : Printing more) :
    Printing (chars ++ more) :=
  List.forall_mem_append.2 ⟨h, hmore⟩

theorem Printing.between {opening closing : Char} {chars : List Char} (hopening : 0x20 ≤ opening.toNat)
    (h : Printing chars) (hclosing : 0x20 ≤ closing.toNat) : Printing (opening :: chars ++ [closing]) :=
  .append (List.forall_mem_cons.2 ⟨hopening, h⟩) (List.forall_mem_singleton.2 hclosing)

theorem printing_hexDigit : ∀ value < 16, 0x20 ≤ (Text.hexDigit value).toNat := by
  decide

theorem printing_escapeChar (c : Char) : Printing (escapeChar c) := by
  unfold escapeChar Printing
  -- Seven characters have an escape of their own.
  iterate 7
    split
    · simp
  split
  · next hcontrol =>
    have hhigh := printing_hexDigit (c.toNat / 16) (by omega)
    have hlow := printing_hexDigit (c.toNat % 16) (by omega)
    simp [hhigh, hlow]
  · next hprinting => simpa using hprinting

theorem printing_quoted (content : String) : Printing (quoted content) := by
  refine .between (by decide) ?_ (by decide)
  intro c hc
  obtain ⟨inside, -, hinside⟩ := List.mem_flatMap.1 hc
  exact printing_escapeChar inside c hinside

theorem printing_separated {parts : List (List Char)} (h : ∀ part ∈ parts, Printing part) :
    Printing (separated [','] parts) := by
  induction parts with
  | nil => exact fun _ hc => absurd hc List.not_mem_nil
  | cons part rest ih =>
    obtain ⟨hpart, hrest⟩ := List.forall_mem_cons.1 h
    cases rest with
    | nil =>
      rw [Value.separated_singleton]
      exact hpart
    | cons next rest =>
      rw [Value.separated_cons_cons]
      exact hpart.append (List.forall_mem_cons.2 ⟨by decide, ih hrest⟩)

mutual

/-- **The compact form of a document has no control characters**, so no line of it ends before it does. -/
theorem printing_compactChars : ∀ document : Document, Printing document.compactChars
  | .natural value => by
    intro c hc
    rw [Document.compactChars, Nat.toString_eq_ofList_toDigits, String.toList_ofList] at hc
    have hdigit := Value.isDigit_of_mem_toDigits hc
    rw [Value.isDigit, Bool.and_eq_true, decide_eq_true_eq] at hdigit
    exact Nat.le_trans (by decide) hdigit.1
  | .text content => printing_quoted content
  | .list items => .between (by decide) (printing_separated (printing_compactItems items)) (by decide)
  | .record fields => .between (by decide) (printing_separated (printing_compactFields fields)) (by decide)

theorem printing_compactItems : ∀ items : List Document, ∀ part ∈ Document.compactItems items, Printing part
  | [] => fun _ hpart => absurd hpart List.not_mem_nil
  | item :: rest => List.forall_mem_cons.2 ⟨printing_compactChars item, printing_compactItems rest⟩

theorem printing_compactFields : ∀ fields : List (String × Document),
    ∀ part ∈ Document.compactFields fields, Printing part
  | [] => fun _ hpart => absurd hpart List.not_mem_nil
  | (name, value) :: rest => List.forall_mem_cons.2
    ⟨(printing_quoted name).append (List.forall_mem_cons.2 ⟨by decide, printing_compactChars value⟩),
      printing_compactFields rest⟩

end

theorem printing_compact (document : Document) : Printing document.compact.toList := by
  rw [Document.compact, String.toList_ofList]
  exact printing_compactChars document

end JavaAtlas.Json

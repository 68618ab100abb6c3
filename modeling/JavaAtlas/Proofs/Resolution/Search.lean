import JavaAtlas.Proofs.Oracle
import JavaAtlas.Proofs.Resolution.SimpleNames

/-!
# Resolution as a search

What a name means is settled in two steps. The unit is heard first: it gives a meaning to the types that it
declares and to those that it imports by name, and it vouches for what hangs on their names by points. An oracle has
no say in that. Only for the other names it is asked, for one guess after the other; the first guess that it
confirms counts, and a failure ends the search. So what depends on the oracle is a search through one list, and
everything about two oracles is told by that list.
-/

namespace JavaAtlas

open JavaAtlas.Text

namespace SourceUnit

/-- A unit gives a meaning to a name: it declares a type under that path or simple name, or it imports one whose
name ends in it. -/
inductive Gives (unit : SourceUnit) (name : String) : String → Prop where
  | declared {path : String} (hpath : path ∈ unit.declaredTypes)
      (hnamed : path = name ∨ Name.lastSegment path = name) :
      Gives unit name (qualify unit.package? path)
  | imported {item : Import} (hitem : item ∈ unit.imports) (hmember : item.isStatic = false)
      (hsingle : item.isWildcard = false) (hnamed : Name.lastSegment item.name = name) :
      Gives unit name item.name

/-- A unit vouches for what a name means: it gives a meaning to the name or to its first segment, and then the rest
of the name stays behind that. -/
inductive Vouches (unit : SourceUnit) (name : String) : String → Prop where
  | whole {full : String} (hgiven : unit.Gives name full) : Vouches unit name full
  | through {head rest full : String} (hsplit : Name.splitFirst? name = some (head, rest))
      (hgiven : unit.Gives head full) : Vouches unit name (full ++ "." ++ rest)

end SourceUnit

namespace Scope

/-- A guess at a name: a type for which an oracle is asked, and what the name means if that type exists. -/
structure Guess where
  type : String
  full : String

/-- The guesses at a name, in order. The whole of a dotted name comes last. -/
def guesses (scope : Scope) (name : String) : List Guess :=
  match Name.splitFirst? name with
  | some (head, rest) =>
    (scope.candidates head).map (fun type => ⟨type, type ++ "." ++ rest⟩) ++ [⟨name, name⟩]
  | none => (scope.candidates name).map fun type => ⟨type, type⟩

/-- What a name means by the first of some guesses that an oracle confirms. A failure ends the search. -/
def firstConfirmed (oracle : Oracle) : List Guess → Except OracleFailure (Option String)
  | [] => .ok none
  | guess :: rest =>
    match oracle.knows guess.type with
    | .error failure => .error failure
    | .ok true => .ok (some guess.full)
    | .ok false => firstConfirmed oracle rest

/-- What the unit says a simple name means. -/
def givenSimple? (scope : Scope) (simple : String) : Option String :=
  (scope.localTypes.lookup simple).or (scope.singleImports.lookup simple)

/-- What the unit says a name means. -/
def given? (scope : Scope) (name : String) : Option String :=
  (scope.localTypes.lookup name).or <|
    match Name.splitFirst? name with
    | some (head, rest) => (scope.givenSimple? head).map fun full => full ++ "." ++ rest
    | none => scope.givenSimple? name

variable {scope : Scope} {unit : SourceUnit} {oracle : Oracle} {name simple full : String}

/-! ### What the unit says -/

theorem isSome_lookup_localTypes_iff :
    ((ofUnit unit).localTypes.lookup name).isSome ↔
      ∃ path ∈ unit.declaredTypes, path = name ∨ Name.lastSegment path = name := by
  rw [localTypes_ofUnit, lookup_localEntries, Option.isSome_map, List.find?_isSome]
  simp only [answers, Bool.or_eq_true, beq_iff_eq]
  refine exists_congr fun path => and_congr_right fun _ => ?_
  rw [or_comm, eq_comm, eq_comm (a := name)]

theorem gives_of_lookup_localTypes (h : (ofUnit unit).localTypes.lookup name = some full) :
    unit.Gives name full := by
  rw [localTypes_ofUnit, lookup_localEntries] at h
  obtain ⟨path, hfind, rfl⟩ := Option.map_eq_some_iff.1 h
  have hanswers := List.find?_some hfind
  rw [answers, Bool.or_eq_true, beq_iff_eq, beq_iff_eq] at hanswers
  exact .declared (List.mem_of_find?_eq_some hfind) (hanswers.symm.imp Eq.symm Eq.symm)

theorem mem_singleImports_iff {entry : String × String} :
    entry ∈ (ofUnit unit).singleImports ↔ ∃ item ∈ unit.imports, item.isStatic = false ∧
      item.isWildcard = false ∧ (Name.lastSegment item.name, item.name) = entry := by
  simp only [ofUnit, List.mem_map, List.mem_filter, Bool.not_eq_true', and_assoc]

theorem gives_of_givenSimple? (h : (ofUnit unit).givenSimple? simple = some full) : unit.Gives simple full := by
  rw [givenSimple?, Option.or_eq_some_iff] at h
  rcases h with hlocal | ⟨-, himport⟩
  · exact gives_of_lookup_localTypes hlocal
  · obtain ⟨before, after, hentries, -⟩ := List.lookup_eq_some_iff.1 himport
    have hmem : (simple, full) ∈ (ofUnit unit).singleImports := by
      rw [hentries]
      exact List.mem_append_right _ List.mem_cons_self
    obtain ⟨item, hitem, hmember, hsingle, hentry⟩ := mem_singleImports_iff.1 hmem
    cases hentry
    exact .imported hitem hmember hsingle rfl

theorem isSome_givenSimple?_of_gives (h : unit.Gives simple full) : ((ofUnit unit).givenSimple? simple).isSome := by
  rw [givenSimple?, Option.isSome_or, Bool.or_eq_true]
  cases h with
  | declared hpath hnamed => exact Or.inl (isSome_lookup_localTypes_iff.2 ⟨_, hpath, hnamed⟩)
  | imported hitem hmember hsingle hnamed =>
    right
    rw [Option.isSome_iff_ne_none, Ne, List.lookup_eq_none_iff]
    intro hnone
    have hentry := hnone _ (mem_singleImports_iff.2 ⟨_, hitem, hmember, hsingle, rfl⟩)
    simp [hnamed] at hentry

theorem point_mem_of_splitFirst? {head rest : String} (h : Name.splitFirst? name = some (head, rest)) :
    '.' ∈ name.toList := by
  by_contra hpoint
  cases h.symm.trans (Name.splitFirst?_eq_none hpoint)

theorem vouches_of_given? (h : (ofUnit unit).given? name = some full) : unit.Vouches name full := by
  rw [given?, Option.or_eq_some_iff] at h
  rcases h with hlocal | ⟨-, hgiven⟩
  · exact .whole (gives_of_lookup_localTypes hlocal)
  · split at hgiven
    · next hsplit =>
      obtain ⟨own, hown, rfl⟩ := Option.map_eq_some_iff.1 hgiven
      exact .through hsplit (gives_of_givenSimple? hown)
    · exact .whole (gives_of_givenSimple? hgiven)

theorem isSome_given?_of_vouches (h : unit.Vouches name full) : ((ofUnit unit).given? name).isSome := by
  rw [given?, Option.isSome_or, Bool.or_eq_true]
  cases h with
  | through hsplit hgiven =>
    right
    rw [hsplit]
    simpa using isSome_givenSimple?_of_gives hgiven
  | whole hgiven =>
    cases hsplit : Name.splitFirst? name with
    | none => exact Or.inr (isSome_givenSimple?_of_gives hgiven)
    | some cut =>
      left
      cases hgiven with
      | declared hpath hnamed => exact isSome_lookup_localTypes_iff.2 ⟨_, hpath, hnamed⟩
      | imported hitem hmember hsingle hnamed =>
        -- The last segment of an import has no point, while the name has one.
        have hpoint := point_mem_of_splitFirst? hsplit
        exact absurd hpoint (hnamed ▸ Name.point_not_mem_lastSegment _)

theorem given?_eq_none_iff : (ofUnit unit).given? name = none ↔ ¬ ∃ full, unit.Vouches name full := by
  constructor
  · rintro hnone ⟨full, hvouches⟩
    have hsome := isSome_given?_of_vouches hvouches
    rw [hnone] at hsome
    cases hsome
  · intro hnone
    rw [Option.eq_none_iff_forall_ne_some]
    intro full hgiven
    exact hnone ⟨full, vouches_of_given? hgiven⟩

/-! ### What an oracle confirms -/

theorem firstConfirmed_map (meaning : String → String) (types : List String) :
    firstConfirmed oracle (types.map fun type => ⟨type, meaning type⟩) =
      (firstKnown oracle types).map (Option.map meaning) := by
  induction types with
  | nil => rfl
  | cons type rest ih =>
    rw [List.map_cons, firstConfirmed, firstKnown]
    cases oracle.knows type with
    | error failure => rfl
    | ok known =>
      cases known with
      | true => rfl
      | false => exact ih

theorem firstConfirmed_append (front back : List Guess) :
    firstConfirmed oracle (front ++ back) =
      match firstConfirmed oracle front with
      | .error failure => .error failure
      | .ok (some full) => .ok (some full)
      | .ok none => firstConfirmed oracle back := by
  induction front with
  | nil => rfl
  | cons guess rest ih =>
    rw [List.cons_append, firstConfirmed, firstConfirmed]
    cases oracle.knows guess.type with
    | error failure => rfl
    | ok known =>
      cases known with
      | true => rfl
      | false => exact ih

theorem firstConfirmed_cons_of_knows {guess : Guess} (hknows : oracle.Knows guess.type) (rest : List Guess) :
    firstConfirmed oracle (guess :: rest) = .ok (some guess.full) := by
  rw [firstConfirmed, hknows]

/-- A search ends well at a guess that the oracle confirms, behind guesses that it refutes. -/
theorem firstConfirmed_eq_some_iff {guesses : List Guess} :
    firstConfirmed oracle guesses = .ok (some full) ↔
      ∃ front guess back, guesses = front ++ guess :: back ∧
        (∀ earlier ∈ front, oracle.knows earlier.type = .ok false) ∧
        oracle.Knows guess.type ∧ guess.full = full := by
  constructor
  · intro h
    induction guesses with
    | nil => cases h
    | cons guess rest ih =>
      rw [firstConfirmed] at h
      split at h
      · cases h
      · next hknows =>
        cases h
        exact ⟨[], guess, rest, rfl, by simp, hknows, rfl⟩
      · next hrefuted =>
        obtain ⟨front, found, back, rfl, hfront, hfound⟩ := ih h
        exact ⟨guess :: front, found, back, rfl, List.forall_mem_cons.2 ⟨hrefuted, hfront⟩, hfound⟩
  · rintro ⟨front, guess, back, rfl, hfront, hknows, rfl⟩
    induction front with
    | nil => exact firstConfirmed_cons_of_knows hknows back
    | cons earlier rest ih =>
      obtain ⟨hrefuted, hrest⟩ := List.forall_mem_cons.1 hfront
      rw [List.cons_append, firstConfirmed, hrefuted]
      exact ih hrest

/-! ### The two steps -/

theorem resolveSimple_eq (scope : Scope) (oracle : Oracle) (simple : String) :
    scope.resolveSimple oracle simple =
      match scope.givenSimple? simple with
      | some full => .ok (some full)
      | none => firstKnown oracle (scope.candidates simple) := by
  rw [resolveSimple, givenSimple?]
  cases scope.localTypes.lookup simple <;> cases scope.singleImports.lookup simple <;> rfl

theorem resolveDotted_eq (scope : Scope) (oracle : Oracle) {head rest : String}
    (hsplit : Name.splitFirst? name = some (head, rest)) :
    scope.resolveDotted oracle name head rest =
      match scope.givenSimple? head with
      | some full => .ok (some (full ++ "." ++ rest))
      | none => firstConfirmed oracle (scope.guesses name) := by
  rw [resolveDotted, resolveSimple_eq]
  cases scope.givenSimple? head with
  | some full => rfl
  | none =>
    simp only [guesses, hsplit, firstConfirmed_append, firstConfirmed_map]
    cases firstKnown oracle (scope.candidates head) with
    | error failure => rfl
    | ok answer => cases answer <;> rfl

/-- **Resolution hears the unit, then searches.** -/
theorem resolve_eq_search (scope : Scope) (oracle : Oracle) (name : String) :
    scope.resolve oracle name =
      if trimmed name = "" then .ok none
      else
        match scope.given? (trimmed name) with
        | some full => .ok (some full)
        | none => firstConfirmed oracle (scope.guesses (trimmed name)) := by
  simp only [resolve, given?, beq_iff_eq]
  split
  · rfl
  · cases scope.localTypes.lookup (trimmed name) with
    | some full => rfl
    | none =>
      cases hsplit : Name.splitFirst? (trimmed name) with
      | some cut =>
        simp only [resolveDotted_eq scope oracle hsplit]
        cases scope.givenSimple? cut.1 <;> rfl
      | none =>
        simp only [resolveSimple_eq, guesses, hsplit, firstConfirmed_map]
        cases scope.givenSimple? (trimmed name) with
        | some full => rfl
        | none =>
          cases firstKnown oracle (scope.candidates (trimmed name)) with
          | error failure => rfl
          | ok answer => cases answer <;> rfl

/-- Oracles have no say in what the unit vouches for. -/
theorem resolve_eq_of_vouches (hvouches : ∃ full, unit.Vouches (trimmed name) full) (first second : Oracle) :
    (ofUnit unit).resolve first name = (ofUnit unit).resolve second name := by
  obtain ⟨full, hvouches⟩ := hvouches
  obtain ⟨own, hown⟩ := Option.isSome_iff_exists.1 (isSome_given?_of_vouches hvouches)
  rw [resolve_eq_search, resolve_eq_search, hown]

theorem vouches_of_resolve (hresolve : (ofUnit unit).resolve oracle name = .ok (some full))
    (hvouches : ∃ own, unit.Vouches (trimmed name) own) : unit.Vouches (trimmed name) full := by
  obtain ⟨own, hown⟩ := hvouches
  obtain ⟨given, hgiven⟩ := Option.isSome_iff_exists.1 (isSome_given?_of_vouches hown)
  rw [resolve_eq_search, hgiven] at hresolve
  split at hresolve
  · cases hresolve
  · cases hresolve
    exact vouches_of_given? hgiven

/-- Where the unit does not vouch for a name, the oracle is asked. -/
theorem resolve_eq_of_not_vouches (hvouches : ¬ ∃ full, unit.Vouches (trimmed name) full) (oracle : Oracle) :
    (ofUnit unit).resolve oracle name =
      if trimmed name = "" then .ok none else firstConfirmed oracle ((ofUnit unit).guesses (trimmed name)) := by
  rw [resolve_eq_search, given?_eq_none_iff.2 hvouches]

end Scope

end JavaAtlas

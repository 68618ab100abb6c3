import JavaAtlas.Oracle

/-!
# What oracles say

An oracle says that a type exists or that it does not, or it has no answer. Several oracles asked as one know what
any of them knows, and a member that has no answer takes nothing of that away. It takes away something else: with
such a member among them they never say any more that a type does not exist.
-/

namespace JavaAtlas.Oracle

variable {oracle failing : Oracle} {members before after : List Oracle} {type : String}

def Knows (oracle : Oracle) (type : String) : Prop :=
  oracle.knows type = .ok true

/-- An oracle has an answer for every type. -/
def Answers (oracle : Oracle) : Prop :=
  ∀ type, ∃ known, oracle.knows type = .ok known

/-- An oracle has an answer for no type. -/
def Fails (oracle : Oracle) : Prop :=
  ∀ type, ∃ failure, oracle.knows type = .error failure

theorem Answers.knows_eq_false (h : oracle.Answers) (hunknown : ¬ oracle.Knows type) :
    oracle.knows type = .ok false := by
  obtain ⟨known, hknown⟩ := h type
  cases known with
  | false => exact hknown
  | true => exact absurd hknown hunknown

theorem Fails.not_knows (h : oracle.Fails) : ¬ oracle.Knows type := by
  intro hknows
  obtain ⟨failure, hfailure⟩ := h type
  cases hfailure.symm.trans hknows

theorem answers_ofNames (name : String) (known : List String) : (ofNames name known).Answers :=
  fun type => ⟨known.contains type, rfl⟩

theorem fails_failing (name reason : String) : (Oracle.failing name reason).Fails :=
  fun _ => ⟨.unavailable reason, rfl⟩

/-! ### Several oracles -/

theorem askAll_eq_true_iff {failure : Option OracleFailure} :
    askAll type failure members = .ok true ↔ ∃ member ∈ members, member.Knows type := by
  induction members generalizing failure with
  | nil => cases failure <;> simp [askAll]
  | cons member rest ih =>
    simp only [askAll, List.mem_cons, exists_eq_or_imp]
    cases hknows : member.knows type with
    | error cause => simp [ih, Knows, hknows]
    | ok known =>
      cases known with
      | true => simp [Knows, hknows]
      | false => simp [ih, Knows, hknows]

/-- After a failure it is not said any more that a type does not exist. -/
theorem askAll_some_ne_false {failure : OracleFailure} : askAll type (some failure) members ≠ .ok false := by
  induction members with
  | nil => simp [askAll]
  | cons member rest ih =>
    rw [askAll]
    cases member.knows type with
    | error cause => exact ih
    | ok known =>
      cases known with
      | true => simp
      | false => exact ih

theorem askAll_ne_false_of_fails {failure : Option OracleFailure} (hfails : failing.Fails) :
    askAll type failure (before ++ failing :: after) ≠ .ok false := by
  induction before generalizing failure with
  | nil =>
    obtain ⟨cause, hcause⟩ := hfails type
    rw [List.nil_append, askAll, hcause]
    cases failure <;> exact askAll_some_ne_false
  | cons member rest ih =>
    rw [List.cons_append, askAll]
    cases member.knows type with
    | error cause => exact ih
    | ok known =>
      cases known with
      | true => simp
      | false => exact ih

/-- Without a failure to tell of, members that all answer have an answer together. -/
theorem exists_askAll_eq_ok (h : ∀ member ∈ members, member.Answers) :
    ∃ known, askAll type none members = .ok known := by
  induction members with
  | nil => exact ⟨false, rfl⟩
  | cons member rest ih =>
    obtain ⟨hmember, hrest⟩ := List.forall_mem_cons.1 h
    obtain ⟨known, hknown⟩ := hmember type
    rw [askAll, hknown]
    cases known with
    | true => exact ⟨true, rfl⟩
    | false => exact ih hrest

theorem knows_combined_iff : (combined members).Knows type ↔ ∃ member ∈ members, member.Knows type :=
  askAll_eq_true_iff

theorem answers_combined (h : ∀ member ∈ members, member.Answers) : (combined members).Answers :=
  fun _ => exists_askAll_eq_ok h

/-- A failing member hides no type that the others know. -/
theorem knows_combined_with_failing_iff (hfails : failing.Fails) :
    (combined (before ++ failing :: after)).Knows type ↔ (combined (before ++ after)).Knows type := by
  simp only [knows_combined_iff, List.mem_append, List.mem_cons, or_and_right, exists_or, exists_eq_left,
    hfails.not_knows, false_or]

/-- A failing member leaves nothing but types that are known and failures. -/
theorem combined_with_failing_eq_error (hfails : failing.Fails)
    (hunknown : ¬ (combined (before ++ failing :: after)).Knows type) :
    ∃ failure, (combined (before ++ failing :: after)).knows type = .error failure := by
  cases hknows : (combined (before ++ failing :: after)).knows type with
  | error failure => exact ⟨failure, rfl⟩
  | ok known =>
    cases known with
    | true => exact absurd hknows hunknown
    | false => exact absurd hknows (askAll_ne_false_of_fails hfails)

end JavaAtlas.Oracle

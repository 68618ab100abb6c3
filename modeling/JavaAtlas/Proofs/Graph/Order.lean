import JavaAtlas.Proofs.Graph.History

/-!
# Graphs of observations in another order

The same observations in another order give a graph with the same names and the same links. The roles of names are
the same but for one kind of name: if a package is first mentioned as a type that something depends on, its node is
made for an external type and stays one, since only a class changes the role of a node that is there. So a name has
the role that all the observations together call for, exactly if it is no such package.
-/

namespace JavaAtlas

namespace Graph

open Observation (packageOf)

variable {observations others : List Observation} {observation : Observation} {name : String}

/-- The role that some observations call for, in whatever order they were made: an analysed class, else the package
of one, else a type that something depends on. -/
def calledFor? (observations : List Observation) (name : String) : Option NodeRole :=
  if Analysed observations name then some .analysed
  else if Packages observations name then some .package
  else if Targets observations name then some .external
  else none

/-- A package that is taken for an external type: something depended on a type of its name before any of its classes
was analysed, and no class of its name ever was. -/
structure Mistaken (observations : List Observation) (name : String) : Prop where
  unanalysed : ¬ Analysed observations name
  targeted : ∃ before after, observations = before ++ after ∧
    Targets before name ∧ ¬ Packages before name ∧ Packages after name

theorem Mistaken.packages (h : Mistaken observations name) : Packages observations name := by
  obtain ⟨before, after, rfl, -, -, later, hmem, hpackage⟩ := h.targeted
  exact ⟨later, List.mem_append_right before hmem, hpackage⟩

/-! ### One observation in front of others -/

/-- The first observation that mentions the name decides what a package is taken for. -/
theorem mistaken_cons (hclass : observation.className ≠ name) : Mistaken (observation :: observations) name ↔
    packageOf observation.className ≠ name ∧
      (Mistaken observations name ∨
        name ∈ observation.targets.map Prod.fst ∧ ¬ Analysed observations name ∧ Packages observations name) := by
  constructor
  · rintro ⟨hunanalysed, before, after, hsplit, htargets, hfree, hpackages⟩
    rw [analysed_cons, not_or] at hunanalysed
    obtain ⟨rfl, -⟩ | ⟨before, rfl, rfl⟩ := List.cons_eq_append_iff.1 hsplit
    · obtain ⟨_, hnone, -⟩ := htargets
      exact absurd hnone List.not_mem_nil
    · rw [packages_cons, not_or] at hfree
      rw [targets_cons] at htargets
      refine ⟨hfree.1, ?_⟩
      obtain hhere | hbefore := htargets
      · obtain ⟨later, hmem, hlater⟩ := hpackages
        exact .inr ⟨hhere, hunanalysed.2, later, List.mem_append_right _ hmem, hlater⟩
      · exact .inl ⟨hunanalysed.2, before, after, rfl, hbefore, hfree.2, hpackages⟩
  · have hfirst : ¬ Analysed observations name → ¬ Analysed (observation :: observations) name :=
      fun h => analysed_cons.not.2 (not_or.2 ⟨hclass, h⟩)
    rintro ⟨hpackage, ⟨hunanalysed, before, after, rfl, htargets, hfree, hpackages⟩ | ⟨hhere, hunanalysed, hpackages⟩⟩
    · have hfree' := packages_cons.not.2 (not_or.2 ⟨hpackage, hfree⟩)
      exact ⟨hfirst hunanalysed, observation :: before, after, rfl, targets_cons.2 (.inr htargets), hfree', hpackages⟩
    · have hnone : ¬ Packages [] name := fun ⟨_, h, _⟩ => List.not_mem_nil h
      have hfree := packages_cons.not.2 (not_or.2 ⟨hpackage, hnone⟩)
      exact ⟨hfirst hunanalysed, [observation], observations, rfl, targets_cons.2 (.inl hhere), hfree, hpackages⟩

/-! ### Roles -/

/-- Where no class has the name, the first mention is the one that is called for, unless a package is mistaken. -/
theorem findSome?_mention?_eq_iff (hunanalysed : ¬ Analysed observations name) :
    (observations.findSome? fun observation => observation.mention? name) = calledFor? observations name ↔
      ¬ Mistaken observations name := by
  rw [calledFor?, if_neg hunanalysed]
  induction observations with
  | nil =>
    refine iff_of_true rfl ?_
    rintro ⟨-, before, after, hsplit, -, -, _, hmem, -⟩
    rw [(List.append_eq_nil_iff.1 hsplit.symm).2] at hmem
    exact List.not_mem_nil hmem
  | cons observation rest ih =>
    rw [analysed_cons, not_or] at hunanalysed
    obtain ⟨hclass, hunanalysed⟩ := hunanalysed
    specialize ih hunanalysed
    rw [List.findSome?_cons, Observation.mention?, if_neg hclass, mistaken_cons hclass]
    by_cases hpackage : packageOf observation.className = name
    · rw [if_pos hpackage, if_pos (packages_cons.2 (.inl hpackage))]
      exact iff_of_true rfl fun h => h.1 hpackage
    · rw [if_neg hpackage, if_congr (packages_cons.trans (or_iff_right hpackage)) rfl rfl, if_congr targets_cons rfl rfl]
      by_cases htarget : name ∈ observation.targets.map Prod.fst
      · rw [if_pos htarget]
        by_cases hlater : Packages rest name
        · rw [if_pos hlater]
          have hroles : some NodeRole.external ≠ some .package := by decide
          exact iff_of_false hroles fun h => h ⟨hpackage, .inr ⟨htarget, hunanalysed, hlater⟩⟩
        · rw [if_neg hlater, if_pos (.inl htarget)]
          refine iff_of_true rfl fun h => hlater ?_
          exact h.2.elim Mistaken.packages fun h => h.2.2
      · rw [if_neg htarget, if_congr (or_iff_right htarget) rfl rfl]
        refine ih.trans (not_congr ?_)
        rw [and_iff_right hpackage, or_iff_left fun h => htarget h.1]

/-- A name has the role that is called for, unless it is that of a mistaken package. -/
theorem role?_eq_calledFor?_iff :
    (ofObservations observations).role? name = calledFor? observations name ↔ ¬ Mistaken observations name := by
  rw [role?_ofObservations]
  by_cases hanalysed : Analysed observations name
  · rw [if_pos hanalysed, calledFor?, if_pos hanalysed]
    exact iff_of_true rfl fun h => h.unanalysed hanalysed
  · rw [if_neg hanalysed]
    exact findSome?_mention?_eq_iff hanalysed

/-! ### Another order -/

theorem calledFor?_eq_of_perm (h : observations.Perm others) (name : String) :
    calledFor? observations name = calledFor? others name := by
  have hmem : ∀ holds : Observation → Prop, (∃ observation ∈ observations, holds observation) ↔
      ∃ observation ∈ others, holds observation :=
    fun holds => exists_congr fun observation => and_congr_left fun _ => h.mem_iff
  exact if_congr (hmem _) rfl (if_congr (hmem _) rfl (if_congr (hmem _) rfl rfl))

theorem mem_names_ofObservations_iff : name ∈ (ofObservations observations).nodes.map GraphNode.name ↔
    ∃ observation ∈ observations, (observation.mention? name).isSome := by
  rw [(consistent_ofObservations observations).mem_names_iff, role?_ofObservations]
  split
  case isTrue hanalysed =>
    obtain ⟨observation, hmem, hclass⟩ := hanalysed
    refine iff_of_true rfl ⟨observation, hmem, ?_⟩
    rw [Observation.mention?, if_pos hclass]
    rfl
  case isFalse =>
    exact List.findSome?_isSome_iff

/-- **The order of the observations shows in the roles of mistaken packages only.** In any order they give a graph
with the same names and the same links, and in both of two orders a name has the role that the observations call
for exactly if in neither of them it is a mistaken package. -/
theorem graph_in_any_order (h : observations.Perm others) :
    (∀ name, name ∈ (ofObservations observations).nodes.map GraphNode.name ↔
      name ∈ (ofObservations others).nodes.map GraphNode.name) ∧
    (∀ source target label, (ofObservations observations).Links source target label ↔
      (ofObservations others).Links source target label) ∧
    (∀ name, ((ofObservations observations).role? name = calledFor? observations name ∧
        (ofObservations others).role? name = calledFor? observations name) ↔
      ¬ Mistaken observations name ∧ ¬ Mistaken others name) := by
  refine ⟨fun name => ?_, fun source target label => ?_, fun name => ?_⟩
  · rw [mem_names_ofObservations_iff, mem_names_ofObservations_iff]
    exact exists_congr fun observation => and_congr_left fun _ => h.mem_iff
  · rw [links_ofObservations_iff, links_ofObservations_iff]
    exact and_congr_right fun _ => exists_congr fun observation => and_congr_left fun _ => h.mem_iff
  · rw [role?_eq_calledFor?_iff, calledFor?_eq_of_perm h, role?_eq_calledFor?_iff]

/-- Two classes of the package `p`, around a class that depends on a type called `p`. -/
def aroundTarget : List Observation :=
  [⟨"p.B", [("A", none)]⟩, ⟨"A", [("p", none), ("q.C", some .field)]⟩, ⟨"p.D", []⟩]

/-- The classes of `aroundTarget` in another order, in which the package `p` comes first again. -/
def aheadOfTarget : List Observation :=
  [⟨"p.D", []⟩, ⟨"p.B", [("A", none)]⟩, ⟨"A", [("p", none), ("q.C", some .field)]⟩]

theorem aroundTarget_roles : aroundTarget.Perm aheadOfTarget ∧
    ¬ Mistaken aroundTarget "p" ∧ ¬ Mistaken aheadOfTarget "p" ∧
    (ofObservations aroundTarget).role? "p" = some .package ∧
    (ofObservations aheadOfTarget).role? "p" = some .package := by
  have hperm : aroundTarget.Perm aheadOfTarget := by decide
  have haround : ¬ Mistaken aroundTarget "p" := role?_eq_calledFor?_iff.1 (by decide)
  have hahead : ¬ Mistaken aheadOfTarget "p" := role?_eq_calledFor?_iff.1 (by decide)
  have hcalled : calledFor? aroundTarget "p" = some .package := by decide
  obtain ⟨-, -, hroles⟩ := graph_in_any_order hperm
  have hboth := (hroles "p").2 ⟨haround, hahead⟩
  rw [hcalled] at hboth
  exact ⟨hperm, haround, hahead, hboth⟩

/-- Two events in the two orders: the package `p` is a package only if a class of it comes before the class that
depends on a type called `p`. -/
theorem target_hides_package :
    [Event.mk "A" ["p"], Event.mk "p.B" []].Perm [Event.mk "p.B" [], Event.mk "A" ["p"]] ∧
    (ofEvents [Event.mk "A" ["p"], Event.mk "p.B" []]).role? "p" = some .external ∧
    (ofEvents [Event.mk "p.B" [], Event.mk "A" ["p"]]).role? "p" = some .package := by
  decide

end Graph

end JavaAtlas

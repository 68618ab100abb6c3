import Mathlib.Data.List.Dedup
import Mathlib.Data.List.Forall2
import Mathlib.Data.List.Induction
import JavaAtlas.Proofs.OrderedSet
import JavaAtlas.Report.Gathered

/-!
# One report has one text and one document

A report on a class is gathered in a set without an order of its own, yet what it shows does not depend on the
order. The sorting looks at all of a dependency but its source, and the dependencies of one report have one
source; so on them the sorting has no ties, and sorting what the set gives out yields the increasing list of its
members, which is the list that the report itself holds. Text and documents are made of this list, for a class
and for the packages and projects around it.
-/

namespace JavaAtlas

namespace Dependency

variable {a b : Dependency} {members : List Dependency}

/-- Some dependencies have one source. -/
def OneSource (dependencies : List Dependency) : Prop :=
  ∀ a ∈ dependencies, ∀ b ∈ dependencies, a.source = b.source

instance : Std.TransCmp compareShown := by
  unfold compareShown
  infer_instance

/-! ### The order has no ties among dependencies of one source -/

theorem compare_eq_then (a b : Dependency) :
    compare a b = (compareShown a b).then (compare a.source b.source) := by
  simp only [compare_def, compareKeys, compareShown, compareLex, compareOn, Ordering.then_assoc]

theorem compare_eq_compareShown (h : a.source = b.source) : compare a b = compareShown a b := by
  rw [compare_eq_then, h, Std.ReflOrd.compare_self, Ordering.then_eq]

theorem eq_of_compareShown (hsource : a.source = b.source) (h : compareShown a b = .eq) : a = b :=
  Std.LawfulEqOrd.eq_of_compare ((compare_eq_compareShown hsource).trans h)

/-- Sorted dependencies of one source are the increasing list of their set. -/
theorem shown_eq_toList (hnodup : members.Nodup) (hsource : OneSource members) :
    shown members = (OrderedSet.ofList members).toList := by
  have hmem : ∀ a, a ∈ members ↔ a ∈ (OrderedSet.ofList members).toList :=
    fun a => OrderedSet.mem_ofList.symm
  have hperm : (shown members).Perm (OrderedSet.ofList members).toList :=
    (List.mergeSort_perm members _).trans
      ((List.perm_ext_iff_of_nodup hnodup (OrderedSet.nodup_toList _)).2 hmem)
  have hshown : (shown members).Pairwise fun a b => (compareShown a b).isLE = true := by
    apply List.pairwise_mergeSort
    · intro a b c hab hbc
      exact Std.TransCmp.isLE_trans hab hbc
    · intro a b
      have hflip : compareShown b a = (compareShown a b).swap := Std.OrientedCmp.eq_swap
      rw [hflip]
      cases compareShown a b <;> rfl
  have hset : (OrderedSet.ofList members).toList.Pairwise fun a b => (compareShown a b).isLE = true := by
    apply (OrderedSet.ofList members).increasing.imp_of_mem
    intro a b ha hb hlt
    rw [compare_eq_compareShown (hsource a ((hmem a).2 ha) b ((hmem b).2 hb))] at hlt
    rw [hlt]
    rfl
  refine hperm.eq_of_pairwise ?_ hshown hset
  intro a b ha hb hab hba
  have hsame := hsource a (List.mem_mergeSort.1 ha) b ((hmem b).2 hb)
  exact eq_of_compareShown hsame (Std.OrientedCmp.isLE_antisymm hab hba)

/-- Sorted dependencies of one source strictly increase in what the sorting looks at. -/
theorem increasing_shown (hnodup : members.Nodup) (hsource : OneSource members) :
    (shown members).Pairwise fun a b => compareShown a b = .lt := by
  have hmem : ∀ {a}, a ∈ (OrderedSet.ofList members).toList → a ∈ members :=
    fun h => OrderedSet.mem_ofList.1 h
  rw [shown_eq_toList hnodup hsource]
  apply (OrderedSet.ofList members).increasing.imp_of_mem
  intro a b ha hb hlt
  rw [← compare_eq_compareShown (hsource a (hmem ha) b (hmem hb)), hlt]

end Dependency

open Dependency

section Beside

variable {α β : Type} {related : α → α → Prop} {xs ys : List α}

theorem map_eq_of_beside {f : α → β} (hsame : ∀ a b, related a b → f a = f b)
    (h : List.Forall₂ related xs ys) : xs.map f = ys.map f := by
  induction h with
  | nil => rfl
  | cons hab _ ih => rw [List.map_cons, List.map_cons, hsame _ _ hab, ih]

theorem forall_mem_of_beside {good : α → Prop} (hgood : ∀ a b, related a b → good a ∧ good b)
    (h : List.Forall₂ related xs ys) : (∀ a ∈ xs, good a) ∧ ∀ b ∈ ys, good b := by
  induction h with
  | nil => simp
  | cons hab _ ih =>
    obtain ⟨hleft, hright⟩ := hgood _ _ hab
    exact ⟨List.forall_mem_cons.2 ⟨hleft, ih.1⟩, List.forall_mem_cons.2 ⟨hright, ih.2⟩⟩

end Beside

/-! ### What gathering makes -/

namespace ClassReport

theorem foldl_add (added : List Dependency) (report : ClassReport) :
    added.foldl add report =
      ⟨report.className, added.foldl OrderedSet.insert report.dependencies⟩ := by
  induction added generalizing report with
  | nil => rfl
  | cons dependency rest ih => rw [List.foldl_cons, ih, List.foldl_cons, add]

theorem foldl_add_new (added : List Dependency) (className : String) :
    added.foldl add (.new className) = ⟨className, OrderedSet.ofList added⟩ := by
  rw [foldl_add, new, OrderedSet.ofList]

end ClassReport

namespace GatheredClass

variable {className : String} {added again : List Dependency} {gathered first second : GatheredClass}

theorem Gathers.className_eq (h : Gathers className added gathered) : gathered.className = className := by
  induction h with
  | new => rfl
  | add _ hadds ih => exact hadds.1.trans ih

theorem Gathers.mem_members_iff (h : Gathers className added gathered) (dependency : Dependency) :
    dependency ∈ gathered.members ↔ dependency ∈ added := by
  induction h with
  | new => rfl
  | add _ hadds ih => rw [hadds.2, ih, List.mem_append, List.mem_singleton, or_comm]

/-- The set holds what was added, however often, and may give it out in any order. -/
theorem gathers_iff : Gathers className added gathered ↔ gathered.className = className ∧
    ∀ dependency, dependency ∈ gathered.members ↔ dependency ∈ added := by
  constructor
  · intro h
    exact ⟨h.className_eq, h.mem_members_iff⟩
  · intro ⟨hname, hmem⟩
    induction added using List.reverseRecOn generalizing gathered with
    | nil =>
      obtain ⟨_, members, _⟩ := gathered
      obtain rfl : members = [] := List.eq_nil_iff_forall_not_mem.2 fun a ha => absurd ((hmem a).1 ha) (by simp)
      subst hname
      exact .new
    | append_singleton rest dependency ih =>
      -- Before the last addition the set may have held the others in any order.
      have hrest : Gathers className rest ⟨className, rest.dedup, List.nodup_dedup rest⟩ :=
        ih rfl fun other => List.mem_dedup
      refine .add hrest ⟨hname, fun other => ?_⟩
      rw [hmem, List.mem_append, List.mem_singleton, List.mem_dedup, or_comm]

theorem Gathers.oneSource (h : Gathers className added gathered) (hsource : OneSource added) :
    OneSource gathered.members := by
  intro a ha b hb
  exact hsource a ((h.mem_members_iff a).1 ha) b ((h.mem_members_iff b).1 hb)

/-- What is gathered is the report to which the same dependencies have been added. -/
theorem Gathers.report_eq (h : Gathers className added gathered) :
    gathered.report = added.foldl ClassReport.add (.new className) := by
  have hset : OrderedSet.ofList gathered.members = OrderedSet.ofList added := by
    apply OrderedSet.ofList_eq_iff.2
    intro dependency
    rw [h.mem_members_iff, OrderedSet.mem_ofList]
  rw [report, hset, h.className_eq, ClassReport.foldl_add_new]

theorem shown_eq (h : OneSource gathered.members) :
    gathered.shown = gathered.report.dependencies.toList :=
  shown_eq_toList gathered.nodup h

theorem text_eq (h : OneSource gathered.members) : gathered.text = gathered.report.text := by
  rw [text, shown_eq h]
  rfl

theorem listed_eq (h : OneSource gathered.members) : gathered.listed = .ofReport gathered.report := by
  rw [listed, shown_eq h]
  rfl

theorem length_members (h : OneSource gathered.members) :
    gathered.members.length = gathered.report.size := by
  rw [ClassReport.size, OrderedSet.size, ← shown_eq h]
  exact (List.length_mergeSort _).symm

/-- Two reports on a class are gathered from the same dependencies of one source, added in any order and any
number of times. -/
def Regathers (first second : GatheredClass) : Prop :=
  ∃ className added again, OneSource added ∧ (∀ dependency, dependency ∈ again ↔ dependency ∈ added) ∧
    Gathers className added first ∧ Gathers className again second

theorem oneSource_again (hsource : OneSource added)
    (hsame : ∀ dependency, dependency ∈ again ↔ dependency ∈ added) : OneSource again :=
  fun a ha b hb => hsource a ((hsame a).1 ha) b ((hsame b).1 hb)

theorem report_eq_of_gathers (hsame : ∀ dependency, dependency ∈ again ↔ dependency ∈ added)
    (hfirst : Gathers className added first) (hsecond : Gathers className again second) :
    first.report = second.report := by
  have hset : OrderedSet.ofList added = OrderedSet.ofList again := by
    apply OrderedSet.ofList_eq_iff.2
    intro dependency
    rw [OrderedSet.mem_ofList, hsame]
  rw [hfirst.report_eq, hsecond.report_eq, ClassReport.foldl_add_new, ClassReport.foldl_add_new, hset]

theorem Regathers.oneSource (h : Regathers first second) :
    OneSource first.members ∧ OneSource second.members := by
  obtain ⟨_, added, again, hsource, hsame, hfirst, hsecond⟩ := h
  exact ⟨hfirst.oneSource hsource, hsecond.oneSource (oneSource_again hsource hsame)⟩

theorem Regathers.report_eq (h : Regathers first second) : first.report = second.report := by
  obtain ⟨_, added, again, -, hsame, hfirst, hsecond⟩ := h
  exact report_eq_of_gathers hsame hfirst hsecond

end GatheredClass

namespace GatheredPackage

variable {gathered first second : GatheredPackage}

def SingleSourced (gathered : GatheredPackage) : Prop :=
  ∀ entry ∈ gathered.classes, OneSource entry.members

theorem text_eq (h : gathered.SingleSourced) : gathered.text = gathered.report.text := by
  rw [text, PackageReport.text, report, List.map_map,
    List.map_congr_left fun entry hentry => GatheredClass.text_eq (h entry hentry)]
  rfl

theorem listed_eq (h : gathered.SingleSourced) : gathered.listed = .ofReport gathered.report := by
  rw [listed, Json.ListedPackage.ofReport, report, List.map_map,
    List.map_congr_left fun entry hentry => GatheredClass.listed_eq (h entry hentry)]
  rfl

theorem dependencyCount_eq (h : gathered.SingleSourced) :
    gathered.dependencyCount = gathered.report.dependencyCount := by
  rw [dependencyCount, PackageReport.dependencyCount, report, List.map_map,
    List.map_congr_left fun entry hentry => GatheredClass.length_members (h entry hentry)]
  rfl

/-- Two reports on a package have the same name and are gathered class by class from the same dependencies. -/
def Regathers (first second : GatheredPackage) : Prop :=
  first.packageName = second.packageName ∧
    List.Forall₂ GatheredClass.Regathers first.classes second.classes

theorem Regathers.singleSourced (h : Regathers first second) :
    first.SingleSourced ∧ second.SingleSourced :=
  forall_mem_of_beside (fun _ _ => GatheredClass.Regathers.oneSource) h.2

theorem Regathers.report_eq (h : Regathers first second) : first.report = second.report := by
  have hclasses : first.classes.map GatheredClass.report = second.classes.map GatheredClass.report :=
    map_eq_of_beside (fun _ _ => GatheredClass.Regathers.report_eq) h.2
  rw [report, report, h.1, hclasses]

end GatheredPackage

namespace GatheredProject

variable {gathered first second : GatheredProject}

def SingleSourced (gathered : GatheredProject) : Prop :=
  ∀ package ∈ gathered.packages, package.SingleSourced

theorem text_eq (h : gathered.SingleSourced) : gathered.text = gathered.report.text := by
  rw [text, ProjectReport.text, report, List.map_map,
    List.map_congr_left fun package hpackage => GatheredPackage.text_eq (h package hpackage)]
  rfl

theorem listed_eq (h : gathered.SingleSourced) : gathered.listed = .ofReport gathered.report := by
  have hlisted := List.map_congr_left fun package hpackage => GatheredPackage.listed_eq (h package hpackage)
  have hcount := List.map_congr_left fun package hpackage =>
    GatheredPackage.dependencyCount_eq (h package hpackage)
  rw [listed, hlisted, hcount, Json.ListedProject.ofReport, ProjectReport.dependencyCount, report,
    List.map_map, List.map_map]
  rfl

/-- Two reports on a project have the same name and are gathered package by package from the same
dependencies. -/
def Regathers (first second : GatheredProject) : Prop :=
  first.projectName = second.projectName ∧
    List.Forall₂ GatheredPackage.Regathers first.packages second.packages

theorem Regathers.singleSourced (h : Regathers first second) :
    first.SingleSourced ∧ second.SingleSourced :=
  forall_mem_of_beside (fun _ _ => GatheredPackage.Regathers.singleSourced) h.2

theorem Regathers.report_eq (h : Regathers first second) : first.report = second.report := by
  have hpackages : first.packages.map GatheredPackage.report = second.packages.map GatheredPackage.report :=
    map_eq_of_beside (fun _ _ => GatheredPackage.Regathers.report_eq) h.2
  rw [report, report, h.1, hpackages]

end GatheredProject

/-! ### What reports show -/

/-- **What a report shows does not depend on how it was gathered.** Two reports on a class that were gathered from
the same dependencies of one source show them in the same order, strictly increasing in kind, target, line and
snippet, and with the same text and document: those of the report that has had the dependencies added. Packages
and projects that hold such reports have the same texts and documents too. -/
theorem shown_canonical :
    (∀ {className : String} {added again : List Dependency} {first second : GatheredClass},
      OneSource added → (∀ dependency, dependency ∈ again ↔ dependency ∈ added) →
      GatheredClass.Gathers className added first → GatheredClass.Gathers className again second →
      first.shown = second.shown ∧ first.shown.Pairwise (fun a b => compareShown a b = .lt) ∧
      first.text = second.text ∧ first.listed = second.listed ∧
      first.listed.document = second.listed.document ∧
      let report := added.foldl ClassReport.add (.new className)
      first.shown = report.dependencies.toList ∧ first.text = report.text ∧
      first.listed.document = Json.classDocument report) ∧
    (∀ {first second : GatheredPackage}, first.Regathers second →
      first.text = second.text ∧ first.listed = second.listed ∧
      first.listed.document = second.listed.document ∧ first.text = first.report.text ∧
      first.listed.document = Json.packageDocument first.report) ∧
    (∀ {first second : GatheredProject}, first.Regathers second →
      first.text = second.text ∧ first.listed = second.listed ∧
      first.listed.document = second.listed.document ∧ first.text = first.report.text ∧
      first.listed.document = Json.projectDocument first.report) := by
  refine ⟨?_, ?_, ?_⟩
  · intro className added again first second hsource hsame hfirst hsecond
    have hone := hfirst.oneSource hsource
    have hother := hsecond.oneSource (GatheredClass.oneSource_again hsource hsame)
    have hreports := GatheredClass.report_eq_of_gathers hsame hfirst hsecond
    have hlisted : first.listed = second.listed := by
      rw [GatheredClass.listed_eq hone, GatheredClass.listed_eq hother, hreports]
    refine ⟨?_, increasing_shown first.nodup hone, ?_, hlisted, congrArg _ hlisted, ?_⟩
    · rw [GatheredClass.shown_eq hone, GatheredClass.shown_eq hother, hreports]
    · rw [GatheredClass.text_eq hone, GatheredClass.text_eq hother, hreports]
    · rw [← hfirst.report_eq]
      exact ⟨GatheredClass.shown_eq hone, GatheredClass.text_eq hone,
        congrArg _ (GatheredClass.listed_eq hone)⟩
  · intro first second h
    obtain ⟨hone, hother⟩ := h.singleSourced
    have hlisted : first.listed = second.listed := by
      rw [GatheredPackage.listed_eq hone, GatheredPackage.listed_eq hother, h.report_eq]
    refine ⟨?_, hlisted, congrArg _ hlisted, GatheredPackage.text_eq hone,
      congrArg _ (GatheredPackage.listed_eq hone)⟩
    rw [GatheredPackage.text_eq hone, GatheredPackage.text_eq hother, h.report_eq]
  · intro first second h
    obtain ⟨hone, hother⟩ := h.singleSourced
    have hlisted : first.listed = second.listed := by
      rw [GatheredProject.listed_eq hone, GatheredProject.listed_eq hother, h.report_eq]
    refine ⟨?_, hlisted, congrArg _ hlisted, GatheredProject.text_eq hone,
      congrArg _ (GatheredProject.listed_eq hone)⟩
    rw [GatheredProject.text_eq hone, GatheredProject.text_eq hother, h.report_eq]

/-! ### One report gathered in two ways -/

def importOfList : Dependency :=
  ⟨"p.A", "q.List", .imported, "import q.List;", 2⟩

def fieldOfList : Dependency :=
  ⟨"p.A", "q.List", .field, "field List", 4⟩

def laterFieldOfList : Dependency :=
  ⟨"p.A", "q.List", .field, "field List", 9⟩

/-- What a walk through the class from its first line adds. -/
def walkedDependencies : List Dependency :=
  [importOfList, fieldOfList, laterFieldOfList]

/-- The same dependencies from the last one on, two of them twice. -/
def repeatedDependencies : List Dependency :=
  [laterFieldOfList, fieldOfList, importOfList, fieldOfList, laterFieldOfList]

def walkedClass : GatheredClass :=
  ⟨"p.A", [fieldOfList, importOfList, laterFieldOfList], by decide⟩

def repeatedClass : GatheredClass :=
  ⟨"p.A", [laterFieldOfList, fieldOfList, importOfList], by decide⟩

def walkedPackage : GatheredPackage := ⟨"p", [walkedClass]⟩

def repeatedPackage : GatheredPackage := ⟨"p", [repeatedClass]⟩

theorem oneSource_walkedDependencies : OneSource walkedDependencies := by
  intro a ha b hb
  have hsource : ∀ c ∈ walkedDependencies, c.source = "p.A" := by decide
  rw [hsource a ha, hsource b hb]

theorem mem_repeatedDependencies_iff (dependency : Dependency) :
    dependency ∈ repeatedDependencies ↔ dependency ∈ walkedDependencies := by
  simp only [repeatedDependencies, walkedDependencies, List.mem_cons, List.not_mem_nil, or_false]
  tauto

theorem gathers_walkedClass : GatheredClass.Gathers "p.A" walkedDependencies walkedClass := by
  refine GatheredClass.gathers_iff.2 ⟨rfl, fun dependency => ?_⟩
  simp only [walkedClass, walkedDependencies, List.mem_cons, List.not_mem_nil, or_false]
  tauto

theorem gathers_repeatedClass : GatheredClass.Gathers "p.A" repeatedDependencies repeatedClass := by
  refine GatheredClass.gathers_iff.2 ⟨rfl, fun dependency => ?_⟩
  simp only [repeatedClass, repeatedDependencies, List.mem_cons, List.not_mem_nil, or_false]
  tauto

def walkedProject : GatheredProject := ⟨"atlas", [walkedPackage]⟩

def repeatedProject : GatheredProject := ⟨"atlas", [repeatedPackage]⟩

theorem regathers_walkedPackage : walkedPackage.Regathers repeatedPackage :=
  ⟨rfl, .cons ⟨"p.A", walkedDependencies, repeatedDependencies, oneSource_walkedDependencies,
    mem_repeatedDependencies_iff, gathers_walkedClass, gathers_repeatedClass⟩ .nil⟩

theorem regathers_walkedProject : walkedProject.Regathers repeatedProject :=
  ⟨rfl, .cons regathers_walkedPackage .nil⟩

theorem walkedClass_shown :
    walkedClass.members ≠ repeatedClass.members ∧ walkedClass.shown = repeatedClass.shown ∧
    walkedPackage.Regathers repeatedPackage ∧ walkedPackage.text = repeatedPackage.text ∧
    walkedProject.Regathers repeatedProject ∧ walkedProject.text = repeatedProject.text := by
  obtain ⟨hclass, hpackage, hproject⟩ := shown_canonical
  refine ⟨by decide, ?_, regathers_walkedPackage, ?_, regathers_walkedProject, ?_⟩
  · exact (hclass oneSource_walkedDependencies mem_repeatedDependencies_iff gathers_walkedClass
      gathers_repeatedClass).1
  · exact (hpackage regathers_walkedPackage).1
  · exact (hproject regathers_walkedProject).1

end JavaAtlas

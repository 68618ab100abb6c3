import JavaAtlas.OrderedSet

/-!
# Members of ordered sets

What an ordered set that is made of a list has as members, and that its members make out the set.
-/

namespace JavaAtlas

namespace OrderedSet

variable {α : Type} [Ord α] [Std.TransOrd α] [Std.LawfulEqOrd α] {a : α} {set other : OrderedSet α}

omit [Std.TransOrd α] in
theorem contains_iff : set.contains a = true ↔ a ∈ set := by
  simp only [contains, List.any_eq_true, beq_iff_eq, Std.LawfulEqOrd.compare_eq_iff_eq, mem_def]
  constructor
  · intro h
    obtain ⟨_, hmem, rfl⟩ := h
    exact hmem
  · intro h
    exact ⟨a, h, rfl⟩

theorem mem_foldl_insert {members : List α} :
    a ∈ members.foldl insert set ↔ a ∈ members ∨ a ∈ set := by
  induction members generalizing set with
  | nil => simp
  | cons b rest ih =>
    rw [List.foldl_cons, ih, mem_insert, List.mem_cons]
    exact or_left_comm.trans or_assoc.symm

theorem mem_ofList {members : List α} : a ∈ ofList members ↔ a ∈ members := by
  rw [ofList, mem_foldl_insert]
  exact or_iff_left not_mem_empty

/-! ### One list for a set -/

omit [Std.TransOrd α] in
theorem nodup_toList (set : OrderedSet α) : set.toList.Nodup := by
  apply set.increasing.imp
  intro a b hlt heq
  subst heq
  exact absurd (hlt.symm.trans Std.ReflOrd.compare_self) (by decide)

/-- **Sets with the same members are equal.** -/
theorem eq_of_mem_iff (h : ∀ a, a ∈ set ↔ a ∈ other) : set = other := by
  have hperm : set.toList.Perm other.toList :=
    (List.perm_ext_iff_of_nodup set.nodup_toList other.nodup_toList).2 h
  have hlists : set.toList = other.toList := by
    apply hperm.eq_of_pairwise _ set.increasing other.increasing
    intro a b _ _ hlt hgt
    exact absurd (hlt.symm.trans (Std.OrientedCmp.gt_iff_lt.2 hgt)) (by decide)
  cases set
  cases other
  cases hlists
  rfl

/-- A set whose members are images of those of another, in the same order, has the image of its list. -/
theorem toList_eq_map {g : α → α} (horder : ∀ a ∈ set, ∀ b ∈ set, compare a b = .lt → compare (g a) (g b) = .lt)
    (hmem : ∀ a, a ∈ other ↔ ∃ b ∈ set, a = g b) : other.toList = set.toList.map g := by
  have hincreasing : (set.toList.map g).Pairwise fun a b => compare a b = .lt := by
    rw [List.pairwise_map]
    refine set.increasing.imp_of_mem ?_
    exact fun ha hb hless => horder _ ha _ hb hless
  have hsame : other = ⟨set.toList.map g, hincreasing⟩ := by
    apply eq_of_mem_iff
    intro a
    rw [hmem, mem_def, List.mem_map]
    exact exists_congr fun b => and_congr_right fun _ => eq_comm
  rw [hsame]

theorem ofList_eq_iff {members : List α} : ofList members = set ↔ ∀ a, a ∈ members ↔ a ∈ set := by
  constructor
  · intro h a
    rw [← h, mem_ofList]
  · intro h
    apply eq_of_mem_iff
    intro a
    rw [mem_ofList, h]

end OrderedSet

end JavaAtlas

/-!
# Ordered sets

Finite sets held as strictly increasing lists. A set has one such list, so sets with the same members are
equal, however they were put together, and showing a set in order is showing its list.
-/

namespace JavaAtlas

/-- A finite set over an ordered type, as the strictly increasing list of its members. -/
structure OrderedSet (α : Type) [Ord α] where
  toList : List α
  increasing : toList.Pairwise fun a b => compare a b = .lt
deriving DecidableEq

namespace OrderedSet

variable {α : Type} [Ord α]

instance : Membership α (OrderedSet α) := ⟨fun set a => a ∈ set.toList⟩

theorem mem_def {set : OrderedSet α} {a : α} : a ∈ set ↔ a ∈ set.toList := Iff.rfl

/-- The place of a value in an increasing list: before the first larger member; nowhere if it is there. -/
def insertInto (a : α) : List α → List α
  | [] => [a]
  | b :: rest =>
    match compare a b with
    | .lt => a :: b :: rest
    | .eq => b :: rest
    | .gt => b :: insertInto a rest

theorem mem_insertInto {a x : α} {members : List α} (h : x ∈ insertInto a members) :
    x = a ∨ x ∈ members := by
  induction members with
  | nil => simpa [insertInto] using h
  | cons b rest ih =>
    rw [insertInto] at h
    split at h
    · simpa using h
    · exact Or.inr h
    · rcases List.mem_cons.1 h with rfl | h
      · exact Or.inr List.mem_cons_self
      · exact (ih h).imp_right (List.mem_cons_of_mem b)

/-- What an insertion leaves in an increasing list: the new value and all that was there. -/
theorem mem_insertInto_iff [Std.LawfulEqOrd α] {a x : α} {members : List α} :
    x ∈ insertInto a members ↔ x = a ∨ x ∈ members := by
  refine ⟨mem_insertInto, ?_⟩
  induction members with
  | nil => simp [insertInto]
  | cons b rest ih =>
    intro h
    rw [insertInto]
    split
    · simpa using h
    · next same =>
      have heq : a = b := Std.LawfulEqOrd.eq_of_compare same
      rcases h with rfl | h
      · exact heq ▸ List.mem_cons_self
      · exact h
    · rcases h with rfl | h
      · exact List.mem_cons_of_mem b (ih (Or.inl rfl))
      · rcases List.mem_cons.1 h with rfl | h
        · exact List.mem_cons_self
        · exact List.mem_cons_of_mem b (ih (Or.inr h))

variable [Std.TransOrd α]

theorem increasing_insertInto (a : α) {members : List α}
    (h : members.Pairwise fun x y => compare x y = .lt) :
    (insertInto a members).Pairwise fun x y => compare x y = .lt := by
  induction members with
  | nil => simp [insertInto]
  | cons b rest ih =>
    obtain ⟨above, increasing⟩ := List.pairwise_cons.1 h
    rw [insertInto]
    split
    · next before =>
      refine List.pairwise_cons.2 ⟨fun x hx => ?_, h⟩
      rcases List.mem_cons.1 hx with rfl | hx
      · exact before
      · exact Std.TransCmp.lt_trans before (above x hx)
    · exact h
    · next after =>
      refine List.pairwise_cons.2 ⟨fun x hx => ?_, ih increasing⟩
      rcases mem_insertInto hx with rfl | hx
      · exact Std.OrientedCmp.gt_iff_lt.1 after
      · exact above x hx

def empty : OrderedSet α :=
  ⟨[], List.Pairwise.nil⟩

instance : Inhabited (OrderedSet α) := ⟨empty⟩

omit [Std.TransOrd α] in
@[simp] theorem not_mem_empty {a : α} : ¬ a ∈ (empty : OrderedSet α) := by
  simp [mem_def, empty]

/-- A set with one more member, which may be in it already. -/
def insert (set : OrderedSet α) (a : α) : OrderedSet α :=
  ⟨insertInto a set.toList, increasing_insertInto a set.increasing⟩

@[simp] theorem mem_insert [Std.LawfulEqOrd α] {set : OrderedSet α} {a x : α} :
    x ∈ set.insert a ↔ x = a ∨ x ∈ set :=
  mem_insertInto_iff

def ofList (members : List α) : OrderedSet α :=
  members.foldl insert empty

def size (set : OrderedSet α) : Nat :=
  set.toList.length

def contains (set : OrderedSet α) (a : α) : Bool :=
  set.toList.any fun b => compare a b == .eq

end OrderedSet

end JavaAtlas

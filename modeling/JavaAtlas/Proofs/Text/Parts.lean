/-!
# Parts and what ends them

A text that is put together from parts, each ended by one mark that stands in none of them, falls into these parts
again where it is cut at the mark.
-/

namespace JavaAtlas.Text

variable {α : Type} [BEq α] [LawfulBEq α] {mark : α}

/-- Parts that are each ended by a mark are found again by cutting at the mark, before whatever follows them. -/
theorem splitOn_ended {parts : List (List α)} (h : ∀ part ∈ parts, mark ∉ part) (rest : List α) :
    (parts.flatMap (fun part => part ++ [mark]) ++ rest).splitOn mark = parts ++ rest.splitOn mark := by
  induction parts with
  | nil => rfl
  | cons part parts ih =>
    obtain ⟨hpart, hparts⟩ := List.forall_mem_cons.1 h
    rw [List.flatMap_cons, List.append_assoc, List.append_assoc, List.singleton_append,
      List.splitOn_append_cons_self_of_not_mem hpart, ih hparts, List.cons_append]

end JavaAtlas.Text

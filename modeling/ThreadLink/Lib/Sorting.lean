import Mathlib.Data.List.Sort

/-!
# Sorting what grows

A list is sorted by a key that several elements may have in common. Since the sort is stable,
what is added to the list does not change the order of what was in it.

## What is here

* `mergeSort_cons` — the sort inserts one element after the other.
* `mergeSort_sublist` — a list that is part of another is, when both are sorted, part of it still.
* `filter_mergeSort` — what is picked out of a sorted list is what is picked out, sorted.
-/

namespace ThreadLink.Sorting

universe u

variable {α : Type u} {le : α → α → Bool} {l l' l₁ l₂ : List α}

/-- An element is inserted behind those that it is not below. -/
theorem orderedInsert_append {a : α} (h₁ : ∀ b ∈ l₁, ¬ le a b) (h₂ : ∀ b ∈ l₂, le a b) :
    (l₁ ++ l₂).orderedInsert (fun a b => le a b) a = l₁ ++ a :: l₂ := by
  induction l₁ with
  | nil =>
    cases l₂ with
    | nil => rfl
    | cons b l₂ => exact List.orderedInsert_cons_of_le _ _ (h₂ b List.mem_cons_self)
  | cons b l₁ ih =>
    rw [List.cons_append, List.orderedInsert_cons, if_neg (h₁ b List.mem_cons_self),
      ih fun c hc => h₁ c (List.mem_cons_of_mem b hc)]
    rfl

section

variable (htrans : ∀ a b c, le a b → le b c → le a c) (htotal : ∀ a b, le a b || le b a)

include htrans htotal

/-- **The sort inserts** one element after the other. -/
theorem mergeSort_cons (a : α) (l : List α) :
    (a :: l).mergeSort le = (l.mergeSort le).orderedInsert (fun a b => le a b) a := by
  obtain ⟨l₁, l₂, he, he', h₁⟩ := List.mergeSort_cons htrans htotal a l
  have hp := List.pairwise_mergeSort htrans htotal (a :: l)
  rw [he] at hp
  rw [he, he', orderedInsert_append]
  · intro b hb
    simpa using h₁ b hb
  · exact (List.pairwise_cons.mp (List.pairwise_append.mp hp).2.1).1

/-- **What is added does not change the order** of what was there. -/
theorem mergeSort_sublist (h : l.Sublist l') : (l.mergeSort le).Sublist (l'.mergeSort le) := by
  have : IsTrans α fun a b => le a b := ⟨fun a b c => htrans a b c⟩
  induction h with
  | slnil => exact List.Sublist.refl _
  | cons a _ ih =>
    rw [mergeSort_cons htrans htotal]
    exact ih.trans (List.sublist_orderedInsert ..)
  | cons_cons a _ ih =>
    rw [mergeSort_cons htrans htotal, mergeSort_cons htrans htotal]
    exact List.Sublist.orderedInsert_sublist a ih (List.pairwise_mergeSort htrans htotal _)

/-- **Picking and sorting** may be done in either order. -/
theorem filter_mergeSort (p : α → Bool) (l : List α) :
    (l.mergeSort le).filter p = (l.filter p).mergeSort le := by
  have hs := (mergeSort_sublist htrans htotal (List.filter_sublist (p := p) (l := l))).filter p
  have hall : ((l.filter p).mergeSort le).filter p = (l.filter p).mergeSort le :=
    List.filter_eq_self.mpr fun a ha => (List.mem_filter.mp (List.mem_mergeSort.mp ha)).2
  rw [hall] at hs
  refine (hs.eq_of_length ?_).symm
  rw [List.length_mergeSort, ((List.mergeSort_perm l le).filter p).length_eq]

end

end ThreadLink.Sorting

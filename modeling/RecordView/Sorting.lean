/-!
# Stable sorting

`stableSort` is an insertion sort: every item goes after the last earlier item that it does not come
before.  Items that compare equal keep their order.
-/

namespace RecordView

section Sorting

variable {α : Type}

/-- Inserts an item into a sorted list that is given last item first. -/
def insertReversed (cmp : α → α → Ordering) (x : α) : List α → List α
  | [] => [x]
  | y :: ys => if cmp x y = .lt then y :: insertReversed cmp x ys else x :: y :: ys

/-- The items in order, equal ones as they were. -/
def stableSort (cmp : α → α → Ordering) (items : List α) : List α :=
  (items.foldl (fun sorted x => insertReversed cmp x sorted) []).reverse

theorem insertReversed_perm (cmp : α → α → Ordering) (x : α) (ys : List α) :
    (insertReversed cmp x ys).Perm (x :: ys) := by
  induction ys with
  | nil => simp [insertReversed]
  | cons y ys ih =>
    rw [insertReversed]
    split
    · exact (ih.cons y).trans (.swap x y ys)
    · exact .refl _

theorem foldl_insertReversed_perm (cmp : α → α → Ordering) (items sorted : List α) :
    (items.foldl (fun acc x => insertReversed cmp x acc) sorted).Perm (items ++ sorted) := by
  induction items generalizing sorted with
  | nil => simp
  | cons x items ih =>
    refine (ih _).trans ?_
    refine ((insertReversed_perm cmp x sorted).append_left items).trans ?_
    simp

/-- Sorting loses and adds nothing. -/
theorem stableSort_perm (cmp : α → α → Ordering) (items : List α) :
    (stableSort cmp items).Perm items := by
  refine (List.reverse_perm _).trans ?_
  simpa using foldl_insertReversed_perm cmp items []

end Sorting

end RecordView

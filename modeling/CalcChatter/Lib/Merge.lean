import Mathlib.Data.List.Basic

/-!
# Merging lists, and taking one element out of a part of a list

`Merge xs ys zs` says that `zs` has the elements of `xs` and `ys`, each in their order. A list is
a merge of its elements that satisfy `p` and the others (`merge_filter`).

The elements that satisfy `p` are a queue inside a list. Removing one element of the list leaves a part
of the queue: all of it if the element is not in it (`filter_eraseIdx_of_false`), and all but the front
if nothing before the element satisfies `p` (`filter_eraseIdx_first`).
-/

namespace Merging

variable {α β : Type} {p : α → Bool}

inductive Merge : List α → List α → List α → Prop where
  | nil : Merge [] [] []
  | left {x xs ys zs} : Merge xs ys zs → Merge (x :: xs) ys (x :: zs)
  | right {y xs ys zs} : Merge xs ys zs → Merge xs (y :: ys) (y :: zs)

theorem Merge.map (f : α → β) {xs ys zs : List α} (h : Merge xs ys zs) :
    Merge (xs.map f) (ys.map f) (zs.map f) := by
  induction h with
  | nil => exact .nil
  | left _ ih => exact .left ih
  | right _ ih => exact .right ih

theorem merge_filter (p : α → Bool) : ∀ l : List α, Merge (l.filter p) (l.filter (!p ·)) l
  | [] => .nil
  | x :: l => by
    have ih := merge_filter p l
    cases hx : p x with
    | true => simpa [hx] using ih.left
    | false => simpa [hx] using ih.right

/-! ## A queue inside a list -/

theorem filter_eraseIdx_sublist (p : α → Bool) (l : List α) (i : Nat) :
    ((l.eraseIdx i).filter p).Sublist (l.filter p) := (List.eraseIdx_sublist l i).filter p

theorem filter_eraseIdx_of_false : ∀ {l : List α} {i : Nat} {x : α}, l[i]? = some x → p x = false →
    (l.eraseIdx i).filter p = l.filter p
  | y :: l, 0, x, hx, hp => by
    obtain rfl : y = x := by simpa using hx
    rw [List.eraseIdx_cons_zero, List.filter_cons_of_neg (by simp [hp])]
  | y :: l, i + 1, x, hx, hp => by
    have ih := filter_eraseIdx_of_false (l := l) (by simpa using hx) hp
    rw [List.eraseIdx_cons_succ, List.filter_cons, List.filter_cons, ih]

theorem filter_eraseIdx_first : ∀ {l : List α} {i : Nat} {x : α}, l[i]? = some x → p x = true →
    (∀ y ∈ l.take i, p y = false) → l.filter p = x :: (l.eraseIdx i).filter p
  | y :: l, 0, x, hx, hp, _ => by
    obtain rfl : y = x := by simpa using hx
    rw [List.eraseIdx_cons_zero, List.filter_cons_of_pos hp]
  | y :: l, i + 1, x, hx, hp, hfirst => by
    simp only [List.take_succ_cons, List.forall_mem_cons] at hfirst
    have ih := filter_eraseIdx_first (l := l) (by simpa using hx) hp hfirst.2
    rw [List.eraseIdx_cons_succ, List.filter_cons_of_neg (by simp [hfirst.1]), List.filter_cons_of_neg (by simp [hfirst.1]),
      ih]

end Merging

import Mathlib.Algebra.Order.BigOperators.Group.Multiset
import Mathlib.Algebra.Order.Group.Nat
import Mathlib.Algebra.Order.Sub.Basic
import Mathlib.Data.Multiset.OrderedMonoid

/-!
# Bags under a map that makes every element larger

Two bags `A` and `B` whose elements are exchanged through a map `f` that makes every element larger:
`A + f B = B + f A` holds only if `A = B` already, and `f A = A` only if `A` is empty.
-/

namespace Bags

variable {α : Type} {f : α → α} {size : α → Nat}

theorem map_eq_self_iff (hf : ∀ a, size a < size (f a)) {A : Multiset α} : A.map f = A ↔ A = 0 := by
  constructor
  · intro h
    by_contra hA
    have hlt : (A.map size).sum < (A.map (size ∘ f)).sum :=
      Multiset.sum_lt_sum_of_nonempty hA fun a _ => hf a
    rw [← Multiset.map_map, h] at hlt
    exact lt_irrefl _ hlt
  · rintro rfl; rfl

theorem le_of_exchange [DecidableEq α] (hf : ∀ a, size a < size (f a)) {A B : Multiset α}
    (h : A + B.map f = B + A.map f) : A ≤ B := by
  -- without the common part, the elements of `A` alone are their own image
  have hsplit : A - B + (B - A).map f = B - A + (A - B).map f := by
    have hA : A - B + A ∩ B = A := Multiset.sub_add_inter A B
    have hB : B - A + A ∩ B = B := by rw [Multiset.inter_comm]; exact Multiset.sub_add_inter B A
    have hmapA : (A - B).map f + (A ∩ B).map f = A.map f := by rw [← Multiset.map_add, hA]
    have hmapB : (B - A).map f + (A ∩ B).map f = B.map f := by rw [← Multiset.map_add, hB]
    apply add_right_cancel (b := A ∩ B + (A ∩ B).map f)
    calc A - B + (B - A).map f + (A ∩ B + (A ∩ B).map f)
        = (A - B + A ∩ B) + ((B - A).map f + (A ∩ B).map f) := add_add_add_comm ..
      _ = (B - A + A ∩ B) + ((A - B).map f + (A ∩ B).map f) := by rw [hA, hmapB, h, hB, hmapA]
      _ = B - A + (A - B).map f + (A ∩ B + (A ∩ B).map f) := (add_add_add_comm ..).symm
  have hle : A - B ≤ (A - B).map f := by
    rw [Multiset.le_iff_count]
    intro a
    have hcount := congrArg (Multiset.count a) hsplit
    simp only [Multiset.count_add, Multiset.count_sub] at hcount ⊢
    omega
  have heq : A - B = (A - B).map f := Multiset.eq_of_le_of_card_le hle (by simp)
  exact tsub_eq_zero_iff_le.1 ((map_eq_self_iff hf).1 heq.symm)

theorem exchange_iff [DecidableEq α] (hf : ∀ a, size a < size (f a)) {A B : Multiset α} :
    A + B.map f = B + A.map f ↔ A = B :=
  ⟨fun h => le_antisymm (le_of_exchange hf h) (le_of_exchange hf h.symm), by rintro rfl; rfl⟩

end Bags

import Mathlib.Data.List.Basic
import Mathlib.Data.List.Induction

/-!
# Cutting a list at the elements of a class

Facts about `List.splitOnP`, which cuts at every element satisfying `p` and keeps empty pieces:
its first piece read off `findIdx?` (the form a scanning cursor produces it in), the number of
pieces, the room they take, and `weave`, which puts the separators back. `splitOnP_unique` says that these determine it,
and `part_around` that a separator-free part of the list is in one piece.
-/

namespace Cut

variable {α : Type} {p : α → Bool}

theorem splitOnP_of_findIdx?_none {l : List α} (h : l.findIdx? p = none) : l.splitOnP p = [l] :=
  List.splitOnP_eq_singleton (by simpa using h)

theorem splitOnP_of_findIdx?_some {l : List α} {i : Nat} (h : l.findIdx? p = some i) :
    l.splitOnP p = l.take i :: (l.drop (i + 1)).splitOnP p := by
  obtain ⟨hi, hp, hlt⟩ := List.findIdx?_eq_some_iff_getElem.1 h
  have hl : l = l.take i ++ l[i] :: l.drop (i + 1) := by rw [← List.drop_eq_getElem_cons hi, List.take_append_drop]
  conv => lhs; rw [hl]
  apply List.splitOnP_append_cons_of_forall_mem _ _ hp
  intro x hx
  obtain ⟨j, hj, rfl⟩ := List.mem_take_iff_getElem.1 hx
  simpa using hlt j (by omega)

/-- Only the elements of the list decide where it is cut. -/
theorem splitOnP_congr {q : α → Bool} {l : List α} (h : ∀ x ∈ l, p x = q x) : l.splitOnP p = l.splitOnP q := by
  induction l with
  | nil => rfl
  | cons a l ih =>
    rw [List.forall_mem_cons] at h
    rw [List.splitOnP_cons_eq_if_modifyHead, List.splitOnP_cons_eq_if_modifyHead, h.1, ih h.2]

theorem length_splitOnP (l : List α) : (l.splitOnP p).length = l.countP p + 1 := by
  induction l with
  | nil => simp
  | cons a l ih =>
    rw [List.splitOnP_cons_eq_if_modifyHead, List.countP_cons]
    split <;> simp_all

/-- The room that pieces take in a list, each with one separator. -/
def room : List (List α) → Nat
  | [] => 0
  | t :: ts => t.length + 1 + room ts

@[simp] theorem room_nil : room ([] : List (List α)) = 0 := rfl

@[simp] theorem room_cons (t : List α) (ts : List (List α)) : room (t :: ts) = t.length + 1 + room ts := rfl

/-- Only the last piece has no separator behind it. -/
theorem room_splitOnP (l : List α) : room (l.splitOnP p) = l.length + 1 := by
  induction l with
  | nil => rfl
  | cons a l ih =>
    rw [List.splitOnP_cons_eq_if_modifyHead, List.length_cons, ← ih]
    split
    · simp [Nat.add_comm]
    · obtain ⟨t, ts, hts⟩ := List.exists_cons_of_ne_nil (List.splitOnP_ne_nil p l)
      rw [hts, List.modifyHead_cons, room_cons, room_cons, List.length_cons]
      omega

theorem free_of_mem_splitOnP {l : List α} : ∀ t ∈ l.splitOnP p, ∀ x ∈ t, p x = false := by
  induction l with
  | nil => simp
  | cons a l ih =>
    rw [List.splitOnP_cons_eq_if_modifyHead]
    obtain ⟨t, ts, hts⟩ := List.exists_cons_of_ne_nil (List.splitOnP_ne_nil p l)
    rw [hts] at ih ⊢
    by_cases ha : p a = true
    · simpa [ha] using ih
    · have hfa : p a = false := by simpa using ha
      simpa [ha, hfa] using ih

/-- The first piece has a separator-free list in front whole, whatever comes behind. -/
theorem head_part {m : List α} (hm : ∀ x ∈ m, p x = false) (b : List α) :
    ∃ b', b' <+: b ∧ m ++ b' ∈ (m ++ b).splitOnP p := by
  cases hb : b.findIdx? p with
  | none =>
    have hfree : ∀ x ∈ m ++ b, p x = false := by
      intro x hx
      exact (List.mem_append.1 hx).elim (hm x) (List.findIdx?_eq_none_iff.1 hb x)
    exact ⟨b, List.prefix_refl b, by simp [List.splitOnP_eq_singleton hfree]⟩
  | some i =>
    obtain ⟨hi, hp, hlt⟩ := List.findIdx?_eq_some_iff_getElem.1 hb
    have hcut : m ++ b = (m ++ b.take i) ++ b[i] :: b.drop (i + 1) := by
      rw [List.append_assoc, ← List.drop_eq_getElem_cons hi, List.take_append_drop]
    have hfree : ∀ x ∈ m ++ b.take i, p x = false := by
      intro x hx
      rcases List.mem_append.1 hx with hx | hx
      · exact hm x hx
      · obtain ⟨j, hj, rfl⟩ := List.mem_take_iff_getElem.1 hx
        simpa using hlt j (by omega)
    refine ⟨b.take i, List.take_prefix i b, ?_⟩
    rw [hcut, List.splitOnP_append_cons_of_forall_mem hfree _ hp]
    exact List.mem_cons_self

/-- Wherever a list is cut, a separator-free part of it stays whole. -/
theorem part_around (a : List α) : ∀ {m : List α}, (∀ x ∈ m, p x = false) → ∀ b : List α,
    ∃ a' b', a' <:+ a ∧ b' <+: b ∧ a' ++ m ++ b' ∈ (a ++ m ++ b).splitOnP p := by
  induction a using List.reverseRecOn with
  | nil =>
    intro m hm b
    obtain ⟨b', hb', hmem⟩ := head_part hm b
    exact ⟨[], b', List.nil_suffix, hb', hmem⟩
  | append_singleton a c ih =>
    intro m hm b
    by_cases hc : p c = true
    · obtain ⟨b', hb', hmem⟩ := head_part hm b
      refine ⟨[], b', List.nil_suffix, hb', ?_⟩
      rw [List.append_assoc, List.append_assoc, List.singleton_append, List.splitOnP_append_cons _ _ hc]
      exact List.mem_append_right _ hmem
    · have hcm : ∀ x ∈ c :: m, p x = false := List.forall_mem_cons.2 ⟨by simpa using hc, hm⟩
      obtain ⟨a', b', ha', hb', hmem⟩ := ih hcm b
      refine ⟨a' ++ [c], b', List.suffix_append_self_iff.2 ha', hb', ?_⟩
      simpa using hmem

/-- The pieces with the separators put back between them. -/
def weave : List (List α) → List α → List α
  | [], _ => []
  | [t], _ => t
  | t :: ts, [] => t ++ weave ts []
  | t :: ts, d :: ds => t ++ d :: weave ts ds

theorem weave_cons {t : List α} {ts : List (List α)} {d : α} {ds : List α} (h : ts ≠ []) :
    weave (t :: ts) (d :: ds) = t ++ d :: weave ts ds := by
  cases ts with
  | nil => exact absurd rfl h
  | cons => rfl

theorem weave_cons_cons (a : α) (t : List α) (ts : List (List α)) (ds : List α) :
    weave ((a :: t) :: ts) ds = a :: weave (t :: ts) ds := by
  cases ts <;> cases ds <;> rfl

/-- Nothing is lost: the pieces and the separators rebuild the list. -/
theorem weave_splitOnP (l : List α) : weave (l.splitOnP p) (l.filter p) = l := by
  induction l with
  | nil => rfl
  | cons a l ih =>
    rw [List.splitOnP_cons_eq_if_modifyHead]
    by_cases ha : p a = true
    · rw [if_pos ha, List.filter_cons_of_pos ha, weave_cons (List.splitOnP_ne_nil p l), ih]
      rfl
    · rw [if_neg ha, List.filter_cons_of_neg ha]
      obtain ⟨t, ts, hts⟩ := List.exists_cons_of_ne_nil (List.splitOnP_ne_nil p l)
      rw [hts] at ih ⊢
      rw [List.modifyHead_cons, weave_cons_cons, ih]

theorem splitOnP_weave : ∀ (ts : List (List α)) (ds : List α), ts.length = ds.length + 1 →
    (∀ t ∈ ts, ∀ x ∈ t, p x = false) → (∀ d ∈ ds, p d = true) → (weave ts ds).splitOnP p = ts
  | [], _, h, _, _ => by simp at h
  | [t], ds, _, ht, _ => List.splitOnP_eq_singleton (ht t (by simp))
  | _ :: _ :: _, [], h, _, _ => by simp at h
  | t :: t' :: ts, d :: ds, h, ht, hd => by
    rw [weave_cons (by simp), List.splitOnP_append_cons_of_forall_mem (ht t (by simp)) d (hd d (by simp)),
      splitOnP_weave (t' :: ts) ds (by simpa using h) (fun u hu => ht u (by simp [hu])) fun e he => hd e (by simp [he])]

/-- The pieces are the only separator-free lists, one more than the separators, that rebuild `l`. -/
theorem splitOnP_unique {l : List α} {ts : List (List α)} (hlen : ts.length = l.countP p + 1)
    (hfree : ∀ t ∈ ts, ∀ x ∈ t, p x = false) (hl : weave ts (l.filter p) = l) : ts = l.splitOnP p := by
  rw [← splitOnP_weave ts (l.filter p) (by rw [hlen, List.countP_eq_length_filter]) hfree (by simp), hl]

/-! ## Up to empty pieces -/

/-- The pieces that are not empty. -/
def solid (ts : List (List α)) : List (List α) := ts.filter (!·.isEmpty)

@[simp] theorem solid_nil_cons (ts : List (List α)) : solid ([] :: ts) = solid ts := rfl

@[simp] theorem solid_cons_cons (a : α) (t : List α) (ts : List (List α)) :
    solid ((a :: t) :: ts) = (a :: t) :: solid ts := rfl

theorem solid_cons_inj {t : List α} {ts us : List (List α)} (h : solid (t :: ts) = solid (t :: us)) :
    solid ts = solid us := by
  cases t with
  | nil => exact h
  | cons a t => exact (List.cons.inj h).2

/-- A run of separators gives empty pieces only. -/
theorem solid_splitOnP_separators {sep : List α} (h : ∀ c ∈ sep, p c = true) (s : List α) :
    solid ((sep ++ s).splitOnP p) = solid (s.splitOnP p) := by
  induction sep with
  | nil => rfl
  | cons c sep ih =>
    rw [List.cons_append, List.splitOnP_cons_eq_if_modifyHead, if_pos (h c (by simp)), solid_nil_cons,
      ih fun d hd => h d (by simp [hd])]

/-- A separator-free part in front of separators is a piece. -/
theorem solid_splitOnP_part {t sep : List α} (ht : t ≠ [] ∧ ∀ c ∈ t, p c = false)
    (hsep : sep ≠ [] ∧ ∀ c ∈ sep, p c = true) (s : List α) :
    solid ((t ++ (sep ++ s)).splitOnP p) = t :: solid (s.splitOnP p) := by
  obtain ⟨c, sep, rfl⟩ := List.exists_cons_of_ne_nil hsep.1
  obtain ⟨a, t, rfl⟩ := List.exists_cons_of_ne_nil ht.1
  rw [List.cons_append (a := c), List.splitOnP_append_cons_of_forall_mem ht.2 c (hsep.2 c (by simp)), solid_cons_cons,
    solid_splitOnP_separators fun d hd => hsep.2 d (by simp [hd])]

end Cut

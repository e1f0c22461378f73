import CalcChatter.Lib.Cut

/-!
# Cutting a list at whole words

`cutWords ds s` scans `s` from left to right and cuts it at every occurrence of a word of `ds`,
taking the longest word where several begin. `cut_parts` compares it with cutting at the single
elements of a class that contains all the words' elements: up to empty pieces, the finer cut is
the coarser one with each of its pieces cut again.
-/

namespace Cut

variable {α : Type}

variable [DecidableEq α] {p : α → Bool}

/-- Length of the longest word that `s` starts with. -/
def longest (ds : List (List α)) (s : List α) : Option Nat :=
  ((ds.filter (·.isPrefixOf s)).map List.length).max?

/-- The scan, with `k` elements of the current occurrence still to be skipped. -/
def wordsFrom (ds : List (List α)) : Nat → List α → List (List α)
  | _, [] => [[]]
  | k + 1, _ :: s => wordsFrom ds k s
  | 0, c :: s =>
    match longest ds (c :: s) with
    | some n => [] :: wordsFrom ds (n - 1) s
    | none => (wordsFrom ds 0 s).modifyHead (c :: ·)

def cutWords (ds : List (List α)) (s : List α) : List (List α) := wordsFrom ds 0 s

theorem longest_eq_some {ds : List (List α)} {s : List α} {n : Nat} (h : longest ds s = some n) :
    ∃ d ∈ ds, d <+: s ∧ d.length = n := by
  have hm := List.max?_mem h
  simp only [List.mem_map, List.mem_filter, List.isPrefixOf_iff_prefix] at hm
  obtain ⟨d, ⟨hd, hp⟩, hn⟩ := hm
  exact ⟨d, hd, hp, hn⟩

theorem wordsFrom_ne_nil (ds : List (List α)) : ∀ (k : Nat) (s : List α), wordsFrom ds k s ≠ []
  | _, [] => by simp [wordsFrom]
  | k + 1, _ :: s => wordsFrom_ne_nil ds k s
  | 0, c :: s => by
    unfold wordsFrom
    split
    · simp
    · obtain ⟨t, ts, h⟩ := List.exists_cons_of_ne_nil (wordsFrom_ne_nil ds 0 s)
      simp [h]

variable {ds : List (List α)}

/-- A word of one element is found wherever that element stands. -/
theorem not_mem_of_word {a : α} (ha : [a] ∈ ds) : ∀ (k : Nat) (s : List α), ∀ t ∈ wordsFrom ds k s, a ∉ t
  | _, [] => by simp [wordsFrom]
  | k + 1, _ :: s => not_mem_of_word ha k s
  | 0, c :: s => by
    unfold wordsFrom
    split
    · next n _ =>
      intro t ht
      rcases List.mem_cons.1 ht with rfl | ht
      · simp
      · exact not_mem_of_word ha (n - 1) s t ht
    · next hnone =>
      have hac : a ≠ c := by
        rintro rfl
        have hmem : ([a] : List α).length ∈ (ds.filter (·.isPrefixOf (a :: s))).map List.length :=
          List.mem_map_of_mem (List.mem_filter.2 ⟨ha, by simp⟩)
        rw [List.max?_eq_none_iff.1 hnone] at hmem
        simp at hmem
      obtain ⟨t, ts, ht⟩ := List.exists_cons_of_ne_nil (wordsFrom_ne_nil ds 0 s)
      have ih := not_mem_of_word ha 0 s
      rw [ht] at ih ⊢
      simpa [hac] using ih

/-- The step of `cut_parts`: while an occurrence is skipped both cuts give nothing, and where both
read on they are in the middle of the same part. -/
theorem wordsFrom_parts (hne : ∀ d ∈ ds, d ≠ []) (hp : ∀ d ∈ ds, ∀ c ∈ d, p c = true) :
    ∀ (k : Nat) (s : List α), (∀ c ∈ s.take k, p c = true) →
      solid (s.splitOnP p) = solid ((wordsFrom ds k s).flatMap (·.splitOnP p)) ∧
      (k = 0 → (s.splitOnP p).head? = ((wordsFrom ds k s).flatMap (·.splitOnP p)).head?)
  | _, [], _ => by simp [wordsFrom]
  | k + 1, c :: s, hk => by
    have hc : p c = true := hk c (by simp)
    have ih := wordsFrom_parts hne hp k s (fun d hd => hk d (by simp [hd]))
    rw [List.splitOnP_cons_eq_if_modifyHead, if_pos hc]
    exact ⟨ih.1, by omega⟩
  | 0, c :: s, _ => by
    unfold wordsFrom
    split
    · next n hn =>
      -- an occurrence begins here: its elements are all separators of the finer cut
      obtain ⟨d, hd, hpre, rfl⟩ := longest_eq_some hn
      obtain ⟨a, w, rfl⟩ := List.exists_cons_of_ne_nil (hne d hd)
      obtain ⟨rfl, hw⟩ := List.cons_prefix_cons.1 hpre
      have hskip : ∀ c ∈ s.take w.length, p c = true := by
        rw [← List.prefix_iff_eq_take.1 hw]
        exact fun c hc => hp _ hd c (by simp [hc])
      have ih := wordsFrom_parts hne hp w.length s hskip
      rw [List.splitOnP_cons_eq_if_modifyHead, if_pos (hp _ hd a (by simp))]
      simpa using ih.1
    · obtain ⟨ih, ih0⟩ := wordsFrom_parts hne hp 0 s (by simp)
      obtain ⟨t, ts, ht⟩ := List.exists_cons_of_ne_nil (wordsFrom_ne_nil ds 0 s)
      obtain ⟨u, us, hu⟩ := List.exists_cons_of_ne_nil (List.splitOnP_ne_nil p s)
      obtain ⟨v, vs, hv⟩ := List.exists_cons_of_ne_nil (List.splitOnP_ne_nil p t)
      rw [ht, hu, List.flatMap_cons, hv] at ih ih0
      obtain rfl : u = v := by simpa using ih0 rfl
      rw [ht, List.modifyHead_cons, List.flatMap_cons]
      by_cases hc : p c = true
      · simp [List.splitOnP_cons_eq_if_modifyHead, hc, hu, hv, ih]
      · have hrest := solid_cons_inj ih
        simp [List.splitOnP_cons_eq_if_modifyHead, hc, hu, hv, hrest]

/-- Up to empty pieces, cutting at a class that contains the words' elements is cutting at the
words and then cutting the pieces. -/
theorem cut_parts (hne : ∀ d ∈ ds, d ≠ []) (hp : ∀ d ∈ ds, ∀ c ∈ d, p c = true) (s : List α) :
    solid (s.splitOnP p) = solid ((cutWords ds s).flatMap (·.splitOnP p)) :=
  (wordsFrom_parts hne hp 0 s (by simp)).1

end Cut

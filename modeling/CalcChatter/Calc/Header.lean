import CalcChatter.Calc.Add

/-!
# What a header says (string_calculator_kata.cc:42-58, :74-86)

`Slice` takes back what writing a header puts together, and two texts have the same slice only if they
are equal, or one is the other behind an empty header (`slice_header_injective`): the header that
declares nothing is the only one that can be left out.

The delimiters a header declares matter to `Add` only where they occur in the data
(`add_unused_delimiters`).
-/

namespace CalcChatter.Calc

open Cxx Fuel Fuel.Comp

/-- `t` is `d` behind an empty header, and `d` has no header. -/
def EmptyHeader (t d : Bytes) : Prop := t = lit "//\n" ++ d ∧ ¬ HasHeader d

instance (t d : Bytes) : Decidable (EmptyHeader t d) := inferInstanceAs (Decidable (_ ∧ _))

/-! ## Texts with the same slice -/

theorem header_nil (d : Bytes) : header [] d = lit "//\n" ++ d := rfl

theorem header_injective {h h' d d' : Bytes} (hh : ch '\n' ∉ h) (hh' : ch '\n' ∉ h') :
    header h d = header h' d' ↔ h = h' ∧ d = d' := by
  constructor
  · intro heq
    have hsplit := congrArg splitHeader heq
    rw [splitHeader_header hh, splitHeader_header hh'] at hsplit
    exact Prod.mk.inj hsplit
  · rintro ⟨rfl, rfl⟩
    rfl

/-- A text with a header and one without have the same parts only if that header is empty. -/
theorem splitHeader_eq_plain_iff {s t : Bytes} (hs : HasHeader s) (ht : ¬ HasHeader t) :
    splitHeader s = splitHeader t ↔ EmptyHeader s t := by
  obtain ⟨h, d, hh, rfl⟩ := hs.eq_header
  rw [splitHeader_header hh, splitHeader_plain ht, Prod.mk.injEq, EmptyHeader, ← header_nil,
    header_injective hh (by simp)]
  simp [ht]

theorem splitHeader_eq_iff (s t : Bytes) :
    splitHeader s = splitHeader t ↔ s = t ∨ EmptyHeader s t ∨ EmptyHeader t s := by
  by_cases hs : HasHeader s <;> by_cases ht : HasHeader t
  · obtain ⟨h, d, hh, rfl⟩ := hs.eq_header
    obtain ⟨h', d', hh', rfl⟩ := ht.eq_header
    rw [splitHeader_header hh, splitHeader_header hh', header_injective hh hh', Prod.mk.injEq]
    simp [EmptyHeader, hs, ht]
  · have hne : s ≠ t := fun e => ht (e ▸ hs)
    rw [splitHeader_eq_plain_iff hs ht]
    simp [EmptyHeader, hs, hne]
  · have hne : s ≠ t := fun e => hs (e ▸ ht)
    rw [eq_comm, splitHeader_eq_plain_iff ht hs]
    simp [EmptyHeader, ht, hne]
  · -- neither has a header, so neither is a text behind one
    have hno : ∀ {x y : Bytes}, ¬ HasHeader x → ¬ EmptyHeader x y := by
      rintro x y hx ⟨rfl, -⟩
      exact hx (hasHeader_header [] y)
    rw [splitHeader_plain hs, splitHeader_plain ht]
    simp [hno hs, hno ht]

theorem slice_eq_iff {s t : Bytes} (hs : Fits s) (ht : Fits t) :
    slice s = slice t ↔ splitHeader s = splitHeader t := by
  rw [slice_eq hs, slice_eq ht, Except.ok.injEq, Prod.mk.injEq, List.append_cancel_left_eq, Prod.ext_iff]

/-- **`Slice` undoes header writing.** For every header text without a newline and all data, also data
that looks like a header. It never throws, so none of its `substr` calls is out of range. Two texts
have the same slice if and only if they are equal, or one is the other behind an empty header. -/
theorem slice_header_injective :
    (∀ h d : Bytes, ch '\n' ∉ h → Fits (header h d) → slice (header h d) = .ok (lit ",\n" ++ h, d)) ∧
    (∀ s : Bytes, Fits s → ∃ delims data, slice s = .ok (delims, data)) ∧
    ∀ s t : Bytes, Fits s → Fits t → (slice s = slice t ↔ s = t ∨ EmptyHeader s t ∨ EmptyHeader t s) := by
  refine ⟨?_, ?_, ?_⟩
  · intro h d hh hfit
    exact slice_header hh hfit
  · intro s hs
    exact ⟨_, _, slice_eq hs⟩
  · intro s t hs ht
    rw [slice_eq_iff hs ht, splitHeader_eq_iff]

theorem slice_header_injective_nested : slice (lit "//;\n//,\n1") = .ok (lit ",\n;", lit "//,\n1") ∧
    slice (lit "//\n1") = slice (lit "1") ∧ slice (lit "//\n//\n1") ≠ slice (lit "//\n1") := by
  obtain ⟨hslice, -, hiff⟩ := slice_header_injective
  refine ⟨hslice (lit ";") (lit "//,\n1") (by decide) (by decide), ?_, ?_⟩
  · exact (hiff _ _ (by decide) (by decide)).2 (.inr (.inl (by decide)))
  · intro h
    exact absurd ((hiff _ _ (by decide) (by decide)).1 h) (by decide)

/-! ## Delimiters that do not occur -/

/-- `Add` has the same outcome for both texts: a sum, or the exception. -/
def SameOutcome (s t : Bytes) : Prop :=
  ∃ r : Except Exn Int, (r = .error negatives ∨ ∃ n, r = .ok n) ∧ Halts (add s) r ∧ Halts (add t) r

theorem sameOutcome_of_pieces {s t : Bytes} (hs : Fits s) (ht : Fits t) (h : pieces s = pieces t) :
    SameOutcome s t := by
  have hr : reference s = reference t := by rw [reference, reference, h]
  refine ⟨reference s, total_cases (pieces s), add_halts hs, ?_⟩
  rw [hr]
  exact add_halts ht

/-- A declared character that does not occur in the data cuts nothing. -/
theorem splitOnP_unused {h x d : Bytes} (hx : ∀ c ∈ x, c ∉ d) :
    d.splitOnP (isDelimiter (h ++ x)) = d.splitOnP (isDelimiter h) := by
  apply Cut.splitOnP_congr
  intro c hc
  have hcx : c ∉ x := fun hm => hx c hm hc
  simp [isDelimiter, hcx]

/-- **Delimiters that are not used change nothing.** For all header texts `h` and `x` without a newline
and all data in which no character of `x` occurs, `Add` has the same outcome with and without `x` in
the header. The same holds with `x` as the whole header and with no header at all, if the data has no
header of its own. -/
theorem add_unused_delimiters :
    (∀ h x d : Bytes, ch '\n' ∉ h → ch '\n' ∉ x → (∀ c ∈ x, c ∉ d) → Fits (header (h ++ x) d) →
      SameOutcome (header (h ++ x) d) (header h d)) ∧
    ∀ x d : Bytes, ch '\n' ∉ x → (∀ c ∈ x, c ∉ d) → ¬ HasHeader d → Fits (header x d) →
      SameOutcome (header x d) d := by
  constructor
  · intro h x d hh hx hunused hfit
    have hfit' : Fits (header h d) := by
      refine fits_of_length_le ?_ hfit
      rw [length_header, length_header, List.length_append]
      omega
    have hhx : ch '\n' ∉ h ++ x := by simp [hh, hx]
    apply sameOutcome_of_pieces hfit hfit'
    rw [pieces_header hhx, pieces_header hh, splitOnP_unused hunused]
  · intro x d hx hunused hd hfit
    have hfit' : Fits d := by
      refine fits_of_length_le ?_ hfit
      rw [length_header]
      omega
    apply sameOutcome_of_pieces hfit hfit'
    rw [pieces_header hx, pieces_plain hd]
    exact @splitOnP_unused [] x d hunused

theorem add_unused_delimiters_percent : SameOutcome (lit "//;%\n1;2") (lit "//;\n1;2") ∧
    SameOutcome (lit "//%\n1,-2") (lit "1,-2") :=
  ⟨add_unused_delimiters.1 (lit ";") (lit "%") (lit "1;2") (by decide) (by decide) (by decide) (by decide),
    add_unused_delimiters.2 (lit "%") (lit "1,-2") (by decide) (by decide) (by decide) (by decide)⟩

end CalcChatter.Calc

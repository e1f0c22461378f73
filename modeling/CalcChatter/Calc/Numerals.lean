import CalcChatter.Calc.Add

/-!
# Numerals of any length

`asWritten n` is how a piece that denotes `n` should be judged: negative numbers are refused, numbers
above 1000 ignored (tests kata:188-196). `ToNumber` sees `n` only after `atoi` has saturated it to a
`long` and truncated it to an `int`; `ReadRight n` is exactly when that makes no difference. The
smallest number above 1000 that goes wrong is 2^31.
-/

namespace CalcChatter.Calc

open Cxx Fuel Fuel.Comp

def asWritten (n : Int) : Except Exn Int :=
  if n < 0 then .error negatives else if n ≤ 1000 then .ok n else .ok 0

/-- The numbers that survive `atoi` well enough for the two tests of `ToNumber`: the low 32 bits of
a `long` have to have the sign bit set (below 0), or to be 0 or above 1000 without it (above 1000). -/
def ReadRight (n : Int) : Prop :=
  (0 ≤ n ∧ n ≤ 1000) ∨
  (1000 < n ∧ n < 2 ^ 63 ∧ (n % 2 ^ 32 = 0 ∨ 1000 < n % 2 ^ 32 ∧ n % 2 ^ 32 < 2 ^ 31)) ∨
  (n < 0 ∧ -2 ^ 63 ≤ n ∧ 2 ^ 31 ≤ n % 2 ^ 32)

instance (n : Int) : Decidable (ReadRight n) := inferInstanceAs (Decidable (_ ∨ _ ∨ _))

/-- The outcome of `Add` if one piece, between `pre` and `post`, gave `r`. -/
def totalAround (pre : List Bytes) (r : Except Exn Int) (post : List Bytes) : Except Exn Int := do
  let a ← total pre
  let n ← r
  let b ← total post
  return a + n + b

theorem toNumber_eq_asWritten_iff {p : Bytes} {n : Int} (h : Numeral p n) :
    toNumber p = asWritten n ↔ ReadRight n := by
  have hmin : longMin = -2 ^ 63 := rfl
  have hmax : longMax = 2 ^ 63 - 1 := rfl
  have hv := (atoi_numeral h).trans (toInt_eq (max longMin (min longMax n)))
  simp only [asWritten, ReadRight]
  rcases Int.lt_or_le n 0 with hn | hn
  · rw [if_pos hn, toNumber_eq_negatives]
    split at hv <;> omega
  · rw [if_neg (Int.not_lt.2 hn)]
    rcases Int.lt_or_le 1000 n with hb | hs
    · rw [if_neg (Int.not_le.2 hb), toNumber_eq_zero]
      split at hv <;> omega
    · -- in this range `atoi` is exact
      have hex : atoi (cStr p) = n := by split at hv <;> omega
      rw [if_pos hs, toNumber_eq_self hex hn hs]
      simp [hn, hs]

/-- What a piece can give: a refusal or a number. -/
def Verdict (r : Except Exn Int) : Prop := r = .error negatives ∨ ∃ n, r = .ok n

theorem verdict_toNumber (p : Bytes) : Verdict (toNumber p) := by
  simp only [Verdict, toNumber]
  split
  · exact .inl rfl
  · split <;> exact .inr ⟨_, rfl⟩

theorem verdict_asWritten (n : Int) : Verdict (asWritten n) := by
  unfold Verdict asWritten
  split
  · exact .inl rfl
  · split <;> exact .inr ⟨_, rfl⟩

/-- Only the outcome of the piece itself counts, unless another piece is negative. -/
theorem totalAround_inj {pre post : List Bytes} {r r' : Except Exn Int} (hr : Verdict r) (hr' : Verdict r') :
    totalAround pre r post = totalAround pre r' post ↔ r = r' ∨ ∃ q ∈ pre ++ post, atoi (cStr q) < 0 := by
  have hex : (∃ q ∈ pre ++ post, atoi (cStr q) < 0) ↔
      (∃ q ∈ pre, atoi (cStr q) < 0) ∨ ∃ q ∈ post, atoi (cStr q) < 0 := by
    simp only [List.mem_append, or_and_right, exists_or]
  rw [hex]
  by_cases h1 : ∃ q ∈ pre, atoi (cStr q) < 0
  · simp [totalAround, total_eq_error h1, h1, bind, Except.bind]
  · obtain ⟨a, ha⟩ := total_ok_iff.2 h1
    by_cases h2 : ∃ q ∈ post, atoi (cStr q) < 0
    · rcases hr with rfl | ⟨n, rfl⟩ <;> rcases hr' with rfl | ⟨m, rfl⟩ <;>
        simp [totalAround, ha, total_eq_error h2, h2, bind, Except.bind]
    · obtain ⟨b, hb⟩ := total_ok_iff.2 h2
      rcases hr with rfl | ⟨n, rfl⟩ <;> rcases hr' with rfl | ⟨m, rfl⟩ <;>
        simp [totalAround, ha, hb, h1, h2, bind, Except.bind, pure, Except.pure]

theorem total_around (pre : List Bytes) (p : Bytes) (post : List Bytes) :
    total (pre ++ p :: post) = totalAround pre (toNumber p) post := by
  rw [total_append, total_cons, totalAround]
  cases total pre <;> cases toNumber p <;> cases total post <;>
    simp [bind, pure, Except.bind, Except.map, Except.pure, Int.add_assoc]

/-- **When a numeral is judged by the value written.** `p` is any piece of any input, and denotes
`n`: `ToNumber` gives `Add` what `n` deserves exactly when `ReadRight n`, and the outcome of `Add` is
what it would be for `n` exactly then, or when another piece is negative and `Add` throws anyway. -/
theorem numeral_judged_as_written {s : Bytes} (hs : Fits s) {pre : List Bytes} {p : Bytes} {post : List Bytes}
    (hp : pieces s = pre ++ p :: post) {n : Int} (hn : Numeral p n) :
    (toNumber p = asWritten n ↔ ReadRight n) ∧
    (Halts (add s) (totalAround pre (asWritten n) post) ↔
      ReadRight n ∨ ∃ q ∈ pre ++ post, atoi (cStr q) < 0) := by
  have hiff := toNumber_eq_asWritten_iff hn
  refine ⟨hiff, ?_⟩
  rw [(add_halts hs).iff_eq, reference, hp, total_around, eq_comm,
    totalAround_inj (verdict_toNumber p) (verdict_asWritten n), hiff]

theorem numeral_two : Numeral (lit "2") 2 := @Numeral.intro [] .none (lit "2") (by simp) (by simp [lit]) (by decide)

theorem numeral_judged_as_written_two :
    ReadRight 2 ∧ Halts (add (lit "2, 1001")) (totalAround [] (asWritten 2) [lit " 1001"]) :=
  have h := @numeral_judged_as_written (lit "2, 1001") (by decide) [] (lit "2") [lit " 1001"] rfl 2 numeral_two
  ⟨by decide, h.2.2 (.inl (by decide))⟩

/-- 2^32 + 1 is above 1000, but `Add` counts it as 1. -/
theorem big_numeral_counts_as_one :
    Numeral (lit "4294967297") 4294967297 ∧ pieces (lit "4294967297") = [lit "4294967297"] ∧
      asWritten 4294967297 = .ok 0 ∧ ¬ Halts (add (lit "4294967297")) (.ok 0) ∧
      Halts (add (lit "4294967297")) (.ok 1) := by
  have h1 : Halts (add (lit "4294967297")) (.ok 1) := ⟨2, rfl⟩
  exact ⟨@Numeral.intro [] .none (lit "4294967297") (by simp) (by decide) (by decide), rfl, rfl,
    fun h => absurd (h.unique h1) (by decide), h1⟩

end CalcChatter.Calc

import CalcChatter.Calc.Add

/-!
# How large the running sum of `Add` gets

A piece of `n` characters counts at most 999 / 4 for each of its characters and the separator behind
it (`toNumber_le`): up to three characters denote at most 999, and longer pieces count at most 1000.
So the sum and what the pieces still to come can add stay below 999 / 4 of the data and one
(`sum_pass`), and an `int` holds the sum for every text of up to 8,598,532 characters.
-/

namespace CalcChatter.Calc

open Cxx Fuel Fuel.Comp

/-! ## One piece -/

theorem toNumber_cases {p : Bytes} {n : Int} (h : toNumber p = .ok n) :
    n = 0 ∨ (n = atoi (cStr p) ∧ 0 ≤ n ∧ n ≤ 1000) := by
  simp only [toNumber] at h
  split at h
  · cases h
  · split at h <;> cases h
    · exact .inl rfl
    · exact .inr ⟨rfl, by omega, by omega⟩

theorem toNumber_le {p : Bytes} {n : Int} (h : toNumber p = .ok n) : 4 * n ≤ 999 * (p.length + 1) := by
  have hlen : (cStr p).length ≤ p.length := (List.takeWhile_prefix _).length_le
  rcases toNumber_cases h with rfl | ⟨hn, h0, hle⟩
  · omega
  · by_cases hshort : (cStr p).length ≤ 3
    · have hlt := natAbs_atoi_lt (s := cStr p) (by omega)
      rw [← hn] at hlt
      have hk : (cStr p).length = 0 ∨ (cStr p).length = 1 ∨ (cStr p).length = 2 ∨ (cStr p).length = 3 := by omega
      rcases hk with hk | hk | hk | hk <;> rw [hk] at hlt hlen <;> omega
    · omega

/-! ## The loop -/

/-- A pass of the loop takes a piece and adds its number. -/
theorem addStep_ok {t t' : Tokeniser} {toks : List Bytes} {sum sum' : Int} (hc : Cursor t toks)
    (hn : t.hasNext = true) (h : Halts (addStep (t, sum)) (.ok (t', sum'))) :
    ∃ tok rest n, toks = tok :: rest ∧ Cursor t' rest ∧ toNumber tok = .ok n ∧ sum' = sum + n := by
  cases toks with
  | nil => simp [cursor_nil hc] at hn
  | cons tok rest =>
    obtain ⟨u, hu, hstep⟩ := addStep_cursor sum hc
    have he := h.unique hstep
    cases htok : toNumber tok with
    | error e => simp [htok, Except.map] at he
    | ok n =>
      simp only [htok, Except.map, Except.ok.injEq, Prod.mk.injEq] at he
      obtain ⟨rfl, rfl⟩ := he
      exact ⟨tok, rest, n, rfl, hu, htok, rfl⟩

/-- The sum, with what the pieces still to come can add, is within the bound `m`. -/
def Within (m : Int) (st : Tokeniser × Int) : Prop :=
  ∃ toks, Cursor st.1 toks ∧ 0 ≤ st.2 ∧ 4 * st.2 + 999 * Cut.room toks ≤ m

theorem sum_pass {m : Int} (st st' : Tokeniser × Int) (h : Within m st) (hn : st.1.hasNext = true)
    (hstep : Halts (addStep st) (.ok st')) : Within m st' := by
  obtain ⟨toks, hc, h0, hle⟩ := h
  obtain ⟨tok, rest, n, rfl, hc', htok, hsum⟩ := addStep_ok hc hn hstep
  have hpiece := toNumber_le htok
  have hpos := toNumber_nonneg htok
  rw [Cut.room_cons] at hle
  push_cast at hle
  exact ⟨rest, hc', by omega, by omega⟩

/-- The loop of `Add` on the data and the delimiters that `Slice` gives. -/
abbrev AddPasses (delims data : Bytes) : Tokeniser × Int → Prop :=
  Passes (fun st => st.1.hasNext) addStep (Tokeniser.new data delims, 0)

theorem sum_within {delims data : Bytes} (hfit : Fits data) {t : Tokeniser} {sum : Int}
    (h : AddPasses delims data (t, sum)) : 0 ≤ sum ∧ 4 * sum ≤ 999 * (data.length + 1) := by
  have hstart : Within (999 * (data.length + 1)) (Tokeniser.new data delims, 0) :=
    ⟨_, cursor_new hfit delims, le_refl 0, by rw [Cut.room_splitOnP]; push_cast; omega⟩
  obtain ⟨toks, -, h0, hle⟩ := Passes.invariant (Within _) hstart sum_pass h
  exact ⟨h0, by omega⟩

/-- What `Add` returns is the sum after the last pass. -/
theorem add_result {s delims data : Bytes} {n : Int} (hs : slice s = .ok (delims, data)) (h : Halts (add s) (.ok n)) :
    ∃ t, AddPasses delims data (t, n) ∧ t.hasNext = false := by
  unfold add at h
  rw [hs] at h
  replace h := (halts_bind_ok (halts_ofExcept.2 rfl)).1 h
  obtain ⟨⟨t, sum⟩, hloop, hn⟩ := (halts_bind_iff.1 h).resolve_left (by simp)
  obtain rfl : n = sum := by simpa using hn
  obtain ⟨hpass, hlast⟩ := halts_while_passes hloop
  exact ⟨t, hpass, hlast⟩

/-! ## The densest text -/

/-- One more than `n` copies of `999`, joined by commas. -/
def dense (n : Nat) : Bytes := Cut.weave (List.replicate (n + 1) (lit "999")) (List.replicate n (ch ','))

theorem dense_succ (n : Nat) : dense (n + 1) = lit "999" ++ ch ',' :: dense n := by
  unfold dense
  rw [List.replicate_succ, List.replicate_succ (n := n) (a := ch ','), Cut.weave_cons (by simp)]

theorem length_dense (n : Nat) : (dense n).length = 4 * n + 3 := by
  induction n with
  | zero => rfl
  | succ n ih =>
    rw [dense_succ, List.length_append, List.length_cons, ih, show (lit "999").length = 3 from rfl]
    omega

theorem not_hasHeader_dense (n : Nat) : ¬ HasHeader (dense n) := by
  rintro ⟨hpre, -⟩
  cases n with
  | zero => exact absurd hpre (by decide)
  | succ n =>
    rw [dense_succ, slashes_eq, show lit "999" = [ch '9', ch '9', ch '9'] from rfl] at hpre
    exact absurd (List.cons_prefix_cons.1 hpre).1 (by decide)

theorem pieces_dense (n : Nat) : pieces (dense n) = List.replicate (n + 1) (lit "999") := by
  rw [pieces_plain (not_hasHeader_dense n)]
  apply Cut.splitOnP_weave
  · simp
  · intro t ht
    rw [List.eq_of_mem_replicate ht]
    change ∀ x ∈ lit "999", isDelimiter [] x = false
    decide
  · intro d hd
    rw [List.eq_of_mem_replicate hd]
    rfl

theorem total_replicate (n : Nat) : total (List.replicate n (lit "999")) = .ok (999 * n) := by
  induction n with
  | zero => rfl
  | succ n ih =>
    rw [List.replicate_succ, total_cons, ih, show toNumber (lit "999") = .ok 999 from rfl]
    simp only [Except.bind, Except.map]
    push_cast
    rw [Int.mul_add, Int.mul_one, Int.add_comm]

theorem add_dense {n : Nat} (hfit : Fits (dense n)) : Halts (add (dense n)) (.ok (999 * (n + 1))) := by
  have h := add_halts hfit
  rw [reference, pieces_dense, total_replicate] at h
  exact_mod_cast h

/-- **The accumulator does not overflow.** After every pass of the loop that completes, on every
text, whether or not a later piece makes it throw: the sum is not negative, four times the sum is at
most 999 for each character of the data and one, and the sum is an `int` if the text has at most
8,598,532 characters. What `Add` returns is such a sum. Three characters more are enough to exceed
it. -/
theorem running_sum_bounded :
    (∀ s delims data : Bytes, Fits s → slice s = .ok (delims, data) →
      (∀ t sum, AddPasses delims data (t, sum) →
        0 ≤ 4 * sum ∧ 4 * sum ≤ 999 * (data.length + 1) ∧ (s.length ≤ 8598532 → sum ≤ 2 ^ 31 - 1)) ∧
      ∀ n, Halts (add s) (.ok n) → ∃ t, AddPasses delims data (t, n) ∧ t.hasNext = false) ∧
    ((dense 2149633).length = 8598535 ∧ ∃ n, Halts (add (dense 2149633)) (.ok n) ∧ 2 ^ 31 - 1 < n) := by
  constructor
  · intro s delims data hs hslice
    have hdata : data <:+ s := by
      rw [slice_eq hs] at hslice
      obtain rfl : (splitHeader s).2 = data := (Prod.mk.inj (Except.ok.inj hslice)).2
      exact splitHeader_suffix s
    refine ⟨?_, fun n => add_result hslice⟩
    intro t sum hpass
    obtain ⟨h0, hle⟩ := sum_within (fits_of_suffix hdata hs) hpass
    have hlen := hdata.length_le
    refine ⟨by omega, hle, ?_⟩
    intro hmax
    omega
  · have hlen := length_dense 2149633
    have hfit : Fits (dense 2149633) := by
      unfold Fits
      rw [hlen, npos_toNat]
      omega
    exact ⟨hlen, _, add_dense hfit, by omega⟩

theorem running_sum_bounded_two : ∃ t, AddPasses (lit ",\n") (lit "1,2") (t, 3) ∧ t.hasNext = false ∧
    (4 * 3 : Int) ≤ 999 * ((lit "1,2").length + 1) := by
  obtain ⟨hpass, hresult⟩ := running_sum_bounded.1 (lit "1,2") (lit ",\n") (lit "1,2") (by decide) rfl
  obtain ⟨t, ht, hlast⟩ := hresult 3 ⟨9, rfl⟩
  exact ⟨t, ht, hlast, (hpass t 3 ht).2.1⟩

end CalcChatter.Calc

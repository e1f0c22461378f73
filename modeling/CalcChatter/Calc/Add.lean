import CalcChatter.Calc.Basic
import Mathlib.Algebra.BigOperators.Group.List.Basic

/-!
# `Add` against its reference

`reference` says what `Add` computes without a cursor: cut the data at the delimiter characters
(`pieces`), give up if some piece is negative, sum the pieces that are at most 1000 (`total`).
`add_halts` is the loop: `Add` ends on every text, and always with the reference's outcome.

`total_cons` and `total_filter` are what the other results about `Add` use: the sum piece by
piece, and that empty pieces do not count.
-/

namespace CalcChatter.Calc

open Cxx Fuel Fuel.Comp

/-- `,`, newline, or a character of the header text. -/
def isDelimiter (h : Bytes) (c : UInt8) : Bool := c == ch ',' || c == ch '\n' || c ∈ h

/-- The pieces of the data, empty ones included. -/
def pieces (s : Bytes) : List Bytes := (splitHeader s).2.splitOnP (isDelimiter (splitHeader s).1)

/-- The outcome for a list of pieces. -/
def total (ps : List Bytes) : Except Exn Int :=
  if ∃ p ∈ ps, atoi (cStr p) < 0 then .error negatives
  else .ok ((ps.map fun p => atoi (cStr p)).filter (· ≤ 1000)).sum

def reference (s : Bytes) : Except Exn Int := total (pieces s)

theorem pieces_header {h : Bytes} (hh : ch '\n' ∉ h) (d : Bytes) :
    pieces (header h d) = d.splitOnP (isDelimiter h) := by rw [pieces, splitHeader_header hh]

theorem pieces_plain {s : Bytes} (hs : ¬ HasHeader s) : pieces s = s.splitOnP (isDelimiter []) := by
  rw [pieces, splitHeader_plain hs]

/-! ## One piece -/

theorem toNumber_eq_negatives {p : Bytes} : toNumber p = .error negatives ↔ atoi (cStr p) < 0 := by
  simp only [toNumber]
  split
  · simp [*]
  · split <;> simp [*]

theorem toNumber_eq_zero {p : Bytes} : toNumber p = .ok 0 ↔ atoi (cStr p) = 0 ∨ 1000 < atoi (cStr p) := by
  simp only [toNumber]
  split
  · simp; omega
  · split <;> simp <;> omega

theorem toNumber_eq_self {p : Bytes} {n : Int} (h : atoi (cStr p) = n) (h0 : 0 ≤ n) (h1 : n ≤ 1000) :
    toNumber p = .ok n := by
  simp [toNumber, h, Int.not_lt.2 h0, Int.not_lt.2 h1]

theorem toNumber_nonneg {p : Bytes} {n : Int} (h : toNumber p = .ok n) : 0 ≤ n := by
  simp only [toNumber] at h
  split at h
  · cases h
  · split at h <;> cases h <;> omega

theorem toNumber_nil : toNumber [] = .ok 0 := rfl

/-! ## Sums of pieces -/

theorem total_nil : total [] = .ok 0 := rfl

theorem total_cons (p : Bytes) (ps : List Bytes) :
    total (p :: ps) = (toNumber p).bind fun n => (total ps).map (n + ·) := by
  by_cases hneg : atoi (cStr p) < 0
  · simp [total, toNumber, hneg, Except.bind]
  · have hor : (∃ q ∈ p :: ps, atoi (cStr q) < 0) ↔ ∃ q ∈ ps, atoi (cStr q) < 0 := by simp [hneg]
    by_cases hrest : ∃ q ∈ ps, atoi (cStr q) < 0
    · simp only [total, if_pos (hor.2 hrest), if_pos hrest, toNumber, if_neg hneg]
      split <;> rfl
    · simp only [total, if_neg (fun h => hrest (hor.1 h)), if_neg hrest, toNumber, if_neg hneg]
      by_cases hbig : atoi (cStr p) > 1000
      · simp [hbig, Int.not_le.2 hbig, Except.bind, Except.map]
      · simp [hbig, Int.not_lt.1 hbig, Except.bind, Except.map]

theorem total_eq_error {ps : List Bytes} (h : ∃ p ∈ ps, atoi (cStr p) < 0) : total ps = .error negatives := by
  simp only [total, if_pos h]

theorem total_eq_ok {ps : List Bytes} (h : ∀ p ∈ ps, 0 ≤ atoi (cStr p)) :
    total ps = .ok ((ps.map fun p => atoi (cStr p)).filter (· ≤ 1000)).sum := by
  have hno : ¬ ∃ p ∈ ps, atoi (cStr p) < 0 := fun ⟨p, hp, hlt⟩ => absurd (h p hp) (by omega)
  simp only [total, if_neg hno]

theorem total_ok_iff {ps : List Bytes} : (∃ n, total ps = .ok n) ↔ ¬ ∃ p ∈ ps, atoi (cStr p) < 0 := by
  unfold total
  split <;> simp_all

theorem total_cases (ps : List Bytes) : total ps = .error negatives ∨ ∃ n, total ps = .ok n := by
  unfold total
  split
  · exact .inl rfl
  · exact .inr ⟨_, rfl⟩

/-- Empty pieces do not count. -/
theorem total_filter (ps : List Bytes) : total (ps.filter (!·.isEmpty)) = total ps := by
  induction ps with
  | nil => rfl
  | cons p ps ih =>
    cases p with
    | nil =>
      rw [List.filter_cons_of_neg (by simp), ih, total_cons, toNumber_nil]
      cases total ps <;> simp [Except.bind, Except.map]
    | cons c p => rw [List.filter_cons_of_pos (by simp), total_cons, total_cons, ih]

theorem total_append (ps qs : List Bytes) :
    total (ps ++ qs) = (total ps).bind fun m => (total qs).map (m + ·) := by
  induction ps with
  | nil =>
    rw [List.nil_append, total_nil]
    cases total qs <;> simp [Except.bind, Except.map]
  | cons p ps ih =>
    rw [List.cons_append, total_cons, total_cons, ih]
    cases toNumber p <;> cases total ps <;> cases total qs <;> simp [Except.bind, Except.map, Int.add_assoc]

theorem total_perm {ps qs : List Bytes} (h : ps.Perm qs) : total ps = total qs := by
  have hneg : (∃ p ∈ ps, atoi (cStr p) < 0) ↔ ∃ p ∈ qs, atoi (cStr p) < 0 := by simp only [h.mem_iff]
  have hsum := ((h.map fun p => atoi (cStr p)).filter (· ≤ 1000)).sum_eq
  simp only [total, hneg, hsum]

theorem total_append_ok {ps qs : List Bytes} {m : Int} :
    total (ps ++ qs) = .ok m ↔ ∃ a b, total ps = .ok a ∧ total qs = .ok b ∧ a + b = m := by
  rw [total_append]
  cases total ps <;> cases total qs <;> simp [Except.bind, Except.map]

theorem total_cons_ok {p : Bytes} {ps : List Bytes} {m : Int} :
    total (p :: ps) = .ok m ↔ ∃ a b, toNumber p = .ok a ∧ total ps = .ok b ∧ a + b = m := by
  rw [total_cons]
  cases toNumber p <;> cases total ps <;> simp [Except.bind, Except.map]

theorem total_nonneg {ps : List Bytes} {n : Int} (h : total ps = .ok n) : 0 ≤ n := by
  induction ps generalizing n with
  | nil => rw [total_nil] at h; cases h; omega
  | cons p ps ih =>
    obtain ⟨a, b, ha, hb, rfl⟩ := total_cons_ok.1 h
    have hna := toNumber_nonneg ha
    have hnb := ih hb
    omega

/-- Nothing is negative, so a sum is 0 only if every summand is. -/
theorem total_eq_zero_iff {ps : List Bytes} : total ps = .ok 0 ↔ ∀ p ∈ ps, toNumber p = .ok 0 := by
  induction ps with
  | nil => simp [total_nil]
  | cons p ps ih =>
    rw [total_cons_ok, List.forall_mem_cons, ← ih]
    constructor
    · rintro ⟨a, b, ha, hb, hab⟩
      have hna := toNumber_nonneg ha
      have hnb := total_nonneg hb
      obtain rfl : a = 0 := by omega
      obtain rfl : b = 0 := by omega
      exact ⟨ha, hb⟩
    · rintro ⟨ha, hb⟩
      exact ⟨0, 0, ha, hb, rfl⟩

/-- A piece counts at most what all of them total. -/
theorem toNumber_le_total {ps : List Bytes} {p : Bytes} (hp : p ∈ ps) {m : Int} (h : total ps = .ok m) :
    ∃ n, toNumber p = .ok n ∧ n ≤ m := by
  obtain ⟨qs, rs, rfl⟩ := List.append_of_mem hp
  obtain ⟨a, c, ha, hc, rfl⟩ := total_append_ok.1 h
  obtain ⟨n, b, hn, hb, rfl⟩ := total_cons_ok.1 hc
  have hna := total_nonneg ha
  have hnb := total_nonneg hb
  exact ⟨n, hn, by omega⟩

/-- The loop of `Add`, on the pieces it is given. -/
theorem foldlM_total : ∀ (ps : List Bytes) (a : Int),
    ps.foldlM (fun sum tok => (toNumber tok).map (sum + ·)) a = (total ps).map (a + ·)
  | [], a => by simp [total_nil, Except.map, pure, Except.pure]
  | p :: ps, a => by
    rw [List.foldlM_cons, total_cons]
    cases hp : toNumber p with
    | error e => rfl
    | ok n =>
      refine (foldlM_total ps (a + n)).trans ?_
      cases total ps <;> simp [Except.bind, Except.map, Int.add_assoc]

/-! ## The loop -/

theorem oneOf_delims (h : Bytes) : oneOf (lit ",\n" ++ h) = isDelimiter h := by
  funext c
  rw [Bool.eq_iff_iff]
  simp [isDelimiter, show lit ",\n" = [ch ',', ch '\n'] from rfl, or_assoc]

/-- One pass of the loop takes one piece. -/
theorem addStep_cursor {t : Tokeniser} {tok : Bytes} {toks : List Bytes} (sum : Int) (h : Cursor t (tok :: toks)) :
    ∃ t', Cursor t' toks ∧ Halts (addStep (t, sum)) (((toNumber tok).map (sum + ·)).map (t', ·)) := by
  obtain ⟨t', ht', hc⟩ := nextToken_cursor h
  refine ⟨t', hc, ?_⟩
  simp only [addStep, ht']
  refine (halts_bind_ok (halts_ofExcept.2 rfl)).2 ?_
  cases toNumber tok with
  | error e => exact halts_bind_error (halts_ofExcept.2 rfl)
  | ok n => exact (halts_bind_ok (halts_ofExcept.2 rfl)).2 (halts_pure.2 rfl)

/-- `Add` ends on every text, with the outcome of the reference. -/
theorem add_halts {s : Bytes} (hs : Fits s) : Halts (add s) (reference s) := by
  have hdata := fits_of_suffix (splitHeader_suffix s) hs
  have hcur := cursor_new hdata (lit ",\n" ++ (splitHeader s).1)
  rw [oneOf_delims] at hcur
  obtain ⟨t', ht'⟩ := halts_while_fold (fun st => st.1.hasNext) addStep Cursor
    (fun sum tok => (toNumber tok).map (sum + ·)) (fun _ _ => cursor_nil)
    (fun _ sum _ _ h => ⟨cursor_hasNext h, addStep_cursor sum h⟩) _ _ 0 hcur
  rw [foldlM_total] at ht'
  unfold add
  rw [slice_eq hs]
  refine (halts_bind_ok (halts_ofExcept.2 rfl)).2 ?_
  change Halts _ (total (pieces s))
  unfold pieces
  cases htot : total ((splitHeader s).2.splitOnP (isDelimiter (splitHeader s).1)) with
  | error e =>
    rw [htot] at ht'
    exact halts_bind_error ht'
  | ok n =>
    rw [htot] at ht'
    simp [halts_bind_ok ht']

/-- Nothing negative is ever added, so no result is negative. -/
theorem add_nonneg {s : Bytes} {n : Int} (h : Halts (add s) (.ok n)) : 0 ≤ n := by
  obtain ⟨pair, -, h⟩ := (halts_bind_iff.1 h).resolve_left (by simp)
  obtain ⟨⟨t, sum⟩, hloop, hn⟩ := (halts_bind_iff.1 h).resolve_left (by simp)
  obtain rfl : n = sum := by simpa using hn
  obtain ⟨hpasses, -⟩ := halts_while_passes hloop
  refine Passes.invariant (fun st => 0 ≤ st.2) (le_refl 0) ?_ hpasses
  rintro ⟨t, sum⟩ ⟨t', sum'⟩ hsum - hstep
  obtain ⟨⟨token, u⟩, -, hstep⟩ := (halts_bind_iff.1 hstep).resolve_left (by simp)
  obtain ⟨k, hk, hstep⟩ := (halts_bind_iff.1 hstep).resolve_left (by simp)
  have hpos := toNumber_nonneg (halts_ofExcept.1 hk).symm
  simp only [halts_pure, Except.ok.injEq, Prod.mk.injEq] at hstep
  change 0 ≤ sum at hsum
  change 0 ≤ sum'
  omega

/-- `Add` throws its `range_error`. -/
def Throws (s : Bytes) : Prop := Halts (add s) (.error negatives)

theorem throws_iff {s : Bytes} (hs : Fits s) : Throws s ↔ reference s = .error negatives := by
  rw [Throws, (add_halts hs).iff_eq, eq_comm]

/-- Some piece of the input is negative. -/
def rejected (s : Bytes) : Bool := (pieces s).any fun p => atoi (cStr p) < 0

theorem rejected_iff {s : Bytes} (hs : Fits s) : rejected s = true ↔ Throws s := by
  rw [throws_iff hs, reference, total]
  split <;> simp_all [rejected]

theorem not_throws {s : Bytes} (hs : Fits s) (h : ¬ Throws s) : ∃ n, Halts (add s) (.ok n) := by
  rw [throws_iff hs] at h
  obtain ⟨n, hn⟩ := (total_cases (pieces s)).resolve_left h
  exact ⟨n, hn ▸ add_halts hs⟩

/-- **`Add` on every text**: it throws `range_error` exactly when some piece is negative, wherever
that piece stands; otherwise it returns the sum of the pieces that are at most 1000. It always
ends, and never with an exception of `substr`. -/
theorem add_agrees {s : Bytes} (hs : Fits s) :
    (Halts (add s) (.error (.rangeError "negatives not allowed")) ↔ ∃ p ∈ pieces s, atoi (cStr p) < 0) ∧
    (∀ n, Halts (add s) (.ok n) ↔ (∀ p ∈ pieces s, 0 ≤ atoi (cStr p)) ∧
      n = (((pieces s).map fun p => atoi (cStr p)).filter (· ≤ 1000)).sum) ∧
    (∃ r, Halts (add s) r) ∧ ¬ Halts (add s) (.error .outOfRange) := by
  have hr := add_halts hs
  simp only [hr.iff_eq, reference]
  by_cases hneg : ∃ p ∈ pieces s, atoi (cStr p) < 0
  · rw [total_eq_error hneg]
    have hnot : ¬ ∀ p ∈ pieces s, 0 ≤ atoi (cStr p) := by
      intro h
      obtain ⟨p, hp, hlt⟩ := hneg
      have hge := h p hp
      omega
    exact ⟨by simpa [negatives] using hneg, by simp [hnot], ⟨_, rfl⟩, by simp [negatives]⟩
  · have hall : ∀ p ∈ pieces s, 0 ≤ atoi (cStr p) := by
      intro p hp
      by_contra hlt
      exact hneg ⟨p, hp, by omega⟩
    rw [total_eq_ok hall]
    exact ⟨by simpa using hall, by simpa using hall, ⟨_, rfl⟩, by simp⟩

theorem add_agrees_semicolon : Fits (lit "//;\n1;2,1001") ∧ Halts (add (lit "//;\n1;2,1001")) (.ok 3) :=
  have hfit : Fits (lit "//;\n1;2,1001") := by decide
  ⟨hfit, ((add_agrees hfit).2.1 3).2 (by decide)⟩

end CalcChatter.Calc

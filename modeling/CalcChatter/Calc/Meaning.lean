import CalcChatter.Calc.Header

/-!
# What `Add` tells apart (string_calculator_kata.cc:42-86)

Two headers mean the same if `Add` has the same outcome behind both of them, for all data. They do if they
declare the same delimiters, and also if both declare every digit from 1 to 9: then no piece holds one of
these digits, and every outcome is 0. `headers_equivalent_iff` says that there is no other case: where two
headers differ, at most three characters of data show it (`tell_apart`).
-/

namespace CalcChatter.Calc

open Cxx Fuel Fuel.Comp

theorem sameOutcome_iff {s t : Bytes} (hs : Fits s) (ht : Fits t) : SameOutcome s t ↔ reference s = reference t := by
  constructor
  · rintro ⟨r, -, hr, hr'⟩
    rw [← hr.unique (add_halts hs), ← hr'.unique (add_halts ht)]
  · intro h
    exact ⟨reference s, total_cases (pieces s), add_halts hs, by rw [h]; exact add_halts ht⟩

/-! ## Short data -/

/-- A digit from 1 to 9. -/
def counts (c : UInt8) : Bool := isdigit c && c != ch '0'

theorem counts_digitValue {c : UInt8} (h : counts c = true) : isdigit c = true ∧ 1 ≤ digitValue c ∧ digitValue c ≤ 9 := by
  simp only [counts, Bool.and_eq_true, bne_iff_ne, ne_eq, ← UInt8.toNat_inj] at h
  obtain ⟨hd, hne⟩ := h
  have hrange := isdigit_iff.1 hd
  change ¬ c.toNat = 48 at hne
  refine ⟨hd, ?_⟩
  change 1 ≤ c.toNat - 48 ∧ c.toNat - 48 ≤ 9
  omega

theorem valueOf_zeros {ds : Bytes} (h : ∀ d ∈ ds, d = ch '0') : valueOf ds = 0 := by
  induction ds using List.reverseRecOn with
  | nil => rfl
  | append_singleton ds d ih =>
    rw [valueOf_append, ih fun e he => h e (by simp [he]), h d (by simp)]
    rfl

theorem mem_readSign {s : Bytes} {c : UInt8} (h : c ∈ (readSign s).2) : c ∈ s := by
  cases s with
  | nil => simp [readSign] at h
  | cons a s =>
    simp only [readSign] at h
    split at h
    · exact List.mem_cons_of_mem a h
    · split at h
      · exact List.mem_cons_of_mem a h
      · exact h

/-- Without a digit from 1 to 9 the number is 0. -/
theorem atoi_of_no_counts {s : Bytes} (h : ∀ c ∈ s, counts c = false) : atoi (cStr s) = 0 := by
  have hzero : valueOf ((readSign ((cStr s).dropWhile isspace)).2.takeWhile isdigit) = 0 := by
    refine valueOf_zeros fun d hd => ?_
    have hmem := (List.dropWhile_suffix isspace).subset (mem_readSign ((List.takeWhile_prefix isdigit).subset hd))
    have hc := h d ((List.takeWhile_prefix _).subset hmem)
    simpa [counts, List.mem_takeWhile_imp hd] using hc
  have hstrtol : strtol (cStr s) = 0 := by
    have hmin : longMin = -2 ^ 63 := rfl
    have hmax : longMax = 2 ^ 63 - 1 := rfl
    simp only [strtol, hzero]
    split <;> omega
  rw [atoi, hstrtol]
  rfl

theorem atoi_digits (ds : Bytes) (hne : ds ≠ []) (hds : ∀ d ∈ ds, isdigit d = true) (hlen : ds.length ≤ 9) :
    atoi (cStr ds) = valueOf ds := by
  have hnum := @Numeral.intro [] .none ds (by simp) hne hds
  have hlt := valueOf_lt hds
  have hpow : 10 ^ ds.length ≤ 10 ^ 9 := Nat.pow_le_pow_right (by omega) hlen
  have hmin : longMin = -2 ^ 63 := rfl
  have hmax : longMax = 2 ^ 63 - 1 := rfl
  have hval := atoi_numeral hnum
  simp only [Sign.apply, Sign.text, List.nil_append] at hval
  rw [hval, min_eq_right (by omega), max_eq_right (by omega)]
  exact toInt_of_range (by omega) (by omega)

/-- The digits of a number end at the first other character. -/
theorem atoi_digit_stop {g c : UInt8} (hg : isdigit g = true) (hc : isdigit c = false) (r : Bytes) :
    atoi (cStr (g :: c :: r)) = digitValue g := by
  obtain ⟨t, ht, hstop⟩ : ∃ t, cStr (g :: c :: r) = g :: t ∧ t.takeWhile isdigit = [] := by
    have hg0 := ne_of_isdigit hg (rfl : isdigit 0 = false)
    refine ⟨cStr (c :: r), by simp [cStr, hg0], ?_⟩
    by_cases h0 : c = 0 <;> simp [cStr, h0, hc]
  have hread : readSign (g :: t) = (false, g :: t) := readSign_text .none hg
  have hstrtol : strtol (g :: t) = strtol [g] := by
    have hread' : readSign [g] = (false, [g]) := readSign_text .none hg
    simp [strtol, isspace_of_isdigit hg, hread, hread', hg, hstop]
  have hone := atoi_digits [g] (by simp) (by simpa using hg) (by simp)
  have hcstr : cStr [g] = [g] := by simp [cStr, ne_of_isdigit hg (rfl : isdigit 0 = false)]
  rw [ht, atoi, hstrtol, ← hcstr, ← atoi, hone]
  simp [valueOf]

/-- A digit on both sides of a character is not the number that the two digits make without it. -/
theorem toNumber_around {g : UInt8} (hg : counts g = true) (c : UInt8) :
    ∃ n : Int, toNumber [g, c, g] = .ok n ∧ n ≠ 2 * digitValue g := by
  obtain ⟨hd, hlow, hhigh⟩ := counts_digitValue hg
  cases hc : isdigit c with
  | false => exact ⟨digitValue g, toNumber_eq_self (atoi_digit_stop hd hc [g]) (by omega) (by omega), by omega⟩
  | true =>
    have hval := atoi_digits [g, c, g] (by simp) (by simp [hd, hc]) (by simp)
    have hlt := @valueOf_lt [g, c, g] (by simp [hd, hc])
    have hsum : valueOf [g, c, g] = 10 * (10 * digitValue g + digitValue c) + digitValue g := by simp [valueOf]
    refine ⟨valueOf [g, c, g], toNumber_eq_self hval (by omega) ?_, by omega⟩
    simp only [List.length_cons, List.length_nil] at hlt
    omega

/-! ## Telling headers apart -/

section Headers

variable {h h' : Bytes} {g c : UInt8}

/-- What `Add` makes of data where the delimiters are those of `h`. -/
def outcome (h d : Bytes) : Except Exn Int := total (d.splitOnP (isDelimiter h))

theorem reference_header (hh : ch '\n' ∉ h) (d : Bytes) : reference (header h d) = outcome h d := by
  rw [reference, pieces_header hh, outcome]

theorem outcome_joined (hc : isDelimiter h c = true) (a b : Bytes) :
    outcome h (a ++ c :: b) = (outcome h a).bind fun m => (outcome h b).map (m + ·) := by
  rw [outcome, List.splitOnP_append_cons _ _ hc, total_append]
  rfl

theorem outcome_piece {p : Bytes} (hp : ∀ c ∈ p, isDelimiter h c = false) : outcome h p = toNumber p := by
  rw [outcome, List.splitOnP_eq_singleton hp, total_cons, total_nil]
  cases toNumber p <;> simp [Except.bind, Except.map]

theorem outcome_digit (hg : counts g = true) (hh : isDelimiter h g = false) : outcome h [g] = .ok (digitValue g) := by
  obtain ⟨hd, -, hhigh⟩ := counts_digitValue hg
  rw [outcome_piece (by simpa using hh)]
  refine toNumber_eq_self ?_ (by omega) (by omega)
  simpa [valueOf] using atoi_digits [g] (by simp) (by simpa using hd) (by simp)

/-- A digit that one of them declares is a number behind the other one. -/
theorem digit_tells (hg : counts g = true) (hh : isDelimiter h g = true) (hh' : isDelimiter h' g = false) :
    outcome h [g] ≠ outcome h' [g] := by
  have hnil : outcome h [] = .ok 0 := rfl
  have hzero : outcome h [g] = .ok 0 := by
    rw [show [g] = [] ++ g :: [] from rfl, outcome_joined hh, hnil]
    rfl
  have hpos := (counts_digitValue hg).2.1
  rw [hzero, outcome_digit hg hh', ne_eq, Except.ok.injEq]
  omega

/-- A character that one of them declares makes two numbers, behind the other one a single one. -/
theorem between_tells (hg : counts g = true) (hgh : isDelimiter h g = false) (hgh' : isDelimiter h' g = false)
    (hc : isDelimiter h c = true) (hc' : isDelimiter h' c = false) : outcome h [g, c, g] ≠ outcome h' [g, c, g] := by
  obtain ⟨n, hn, hne⟩ := toNumber_around hg c
  have htwo : outcome h [g, c, g] = .ok (2 * digitValue g) := by
    rw [show [g, c, g] = [g] ++ c :: [g] from rfl, outcome_joined hc, outcome_digit hg hgh]
    simp [Except.bind, Except.map, Int.two_mul]
  rw [htwo, outcome_piece (by simp [hgh', hc']), hn, ne_eq, Except.ok.injEq]
  exact Ne.symm hne

/-- Delimiters that are not the same are told apart by at most three characters of data, the first of them
a digit, unless they all hold the digits from 1 to 9. -/
theorem tell_apart (hc : isDelimiter h c ≠ isDelimiter h' c) (hg : counts g = true)
    (hsome : isDelimiter h g = false ∨ isDelimiter h' g = false) :
    ∃ d r, counts d = true ∧ r.length ≤ 2 ∧ outcome h (d :: r) ≠ outcome h' (d :: r) := by
  by_cases hsame : isDelimiter h g = isDelimiter h' g
  · have hgh : isDelimiter h g = false := hsome.elim id fun h => hsame.trans h
    have hgh' : isDelimiter h' g = false := hsame.symm.trans hgh
    refine ⟨g, [c, g], hg, by simp, ?_⟩
    cases hch : isDelimiter h c with
    | true => exact between_tells hg hgh hgh' hch (by simpa [hch] using hc.symm)
    | false => exact (between_tells hg hgh' hgh (by simpa [hch] using hc.symm) hch).symm
  · refine ⟨g, [], hg, by simp, ?_⟩
    cases hgh : isDelimiter h g with
    | true => exact digit_tells hg hgh (by simpa [hgh] using Ne.symm hsame)
    | false => exact (digit_tells hg (by simpa [hgh] using Ne.symm hsame) hgh).symm

theorem reference_plain {d : Bytes} (hd : ¬ HasHeader d) : reference d = outcome [] d := by
  rw [reference, pieces_plain hd, outcome]

/-- Data that starts with a digit has no header. -/
theorem not_hasHeader_of_counts {d : UInt8} (hd : counts d = true) (r : Bytes) : ¬ HasHeader (d :: r) := by
  rintro ⟨hslash, -⟩
  rw [slashes_eq, List.cons_prefix_cons] at hslash
  rw [← hslash.1] at hd
  exact absurd hd (by decide)

/-- A header declares nothing new if and only if it holds no character but commas. -/
theorem declares_nothing_iff (hh : ch '\n' ∉ h) :
    (∀ c, isDelimiter h c = isDelimiter [] c) ↔ ∀ c ∈ h, c = ch ',' := by
  constructor
  · intro hsame c hc
    have hdelim : isDelimiter [] c = true := by
      rw [← hsame c]
      simp [isDelimiter, hc]
    have hne : c ≠ ch '\n' := ne_of_mem_of_not_mem hc hh
    simpa [isDelimiter, hne] using hdelim
  · intro hcomma c
    by_cases hc : c = ch ','
    · simp [isDelimiter, hc]
    · have hmem : c ∉ h := fun hm => hc (hcomma c hm)
      simp [isDelimiter, hmem]

theorem outcome_congr (hsame : ∀ c, isDelimiter h c = isDelimiter h' c) (d : Bytes) : outcome h d = outcome h' d := by
  rw [outcome, outcome, funext hsame]

/-- Where every digit from 1 to 9 is a delimiter, nothing counts. -/
theorem outcome_zero (hall : ∀ g, counts g = true → isDelimiter h g = true) (d : Bytes) : outcome h d = .ok 0 := by
  refine total_eq_zero_iff.2 fun p hp => toNumber_eq_zero.2 (.inl (atoi_of_no_counts fun c hc => ?_))
  have hfree := Cut.free_of_mem_splitOnP p hp c hc
  exact Bool.eq_false_iff.2 fun hcount => by simp [hall c hcount] at hfree

/-- **Headers with the same meaning.** For all header texts without newlines: `Add` has the same outcome
behind both of them, for all data, if and only if they declare the same delimiters or both declare every
digit from 1 to 9. A header changes nothing, for all data without a header of their own, if and only if it
holds no character but commas. -/
theorem headers_equivalent_iff (hh : ch '\n' ∉ h) (hroom : ∀ d : Bytes, d.length ≤ 3 → Fits (header h d)) :
    (∀ h', ch '\n' ∉ h' → (∀ d : Bytes, d.length ≤ 3 → Fits (header h' d)) →
      ((∀ d, Fits (header h d) → Fits (header h' d) → SameOutcome (header h d) (header h' d)) ↔
        (∀ c, isDelimiter h c = isDelimiter h' c) ∨
          ∀ g, counts g = true → isDelimiter h g = true ∧ isDelimiter h' g = true)) ∧
    ((∀ d, ¬ HasHeader d → Fits (header h d) → SameOutcome (header h d) d) ↔ ∀ c ∈ h, c = ch ',') := by
  constructor
  · intro h' hh' hroom'
    constructor
    · intro hsame
      by_contra hnot
      obtain ⟨⟨c, hc⟩, g, hg, hsome⟩ : (∃ c, isDelimiter h c ≠ isDelimiter h' c) ∧
          ∃ g, counts g = true ∧ (isDelimiter h g = false ∨ isDelimiter h' g = false) := by
        simpa [not_or, ← Bool.not_eq_true, ← not_and_or] using hnot
      obtain ⟨d, r, -, hlen, hne⟩ := tell_apart hc hg hsome
      have hfit := hroom (d :: r) (by rw [List.length_cons]; omega)
      have hfit' := hroom' (d :: r) (by rw [List.length_cons]; omega)
      have hout := (sameOutcome_iff hfit hfit').1 (hsame _ hfit hfit')
      rw [reference_header hh, reference_header hh'] at hout
      exact hne hout
    · rintro hor d hfit hfit'
      rw [sameOutcome_iff hfit hfit', reference_header hh, reference_header hh']
      rcases hor with hsame | hall
      · exact outcome_congr hsame d
      · rw [outcome_zero fun g hg => (hall g hg).1, outcome_zero fun g hg => (hall g hg).2]
  · rw [← declares_nothing_iff hh]
    constructor
    · intro hsame
      by_contra hnot
      obtain ⟨c, hc⟩ := not_forall.1 hnot
      obtain ⟨d, r, hd, hlen, hne⟩ := tell_apart hc (g := ch '1') (by decide) (.inr (by decide))
      have hplain := not_hasHeader_of_counts hd r
      have hfit := hroom (d :: r) (by rw [List.length_cons]; omega)
      have hfit' : Fits (d :: r) := fits_of_length_le (by rw [length_header]; omega) hfit
      have hout := (sameOutcome_iff hfit hfit').1 (hsame _ hplain hfit)
      rw [reference_header hh, reference_plain hplain] at hout
      exact hne hout
    · intro hsame d hplain hfit
      have hfit' : Fits d := fits_of_length_le (by rw [length_header]; omega) hfit
      rw [sameOutcome_iff hfit hfit', reference_header hh, reference_plain hplain]
      exact outcome_congr hsame d

theorem headers_equivalent_iff_digits :
    (∀ d, Fits (header (lit "123456789") d) → Fits (header (lit "987654321;") d) →
      SameOutcome (header (lit "123456789") d) (header (lit "987654321;") d)) ∧
    (∀ d, Fits (header (lit ";") d) → Fits (header (lit ";;,") d) →
      SameOutcome (header (lit ";") d) (header (lit ";;,") d)) ∧
    ∃ d, ¬ HasHeader d ∧ Fits (header (lit ";") d) ∧ ¬ SameOutcome (header (lit ";") d) d := by
  have hroom : ∀ {h : Bytes}, h.length ≤ 10 → ∀ d : Bytes, d.length ≤ 3 → Fits (header h d) := by
    intro h hlen d hd
    have hnpos := npos_toNat
    rw [Fits, length_header]
    omega
  have hbytes : ∀ n : Fin 256, (counts (.ofFin n) = true →
      isDelimiter (lit "123456789") (.ofFin n) = true ∧ isDelimiter (lit "987654321;") (.ofFin n) = true) ∧
      isDelimiter (lit ";") (.ofFin n) = isDelimiter (lit ";;,") (.ofFin n) := by decide +kernel
  refine ⟨?_, ?_, ?_⟩
  · exact ((headers_equivalent_iff (by decide) (hroom (by decide))).1 _ (by decide) (hroom (by decide))).2
      (.inr fun g => (hbytes g.toFin).1)
  · exact ((headers_equivalent_iff (by decide) (hroom (by decide))).1 _ (by decide) (hroom (by decide))).2
      (.inl fun c => (hbytes c.toFin).2)
  · have hnot := mt (headers_equivalent_iff (h := lit ";") (by decide) (hroom (by decide))).2.1 (by decide)
    simpa only [not_forall, exists_prop] using hnot

end Headers

end CalcChatter.Calc

import CalcChatter.Lib.Words
import CalcChatter.Calc.Add

/-!
# Delimiters of any length

The tests `Add_DelimitersCanBeOfAnyLength` and `Add_AllowsMultipleDelimiters` (kata:198-206) declare
delimiters as `//[d1]...[dk]\n`. `wholeTotal` is what that means: the data is cut at whole delimiters
only, longest first. `Slice` appends the header, brackets included, to the delimiter characters, so
`Add` cuts wherever a single one of them stands.

`add_whole_delimiters` says when the two agree. A header character that is left between two whole
delimiters is where the code goes wrong (`partial_delimiter_cuts`): it cuts a piece into `parts`. Unless a
digit is cut at, a piece can only come to count more by that (`toNumber_le_parts`), so no two pieces make up
for each other in the sum.
-/

namespace CalcChatter.Calc

open Cxx Fuel Fuel.Comp Cut

/-- `[d1]...[dk]`. -/
def brackets (ds : List Bytes) : Bytes := ds.flatMap fun d => ch '[' :: d ++ [ch ']']

/-- Delimiters that such a header can declare. -/
structure Declared (ds : List Bytes) : Prop where
  some : ds ≠ []
  ok : ∀ d ∈ ds, d ≠ [] ∧ ch ']' ∉ d ∧ ch '\n' ∉ d

/-- The delimiters in force: the declared ones, `,` and newline. -/
def delimiterWords (ds : List Bytes) : List Bytes := ds ++ [lit ",", lit "\n"]

/-- The data cut at whole delimiters. -/
def wholePieces (ds : List Bytes) (data : Bytes) : List Bytes := cutWords (delimiterWords ds) data

def wholeTotal (ds : List Bytes) (data : Bytes) : Except Exn Int := total (wholePieces ds data)

/-- The parts that `Add` cuts a piece into. -/
def parts (ds : List Bytes) (p : Bytes) : List Bytes := p.splitOnP (isDelimiter (brackets ds))

/-- Cutting the pieces again makes no difference: there is a negative number before and after, or the
pieces have none and each counts what its parts total. -/
def SameTotals (ds : List Bytes) (data : Bytes) : Prop :=
  ((∃ p ∈ wholePieces ds data, atoi (cStr p) < 0) ∧
    ∃ p ∈ wholePieces ds data, ∃ q ∈ parts ds p, atoi (cStr q) < 0) ∨
  ((∀ p ∈ wholePieces ds data, 0 ≤ atoi (cStr p)) ∧ ∀ p ∈ wholePieces ds data, total (parts ds p) = toNumber p)

instance (ds : List Bytes) (data : Bytes) : Decidable (SameTotals ds data) := inferInstanceAs (Decidable (_ ∨ _))

variable {ds : List Bytes} {data : Bytes}

theorem newline_not_mem_brackets (hds : Declared ds) : ch '\n' ∉ brackets ds := by
  simp only [brackets, List.mem_flatMap, not_exists, not_and]
  intro d hd hm
  simp [show ch '\n' ≠ ch '[' by decide, show ch '\n' ≠ ch ']' by decide] at hm
  exact (hds.ok d hd).2.2 hm

theorem delimiterWords_ne_nil (hds : Declared ds) : ∀ d ∈ delimiterWords ds, d ≠ [] := by
  intro d hd
  simp only [delimiterWords, List.mem_append, List.mem_cons, List.not_mem_nil, or_false] at hd
  rcases hd with hd | rfl | rfl
  · exact (hds.ok d hd).1
  · decide
  · decide

/-- Every character of a delimiter is a delimiter of its own for `Add`. -/
theorem isDelimiter_of_word : ∀ d ∈ delimiterWords ds, ∀ c ∈ d, isDelimiter (brackets ds) c = true := by
  intro d hd c hc
  simp only [delimiterWords, List.mem_append, List.mem_cons, List.not_mem_nil, or_false] at hd
  rcases hd with hd | rfl | rfl
  · have hmem : c ∈ brackets ds := List.mem_flatMap.2 ⟨d, hd, by simp [hc]⟩
    simp [isDelimiter, hmem]
  · rw [show lit "," = [ch ','] from rfl, List.mem_singleton] at hc
    simp [isDelimiter, hc]
  · rw [show lit "\n" = [ch '\n'] from rfl, List.mem_singleton] at hc
    simp [isDelimiter, hc]

theorem comma_newline_not_mem : ∀ p ∈ wholePieces ds data, ch ',' ∉ p ∧ ch '\n' ∉ p := fun p hp =>
  ⟨not_mem_of_word (show [ch ','] ∈ delimiterWords ds by simp [delimiterWords, lit]) 0 data p hp,
    not_mem_of_word (show [ch '\n'] ∈ delimiterWords ds by simp [delimiterWords, lit]) 0 data p hp⟩

/-- `Add` sums the parts of all the whole pieces. -/
theorem reference_eq_parts (hds : Declared ds) :
    reference (header (brackets ds) data) = total ((wholePieces ds data).flatMap (parts ds)) := by
  rw [reference, pieces_header (newline_not_mem_brackets hds), ← total_filter, ← total_filter (List.flatMap _ _)]
  exact congrArg total (cut_parts (delimiterWords_ne_nil hds) isDelimiter_of_word data)

/-- A piece without header characters is not cut again. -/
theorem parts_clean {p : Bytes} (hp : p ∈ wholePieces ds data) (hclean : ∀ c ∈ p, c ∉ brackets ds) : parts ds p = [p] := by
  apply List.splitOnP_eq_singleton
  intro c hc
  have h1 : c ≠ ch ',' := fun e => (comma_newline_not_mem p hp).1 (e ▸ hc)
  have h2 : c ≠ ch '\n' := fun e => (comma_newline_not_mem p hp).2 (e ▸ hc)
  simp [isDelimiter, h1, h2, hclean c hc]

theorem total_singleton (p : Bytes) : total [p] = toNumber p := by
  rw [total_cons, total_nil]
  cases toNumber p <;> simp [Except.bind, Except.map]

theorem sameTotals_of_clean (h : (∀ p ∈ wholePieces ds data, ∀ c ∈ p, c ∉ brackets ds) ∨
    ∃ p ∈ wholePieces ds data, (∀ c ∈ p, c ∉ brackets ds) ∧ atoi (cStr p) < 0) : SameTotals ds data := by
  rcases h with hclean | ⟨p, hp, hclean, hneg⟩
  · by_cases hneg : ∃ p ∈ wholePieces ds data, atoi (cStr p) < 0
    · obtain ⟨p, hp, hlt⟩ := hneg
      exact .inl ⟨⟨p, hp, hlt⟩, p, hp, p, by simp [parts_clean hp (hclean p hp)], hlt⟩
    · refine .inr ⟨fun p hp => ?_, fun p hp => ?_⟩
      · by_contra hlt
        exact hneg ⟨p, hp, by omega⟩
      · rw [parts_clean hp (hclean p hp), total_singleton]
  · exact .inl ⟨⟨p, hp, hneg⟩, p, hp, p, by simp [parts_clean hp hclean], hneg⟩

theorem total_flatMap_congr {f : Bytes → List Bytes} {ps : List Bytes} (h : ∀ p ∈ ps, total (f p) = toNumber p) :
    total (ps.flatMap f) = total ps := by
  induction ps with
  | nil => rfl
  | cons p ps ih =>
    rw [List.forall_mem_cons] at h
    rw [List.flatMap_cons, total_append, total_cons, h.1, ih h.2]

theorem reference_of_sameTotals (hds : Declared ds) (h : SameTotals ds data) :
    reference (header (brackets ds) data) = wholeTotal ds data := by
  rw [reference_eq_parts hds, wholeTotal]
  rcases h with ⟨hwhole, p, hp, q, hq, hlt⟩ | ⟨-, hsame⟩
  · rw [total_eq_error hwhole, total_eq_error ⟨q, List.mem_flatMap.2 ⟨p, hp, hq⟩, hlt⟩]
  · exact total_flatMap_congr hsame

/-! ## Headers without digits -/

/-- Where no digit is a separator, the number of a text is that of one of its parts, or the part that has
lost its sign is negative. -/
theorem part_counts {f : UInt8 → Bool} (hf : ∀ c, isdigit c = true → f c = false) {p : Bytes}
    (hp : 0 < atoi (cStr p)) : ∃ q ∈ p.splitOnP f, atoi (cStr q) = atoi (cStr p) ∨ atoi (cStr q) < 0 := by
  obtain ⟨t, n, r, rfl, ht, hr⟩ := begins_with_numeral (by omega : atoi (cStr p) ≠ 0)
  obtain ⟨a, ds, rfl, hds, hsuffix⟩ := numeral_suffix ht
  obtain ⟨a', r', ha', hr', hmem⟩ := part_around a (fun d hd => hf d (hds d hd)) r
  obtain ⟨m, hm, hmn⟩ := hsuffix a' ha'
  refine ⟨_, hmem, ?_⟩
  rw [atoi_numeral_append ht hr, atoi_numeral ht] at hp ⊢
  rw [atoi_numeral_append hm (hr.of_prefix hr'), atoi_numeral hm]
  rcases hmn with rfl | rfl
  · exact .inl rfl
  · exact .inr (toInt_neg hp)

/-- So a piece that is cut never counts less than before. -/
theorem toNumber_le_parts {f : UInt8 → Bool} (hf : ∀ c, isdigit c = true → f c = false) {p : Bytes}
    (hp : 0 ≤ atoi (cStr p)) {m : Int} (h : total (p.splitOnP f) = .ok m) : ∃ n, toNumber p = .ok n ∧ n ≤ m := by
  rcases hp.eq_or_lt with h0 | hpos
  · exact ⟨0, toNumber_eq_zero.2 (.inl h0.symm), total_nonneg h⟩
  · obtain ⟨q, hq, heq | hneg⟩ := part_counts hf hpos
    · have hsame : toNumber q = toNumber p := by simp only [toNumber, heq]
      rw [← hsame]
      exact toNumber_le_total hq h
    · exact absurd ⟨q, hq, hneg⟩ (total_ok_iff.1 ⟨m, h⟩)

section Totals

variable {f : Bytes → List Bytes}

/-- Pieces that count no more than their parts have no larger total. -/
theorem total_le_flatMap : ∀ {ps : List Bytes} {m : Int},
    (∀ p ∈ ps, ∀ m, total (f p) = .ok m → ∃ n, toNumber p = .ok n ∧ n ≤ m) → total (ps.flatMap f) = .ok m →
      ∃ n, total ps = .ok n ∧ n ≤ m
  | [], m, _, h => ⟨m, h, le_refl m⟩
  | p :: ps, m, hf, h => by
    rw [List.forall_mem_cons] at hf
    obtain ⟨a, b, ha, hb, rfl⟩ := total_append_ok.1 h
    obtain ⟨n, hn, hle⟩ := hf.1 a ha
    obtain ⟨k, hk, hle'⟩ := total_le_flatMap hf.2 hb
    exact ⟨n + k, total_cons_ok.2 ⟨n, k, hn, hk, rfl⟩, by omega⟩

/-- Then the totals are equal only if each piece counts what its parts total. -/
theorem total_flatMap_inj : ∀ {ps : List Bytes} {m : Int},
    (∀ p ∈ ps, ∀ m, total (f p) = .ok m → ∃ n, toNumber p = .ok n ∧ n ≤ m) → total (ps.flatMap f) = .ok m →
      total ps = .ok m → ∀ p ∈ ps, total (f p) = toNumber p
  | [], _, _, _, _ => by simp
  | p :: ps, m, hf, h, hm => by
    rw [List.forall_mem_cons] at hf ⊢
    obtain ⟨a, b, ha, hb, hab⟩ := total_append_ok.1 h
    obtain ⟨n, k, hn, hk, hnk⟩ := total_cons_ok.1 hm
    obtain ⟨n', hn', hle⟩ := hf.1 a ha
    obtain ⟨k', hk', hle'⟩ := total_le_flatMap hf.2 hb
    obtain rfl : n = n' := Except.ok.inj (hn.symm.trans hn')
    obtain rfl : k = k' := Except.ok.inj (hk.symm.trans hk')
    obtain rfl : n = a := by omega
    obtain rfl : k = b := by omega
    exact ⟨ha.trans hn.symm, total_flatMap_inj hf.2 hb hk⟩

end Totals

theorem sameTotals_of_reference (hds : Declared ds) (hdigits : ∀ c ∈ brackets ds, isdigit c = false)
    (h : reference (header (brackets ds) data) = wholeTotal ds data) : SameTotals ds data := by
  rw [reference_eq_parts hds, wholeTotal] at h
  by_cases hneg : ∃ p ∈ wholePieces ds data, atoi (cStr p) < 0
  · have hparts : ∃ q ∈ (wholePieces ds data).flatMap (parts ds), atoi (cStr q) < 0 := by
      by_contra hno
      obtain ⟨n, hn⟩ := total_ok_iff.2 hno
      rw [hn, total_eq_error hneg] at h
      cases h
    obtain ⟨q, hq, hlt⟩ := hparts
    obtain ⟨p, hp, hq⟩ := List.mem_flatMap.1 hq
    exact .inl ⟨hneg, p, hp, q, hq, hlt⟩
  · obtain ⟨m, hm⟩ := total_ok_iff.2 hneg
    have hpos : ∀ p ∈ wholePieces ds data, 0 ≤ atoi (cStr p) := by
      intro p hp
      by_contra hlt
      exact hneg ⟨p, hp, by omega⟩
    have hf : ∀ c, isdigit c = true → isDelimiter (brackets ds) c = false := by
      intro c hc
      have hmem : c ∉ brackets ds := fun hmem => by simp [hdigits c hmem] at hc
      simp [isDelimiter, hmem, ne_of_isdigit hc (rfl : isdigit (ch ',') = false),
        ne_of_isdigit hc (rfl : isdigit (ch '\n') = false)]
    exact .inr ⟨hpos, total_flatMap_inj (fun p hp m hm => toNumber_le_parts hf (hpos p hp) hm) (h.trans hm) hm⟩

/-- **When `Add` respects whole delimiters.** If no header character is left standing between whole
delimiters, or some piece without any is negative, the outcome is that of cutting at whole delimiters. So
it is whenever there is a negative piece and a negative part, or no negative piece and each piece counts what
its parts total. For headers without digits it is so only then. -/
theorem add_whole_delimiters (hds : Declared ds) (hfit : Fits (header (brackets ds) data)) :
    ((∀ p ∈ wholePieces ds data, ∀ c ∈ p, c ∉ brackets ds) ∨
      (∃ p ∈ wholePieces ds data, (∀ c ∈ p, c ∉ brackets ds) ∧ atoi (cStr p) < 0) →
        Halts (add (header (brackets ds) data)) (wholeTotal ds data)) ∧
    (SameTotals ds data → Halts (add (header (brackets ds) data)) (wholeTotal ds data)) ∧
    ((∀ c ∈ brackets ds, isdigit c = false) →
      (Halts (add (header (brackets ds) data)) (wholeTotal ds data) ↔ SameTotals ds data)) := by
  have hiff : Halts (add (header (brackets ds) data)) (wholeTotal ds data) ↔ wholeTotal ds data = _ :=
    (add_halts hfit).iff_eq
  have henough : SameTotals ds data → Halts (add (header (brackets ds) data)) (wholeTotal ds data) :=
    fun h => hiff.2 (reference_of_sameTotals hds h).symm
  refine ⟨fun h => henough (sameTotals_of_clean h), henough, ?_⟩
  intro hdigits
  exact ⟨fun h => sameTotals_of_reference hds hdigits (hiff.1 h).symm, henough⟩

/-- A piece is negative, and behind it the header is cut into: `-1` and `1*2` with `[+*]`. -/
theorem add_whole_delimiters_stars :
    Halts (add (header (brackets [lit "***", lit "%"]) (lit "1***2%3"))) (.ok 6) ∧
    Halts (add (header (brackets [lit "+*"]) (lit "-1,2,1*2"))) (.error negatives) := by
  have hds : Declared [lit "***", lit "%"] := ⟨by decide, by decide⟩
  have hplus : Declared [lit "+*"] := ⟨by decide, by decide⟩
  exact ⟨(@add_whole_delimiters _ (lit "1***2%3") hds (by decide)).1 (by decide),
    ((@add_whole_delimiters _ (lit "-1,2,1*2") hplus (by decide)).2.2 (by decide)).2 (by decide)⟩

/-- `//[**]` and `1*2`: a single `*` is no delimiter, but `Add` cuts there and returns 3, not 1. -/
theorem partial_delimiter_cuts : Declared [lit "**"] ∧ Fits (header (brackets [lit "**"]) (lit "1*2")) ∧
    ¬ Halts (add (header (brackets [lit "**"]) (lit "1*2"))) (wholeTotal [lit "**"] (lit "1*2")) := by
  refine ⟨⟨by decide, by decide⟩, by decide, fun h => ?_⟩
  have h3 : Halts (add (header (brackets [lit "**"]) (lit "1*2"))) (.ok 3) := ⟨5, rfl⟩
  have h1 : wholeTotal [lit "**"] (lit "1*2") = .ok 1 := rfl
  rw [h1] at h
  exact absurd (h.unique h3) (by decide)

end CalcChatter.Calc

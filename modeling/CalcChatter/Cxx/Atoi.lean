import CalcChatter.Cxx.String
import Mathlib.Data.List.TakeWhile
import Mathlib.Data.Nat.Digits.Defs

/-!
# `atoi` and `to_string`

`atoi` is glibc's, `(int) strtol(s, NULL, 10)`: white space, an optional sign and the longest run of
digits are read, the value is saturated to a 64-bit `long` and then truncated to 32 bits.
`Numeral s n` says that `s` is white space, an optional sign and at least one digit, and that it
denotes `n`; `atoi_numeral` gives `atoi` on all of them, and `numeral_decimal` says that
`to_string` writes such a numeral. In any text `atoi` reads the numeral at its beginning, or 0
(`begins_with_numeral`, `atoi_numeral_append`).
-/

namespace Cxx

def isspace (c : UInt8) : Bool := c == ch ' ' || (ch '\t' ≤ c && c ≤ ch '\r')

def isdigit (c : UInt8) : Bool := ch '0' ≤ c && c ≤ ch '9'

def digitValue (c : UInt8) : Nat := c.toNat - (ch '0').toNat

/-- The number a run of decimal digits denotes. -/
def valueOf (ds : Bytes) : Nat := ds.foldl (fun n d => 10 * n + digitValue d) 0

def longMin : Int := -2 ^ 63
def longMax : Int := 2 ^ 63 - 1

/-- An optional sign (`true`: minus) and what follows it. -/
def readSign : Bytes → Bool × Bytes
  | [] => (false, [])
  | c :: s => if c = ch '-' then (true, s) else if c = ch '+' then (false, s) else (false, c :: s)

/-- `strtol(s, NULL, 10)` with a 64-bit `long`. -/
def strtol (s : Bytes) : Int :=
  let (neg, s) := readSign (s.dropWhile isspace)
  let n : Int := valueOf (s.takeWhile isdigit)
  if neg then max longMin (-n) else min longMax n

/-- The conversion of a `long` to `int`: the low 32 bits, as a two's complement number. -/
def toInt (v : Int) : Int := v.bmod (2 ^ 32)

def atoi (s : Bytes) : Int := toInt (strtol s)

/-- The decimal digits of a number, as `to_string` and `cout` write them. -/
def decimal (n : Nat) : Bytes :=
  if n = 0 then lit "0" else (Nat.digits 10 n).reverse.map fun d => ch '0' + UInt8.ofNat d

/-- `std::to_string(int)`. -/
def intToString (n : Int) : Bytes := if n < 0 then ch '-' :: decimal n.natAbs else decimal n.natAbs

theorem intToString_of_nonneg {n : Int} (h : 0 ≤ n) : intToString n = decimal n.toNat := by
  rw [intToString, if_neg (by omega), show n.natAbs = n.toNat by omega]

/-! ## Runs of digits -/

theorem isdigit_iff {c : UInt8} : isdigit c = true ↔ 48 ≤ c.toNat ∧ c.toNat ≤ 57 := by
  simp only [isdigit, UInt8.le_iff_toNat_le, Bool.and_eq_true, decide_eq_true_eq]
  rfl

theorem isspace_iff {c : UInt8} : isspace c = true ↔ c.toNat = 32 ∨ 9 ≤ c.toNat ∧ c.toNat ≤ 13 := by
  simp only [isspace, UInt8.le_iff_toNat_le, Bool.or_eq_true, Bool.and_eq_true, beq_iff_eq, decide_eq_true_eq,
    ← UInt8.toNat_inj]
  rfl

theorem valueOf_append (ds : Bytes) (d : UInt8) : valueOf (ds ++ [d]) = 10 * valueOf ds + digitValue d := by
  simp [valueOf]

theorem digitValue_digit {d : Nat} (h : d < 10) :
    isdigit (ch '0' + UInt8.ofNat d) = true ∧ digitValue (ch '0' + UInt8.ofNat d) = d := by
  revert d; decide

theorem valueOf_digits : ∀ {l : List Nat}, (∀ d ∈ l, d < 10) →
    valueOf (l.reverse.map fun d => ch '0' + UInt8.ofNat d) = Nat.ofDigits 10 l
  | [], _ => rfl
  | d :: l, h => by
    rw [List.reverse_cons, List.map_append, List.map_singleton, valueOf_append,
      valueOf_digits fun e he => h e (by simp [he]), (digitValue_digit (h d (by simp))).2, Nat.ofDigits_cons,
      Nat.add_comm]

theorem decimal_digits (n : Nat) : decimal n ≠ [] ∧ ∀ c ∈ decimal n, isdigit c = true := by
  by_cases h : n = 0
  · subst h; decide
  · simp only [decimal, h, ↓reduceIte]
    refine ⟨by simpa using Nat.digits_ne_nil_iff_ne_zero.2 h, ?_⟩
    intro c hc
    simp only [List.mem_map, List.mem_reverse] at hc
    obtain ⟨d, hd, rfl⟩ := hc
    exact (digitValue_digit (Nat.digits_lt_base (by omega) hd)).1

theorem valueOf_decimal (n : Nat) : valueOf (decimal n) = n := by
  by_cases h : n = 0
  · subst h; decide
  · simp only [decimal, h, ↓reduceIte]
    rw [valueOf_digits fun d hd => Nat.digits_lt_base (by omega) hd, Nat.ofDigits_digits]

theorem toInt_eq (v : Int) : toInt v = if v % 2 ^ 32 < 2 ^ 31 then v % 2 ^ 32 else v % 2 ^ 32 - 2 ^ 32 :=
  Int.bmod_def v (2 ^ 32)

theorem toInt_of_range {v : Int} (h : -2 ^ 31 ≤ v) (h' : v < 2 ^ 31) : toInt v = v :=
  Int.bmod_eq_of_le (by omega) (by omega)

/-! ## How large a number of so many characters is -/

theorem valueOf_lt {ds : Bytes} (h : ∀ d ∈ ds, isdigit d = true) : valueOf ds < 10 ^ ds.length := by
  induction ds using List.reverseRecOn with
  | nil => decide
  | append_singleton ds d ih =>
    have hd : digitValue d < 10 := by
      have hd := isdigit_iff.1 (h d (by simp))
      change d.toNat - 48 < 10
      omega
    have hds := ih fun e he => h e (by simp [he])
    rw [valueOf_append, List.length_append, List.length_singleton, pow_succ]
    omega

theorem length_readSign (s : Bytes) : (readSign s).2.length ≤ s.length := by
  cases s with
  | nil => rfl
  | cons c s =>
    simp only [readSign]
    split
    · simp
    · split <;> simp

theorem natAbs_strtol_lt (s : Bytes) : (strtol s).natAbs < 10 ^ s.length := by
  have hlen : ((readSign (s.dropWhile isspace)).2.takeWhile isdigit).length ≤ s.length :=
    ((List.takeWhile_prefix isdigit).length_le.trans (length_readSign _)).trans (List.dropWhile_suffix isspace).length_le
  have hval := (valueOf_lt fun d hd => List.mem_takeWhile_imp hd).trans_le (Nat.pow_le_pow_right (by omega) hlen)
  have hmin : longMin = -2 ^ 63 := rfl
  have hmax : longMax = 2 ^ 63 - 1 := rfl
  refine Nat.lt_of_le_of_lt ?_ hval
  -- saturation makes no number larger
  simp only [strtol]
  split <;> omega

/-- Up to nine characters `atoi` reads no number that an `int` does not hold. -/
theorem natAbs_atoi_lt {s : Bytes} (h : s.length ≤ 9) : (atoi s).natAbs < 10 ^ s.length := by
  have hlt := natAbs_strtol_lt s
  have hpow : 10 ^ s.length ≤ 10 ^ 9 := Nat.pow_le_pow_right (by omega) h
  rw [atoi, toInt_of_range (by omega) (by omega)]
  exact hlt

/-! ## Numerals -/

inductive Sign where
  | none
  | plus
  | minus

def Sign.text : Sign → Bytes
  | .none => []
  | .plus => [ch '+']
  | .minus => [ch '-']

def Sign.apply : Sign → Nat → Int
  | .minus, n => -n
  | _, n => n

/-- `s` is white space, an optional sign and one or more digits, and denotes `n`. -/
inductive Numeral : Bytes → Int → Prop where
  | intro {ws : Bytes} (sg : Sign) {ds : Bytes} (hws : ∀ c ∈ ws, isspace c = true) (hne : ds ≠ [])
      (hds : ∀ d ∈ ds, isdigit d = true) : Numeral (ws ++ sg.text ++ ds) (sg.apply (valueOf ds))

theorem isspace_of_isdigit {c : UInt8} (h : isdigit c = true) : isspace c = false := by
  have h' := isdigit_iff.1 h
  rw [Bool.eq_false_iff]
  intro hs
  have hs' := isspace_iff.1 hs
  omega

theorem ne_of_isdigit {c d : UInt8} (h : isdigit c = true) (hd : isdigit d = false) : c ≠ d := by
  rintro rfl; simp [h] at hd

theorem ne_zero_of_isspace {c : UInt8} (h : isspace c = true) : c ≠ 0 := by
  rintro rfl; exact absurd h (by decide)

theorem Sign.text_ne_zero (sg : Sign) : ∀ c ∈ sg.text, isspace c = false ∧ c ≠ 0 := by
  cases sg <;> decide

/-- The sign is read off as written when a digit follows. -/
theorem readSign_text (sg : Sign) {d : UInt8} {ds : Bytes} (hd : isdigit d = true) :
    readSign (sg.text ++ d :: ds) = (match sg with | .minus => true | _ => false, d :: ds) := by
  cases sg with
  | none => simp [Sign.text, readSign, ne_of_isdigit hd (rfl : isdigit (ch '-') = false),
      ne_of_isdigit hd (rfl : isdigit (ch '+') = false)]
  | plus => rfl
  | minus => rfl

theorem cStr_numeral {s : Bytes} {n : Int} (h : Numeral s n) : cStr s = s := by
  cases h with
  | intro sg hws hne hds =>
    unfold cStr
    rw [List.takeWhile_eq_self_iff]
    intro c hc
    simp only [List.mem_append] at hc
    rcases hc with (hc | hc) | hc
    · simpa using ne_zero_of_isspace (hws c hc)
    · simpa using (sg.text_ne_zero c hc).2
    · simpa using ne_of_isdigit (hds c hc) (rfl : isdigit 0 = false)

/-- White space in front of a numeral is skipped. -/
theorem dropWhile_numeral {ws : Bytes} (hws : ∀ c ∈ ws, isspace c = true) (sg : Sign) {d : UInt8}
    (hd : isdigit d = true) (s : Bytes) : (ws ++ sg.text ++ d :: s).dropWhile isspace = sg.text ++ d :: s := by
  rw [List.append_assoc, List.dropWhile_append_of_pos hws]
  cases sg with
  | none => simp [Sign.text, isspace_of_isdigit hd]
  | plus => rfl
  | minus => rfl

/-- `strtol` reads the whole numeral and saturates. -/
theorem strtol_numeral {s : Bytes} {n : Int} (h : Numeral s n) : strtol s = max longMin (min longMax n) := by
  cases h with
  | @intro ws sg ds hws hne hds =>
    obtain ⟨d, ds, rfl⟩ := List.exists_cons_of_ne_nil hne
    have hd := hds d (by simp)
    have hrun : (d :: ds).takeWhile isdigit = d :: ds := List.takeWhile_eq_self_iff.2 hds
    simp only [strtol, dropWhile_numeral hws sg hd, readSign_text sg hd, hrun]
    have hmin : longMin = -2 ^ 63 := rfl
    have hmax : longMax = 2 ^ 63 - 1 := rfl
    cases sg <;> simp [Sign.apply] <;> omega

theorem atoi_numeral {s : Bytes} {n : Int} (h : Numeral s n) :
    atoi (cStr s) = toInt (max longMin (min longMax n)) := by
  rw [cStr_numeral h, atoi, strtol_numeral h]

theorem numeral_decimal (n : Nat) : Numeral (decimal n) n := by
  have h := @Numeral.intro [] .none _ (by simp) (decimal_digits n).1 (decimal_digits n).2
  rw [valueOf_decimal] at h
  exact h

/-- No conversion loses anything on an `int` in range. -/
theorem atoi_decimal {n : Nat} (h : n < 2 ^ 31) : atoi (cStr (decimal n)) = n := by
  rw [atoi_numeral (numeral_decimal n)]
  have hmin : longMin = -2 ^ 63 := rfl
  have hmax : longMax = 2 ^ 63 - 1 := rfl
  rw [min_eq_right (by omega), max_eq_right (by omega)]
  exact toInt_of_range (by omega) (by omega)

/-! ## Numerals in a text -/

/-- The text does not begin with a digit. -/
def Stops (r : Bytes) : Prop := ∀ c ∈ r.head?, isdigit c = false

theorem Stops.of_prefix {r r' : Bytes} (h : Stops r) (hr : r' <+: r) : Stops r' := by
  intro c hc
  obtain ⟨t, rfl⟩ := hr
  exact h c (by simp [Option.mem_def.1 hc])

/-- `atoi` does not look past the digits of a numeral. -/
theorem atoi_numeral_append {s : Bytes} {n : Int} (h : Numeral s n) {r : Bytes} (hr : Stops r) :
    atoi (cStr (s ++ r)) = atoi (cStr s) := by
  have hstop : Stops (cStr r) := hr.of_prefix (List.takeWhile_prefix _)
  have hnul : ∀ c ∈ s, (c != 0) = true := List.takeWhile_eq_self_iff.1 (cStr_numeral h)
  have hcut : cStr (s ++ r) = s ++ cStr r := List.takeWhile_append_of_pos hnul
  rw [hcut, cStr_numeral h]
  generalize cStr r = r at hstop
  cases h with
  | @intro ws sg ds hws hne hds =>
    obtain ⟨d, ds, rfl⟩ := List.exists_cons_of_ne_nil hne
    have hd := hds d (by simp)
    have hrun : (d :: (ds ++ r)).takeWhile isdigit = (d :: ds).takeWhile isdigit := by
      rw [← List.cons_append, List.takeWhile_append_of_pos hds, List.takeWhile_eq_self_iff.2 hds]
      cases r with
      | nil => simp
      | cons c r => simp [hstop c (by simp)]
    unfold atoi strtol
    rw [List.append_assoc, List.cons_append, dropWhile_numeral hws sg hd, dropWhile_numeral hws sg hd,
      readSign_text sg hd, readSign_text sg hd]
    simp only [hrun]

/-- What `readSign` takes away is a sign or nothing. -/
theorem readSign_eq (s : Bytes) : ∃ sg : Sign, s = sg.text ++ (readSign s).2 := by
  cases s with
  | nil => exact ⟨.none, rfl⟩
  | cons c s =>
    by_cases hm : c = ch '-'
    · exact ⟨.minus, by simp [readSign, hm, Sign.text]⟩
    · by_cases hp : c = ch '+'
      · have hne : ch '+' ≠ ch '-' := by decide
        exact ⟨.plus, by simp [readSign, hp, hne, Sign.text]⟩
      · exact ⟨.none, by simp [readSign, hm, hp, Sign.text]⟩

theorem stops_dropWhile (s : Bytes) : Stops (s.dropWhile isdigit) := by
  intro c hc
  have hstop := List.head?_dropWhile_not isdigit s
  rwa [Option.mem_def.1 hc] at hstop

/-- A text that denotes a number other than 0 begins with a numeral. -/
theorem begins_with_numeral {s : Bytes} (h : atoi (cStr s) ≠ 0) : ∃ t n r, s = t ++ r ∧ Numeral t n ∧ Stops r := by
  obtain ⟨sg, hsign⟩ := readSign_eq ((cStr s).dropWhile isspace)
  generalize hv : (readSign ((cStr s).dropWhile isspace)).2 = v at hsign
  have hne : v.takeWhile isdigit ≠ [] := by
    intro hnil
    have hzero : strtol (cStr s) = 0 := by
      have hmin : longMin = -2 ^ 63 := rfl
      have hmax : longMax = 2 ^ 63 - 1 := rfl
      simp only [strtol, hv, hnil, show valueOf [] = 0 from rfl]
      split <;> omega
    exact h (by rw [atoi, hzero]; rfl)
  refine ⟨(cStr s).takeWhile isspace ++ sg.text ++ v.takeWhile isdigit, _, v.dropWhile isdigit ++ s.dropWhile (· != 0),
    ?_, .intro sg (fun c hc => List.mem_takeWhile_imp hc) hne fun d hd => List.mem_takeWhile_imp hd, ?_⟩
  · calc s = cStr s ++ s.dropWhile (· != 0) := List.takeWhile_append_dropWhile.symm
      _ = (cStr s).takeWhile isspace ++ (sg.text ++ v) ++ s.dropWhile (· != 0) := by
        rw [← hsign, List.takeWhile_append_dropWhile]
      _ = _ := by
        simp only [List.append_assoc]
        rw [← List.append_assoc (v.takeWhile isdigit), List.takeWhile_append_dropWhile]
  · cases hd : v.dropWhile isdigit with
    | cons c l =>
      have hstop := stops_dropWhile v
      rw [hd] at hstop
      exact fun c hc => hstop c hc
    | nil =>
      -- what stops the digits is the end of the text or a NUL
      intro c hc
      have hnul := List.head?_dropWhile_not (· != 0) s
      rw [List.nil_append] at hc
      rw [Option.mem_def.1 hc] at hnul
      obtain rfl : c = 0 := by simpa using hnul
      rfl

/-- A numeral that loses white space is the same one; with its sign it may lose that. -/
theorem numeral_suffix {t : Bytes} {n : Int} (h : Numeral t n) : ∃ a ds, t = a ++ ds ∧ (∀ d ∈ ds, isdigit d = true) ∧
    ∀ a', a' <:+ a → ∃ m, Numeral (a' ++ ds) m ∧ (m = n ∨ m = -n) := by
  cases h with
  | @intro ws sg ds hws hne hds =>
    refine ⟨ws ++ sg.text, ds, rfl, hds, ?_⟩
    have hkept : ∀ t, t <:+ ws → Numeral (t ++ sg.text ++ ds) (sg.apply (valueOf ds)) :=
      fun t ht => .intro sg (fun c hc => hws c (ht.subset hc)) hne hds
    have hlost : Numeral ([] ++ Sign.none.text ++ ds) (valueOf ds) := .intro .none (by simp) hne hds
    intro a' ha'
    cases sg with
    | none => exact ⟨_, by simpa [Sign.text] using hkept a' (by simpa [Sign.text] using ha'), .inl rfl⟩
    | plus | minus =>
      rcases List.suffix_concat_iff.1 ha' with rfl | ⟨t, rfl, ht⟩
      · exact ⟨_, hlost, by simp [Sign.apply]⟩
      · exact ⟨_, hkept t ht, .inl rfl⟩

/-- A number and its negative are not both read as positive. -/
theorem toInt_neg {n : Int} (h : 0 < toInt (max longMin (min longMax n))) :
    toInt (max longMin (min longMax (-n))) < 0 := by
  have hmin : longMin = -2 ^ 63 := rfl
  have hmax : longMax = 2 ^ 63 - 1 := rfl
  rw [toInt_eq] at h ⊢
  split at h <;> split <;> omega

end Cxx

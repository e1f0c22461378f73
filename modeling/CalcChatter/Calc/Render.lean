import CalcChatter.Calc.Add

/-!
# Rendering numbers and adding the text

The encoder that `Add` decodes: `rendered ns seps` writes the numbers in decimal with a separator, any
non-empty mixture of delimiter characters, in each gap. The characters of a long separator cut empty
pieces, which count nothing, so exactly the numbers come back (`solid_rendered`).
-/

namespace CalcChatter.Calc

open Cxx Fuel Fuel.Comp Cut

/-- `n1 sep1 n2 sep2 ... nk`. -/
def rendered : List Nat → List Bytes → Bytes
  | [], _ => []
  | [n], _ => decimal n
  | n :: ns, seps => decimal n ++ (seps.headD [] ++ rendered ns seps.tail)

variable {h : Bytes}

theorem digit_not_delimiter (hdig : ∀ c ∈ h, isdigit c = false) {c : UInt8} (hc : isdigit c = true) :
    isDelimiter h c = false := by
  have h1 := ne_of_isdigit hc (rfl : isdigit (ch ',') = false)
  have h2 := ne_of_isdigit hc (rfl : isdigit (ch '\n') = false)
  have h3 : c ∉ h := fun hm => by simp [hdig c hm] at hc
  simp [isDelimiter, h1, h2, h3]

theorem decimal_part (hdig : ∀ c ∈ h, isdigit c = false) (n : Nat) :
    decimal n ≠ [] ∧ ∀ c ∈ decimal n, isDelimiter h c = false :=
  ⟨(decimal_digits n).1, fun c hc => digit_not_delimiter hdig ((decimal_digits n).2 c hc)⟩

/-- The non-empty pieces of a rendering are its numerals. -/
theorem solid_rendered (hdig : ∀ c ∈ h, isdigit c = false) : ∀ (ns : List Nat) (seps : List Bytes),
    seps.length = ns.length - 1 → (∀ sep ∈ seps, sep ≠ [] ∧ ∀ c ∈ sep, isDelimiter h c = true) →
    solid ((rendered ns seps).splitOnP (isDelimiter h)) = ns.map decimal
  | [], _, _, _ => rfl
  | [n], _, _, _ => by
    obtain ⟨hne, hfree⟩ := decimal_part hdig n
    rw [rendered, List.splitOnP_eq_singleton hfree]
    obtain ⟨c, t, ht⟩ := List.exists_cons_of_ne_nil hne
    simp [ht, solid]
  | _ :: _ :: _, [], hlen, _ => by simp at hlen
  | n :: m :: ns, sep :: seps, hlen, hseps => by
    rw [rendered, List.headD_cons, List.tail_cons, solid_splitOnP_part (decimal_part hdig n) (hseps sep (by simp)),
      solid_rendered hdig (m :: ns) seps (by simpa using hlen) fun s hs => hseps s (by simp [hs])]
    · rfl
    · simp

theorem total_decimals {ns : List Nat} (hns : ∀ n ∈ ns, n < 2 ^ 31) :
    total (ns.map decimal) = .ok ((ns.filter (· ≤ 1000)).sum : Nat) := by
  induction ns with
  | nil => rfl
  | cons n ns ih =>
    have hn := hns n (by simp)
    rw [List.map_cons, total_cons, ih fun m hm => hns m (by simp [hm])]
    by_cases hbig : n ≤ 1000
    · rw [toNumber_eq_self (atoi_decimal hn) (by omega) (by omega), List.filter_cons_of_pos (by simpa using hbig)]
      simp [Except.bind, Except.map]
    · rw [toNumber_eq_zero.2 (.inr (by rw [atoi_decimal hn]; omega)), List.filter_cons_of_neg (by simpa using hbig)]
      simp [Except.bind, Except.map]

theorem not_hasHeader_rendered : ∀ (ns : List Nat) (seps : List Bytes), ¬ HasHeader (rendered ns seps)
  | [], _ => by simp [rendered, HasHeader]
  | n :: ns, seps => by
    obtain ⟨c, t, ht⟩ := List.exists_cons_of_ne_nil (decimal_digits n).1
    have hc : isdigit c = true := (decimal_digits n).2 c (by simp [ht])
    have hne := ne_of_isdigit hc (rfl : isdigit (ch '/') = false)
    rintro ⟨⟨rest, hrest⟩, -⟩
    have hhead : (rendered (n :: ns) seps).head? = some c := by
      cases ns <;> simp [rendered, ht]
    rw [← hrest] at hhead
    exact hne (by simpa [slashes_eq] using hhead.symm)

theorem add_of_solid {s h d : Bytes} (hs : Fits s) (hsplit : splitHeader s = (h, d)) {ns : List Nat}
    (hns : ∀ n ∈ ns, n < 2 ^ 31) (hsolid : solid (d.splitOnP (isDelimiter h)) = ns.map decimal) :
    Halts (add s) (.ok ((ns.filter (· ≤ 1000)).sum : Nat)) := by
  have hr := add_halts hs
  rw [reference, pieces, hsplit, ← total_filter] at hr
  rw [← total_decimals hns, ← hsolid]
  exact hr

/-- **Render, then add.** With any header text without newlines and digits, numbers that fit an `int`
and separators made of delimiter characters, `Add` returns the sum of the numbers that are at most
1000; and so it does without the header if the separators use only `,` and newline. -/
theorem add_rendered (hh : ch '\n' ∉ h) (hdig : ∀ c ∈ h, isdigit c = false) {ns : List Nat} {seps : List Bytes}
    (hns : ∀ n ∈ ns, n < 2 ^ 31) (hlen : seps.length = ns.length - 1)
    (hseps : ∀ sep ∈ seps, sep ≠ [] ∧ ∀ c ∈ sep, c = ch ',' ∨ c = ch '\n' ∨ c ∈ h) :
    (Fits (header h (rendered ns seps)) →
      Halts (add (header h (rendered ns seps))) (.ok ((ns.filter (· ≤ 1000)).sum : Nat))) ∧
    (Fits (rendered ns seps) → (∀ sep ∈ seps, ∀ c ∈ sep, c = ch ',' ∨ c = ch '\n') →
      Halts (add (rendered ns seps)) (.ok ((ns.filter (· ≤ 1000)).sum : Nat))) := by
  constructor
  · intro hfit
    refine add_of_solid hfit (splitHeader_header hh _) hns (solid_rendered hdig ns seps hlen fun sep hs => ?_)
    exact ⟨(hseps sep hs).1, fun c hc => by simpa [isDelimiter, or_assoc] using (hseps sep hs).2 c hc⟩
  · intro hfit hplain
    refine add_of_solid hfit (splitHeader_plain (not_hasHeader_rendered ns seps)) hns
      (solid_rendered (by simp) ns seps hlen fun sep hs => ?_)
    exact ⟨(hseps sep hs).1, fun c hc => by simpa [isDelimiter] using hplain sep hs c hc⟩

theorem add_rendered_minus_signs :
    Halts (add (header (lit "[-][+]") (rendered [12, 1001, 30] [lit "--+", lit "\n]"]))) (.ok 42) := by
  have h := @add_rendered (lit "[-][+]") (by decide) (by decide) [12, 1001, 30] [lit "--+", lit "\n]"]
    (by decide) (by decide) (by decide)
  exact h.1 (by decide)

end CalcChatter.Calc

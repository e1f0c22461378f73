import CalcChatter.Calc.Add

/-!
# Two data parts joined by a separator

A separator between two data parts cuts the data there, so the pieces of the whole are the pieces of
the two parts, and `Add` of the whole is the sum of the two (`total_append`). With a
header the parts are any strings. Without one the whole must not get a header that the parts do not
have: no separator is a `/`, so it starts with `//` only if the first part does.

`Additive` is the law for any way `F` of turning data into the text `Add` gets.
-/

namespace CalcChatter.Calc

open Cxx Fuel Fuel.Comp

/-- `Add` of `a` and `b` with `c` between them throws if and only if `Add` of one of them throws, and
is the sum of the two otherwise. -/
def Additive (F : Bytes → Bytes) (a : Bytes) (c : UInt8) (b : Bytes) : Prop :=
  (Throws (F (a ++ c :: b)) ↔ Throws (F a) ∨ Throws (F b)) ∧
  (¬ Throws (F a) → ¬ Throws (F b) →
    ∃ m n, Halts (add (F a)) (.ok m) ∧ Halts (add (F b)) (.ok n) ∧ Halts (add (F (a ++ c :: b))) (.ok (m + n)))

/-! ## Pieces of the whole -/

theorem not_hasHeader {s : Bytes} (hs : ¬ lit "//" <+: s) : ¬ HasHeader s := fun h => hs h.1

/-- A separator is no `/`, so it does not complete a `//` at the start of the text. -/
theorem not_slashes_joined {a b : Bytes} {c : UInt8} (ha : ¬ lit "//" <+: a) (hc : c ≠ ch '/') :
    ¬ lit "//" <+: a ++ c :: b := by
  rw [slashes_eq] at ha ⊢
  intro h
  match a, ha, h with
  | [], _, h => simp [Ne.symm hc] at h
  | [x], _, h => simp [Ne.symm hc] at h
  | x :: y :: a, ha, h =>
    simp only [List.cons_append, List.cons_prefix_cons, List.nil_prefix, and_true] at ha h
    exact ha h

theorem ne_slash {c : UInt8} (hc : c = ch ',' ∨ c = ch '\n') : c ≠ ch '/' := by
  rcases hc with rfl | rfl <;> decide

/-! ## The sum of the whole -/

/-- The outcome of a text whose pieces are those of two others. -/
theorem additive_of_pieces {F : Bytes → Bytes} {a b : Bytes} {c : UInt8} (hfit : Fits (F (a ++ c :: b)))
    (ha : Fits (F a)) (hb : Fits (F b)) (hp : pieces (F (a ++ c :: b)) = pieces (F a) ++ pieces (F b)) :
    Additive F a c b := by
  have hr : reference (F (a ++ c :: b)) = (reference (F a)).bind fun m => (reference (F b)).map (m + ·) := by
    rw [reference, hp, total_append]; rfl
  constructor
  · rw [throws_iff hfit, throws_iff ha, throws_iff hb, hr]
    rcases total_cases (pieces (F a)) with hta | ⟨m, hta⟩ <;>
      rcases total_cases (pieces (F b)) with htb | ⟨n, htb⟩ <;>
      simp [reference, hta, htb, Except.bind, Except.map]
  · intro hta htb
    obtain ⟨m, hm⟩ := not_throws ha hta
    obtain ⟨n, hn⟩ := not_throws hb htb
    refine ⟨m, n, hm, hn, ?_⟩
    have hsum := add_halts hfit
    rw [hr, ← hm.unique (add_halts ha), ← hn.unique (add_halts hb)] at hsum
    exact hsum

/-- The two orders have the same pieces, up to their order. -/
theorem swapped_of_pieces {s t : Bytes} (hs : Fits s) (ht : Fits t) {ps qs : List Bytes} (hps : pieces s = ps ++ qs)
    (hqs : pieces t = qs ++ ps) (r : Except Exn Int) : Halts (add s) r ↔ Halts (add t) r := by
  have hr : reference s = reference t := by
    rw [reference, reference, hps, hqs]
    exact total_perm List.perm_append_comm
  rw [(add_halts hs).iff_eq, (add_halts ht).iff_eq, hr]

/-- **A separator makes `Add` a sum.** With any header, for any two data parts and any separator
between them, and without a header, when neither part starts with `//`: `Add` of the whole throws if
and only if `Add` of a part throws, and is their sum otherwise. So the order of the two parts and the
separator between them do not matter. -/
theorem add_concat :
    (∀ (h a b : Bytes) (c c' : UInt8), ch '\n' ∉ h → isDelimiter h c = true → isDelimiter h c' = true →
      Fits (header h (a ++ c :: b)) → Additive (header h) a c b ∧
        ∀ r, Halts (add (header h (a ++ c :: b))) r ↔ Halts (add (header h (b ++ c' :: a))) r) ∧
    (∀ (a b : Bytes) (c c' : UInt8), (c = ch ',' ∨ c = ch '\n') → (c' = ch ',' ∨ c' = ch '\n') →
      ¬ lit "//" <+: a → ¬ lit "//" <+: b → Fits (a ++ c :: b) → Additive id a c b ∧
        ∀ r, Halts (add (a ++ c :: b)) r ↔ Halts (add (b ++ c' :: a)) r) := by
  constructor
  · intro h a b c c' hh hc hc' hfit
    have hfits : ∀ d : Bytes, d.length ≤ a.length + b.length + 1 → Fits (header h d) := fun d hd =>
      fits_of_length_le (by simp only [length_header, List.length_append, List.length_cons]; omega) hfit
    have hjoin : ∀ (x y : Bytes) (e : UInt8), isDelimiter h e = true →
        pieces (header h (x ++ e :: y)) = pieces (header h x) ++ pieces (header h y) := by
      intro x y e he
      rw [pieces_header hh, pieces_header hh, pieces_header hh, List.splitOnP_append_cons _ _ he]
    exact ⟨additive_of_pieces hfit (hfits a (by omega)) (hfits b (by omega)) (hjoin a b c hc),
      swapped_of_pieces hfit (hfits _ (by simp; omega)) (hjoin a b c hc) (hjoin b a c' hc')⟩
  · intro a b c c' hc hc' ha hb hfit
    have hjoin : ∀ (x y : Bytes) (e : UInt8), (e = ch ',' ∨ e = ch '\n') → ¬ lit "//" <+: x → ¬ lit "//" <+: y →
        pieces (x ++ e :: y) = pieces x ++ pieces y := by
      intro x y e he hx hy
      have hxy := not_slashes_joined (b := y) hx (ne_slash he)
      have hd : isDelimiter [] e = true := by rcases he with rfl | rfl <;> rfl
      rw [pieces_plain (not_hasHeader hx), pieces_plain (not_hasHeader hy), pieces_plain (not_hasHeader hxy),
        List.splitOnP_append_cons _ _ hd]
    exact ⟨additive_of_pieces hfit (fits_of_length_le (by simp) hfit) (fits_of_length_le (by simp; omega) hfit)
        (hjoin a b c hc ha hb),
      swapped_of_pieces hfit (fits_of_length_le (by simp; omega) hfit) (hjoin a b c hc ha hb) (hjoin b a c' hc' hb ha)⟩

theorem add_concat_semicolon : Additive (header (lit ";")) (lit "1") (ch ';') (lit "2") ∧
    (∀ r, Halts (add (lit "//;\n1;2")) r ↔ Halts (add (lit "//;\n2,1")) r) ∧
    Additive id (lit "3") (ch '\n') (lit "-4") :=
  have hsemi := add_concat.1 (lit ";") (lit "1") (lit "2") (ch ';') (ch ',') (by decide) rfl rfl (by decide)
  have hplain := add_concat.2 (lit "3") (lit "-4") (ch '\n') (ch ',') (.inr rfl) (.inl rfl) (by decide) (by decide)
    (by decide)
  ⟨hsemi.1, hsemi.2, hplain.1⟩

end CalcChatter.Calc

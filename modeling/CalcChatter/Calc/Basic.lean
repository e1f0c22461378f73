import CalcChatter.Cxx.Atoi
import CalcChatter.Tokeniser

/-!
# The string calculator (string_calculator_kata.cc:42-130)

| here | there |
| --- | --- |
| `slice`    | `Slice` (kata:42) |
| `toNumber` | `ToNumber` (kata:62) |
| `add`      | `Add` (kata:74), its loop body is `addStep`; `sum` is an unbounded integer |

`slice_eq` gives `Slice` on every text: none of its `substr` calls is out of range.
-/

namespace CalcChatter.Calc

open Cxx Fuel Fuel.Comp

/-- `Slice` (kata:42): the delimiter characters and the data. -/
def slice (str : Bytes) : Except Exn (Bytes × Bytes) := do
  let delims := lit ",\n"
  let data := str
  if (← substr str 0 2) = lit "//" then
    let newlinePos := find str (ch '\n')
    if newlinePos ≠ npos then
      let delims := delims ++ (← substr str 2 (newlinePos - 2))
      let data ← substr str (newlinePos + 1) npos
      return (delims, data)
  return (delims, data)

def negatives : Exn := .rangeError "negatives not allowed"

/-- `ToNumber` (kata:62). -/
def toNumber (s : Bytes) : Except Exn Int :=
  let n := atoi (cStr s)
  if n < 0 then .error negatives
  else if n > 1000 then .ok 0
  else .ok n

/-- `sum += ToNumber(tokeniser.NextToken());` -/
def addStep : Tokeniser × Int → Comp Exn (Tokeniser × Int)
  | (t, sum) => do
    let (token, t) ← Kata.nextToken t
    let n ← toNumber token
    return (t, sum + n)

/-- `Add` (kata:74). -/
def add (str : Bytes) : Comp Exn Int := do
  let pair ← slice str
  let tokeniser := Tokeniser.new pair.2 pair.1
  let (_, sum) ← whileLoop (fun st => st.1.hasNext) addStep (tokeniser, 0)
  return sum

/-! ## Headers -/

/-- A text with a delimiter header. -/
def header (h d : Bytes) : Bytes := lit "//" ++ h ++ ch '\n' :: d

/-- The text starts with `//` and contains a newline. -/
def HasHeader (s : Bytes) : Prop := lit "//" <+: s ∧ ch '\n' ∈ s

instance (s : Bytes) : Decidable (HasHeader s) := inferInstanceAs (Decidable (_ ∧ _))

/-- The header text and the data after it. -/
def splitHeader (s : Bytes) : Bytes × Bytes :=
  if HasHeader s then ((s.drop 2).takeWhile (· != ch '\n'), ((s.drop 2).dropWhile (· != ch '\n')).tail) else ([], s)

theorem slashes_eq : lit "//" = [ch '/', ch '/'] := rfl

theorem length_header (h d : Bytes) : (header h d).length = h.length + d.length + 3 := by
  simp [header, slashes_eq]; omega

theorem splitHeader_plain {s : Bytes} (h : ¬ HasHeader s) : splitHeader s = ([], s) := by simp [splitHeader, h]

theorem hasHeader_header (h d : Bytes) : HasHeader (header h d) :=
  ⟨⟨h ++ ch '\n' :: d, by simp [header]⟩, by simp [header]⟩

theorem splitHeader_header {h : Bytes} (hh : ch '\n' ∉ h) (d : Bytes) : splitHeader (header h d) = (h, d) := by
  have hdrop : (header h d).drop 2 = h ++ ch '\n' :: d := by simp [header, slashes_eq]
  have hne := bne_of_not_mem hh
  rw [splitHeader, if_pos (hasHeader_header h d), hdrop, List.takeWhile_append_of_pos hne, List.dropWhile_append_of_pos hne]
  simp

/-- A header is a header text without newlines, followed by the data. -/
theorem HasHeader.eq_header {s : Bytes} (hs : HasHeader s) : ∃ h d, ch '\n' ∉ h ∧ s = header h d := by
  obtain ⟨⟨rest, rfl⟩, hmem⟩ := hs
  have hmem' : ch '\n' ∈ rest := by simpa [slashes_eq, show ch '\n' ≠ ch '/' by decide] using hmem
  obtain ⟨h, d, rfl, hh⟩ := List.eq_append_cons_of_mem hmem'
  exact ⟨h, d, hh, by simp [header]⟩

/-! ## `Slice` on every text -/

theorem prefix_test (s : Bytes) : substr s 0 2 = .ok (s.take 2) := by simp [substr_ok]

theorem take_two_eq {s : Bytes} : s.take 2 = lit "//" ↔ lit "//" <+: s := by
  rw [List.prefix_iff_eq_take, eq_comm]; rfl

theorem slice_plain {s : Bytes} (h : ¬ HasHeader s) : slice s = .ok (lit ",\n", s) := by
  simp only [slice, prefix_test, bind, Except.bind, pure, Except.pure]
  by_cases hp : s.take 2 = lit "//"
  · have hnl : ch '\n' ∉ s := fun hm => h ⟨take_two_eq.1 hp, hm⟩
    simp [hp, find_of_not_mem hnl]
  · simp [hp]

theorem slice_header {h d : Bytes} (hh : ch '\n' ∉ h) (hfit : Fits (header h d)) :
    slice (header h d) = .ok (lit ",\n" ++ h, d) := by
  have hp : (header h d).take 2 = lit "//" := take_two_eq.2 ⟨h ++ ch '\n' :: d, by simp [header]⟩
  have hn := npos_toNat
  have hlt : (header h d).length < npos.toNat := hfit
  have hlen := length_header h d
  have hpos : (find (header h d) (ch '\n')).toNat = h.length + 2 := by
    rw [header, find_append_cons (by simpa [slashes_eq] using ⟨by decide, hh⟩) hfit]
    simp [slashes_eq]
  simp only [slice, prefix_test, hp, bind, Except.bind, pure, Except.pure, ↓reduceIte]
  generalize find (header h d) (ch '\n') = pos at hpos ⊢
  have hne : pos ≠ npos := by rintro rfl; omega
  have hcount : (pos - 2).toNat = h.length := by
    rw [UInt64.toNat_sub_of_le _ _ (by rw [UInt64.le_iff_toNat_le, hpos]; simp), hpos]; simp
  have hnext : (pos + 1).toNat = h.length + 3 := by
    rw [UInt64.toNat_add, hpos, UInt64.toNat_one]; omega
  have hsub : substr (header h d) 2 (pos - 2) = .ok h := by
    rw [substr_ok (by simp; omega), hcount]
    simp [header, slashes_eq]
  have hdata : substr (header h d) (pos + 1) npos = .ok d := by
    rw [substr_rest (by omega) (by omega), hnext]
    simp [header, slashes_eq]
  simp [hne, hsub, hdata]

/-- **`Slice` on every text**: the header is honoured, and no `substr` call is out of range. -/
theorem slice_eq {s : Bytes} (hs : Fits s) :
    slice s = .ok (lit ",\n" ++ (splitHeader s).1, (splitHeader s).2) := by
  by_cases hd : HasHeader s
  · obtain ⟨h, d, hh, rfl⟩ := hd.eq_header
    rw [slice_header hh hs, splitHeader_header hh]
  · rw [slice_plain hd, splitHeader_plain hd]; rfl

theorem fits_of_suffix {s d : Bytes} (hd : d <:+ s) (hs : Fits s) : Fits d := fits_of_length_le hd.length_le hs

theorem splitHeader_suffix (s : Bytes) : (splitHeader s).2 <:+ s := by
  by_cases hd : HasHeader s
  · obtain ⟨h, d, hh, rfl⟩ := hd.eq_header
    rw [splitHeader_header hh]
    exact ⟨lit "//" ++ h ++ [ch '\n'], by simp [header]⟩
  · rw [splitHeader_plain hd]

example : (add (lit "//;\n1;2")).run 5 = some (.ok 3) := by decide

end CalcChatter.Calc

import Mathlib.Data.List.Basic
import Mathlib.Data.UInt

/-!
# `std::string` as both programs use it

A string is its list of bytes (embedded NULs included), `size_t` is `UInt64` with its wrap-around,
`npos` is `(size_t)-1`. A string object never has `npos` or more characters (`max_size()` is
smaller); `Fits` says so, and it is the only thing the results about `find_first_of` and `substr`
need to know about lengths.
-/

namespace Cxx

abbrev Bytes := List UInt8

/-- A test of all characters of a string runs through the string, not through all bytes. -/
instance (priority := 2000) decidableForallMem (s : Bytes) (p : UInt8 → Prop) [DecidablePred p] :
    Decidable (∀ c ∈ s, p c) := List.decidableBAll p s

/-- A character constant of the source. -/
abbrev ch (c : Char) : UInt8 := c.toUInt8

/-- A string literal of the source (all of them are ASCII). -/
def lit (s : String) : Bytes := s.toList.map ch

/-- The exceptions the two programs can raise. -/
inductive Exn where
  | outOfRange
  | rangeError (what : String)
deriving DecidableEq, Repr

abbrev SizeT := UInt64

def npos : SizeT := 0 - 1

/-- What the length of every `std::string` satisfies. -/
def Fits (s : Bytes) : Prop := s.length < npos.toNat

instance (s : Bytes) : Decidable (Fits s) := inferInstanceAs (Decidable (_ < _))

theorem fits_of_length_le {s t : Bytes} (h : t.length ≤ s.length) (hs : Fits s) : Fits t := Nat.lt_of_le_of_lt h hs

theorem npos_toNat : npos.toNat = 2 ^ 64 - 1 := rfl

@[simp] theorem npos_add_one : npos + 1 = 0 := rfl

/-- `basic_string::substr(pos, count)`. -/
def substr (s : Bytes) (pos count : SizeT) : Except Exn Bytes :=
  if s.length < pos.toNat then .error .outOfRange else .ok ((s.drop pos.toNat).take count.toNat)

/-- The position of the first byte from `pos` on that satisfies `p`, or `npos`. -/
def findFrom (p : UInt8 → Bool) (s : Bytes) (pos : SizeT) : SizeT :=
  match (s.drop pos.toNat).findIdx? p with
  | some i => pos + UInt64.ofNat i
  | none => npos

/-- `c` is one of the characters of `delims`. -/
def oneOf (delims : Bytes) (c : UInt8) : Bool := c ∈ delims

@[simp] theorem oneOf_iff {delims : Bytes} {c : UInt8} : oneOf delims c = true ↔ c ∈ delims := by simp [oneOf]

@[simp] theorem oneOf_false_iff {delims : Bytes} {c : UInt8} : oneOf delims c = false ↔ c ∉ delims := by simp [oneOf]

/-- `basic_string::find_first_of(delims, pos)`. -/
def findFirstOf (s delims : Bytes) (pos : SizeT) : SizeT := findFrom (oneOf delims) s pos

/-- `basic_string::find(c)`. -/
def find (s : Bytes) (c : UInt8) : SizeT := findFrom (· == c) s 0

/-- `basic_string::resize(n)`: cut, or filled up with NULs. -/
def resize (s : Bytes) (n : Nat) : Bytes := s.take n ++ List.replicate (n - s.length) 0

/-- `c_str()` as a C function reads it: up to the first NUL. -/
def cStr (s : Bytes) : Bytes := s.takeWhile (· != 0)

/-! ## Specifications -/

theorem substr_ok {s : Bytes} {pos : SizeT} (h : pos.toNat ≤ s.length) (count : SizeT) :
    substr s pos count = .ok ((s.drop pos.toNat).take count.toNat) := by
  simp [substr, Nat.not_lt.2 h]

/-- A count of at least the rest of the string takes the rest. -/
theorem substr_rest {s : Bytes} {pos count : SizeT} (h : pos.toNat ≤ s.length)
    (hc : s.length - pos.toNat ≤ count.toNat) : substr s pos count = .ok (s.drop pos.toNat) := by
  rw [substr_ok h, List.take_of_length_le (by simpa using hc)]

theorem findFrom_none {p : UInt8 → Bool} {s : Bytes} {pos : SizeT}
    (h : (s.drop pos.toNat).findIdx? p = none) : findFrom p s pos = npos := by simp [findFrom, h]

theorem findFrom_some {p : UInt8 → Bool} {s : Bytes} {pos : SizeT} {i : Nat} (hs : Fits s)
    (h : (s.drop pos.toNat).findIdx? p = some i) :
    (findFrom p s pos).toNat = pos.toNat + i ∧ pos.toNat + i < s.length := by
  have hi : i < s.length - pos.toNat := by simpa using (List.findIdx?_eq_some_iff_getElem.1 h).1
  have hn := npos_toNat
  unfold Fits at hs
  refine ⟨?_, by omega⟩
  simp only [findFrom, h, UInt64.toNat_add, UInt64.toNat_ofNat']
  omega

/-- The test for another character than `c`, on a string without `c`. -/
theorem bne_of_not_mem {s : Bytes} {c : UInt8} (h : c ∉ s) : ∀ x ∈ s, (x != c) = true := by
  intro x hx
  rw [bne_iff_ne]
  rintro rfl
  exact h hx

theorem findIdx?_of_not_mem {s : Bytes} {c : UInt8} (h : c ∉ s) : s.findIdx? (· == c) = none := by
  rw [List.findIdx?_eq_none_iff]
  intro x hx
  simpa using bne_of_not_mem h x hx

theorem find_of_not_mem {s : Bytes} {c : UInt8} (h : c ∉ s) : find s c = npos :=
  findFrom_none (findIdx?_of_not_mem h)

/-- `find` stops at the first occurrence. -/
theorem find_append_cons {a b : Bytes} {c : UInt8} (h : c ∉ a) (hs : Fits (a ++ c :: b)) :
    (find (a ++ c :: b) c).toNat = a.length := by
  have hi : ((a ++ c :: b).drop (0 : SizeT).toNat).findIdx? (· == c) = some a.length := by
    rw [UInt64.toNat_zero, List.drop_zero, List.findIdx?_append]
    simp [findIdx?_of_not_mem h, List.findIdx?_cons]
  simpa [find] using (findFrom_some hs hi).1

end Cxx

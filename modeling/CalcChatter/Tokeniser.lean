import CalcChatter.Lib.Comp
import CalcChatter.Lib.Cut
import CalcChatter.Cxx.String

/-!
# `Tokeniser`: the two copies (string_calculator_kata.cc:10-38, Chatter/Tokeniser.h:5-33)

The calculator and the chat each have a `Tokeniser` with the same fields and constructor; only the
order of two statements in `NextToken` differs, and the two compute the same (`nextToken_eq`).

The end of the text is signalled by `delim_pos + 1` wrapping from `npos` to 0, the value `offset`
has at the start. `Cursor t toks` says what a tokeniser still has to give; `nextToken_cursor` is the
step, `drain_halts` the whole `while (HasNext()) NextToken()` loop, which returns the pieces
`List.splitOnP` cuts, and `tokens_restore_text` says what those are in terms of the text.
-/

namespace CalcChatter

open Cxx Fuel Fuel.Comp

/-- The members of both structs. The calculator's copy holds `str` by reference; nothing writes to
the text while a tokeniser reads it. -/
structure Tokeniser where
  str : Bytes
  delims : Bytes
  offset : SizeT
  delimPos : SizeT
  hasNext : Bool
deriving DecidableEq

/-- The constructor (kata:12, Tokeniser.h:7). -/
def Tokeniser.new (s d : Bytes) : Tokeniser := ⟨s, d, 0, findFirstOf s d 0, true⟩

/-- `NextToken` of the calculator (kata:22): searches, then tests for the wrap. -/
def Kata.nextToken (t : Tokeniser) : Except Exn (Bytes × Tokeniser) := do
  let token ← substr t.str t.offset (t.delimPos - t.offset)
  let t := { t with offset := t.delimPos + 1 }
  let t := { t with delimPos := findFirstOf t.str t.delims t.offset }
  let t := if t.offset = 0 then { t with hasNext := false } else t
  return (token, t)

/-- `NextToken` of the chat (Tokeniser.h:17): tests for the wrap, then searches. -/
def Chat.nextToken (t : Tokeniser) : Except Exn (Bytes × Tokeniser) := do
  let token ← substr t.str t.offset (t.delimPos - t.offset)
  let t := { t with offset := t.delimPos + 1 }
  let t := if t.offset = 0 then { t with hasNext := false } else t
  let t := { t with delimPos := findFirstOf t.str t.delims t.offset }
  return (token, t)

/-- `has_next` plays no part in the search, so the order of the two statements does not matter. -/
theorem nextToken_eq : Chat.nextToken = Kata.nextToken := by
  funext t
  unfold Chat.nextToken Kata.nextToken
  by_cases h : t.delimPos + 1 = 0 <;> simp [h]

/-- The loop body `tokens.push_back(NextToken());` -/
def drainStep (next : Tokeniser → Except Exn (Bytes × Tokeniser)) :
    Tokeniser × List Bytes → Comp Exn (Tokeniser × List Bytes)
  | (t, tokens) => do
    let (token, t) ← next t
    return (t, tokens ++ [token])

/-- `while (HasNext()) tokens.push_back(NextToken());` -/
def drain (next : Tokeniser → Except Exn (Bytes × Tokeniser)) (t : Tokeniser) :
    Comp Exn (Tokeniser × List Bytes) :=
  whileLoop (fun st => st.1.hasNext) (drainStep next) (t, [])

/-! ## One step of the cursor -/

namespace Tokeniser

/-- What is ahead of the cursor. -/
def rest (t : Tokeniser) : Bytes := t.str.drop t.offset.toNat

/-- Position of the next delimiter ahead, relative to the cursor. -/
def ahead (t : Tokeniser) : Option Nat := t.rest.findIdx? (oneOf t.delims)

structure Inv (t : Tokeniser) : Prop where
  fits : Fits t.str
  offset_le : t.offset.toNat ≤ t.str.length
  delimPos_eq : t.delimPos = findFirstOf t.str t.delims t.offset

theorem inv_new {s : Bytes} (hs : Fits s) (d : Bytes) : (Tokeniser.new s d).Inv := ⟨hs, by simp [new], rfl⟩

/-- The last token is everything ahead: `delim_pos` is `npos` and the count that `substr` gets is
far too big and clamped. The cursor wraps to the start. -/
theorem nextToken_last {t : Tokeniser} (h : t.Inv) (ha : t.ahead = none) :
    Kata.nextToken t = .ok (t.rest,
      { t with offset := 0, delimPos := findFirstOf t.str t.delims 0, hasNext := false }) := by
  have hpos : t.delimPos = npos := h.delimPos_eq.trans (findFrom_none ha)
  have hle := h.offset_le
  have hfit : t.str.length < npos.toNat := h.fits
  have hcount : (npos - t.offset).toNat = npos.toNat - t.offset.toNat :=
    UInt64.toNat_sub_of_le _ _ (by rw [UInt64.le_iff_toNat_le]; omega)
  have hsub : substr t.str t.offset (npos - t.offset) = .ok t.rest := substr_rest hle (by omega)
  simp [Kata.nextToken, hpos, hsub, bind, Except.bind, pure, Except.pure]

/-- Any other token ends before the next delimiter and the cursor moves past it. -/
theorem nextToken_more {t : Tokeniser} (h : t.Inv) {i : Nat} (ha : t.ahead = some i) :
    ∃ t' : Tokeniser, Kata.nextToken t = .ok (t.rest.take i, t') ∧ t'.Inv ∧ t'.str = t.str ∧
      t'.delims = t.delims ∧ t'.hasNext = t.hasNext ∧ t'.offset.toNat = t.offset.toNat + i + 1 := by
  obtain ⟨hpos, hlt⟩ := findFrom_some h.fits ha
  rw [show findFrom _ t.str t.offset = t.delimPos from h.delimPos_eq.symm] at hpos
  have hle := h.offset_le
  have hfit : t.str.length < npos.toNat := h.fits
  have hn := npos_toNat
  have hcount : (t.delimPos - t.offset).toNat = i := by
    rw [UInt64.toNat_sub_of_le _ _ (by rw [UInt64.le_iff_toNat_le]; omega)]; omega
  have hnext : (t.delimPos + 1).toNat = t.offset.toNat + i + 1 := by
    rw [UInt64.toNat_add, hpos, UInt64.toNat_one]; omega
  have hne : t.delimPos + 1 ≠ 0 := by
    intro h0; rw [h0] at hnext; simp at hnext
  refine ⟨{ t with offset := t.delimPos + 1, delimPos := findFirstOf t.str t.delims (t.delimPos + 1) }, ?_,
    ⟨h.fits, by simp only [hnext]; omega, rfl⟩, rfl, rfl, rfl, hnext⟩
  simp [Kata.nextToken, substr_ok hle, hcount, hne, bind, Except.bind, pure, Except.pure, rest]

end Tokeniser

/-! ## The whole loop -/

/-- The tokens that `t` still has to give are `toks`. -/
structure Cursor (t : Tokeniser) (toks : List Bytes) : Prop where
  inv : t.Inv
  left : toks = if t.hasNext then t.rest.splitOnP (oneOf t.delims) else []

theorem cursor_new {s : Bytes} (hs : Fits s) (d : Bytes) :
    Cursor (Tokeniser.new s d) (s.splitOnP (oneOf d)) :=
  ⟨Tokeniser.inv_new hs d, by simp [Tokeniser.new, Tokeniser.rest]⟩

theorem cursor_nil {t : Tokeniser} (h : Cursor t []) : t.hasNext = false := by
  by_contra hn
  have hl := h.left
  simp only [Bool.not_eq_false] at hn
  rw [hn] at hl
  exact List.splitOnP_ne_nil _ _ hl.symm

theorem cursor_hasNext {t : Tokeniser} {tok : Bytes} {toks : List Bytes} (h : Cursor t (tok :: toks)) :
    t.hasNext = true := by
  by_contra hn
  simpa [hn] using h.left

theorem nextToken_cursor {t : Tokeniser} {tok : Bytes} {toks : List Bytes} (h : Cursor t (tok :: toks)) :
    ∃ t', Kata.nextToken t = .ok (tok, t') ∧ Cursor t' toks := by
  have hn := cursor_hasNext h
  have hl := h.left
  rw [if_pos hn] at hl
  cases ha : t.ahead with
  | none =>
    rw [Cut.splitOnP_of_findIdx?_none ha] at hl
    cases hl
    refine ⟨_, Tokeniser.nextToken_last h.inv ha, ⟨⟨h.inv.fits, ?_, rfl⟩, rfl⟩⟩
    simp
  | some i =>
    rw [Cut.splitOnP_of_findIdx?_some ha] at hl
    cases hl
    obtain ⟨t', ht', hinv, hstr, hdelims, hnext, hoff⟩ := Tokeniser.nextToken_more h.inv ha
    refine ⟨t', ht', hinv, ?_⟩
    simp only [hnext, hn, ↓reduceIte, Tokeniser.rest, hstr, hdelims, hoff, List.drop_drop, Nat.add_assoc]

theorem foldlM_push : ∀ (xs acc : List Bytes),
    xs.foldlM (fun acc tok => .ok (acc ++ [tok])) acc = (.ok (acc ++ xs) : Except Exn (List Bytes))
  | [], acc => by simp [pure, Except.pure]
  | x :: xs, acc => by
    rw [List.foldlM_cons]
    exact (foldlM_push xs (acc ++ [x])).trans (by simp)

theorem drainStep_cursor {t : Tokeniser} {tok : Bytes} {toks : List Bytes} (acc : List Bytes)
    (h : Cursor t (tok :: toks)) :
    ∃ t', Cursor t' toks ∧ Halts (drainStep Kata.nextToken (t, acc)) (.ok (t', acc ++ [tok])) := by
  obtain ⟨t', ht', hc⟩ := nextToken_cursor h
  refine ⟨t', hc, ?_⟩
  simp only [drainStep, ht']
  exact (halts_bind_ok (halts_ofExcept.2 rfl)).2 (halts_pure.2 rfl)

theorem drain_halts {next : Tokeniser → Except Exn (Bytes × Tokeniser)}
    (hnext : next ∈ [Kata.nextToken, Chat.nextToken]) {t : Tokeniser} {toks : List Bytes} (h : Cursor t toks) :
    ∃ t', Halts (drain next t) (.ok (t', toks)) := by
  obtain rfl : next = Kata.nextToken := by simpa [nextToken_eq] using hnext
  obtain ⟨t', ht'⟩ := halts_while_fold (fun st => st.1.hasNext) (drainStep Kata.nextToken) Cursor
    (fun acc tok => .ok (acc ++ [tok])) (fun _ _ => cursor_nil)
    (fun _ acc _ _ h => ⟨cursor_hasNext h, drainStep_cursor acc h⟩) toks t [] h
  rw [foldlM_push] at ht'
  exact ⟨t', ht'⟩

/-- **Nothing is lost, duplicated or moved.** For both copies, on every text and every delimiter
string: the loop takes one token more than there are delimiter characters in the text, no token
holds a delimiter, and putting the delimiters back between the tokens gives the text. No other list
of tokens does that. -/
theorem tokens_restore_text {next : Tokeniser → Except Exn (Bytes × Tokeniser)}
    (hnext : next ∈ [Kata.nextToken, Chat.nextToken]) {s : Bytes} (hs : Fits s) (d : Bytes) :
    ∃ t' toks, Halts (drain next (Tokeniser.new s d)) (.ok (t', toks)) ∧
      toks.length = 1 + s.countP (oneOf d) ∧
      (∀ tok ∈ toks, ∀ c ∈ tok, c ∉ d) ∧
      Cut.weave toks (s.filter (oneOf d)) = s ∧
      ∀ toks' : List Bytes, toks'.length = 1 + s.countP (oneOf d) → (∀ tok ∈ toks', ∀ c ∈ tok, c ∉ d) →
        Cut.weave toks' (s.filter (oneOf d)) = s → toks' = toks := by
  obtain ⟨t', ht'⟩ := drain_halts hnext (cursor_new hs d)
  refine ⟨t', _, ht', by rw [Cut.length_splitOnP, Nat.add_comm], ?_, Cut.weave_splitOnP s, ?_⟩
  · intro tok htok c hc
    exact oneOf_false_iff.1 (Cut.free_of_mem_splitOnP tok htok c hc)
  · intro toks' hlen hfree hweave
    exact Cut.splitOnP_unique (by omega) (fun tok htok c hc => oneOf_false_iff.2 (hfree tok htok c hc)) hweave

theorem tokens_restore_text_empty_tokens : ∃ t' toks,
    Halts (drain Kata.nextToken (Tokeniser.new (lit ",1;,") (lit ",;"))) (.ok (t', toks)) ∧
      toks = [lit "", lit "1", lit "", lit ""] := by
  obtain ⟨t', toks, h, hlen, hfree, hweave, huniq⟩ :=
    @tokens_restore_text Kata.nextToken (by simp) (lit ",1;,") (by decide) (lit ",;")
  exact ⟨t', toks, h, (huniq _ (by decide) (by decide) (by decide)).symm⟩

end CalcChatter

import CalcChatter.Lib.Machine
import CalcChatter.Tokeniser

/-!
# Calls of a tokeniser past the end (string_calculator_kata.cc:19-30, Chatter/Tokeniser.h:14-25)

Nothing stops a caller from asking for a token when `HasNext` is false. The cursor has wrapped to the
start by then, so the tokens come round again, and only `has_next` remembers.

| here | there |
| --- | --- |
| `Call`      | a call of `HasNext` or of `NextToken` |
| `tokeniser` | a `Tokeniser` under calls in any order; no step where `substr` throws |
| `wheel`     | the tokens in a circle, and the number of `NextToken` calls made so far |

`Turned` relates the two, `nextToken_turned` is the step, and `tokeniser_turns` the law over all
sequences of calls.
-/

namespace CalcChatter

open Cxx Lts

inductive Call where
  | hasNext
  | nextToken
deriving DecidableEq

/-- What a call returns. -/
inductive Answer where
  | more (b : Bool)
  | token (tok : Bytes)
deriving DecidableEq

def tokeniser (next : Tokeniser → Except Exn (Bytes × Tokeniser)) : Machine Tokeniser Call Answer where
  step t
    | .hasNext => some (t, [.more t.hasNext])
    | .nextToken =>
      match next t with
      | .ok (tok, t') => some (t', [.token tok])
      | .error _ => none

/-- The tokens in a circle; there are more to come until each was given once. -/
def wheel (toks : List Bytes) : Machine Nat Call Answer where
  step calls
    | .hasNext => some (calls, [.more (calls < toks.length)])
    | .nextToken => toks[calls % toks.length]?.map fun tok => (calls + 1, [.token tok])

/-- The tokens among the answers. -/
def given (out : List Answer) : List Bytes :=
  out.filterMap fun
    | .token tok => some tok
    | .more _ => none

def nextCalls (calls : List Call) : Nat := calls.count .nextToken

/-- `pos` is the position of the first delimiter at or after `offset`, or `npos` if there is none. -/
def FirstDelimiter (s d : Bytes) (offset pos : SizeT) : Prop :=
  (pos = npos ∧ ∀ i c, offset.toNat ≤ i → s[i]? = some c → c ∉ d) ∨
  (offset ≤ pos ∧ (∃ c, s[pos.toNat]? = some c ∧ c ∈ d) ∧
    ∀ i c, offset.toNat ≤ i → i < pos.toNat → s[i]? = some c → c ∉ d)

/-! ## The wheel -/

section Wheel

variable {toks : List Bytes}

theorem succ_mod {n : Nat} (hn : 0 < n) (k : Nat) :
    (k % n + 1 = n ∧ (k + 1) % n = 0) ∨ (k % n + 1 < n ∧ (k + 1) % n = k % n + 1) := by
  have hlt := Nat.mod_lt k hn
  rw [← Nat.mod_add_mod]
  rcases Nat.lt_or_eq_of_le (Nat.succ_le_of_lt hlt) with h | h
  · exact .inr ⟨h, Nat.mod_eq_of_lt h⟩
  · exact .inl ⟨h, by rw [← Nat.succ_eq_add_one, h, Nat.mod_self]⟩

theorem wheel_total (h : toks ≠ []) (calls : Nat) (a : Call) : ∃ r, (wheel toks).step calls a = some r := by
  cases a with
  | hasNext => exact ⟨_, rfl⟩
  | nextToken =>
    have hlt := Nat.mod_lt calls (List.length_pos_iff.2 h)
    exact ⟨(calls + 1, [.token toks[calls % toks.length]]), by simp [wheel, List.getElem?_eq_getElem hlt]⟩

/-- The wheel counts the calls, and gives the tokens round and round. -/
theorem run_wheel {calls : List Call} {n : Nat} {out : List Answer}
    (h : run (wheel toks) 0 calls = some (n, out)) :
    n = nextCalls calls ∧ (given out).length = n ∧ ∀ k < n, (given out)[k]? = toks[k % toks.length]? := by
  refine run_induction (fun calls n out => n = nextCalls calls ∧ (given out).length = n ∧
    ∀ k < n, (given out)[k]? = toks[k % toks.length]?) ⟨rfl, rfl, fun _ hk => absurd hk (Nat.not_lt_zero _)⟩ ?_ h
  rintro calls n out a n' o - ⟨hn, hlen, htoks⟩ hstep
  cases a with
  | hasNext =>
    cases hstep
    have hout : given (out ++ [.more (n < toks.length)]) = given out := by simp [given]
    rw [hout]
    exact ⟨by simpa [nextCalls] using hn, hlen, htoks⟩
  | nextToken =>
    obtain ⟨tok, htok, he⟩ := Option.map_eq_some_iff.1 hstep
    cases he
    have hout : given (out ++ [.token tok]) = given out ++ [tok] := by simp [given]
    rw [hout]
    refine ⟨by simpa [nextCalls] using hn, by simp [hlen], ?_⟩
    intro k hk
    rcases Nat.lt_or_eq_of_le (Nat.le_of_lt_succ hk) with hlt | rfl
    · rw [List.getElem?_append_left (by omega), htoks k hlt]
    · rw [List.getElem?_append_right (by omega), hlen, Nat.sub_self, htok]
      rfl

end Wheel

/-! ## The tokeniser as a wheel -/

/-- The tokens of a text. -/
def tokensOf (s d : Bytes) : List Bytes := s.splitOnP (oneOf d)

theorem length_tokensOf (s d : Bytes) : (tokensOf s d).length = 1 + s.countP (oneOf d) := by
  rw [tokensOf, Cut.length_splitOnP, Nat.add_comm]

theorem tokensOf_pos (s d : Bytes) : 0 < (tokensOf s d).length := by
  rw [length_tokensOf]
  omega

/-- The tokeniser of a text after some calls of `NextToken`. -/
structure Turned (s d : Bytes) (calls : Nat) (t : Tokeniser) : Prop where
  inv : t.Inv
  str_eq : t.str = s
  delims_eq : t.delims = d
  offset_eq : t.offset.toNat = Cut.room ((tokensOf s d).take (calls % (tokensOf s d).length))
  rest_eq : tokensOf t.rest d = (tokensOf s d).drop (calls % (tokensOf s d).length)
  hasNext_eq : t.hasNext = decide (calls < (tokensOf s d).length)

theorem turned_new {s : Bytes} (hs : Fits s) (d : Bytes) : Turned s d 0 (.new s d) where
  inv := Tokeniser.inv_new hs d
  str_eq := rfl
  delims_eq := rfl
  offset_eq := by simp [Tokeniser.new]
  rest_eq := by simp [Tokeniser.new, Tokeniser.rest]
  hasNext_eq := by simp [Tokeniser.new, tokensOf_pos]

theorem room_take_succ {toks : List Bytes} {k : Nat} {tok : Bytes} (h : toks[k]? = some tok) :
    Cut.room (toks.take (k + 1)) = Cut.room (toks.take k) + tok.length + 1 := by
  induction toks generalizing k with
  | nil => simp at h
  | cons t toks ih =>
    cases k with
    | zero =>
      obtain rfl : t = tok := by simpa using h
      simp
    | succ k =>
      rw [List.take_succ_cons, List.take_succ_cons, Cut.room_cons, Cut.room_cons, ih (by simpa using h)]
      omega

/-- A list that is cut off at `k` has the first element of the rest at `k`. -/
theorem getElem?_of_drop {toks rest : List Bytes} {k : Nat} {tok : Bytes} (h : toks.drop k = tok :: rest) :
    toks[k]? = some tok ∧ toks.drop (k + 1) = rest ∧ toks.length = k + 1 + rest.length := by
  have hlen := congrArg List.length h
  rw [List.length_drop, List.length_cons] at hlen
  refine ⟨?_, ?_, by omega⟩
  · have hhead := congrArg List.head? h
    rwa [List.head?_drop] at hhead
  · rw [← List.tail_drop, h, List.tail_cons]

/-- A call of `NextToken` gives the token the wheel gives, also when `has_next` is false. -/
theorem nextToken_turned {s d : Bytes} {calls : Nat} {t : Tokeniser} (h : Turned s d calls t) :
    ∃ tok t', Kata.nextToken t = .ok (tok, t') ∧ (tokensOf s d)[calls % (tokensOf s d).length]? = some tok ∧
      Turned s d (calls + 1) t' := by
  obtain ⟨hinv, rfl, rfl, hoff, hrest, hnext⟩ := h
  have hmod := succ_mod (tokensOf_pos t.str t.delims) calls
  have hle : calls % (tokensOf t.str t.delims).length ≤ calls := Nat.mod_le _ _
  cases ha : t.ahead with
  | none =>
    -- the last token: the cursor wraps to the start
    have hone : tokensOf t.rest t.delims = [t.rest] := Cut.splitOnP_of_findIdx?_none ha
    obtain ⟨htok, -, hlen⟩ := getElem?_of_drop (hrest.symm.trans hone)
    obtain ⟨-, hzero⟩ := hmod.resolve_right fun hmore => by simp only [List.length_nil] at hlen; omega
    refine ⟨t.rest, _, Tokeniser.nextToken_last hinv ha, htok, ⟨⟨hinv.fits, ?_, rfl⟩, rfl, rfl, ?_, ?_, ?_⟩⟩
    · simp
    · rw [hzero]
      rfl
    · rw [hzero]
      rfl
    · simp only [List.length_nil] at hlen
      rw [eq_comm, decide_eq_false_iff_not]
      omega
  | some i =>
    -- there is a delimiter ahead, and the next token behind it
    obtain ⟨t', ht', hinv', hstr, hdelims, hnext', hoff'⟩ := Tokeniser.nextToken_more hinv ha
    have hcut : tokensOf t.rest t.delims = t.rest.take i :: tokensOf (t.rest.drop (i + 1)) t.delims :=
      Cut.splitOnP_of_findIdx?_some ha
    obtain ⟨htok, hdrop, hlen⟩ := getElem?_of_drop (hrest.symm.trans hcut)
    have hmore := tokensOf_pos (t.rest.drop (i + 1)) t.delims
    obtain ⟨hlt, hsucc⟩ := hmod.resolve_left fun hlast => by omega
    have hi : i < t.rest.length := (List.findIdx?_eq_some_iff_getElem.1 ha).1
    refine ⟨_, t', ht', htok, ⟨hinv', hstr, hdelims, ?_, ?_, ?_⟩⟩
    · rw [hsucc, room_take_succ htok, hoff', hoff, List.length_take]
      omega
    · rw [hsucc, hdrop, Tokeniser.rest, hstr, hoff', Nat.add_assoc, ← List.drop_drop]
      rfl
    · rw [hnext', hnext, decide_eq_decide]
      constructor
      · intro hcalls
        rw [Nat.mod_eq_of_lt hcalls] at hlt
        exact hlt
      · omega

/-- A step of the wheel is a step of the tokeniser. -/
theorem step_turned {s d : Bytes} {n n' : Nat} {t : Tokeniser} {a : Call} {o : List Answer} (h : Turned s d n t)
    (hstep : (wheel (tokensOf s d)).step n a = some (n', o)) :
    ∃ t', (tokeniser Kata.nextToken).step t a = some (t', o) ∧ Turned s d n' t' := by
  cases a with
  | hasNext =>
    cases hstep
    exact ⟨t, by simp [tokeniser, h.hasNext_eq], h⟩
  | nextToken =>
    obtain ⟨tok, t', ht', htok, hturned⟩ := nextToken_turned h
    simp only [wheel, htok, Option.map_some, Option.some.injEq, Prod.mk.injEq] at hstep
    obtain ⟨rfl, rfl⟩ := hstep
    exact ⟨t', by simp [tokeniser, ht'], hturned⟩

theorem firstDelimiter_of_inv {t : Tokeniser} (h : t.Inv) : FirstDelimiter t.str t.delims t.offset t.delimPos := by
  have hget : ∀ i c, t.offset.toNat ≤ i → t.str[i]? = some c → t.rest[i - t.offset.toNat]? = some c := by
    intro i c hi hc
    rwa [Tokeniser.rest, List.getElem?_drop, Nat.add_sub_cancel' hi]
  rw [h.delimPos_eq]
  cases ha : t.ahead with
  | none =>
    refine .inl ⟨findFrom_none ha, ?_⟩
    intro i c hi hc
    have hfree := List.findIdx?_eq_none_iff.1 ha c (List.mem_of_getElem? (hget i c hi hc))
    exact oneOf_false_iff.1 hfree
  | some j =>
    obtain ⟨hpos, hlt⟩ := findFrom_some h.fits ha
    obtain ⟨hj, hdelim, hbefore⟩ := List.findIdx?_eq_some_iff_getElem.1 ha
    refine .inr ⟨?_, ⟨t.rest[j], ?_, oneOf_iff.1 hdelim⟩, ?_⟩
    · rw [UInt64.le_iff_toNat_le, findFirstOf, hpos]
      omega
    · rw [findFirstOf, hpos, ← List.getElem?_drop]
      exact List.getElem?_eq_getElem hj
    · intro i c hi hlt' hc
      rw [findFirstOf, hpos] at hlt'
      obtain ⟨hi', hc'⟩ := List.getElem?_eq_some_iff.1 (hget i c hi hc)
      have hno := hbefore (i - t.offset.toNat) (by omega)
      rw [hc'] at hno
      simpa using hno

/-- **A tokeniser goes round.** For both copies, every text, every delimiter string and every sequence
of calls, also past the end: no `substr` throws, the offset stays within the text, and `delim_pos` is
the first delimiter from there on. With `n` one more than the number of delimiter characters,
`has_next` is true exactly before the `n`-th call of `NextToken`, every token comes again `n` calls
later, and after every `n` calls the cursor is at the start. All answers are those of the wheel. -/
theorem tokeniser_turns {next : Tokeniser → Except Exn (Bytes × Tokeniser)}
    (hnext : next ∈ [Kata.nextToken, Chat.nextToken]) {s : Bytes} (hs : Fits s) (d : Bytes) (calls : List Call) :
    ∃ t out, run (tokeniser next) (.new s d) calls = some (t, out) ∧
      run (wheel (tokensOf s d)) 0 calls = some (nextCalls calls, out) ∧
      t.offset.toNat ≤ s.length ∧ FirstDelimiter s d t.offset t.delimPos ∧
      (t.hasNext = true ↔ nextCalls calls < 1 + s.countP (oneOf d)) ∧
      (given out).length = nextCalls calls ∧
      (∀ k, 1 + s.countP (oneOf d) + k < nextCalls calls →
        (given out)[1 + s.countP (oneOf d) + k]? = (given out)[k]?) ∧
      (1 + s.countP (oneOf d) ∣ nextCalls calls → t.offset = 0 ∧ t.delimPos = findFirstOf s d 0) := by
  obtain rfl : next = Kata.nextToken := by simpa [nextToken_eq] using hnext
  obtain ⟨n, out, hwheel⟩ := run_total (wheel_total (List.ne_nil_of_length_pos (tokensOf_pos s d))) calls 0
  obtain ⟨t, hrun, hturned⟩ := run_simulates (Turned s d) (fun _ _ _ _ _ => step_turned) (turned_new hs d) hwheel
  obtain ⟨rfl, hlen, htoks⟩ := run_wheel hwheel
  rw [← length_tokensOf]
  refine ⟨t, out, hrun, hwheel, ?_, ?_, ?_, hlen, ?_, ?_⟩
  · have hle := hturned.inv.offset_le
    rwa [hturned.str_eq] at hle
  · have hfirst := firstDelimiter_of_inv hturned.inv
    rwa [hturned.str_eq, hturned.delims_eq] at hfirst
  · rw [hturned.hasNext_eq, decide_eq_true_iff]
  · intro k hk
    rw [htoks _ hk, htoks k (by omega), Nat.add_mod_left]
  · intro hdvd
    have hoff := hturned.offset_eq
    rw [Nat.mod_eq_zero_of_dvd hdvd, List.take_zero, Cut.room_nil] at hoff
    have hzero : t.offset = 0 := UInt64.toNat_inj.1 hoff
    refine ⟨hzero, ?_⟩
    rw [hturned.inv.delimPos_eq, hturned.str_eq, hturned.delims_eq, hzero]

/-- Five calls of `NextToken` on a text with two tokens, the last three past the end. -/
def fiveCalls : List Call := [.nextToken, .hasNext, .nextToken, .hasNext, .nextToken, .nextToken, .hasNext, .nextToken]

theorem tokeniser_turns_past_end : ∃ t out, run (tokeniser Chat.nextToken) (.new (lit "a:b") (lit ":")) fiveCalls =
      some (t, out) ∧ given out = [lit "a", lit "b", lit "a", lit "b", lit "a"] ∧ t.hasNext = false ∧
      (given out)[2]? = (given out)[0]? := by
  have hrun : ∃ t out, run (tokeniser Chat.nextToken) (.new (lit "a:b") (lit ":")) fiveCalls = some (t, out) ∧
      given out = [lit "a", lit "b", lit "a", lit "b", lit "a"] := ⟨_, _, rfl, rfl⟩
  obtain ⟨t, out, hrun, hgiven⟩ := hrun
  obtain ⟨t', out', hrun', -, -, -, hnext, -, hround, -⟩ :=
    @tokeniser_turns Chat.nextToken (by simp) (lit "a:b") (by decide) (lit ":") fiveCalls
  obtain ⟨rfl, rfl⟩ := run_unique hrun hrun'
  refine ⟨t, out, hrun, hgiven, ?_, hround 0 (by decide)⟩
  cases h : t.hasNext with
  | false => rfl
  | true => exact absurd (hnext.1 h) (by decide)

end CalcChatter

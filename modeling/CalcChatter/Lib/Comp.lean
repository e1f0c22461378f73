import Mathlib.Data.Nat.Basic

/-!
# Computations that may throw and may not end

`Comp ε α` is what a program with exceptions and `while` loops computes. `run n` allows every loop
at most `n` passes and is `none` when that is not enough, so a computation is evaluated by giving it
a bound, and it ends when some bound is enough (`Halts`). A larger bound never changes the outcome:
this is a field of the structure, and it makes the outcome unique (`Halts.unique`).

The rules: `halts_bind_iff` for sequencing, `halts_iter_next` / `halts_iter_done` /
`halts_iter_error` for one pass of a loop, `not_halts_iter` for a loop that never ends,
`iter_invariant` for what holds whenever a loop ends, `Passes.invariant` for what holds after every
pass, `halts_while_fold` for a loop that draws its items one by one from its state, and `iter_related` for
two loops whose passes are alike.
-/

namespace Fuel

variable {ε ε' α β σ τ : Type}

/-- The outcome under a bound on the passes of each loop. -/
structure Comp (ε α : Type) where
  run : Nat → Option (Except ε α)
  mono : ∀ {m n r}, m ≤ n → run m = some r → run n = some r

namespace Comp

def ofExcept (r : Except ε α) : Comp ε α := ⟨fun _ => some r, fun _ h => h⟩

/-- What follows once the first outcome is known. -/
def thenRun (n : Nat) (f : α → Comp ε β) : Option (Except ε α) → Option (Except ε β)
  | none => none
  | some (.error e) => some (.error e)
  | some (.ok a) => (f a).run n

theorem thenRun_mono {m n : Nat} (h : m ≤ n) (f : α → Comp ε β) {o o' : Option (Except ε α)} {r : Except ε β}
    (ho : ∀ x, o = some x → o' = some x) (hr : thenRun m f o = some r) : thenRun n f o' = some r := by
  match o, hr with
  | some (.error e), hr => rw [ho _ rfl]; exact hr
  | some (.ok a), hr => rw [ho _ rfl]; exact (f a).mono h hr

def andThen (c : Comp ε α) (f : α → Comp ε β) : Comp ε β where
  run n := thenRun n f (c.run n)
  mono h hr := thenRun_mono h f (fun _ hx => c.mono h hx) hr

instance : Monad (Comp ε) where
  pure a := ofExcept (.ok a)
  bind := andThen

instance : MonadLift (Except ε) (Comp ε) := ⟨ofExcept⟩

/-- The same computation with its exception replaced. -/
def mapError (g : ε → ε') (c : Comp ε α) : Comp ε' α where
  run n := (c.run n).map (Except.mapError g)
  mono {m n r} h hr := by
    obtain ⟨x, hx, rfl⟩ := Option.map_eq_some_iff.1 hr
    rw [c.mono h hx]; rfl

/-- At most `k` passes of a loop whose body may use `n` passes in its own loops. The body says how
to go on: `inl` is the next state, `inr` leaves the loop. -/
def iterN (body : σ → Comp ε (σ ⊕ α)) (n : Nat) : Nat → σ → Option (Except ε α)
  | 0, _ => none
  | k + 1, s =>
    match (body s).run n with
    | none => none
    | some (.error e) => some (.error e)
    | some (.ok (.inr a)) => some (.ok a)
    | some (.ok (.inl s')) => iterN body n k s'

theorem iterN_mono (body : σ → Comp ε (σ ⊕ α)) {m n : Nat} (h : m ≤ n) :
    ∀ {k l : Nat} {s : σ} {r : Except ε α}, k ≤ l → iterN body m k s = some r → iterN body n l s = some r
  | 0, _, _, _, _, hr => by simp [iterN] at hr
  | _ + 1, 0, _, _, hkl, _ => by omega
  | k + 1, l + 1, s, r, hkl, hr => by
    simp only [iterN] at hr ⊢
    cases hb : (body s).run m with
    | none => simp [hb] at hr
    | some o =>
      rw [(body s).mono h hb]
      rw [hb] at hr
      match o, hr with
      | .error e, hr => exact hr
      | .ok (.inr a), hr => exact hr
      | .ok (.inl s'), hr => exact iterN_mono body h (by omega) hr

/-- `while (true)`, left from inside the body. -/
def iter (body : σ → Comp ε (σ ⊕ α)) (s : σ) : Comp ε α where
  run n := iterN body n n s
  mono h hr := iterN_mono body h h hr

/-- `while (cond)` over the variables `s`. -/
def whileLoop (cond : σ → Bool) (body : σ → Comp ε σ) : σ → Comp ε σ :=
  iter fun s => if cond s then body s >>= fun s' => pure (.inl s') else pure (.inr s)

/-! ## Halting -/

/-- The computation ends with outcome `r`. -/
def Halts (c : Comp ε α) (r : Except ε α) : Prop := ∃ n, c.run n = some r

theorem Halts.unique {c : Comp ε α} {r r' : Except ε α} (h : Halts c r) (h' : Halts c r') : r = r' := by
  obtain ⟨n, hn⟩ := h
  obtain ⟨m, hm⟩ := h'
  have h1 := c.mono (Nat.le_max_left n m) hn
  have h2 := c.mono (Nat.le_max_right n m) hm
  exact Option.some.inj (h1.symm.trans h2)

/-- Once one outcome is known, `Halts` is equality with it. -/
theorem Halts.iff_eq {c : Comp ε α} {r r' : Except ε α} (h : Halts c r) : Halts c r' ↔ r' = r :=
  ⟨fun h' => h'.unique h, fun e => e ▸ h⟩

@[simp] theorem halts_ofExcept {r r' : Except ε α} : Halts (ofExcept r) r' ↔ r' = r := by
  simp [Halts, ofExcept, eq_comm]

@[simp] theorem halts_pure {a : α} {r : Except ε α} : Halts (pure a : Comp ε α) r ↔ r = .ok a :=
  halts_ofExcept

theorem halts_bind_iff {c : Comp ε α} {f : α → Comp ε β} {r : Except ε β} :
    Halts (c >>= f) r ↔ (∃ e, Halts c (.error e) ∧ r = .error e) ∨ ∃ a, Halts c (.ok a) ∧ Halts (f a) r := by
  constructor
  · rintro ⟨n, hn⟩
    change thenRun n f (c.run n) = some r at hn
    cases hc : c.run n with
    | none => simp [hc, thenRun] at hn
    | some o =>
      rw [hc] at hn
      match o, hc, hn with
      | .error e, hc, hn => exact .inl ⟨e, ⟨n, hc⟩, by simpa [thenRun, eq_comm] using hn⟩
      | .ok a, hc, hn => exact .inr ⟨a, ⟨n, hc⟩, ⟨n, hn⟩⟩
  · rintro (⟨e, ⟨n, hn⟩, rfl⟩ | ⟨a, ⟨n, hn⟩, ⟨m, hm⟩⟩)
    · exact ⟨n, by change thenRun n f (c.run n) = _; rw [hn]; rfl⟩
    · refine ⟨max n m, ?_⟩
      change thenRun _ f (c.run _) = _
      rw [c.mono (Nat.le_max_left n m) hn]
      exact (f a).mono (Nat.le_max_right n m) hm

theorem halts_bind_ok {c : Comp ε α} {f : α → Comp ε β} {a : α} {r : Except ε β} (hc : Halts c (.ok a)) :
    Halts (c >>= f) r ↔ Halts (f a) r := by
  rw [halts_bind_iff]
  constructor
  · rintro (⟨e, he, -⟩ | ⟨a', ha', hf⟩)
    · cases hc.unique he
    · cases hc.unique ha'; exact hf
  · exact fun hf => .inr ⟨a, hc, hf⟩

theorem halts_bind_error {c : Comp ε α} {f : α → Comp ε β} {e : ε} (hc : Halts c (.error e)) :
    Halts (c >>= f) (.error e) := halts_bind_iff.2 (.inl ⟨e, hc, rfl⟩)

theorem halts_mapError {g : ε → ε'} {c : Comp ε α} {r : Except ε α} (hc : Halts c r) :
    Halts (c.mapError g) (r.mapError g) := by
  obtain ⟨n, hn⟩ := hc
  exact ⟨n, by simp [mapError, hn]⟩

/-- What ends with its exception replaced has ended with its own one. -/
theorem Halts.of_mapError {g : ε → ε'} {c : Comp ε α} {r : Except ε' α} (h : Halts (c.mapError g) r) :
    ∃ r', Halts c r' := by
  obtain ⟨n, hn⟩ := h
  obtain ⟨r', hr', -⟩ := Option.map_eq_some_iff.1 hn
  exact ⟨r', n, hr'⟩

/-! ## Loops -/

variable {body : σ → Comp ε (σ ⊕ α)} {s s' : σ}

theorem iterN_succ_inl {n k : Nat} (h : (body s).run n = some (.ok (.inl s'))) :
    iterN body n (k + 1) s = iterN body n k s' := by simp [iterN, h]

theorem halts_iter_next (hb : Halts (body s) (.ok (.inl s'))) {r : Except ε α} :
    Halts (iter body s) r ↔ Halts (iter body s') r := by
  obtain ⟨b, hb⟩ := hb
  constructor
  · rintro ⟨n, hn⟩
    have hn' := iterN_mono body (Nat.le_max_left n b) (Nat.le_succ_of_le (Nat.le_max_left n b)) hn
    rw [iterN_succ_inl ((body s).mono (Nat.le_max_right n b) hb)] at hn'
    exact ⟨_, hn'⟩
  · rintro ⟨n, hn⟩
    have hle : n ≤ max n b := Nat.le_max_left n b
    have hn' : iterN body (max n b + 1) (max n b) s' = some r := iterN_mono body (by omega) hle hn
    refine ⟨max n b + 1, ?_⟩
    change iterN body _ _ s = _
    rw [iterN_succ_inl ((body s).mono (by omega) hb)]
    exact hn'

theorem halts_iter_done {a : α} (hb : Halts (body s) (.ok (.inr a))) : Halts (iter body s) (.ok a) := by
  obtain ⟨b, hb⟩ := hb
  refine ⟨b + 1, ?_⟩
  change iterN body _ _ s = _
  simp [iterN, (body s).mono (Nat.le_succ b) hb]

theorem halts_iter_error {e : ε} (hb : Halts (body s) (.error e)) : Halts (iter body s) (.error e) := by
  obtain ⟨b, hb⟩ := hb
  refine ⟨b + 1, ?_⟩
  change iterN body _ _ s = _
  simp [iterN, (body s).mono (Nat.le_succ b) hb]

/-- A loop that always has a next state in `I` never ends. -/
theorem not_halts_iter (I : σ → Prop) (hI : ∀ s, I s → ∃ s', I s' ∧ Halts (body s) (.ok (.inl s')))
    (hs : I s) (r : Except ε α) : ¬ Halts (iter body s) r := by
  have key : ∀ (n k : Nat) (s : σ), I s → iterN body n k s ≠ some r := by
    intro n k
    induction k with
    | zero => intro s _; simp [iterN]
    | succ k ih =>
      intro s hs hr
      obtain ⟨s', hs', b, hb⟩ := hI s hs
      have hr' := iterN_mono body (Nat.le_max_left n b) (Nat.le_refl (k + 1)) hr
      cases hn : (body s).run n with
      | none => simp [iterN, hn] at hr
      | some o =>
        -- the two bounds agree on the pass, so it went on to `s'`
        have ho : o = .ok (.inl s') := Halts.unique ⟨n, hn⟩ ⟨b, hb⟩
        rw [iterN_succ_inl (hn.trans (congrArg some ho))] at hr
        exact ih s' hs' hr
  rintro ⟨n, hn⟩
  exact key n n s hs hn

/-- What holds before every pass, with what a pass that leaves the loop makes of it. -/
theorem iter_invariant (I : σ → Prop) (Q : Except ε α → Prop) (hs : I s)
    (hnext : ∀ s s', I s → Halts (body s) (.ok (.inl s')) → I s')
    (hdone : ∀ s a, I s → Halts (body s) (.ok (.inr a)) → Q (.ok a))
    (herr : ∀ s e, I s → Halts (body s) (.error e) → Q (.error e)) {r : Except ε α} (h : Halts (iter body s) r) :
    Q r := by
  have key : ∀ (n k : Nat) (s : σ), I s → iterN body n k s = some r → Q r := by
    intro n k
    induction k with
    | zero => intro s _ hr; simp [iterN] at hr
    | succ k ih =>
      intro s hs hr
      simp only [iterN] at hr
      cases hb : (body s).run n with
      | none => simp [hb] at hr
      | some o =>
        rw [hb] at hr
        match o, hb, hr with
        | .error e, hb, hr => cases hr; exact herr s e hs ⟨n, hb⟩
        | .ok (.inr a), hb, hr => cases hr; exact hdone s a hs ⟨n, hb⟩
        | .ok (.inl s'), hb, hr => exact ih s' (hnext s s' hs ⟨n, hb⟩) hr
  obtain ⟨n, hn⟩ := h
  exact key n n s hs hn

section While

variable {cond : σ → Bool} {step : σ → Comp ε σ}

theorem halts_while_done (hc : cond s = false) : Halts (whileLoop cond step s) (.ok s) :=
  halts_iter_done (by simp [hc])

theorem halts_while_next (hc : cond s = true) (hb : Halts (step s) (.ok s')) {r : Except ε σ} :
    Halts (whileLoop cond step s) r ↔ Halts (whileLoop cond step s') r :=
  halts_iter_next (by simp [hc, halts_bind_ok hb])

theorem halts_while_error (hc : cond s = true) {e : ε} (hb : Halts (step s) (.error e)) :
    Halts (whileLoop cond step s) (.error e) :=
  halts_iter_error (by simpa [hc] using halts_bind_error hb)

end While

/-- The states that `while (cond)` has before its passes and after the last one, from `s` on. -/
inductive Passes (cond : σ → Bool) (step : σ → Comp ε σ) (s : σ) : σ → Prop where
  | start : Passes cond step s s
  | pass {t t'} : Passes cond step s t → cond t = true → Halts (step t) (.ok t') → Passes cond step s t'

theorem Passes.invariant {cond : σ → Bool} {step : σ → Comp ε σ} {t : σ} (I : σ → Prop) (hs : I s)
    (hstep : ∀ u u', I u → cond u = true → Halts (step u) (.ok u') → I u') (h : Passes cond step s t) : I t := by
  induction h with
  | start => exact hs
  | pass _ hc hb ih => exact hstep _ _ ih hc hb

/-- A loop that ends has made its last pass. -/
theorem halts_while_passes {cond : σ → Bool} {step : σ → Comp ε σ} {t : σ}
    (h : Halts (whileLoop cond step s) (.ok t)) : Passes cond step s t ∧ cond t = false := by
  refine iter_invariant (Passes cond step s) (fun r => ∀ t, r = .ok t → Passes cond step s t ∧ cond t = false)
    .start ?_ ?_ (by simp) h t rfl
  · intro u u' hu hb
    cases hc : cond u with
    | false => simp [hc] at hb
    | true =>
      rw [hc, if_pos rfl] at hb
      obtain ⟨v, hv, hp⟩ := (halts_bind_iff.1 hb).resolve_left (by simp)
      obtain rfl : u' = v := by simpa using hp
      exact hu.pass hc hv
  · intro u a hu hb t ht
    cases hc : cond u with
    | false =>
      obtain rfl : a = u := by simpa [hc] using hb
      cases ht
      exact ⟨hu, hc⟩
    | true =>
      rw [hc, if_pos rfl] at hb
      obtain ⟨v, -, hp⟩ := (halts_bind_iff.1 hb).resolve_left (by simp)
      simp at hp

/-- A loop that draws the items `xs` one after another from `s` (`R s xs`: what is left in `s` is
`xs`) and folds them into `b` computes `xs.foldlM f b`. -/
theorem halts_while_fold (cond : σ × β → Bool) (step : σ × β → Comp ε (σ × β)) (R : σ → List τ → Prop)
    (f : β → τ → Except ε β) (hnil : ∀ s b, R s [] → cond (s, b) = false)
    (hcons : ∀ s b x xs, R s (x :: xs) →
      cond (s, b) = true ∧ ∃ s', R s' xs ∧ Halts (step (s, b)) ((f b x).map (s', ·))) :
    ∀ (xs : List τ) (s : σ) (b : β), R s xs →
      ∃ s', Halts (whileLoop cond step (s, b)) ((xs.foldlM f b).map (s', ·))
  | [], s, b, hR => ⟨s, halts_while_done (hnil s b hR)⟩
  | x :: xs, s, b, hR => by
    obtain ⟨hc, s', hR', hstep⟩ := hcons s b x xs hR
    rw [List.foldlM_cons]
    cases hf : f b x with
    | error e =>
      rw [hf] at hstep
      exact ⟨s', halts_while_error hc hstep⟩
    | ok b' =>
      rw [hf] at hstep
      obtain ⟨s'', h⟩ := halts_while_fold cond step R f hnil hcons xs s' b' hR'
      exact ⟨s'', (halts_while_next hc hstep).2 h⟩

/-! ## The states a loop goes through -/

/-- `n` passes lead from `s` to this state. -/
inductive After (body : σ → Comp ε (σ ⊕ α)) (s : σ) : Nat → σ → Prop where
  | zero : After body s 0 s
  | pass {n t t'} : After body s n t → Halts (body t) (.ok (.inl t')) → After body s (n + 1) t'

/-- The passes behind the first one. -/
theorem After.tail {n : Nat} {t : σ} (h : After body s (n + 1) t) (hb : Halts (body s) (.ok (.inl s'))) :
    After body s' n t := by
  induction n generalizing t with
  | zero =>
    cases h with
    | pass h0 hlast =>
      cases h0
      cases hb.unique hlast
      exact .zero
  | succ n ih =>
    cases h with
    | pass hprev hlast => exact (ih hprev).pass hlast

/-- A loop that makes any number of passes never ends. -/
theorem not_halts_of_after (h : ∀ n, ∃ t, After body s n t) (r : Except ε α) : ¬ Halts (iter body s) r := by
  refine not_halts_iter (fun s => ∀ n, ∃ t, After body s n t) ?_ h r
  intro s hs
  obtain ⟨t, ht⟩ := hs 1
  cases ht with
  | pass h0 hb =>
    cases h0
    refine ⟨t, fun n => ?_, hb⟩
    obtain ⟨u, hu⟩ := hs (n + 1)
    exact ⟨u, hu.tail hb⟩

/-! ## Loops side by side -/

/-- Two ways to end that are alike. -/
inductive EndAlike (E : ε → ε' → Prop) (A : α → β → Prop) : Except ε α → Except ε' β → Prop where
  | ok {a b} (h : A a b) : EndAlike E A (.ok a) (.ok b)
  | error {e e'} (h : E e e') : EndAlike E A (.error e) (.error e')

section Related

variable {body' : τ → Comp ε' (τ ⊕ β)} {R : σ → τ → Prop} {A : α → β → Prop} {E : ε → ε' → Prop} {t : τ}

/-- Where the passes of two loops are alike, so are the loops. -/
theorem iter_related
    (hbody : ∀ s t, R s t → ∀ r, Halts (body s) r → ∃ r', Halts (body' t) r' ∧ EndAlike E (Sum.LiftRel R A) r r')
    (hR : R s t) {r : Except ε α} (h : Halts (iter body s) r) : ∃ r', Halts (iter body' t) r' ∧ EndAlike E A r r' := by
  have key : ∀ (n k : Nat) (s : σ) (t : τ), R s t → iterN body n k s = some r →
      ∃ r', Halts (iter body' t) r' ∧ EndAlike E A r r' := by
    intro n k
    induction k with
    | zero => intro s t _ hr; simp [iterN] at hr
    | succ k ih =>
      intro s t hst hr
      simp only [iterN] at hr
      cases hb : (body s).run n with
      | none => simp [hb] at hr
      | some o =>
        rw [hb] at hr
        obtain ⟨r', hr', halike⟩ := hbody s t hst o ⟨n, hb⟩
        match o, halike, hr with
        | .error e, .error he, hr => cases hr; exact ⟨_, halts_iter_error hr', .error he⟩
        | .ok (.inr a), .ok (.inr ha), hr => cases hr; exact ⟨_, halts_iter_done hr', .ok ha⟩
        | .ok (.inl s'), .ok (.inl hs'), hr =>
          obtain ⟨r'', hr'', halike⟩ := ih s' _ hs' hr
          exact ⟨r'', (halts_iter_next hr').2 hr'', halike⟩
  obtain ⟨n, hn⟩ := h
  exact key n n s t hR hn

/-- And so are the states they go through. -/
theorem after_related
    (hbody : ∀ s t, R s t → ∀ r, Halts (body s) r → ∃ r', Halts (body' t) r' ∧ EndAlike E (Sum.LiftRel R A) r r')
    (hR : R s t) {n : Nat} (h : After body s n s') : ∃ t', After body' t n t' ∧ R s' t' := by
  induction h with
  | zero => exact ⟨t, .zero, hR⟩
  | pass _ hb ih =>
    obtain ⟨u, hu, hRu⟩ := ih
    obtain ⟨r', hr', halike⟩ := hbody _ u hRu _ hb
    cases halike with
    | ok hab =>
      cases hab with
      | inl hu' => exact ⟨_, hu.pass hr', hu'⟩

end Related

end Comp

end Fuel

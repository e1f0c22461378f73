import Mathlib.Data.List.Induction

/-!
# Machines that take labelled steps and show outputs

`step s a` is the next state and what the step shows, or `none` where the action `a` is not enabled.
`run` takes a list of actions one after another, so the interleavings of several parties are the
lists of their actions.

The rules: `run_append_iff` cuts a run in two, `run_induction` proves a property of the actions
taken, the state reached and the outputs so far by one step at the end, `run_ledger` is the special
case of outputs that are owed before they are shown and `run_dues` that of outputs shown when they are
due, `run_account` keeps such accounts up to order or loss, `run_track` follows a value computed from the
actions alone, `run_shown` finds the action that shows an output, `run_simulates` carries runs over to a
machine that matches the steps, `run_refines` to one that takes some steps for each, `run_observed` to one
that accepts the outputs, `run_projects` to one that takes part in some of the steps, `run_part` and
`run_env` to each of the components that `shared` puts side by side and to what they share, `run_among`
carries a run of one component back, `run_length_le` and `run_completes` are for steps that lower a rank,
`run_length_le_add` for runs in which some raise it again, and `run_guard` drops a restriction on the order of the actions.
-/

namespace Lts

variable {σ α ω τ : Type}

structure Machine (σ α ω : Type) where
  step : σ → α → Option (σ × List ω)

def run (m : Machine σ α ω) : σ → List α → Option (σ × List ω)
  | s, [] => some (s, [])
  | s, a :: as =>
    match m.step s a with
    | none => none
    | some (s', o) => (run m s' as).map fun r => (r.1, o ++ r.2)

/-- The same machine, allowed a step only where `ok` is. -/
def guard (m : Machine σ α ω) (ok : σ → α → Bool) : Machine σ α ω where
  step s a := if ok s a then m.step s a else none

variable {m : Machine σ α ω} {s s' s'' : σ} {a : α} {as bs : List α} {o out out' : List ω}

@[simp] theorem run_nil_iff : run m s [] = some (s', out) ↔ s' = s ∧ out = [] := by
  simp [run, eq_comm]

theorem run_unique (h : run m s as = some (s', out)) (h' : run m s as = some (s'', out')) :
    s' = s'' ∧ out = out' := Prod.mk.inj (Option.some.inj (h.symm.trans h'))

theorem run_cons_iff : run m s (a :: as) = some (s'', out) ↔
    ∃ s' o os, m.step s a = some (s', o) ∧ run m s' as = some (s'', os) ∧ out = o ++ os := by
  rw [run]
  cases hs : m.step s a with
  | none => simp
  | some r =>
    constructor
    · intro h
      obtain ⟨⟨t, os⟩, hr, he⟩ := Option.map_eq_some_iff.1 h
      cases he
      exact ⟨r.1, r.2, os, rfl, hr, rfl⟩
    · rintro ⟨t, o, os, he, hr, rfl⟩
      cases he
      simp [hr]

theorem run_one_iff : run m s [a] = some (s', o) ↔ m.step s a = some (s', o) := by
  rw [run_cons_iff]
  constructor
  · rintro ⟨t, o, os, hs, hr, rfl⟩
    obtain ⟨rfl, rfl⟩ := run_nil_iff.1 hr
    rwa [List.append_nil]
  · exact fun h => ⟨s', o, [], h, rfl, (List.append_nil o).symm⟩

theorem run_append_iff : ∀ {as : List α} {s : σ} {out : List ω}, run m s (as ++ bs) = some (s'', out) ↔
    ∃ s' o os, run m s as = some (s', o) ∧ run m s' bs = some (s'', os) ∧ out = o ++ os
  | [], s, out => by simp
  | a :: as, s, out => by
    simp only [List.cons_append, run_cons_iff, run_append_iff]
    constructor
    · rintro ⟨t, o, _, hs, ⟨u, o', os, h1, h2, rfl⟩, rfl⟩
      exact ⟨u, o ++ o', os, ⟨t, o, o', hs, h1, rfl⟩, h2, by simp⟩
    · rintro ⟨u, _, os, ⟨t, o, o', hs, h1, rfl⟩, h2, rfl⟩
      exact ⟨t, o, o' ++ os, hs, ⟨u, o', os, h1, h2, rfl⟩, by simp⟩

/-- What holds at the start and after every further step holds after every run. -/
theorem run_induction (P : List α → σ → List ω → Prop) (h0 : P [] s [])
    (hstep : ∀ as t out a t' o, run m s as = some (t, out) → P as t out → m.step t a = some (t', o) →
      P (as ++ [a]) t' (out ++ o)) :
    ∀ {as : List α} {s' : σ} {out : List ω}, run m s as = some (s', out) → P as s' out := by
  intro as
  induction as using List.reverseRecOn with
  | nil =>
    intro s' out h
    obtain ⟨rfl, rfl⟩ := run_nil_iff.1 h
    exact h0
  | append_singleton as a ih =>
    intro s' out h
    obtain ⟨t, o, os, h1, h2, rfl⟩ := run_append_iff.1 h
    obtain ⟨u, o', _, hs, hn, rfl⟩ := run_cons_iff.1 h2
    obtain ⟨rfl, rfl⟩ := run_nil_iff.1 hn
    simpa using hstep as t o a s' o' h1 (ih h1) hs

theorem run_invariant (I : σ → Prop) (hstep : ∀ s a s' o, I s → m.step s a = some (s', o) → I s')
    (hs : I s) (h : run m s as = some (s', out)) : I s' :=
  run_induction (fun _ t _ => I t) hs (fun _ t _ a t' o _ ht hst => hstep t a t' o ht hst) h

/-- Every output of a run is shown by one of its actions. -/
theorem run_shown {pre post : List ω} {x : ω} (h : run m s as = some (s', pre ++ x :: post)) :
    ∃ before a after t t' o o₁ o₂, as = before ++ a :: after ∧ run m s before = some (t, o) ∧
      m.step t a = some (t', o₁ ++ x :: o₂) ∧ pre = o ++ o₁ := by
  refine run_induction (fun as _ out => ∀ pre x post, out = pre ++ x :: post →
    ∃ before a after t t' o o₁ o₂, as = before ++ a :: after ∧ run m s before = some (t, o) ∧
      m.step t a = some (t', o₁ ++ x :: o₂) ∧ pre = o ++ o₁) (by simp) ?_ h pre x post rfl
  intro as t out a t' o hrun ih hstep pre x post heq
  rcases List.append_eq_append_iff.1 heq with ⟨r, rfl, rfl⟩ | ⟨r, rfl, hr⟩
  · exact ⟨as, a, [], t, t', out, r, post, rfl, hrun, hstep, rfl⟩
  · cases r with
    | nil =>
      rw [List.nil_append] at hr
      subst hr
      exact ⟨as, a, [], t, t', pre, [], post, rfl, by simpa using hrun, hstep, by simp⟩
    | cons y r =>
      obtain ⟨rfl, rfl⟩ := List.cons.inj hr
      obtain ⟨before, b, after, u, u', o', o₁, o₂, rfl, hu, hb, rfl⟩ := ih pre x r rfl
      exact ⟨before, b, after ++ [a], u, u', o', o₁, o₂, by simp, hu, hb, rfl⟩

/-- A value that every step computes from its action is computed from the list of actions. -/
theorem run_track (f : σ → τ) (g : τ → α → τ) (hstep : ∀ s a s' o, m.step s a = some (s', o) → f s' = g (f s) a)
    (h : run m s as = some (s', out)) : f s' = as.foldl g (f s) :=
  run_induction (fun as t _ => f t = as.foldl g (f s)) rfl
    (fun as t out a t' o _ ht hst => by rw [List.foldl_append, hstep t a t' o hst, ht]; rfl) h

/-- A machine that matches every step of another one runs as the other one does. -/
theorem run_simulates {m' : Machine τ α ω} (R : σ → τ → Prop) {t : τ}
    (hstep : ∀ s t a s' o, R s t → m.step s a = some (s', o) → ∃ t', m'.step t a = some (t', o) ∧ R s' t')
    (hR : R s t) (h : run m s as = some (s', out)) : ∃ t', run m' t as = some (t', out) ∧ R s' t' := by
  refine run_induction (fun as s' out => ∃ t', run m' t as = some (t', out) ∧ R s' t') ⟨t, rfl, hR⟩ ?_ h
  rintro as u out a u' o - ⟨v, hv, hRv⟩ hu
  obtain ⟨v', hv', hRv'⟩ := hstep u v a u' o hRv hu
  exact ⟨v', run_append_iff.2 ⟨v, out, o, hv, run_one_iff.2 hv', rfl⟩, hRv'⟩

/-- A machine that matches every step of another one by some steps with the same outputs shows the
outputs of its runs. -/
theorem run_refines {β : Type} {m' : Machine τ β ω} (R : σ → τ → Prop) {t : τ}
    (hstep : ∀ s t a s' o, R s t → m.step s a = some (s', o) → ∃ bs t', run m' t bs = some (t', o) ∧ R s' t')
    (hR : R s t) (h : run m s as = some (s', out)) : ∃ bs t', run m' t bs = some (t', out) ∧ R s' t' := by
  refine run_induction (fun _ s' out => ∃ bs t', run m' t bs = some (t', out) ∧ R s' t') ⟨[], t, rfl, hR⟩ ?_ h
  rintro _ u out a u' o - ⟨bs, v, hv, hRv⟩ hu
  obtain ⟨cs, v', hv', hRv'⟩ := hstep u v a u' o hRv hu
  exact ⟨bs ++ cs, v', run_append_iff.2 ⟨v, out, o, hv, hv', rfl⟩, hRv'⟩

/-- A machine that accepts what the outputs of every step stand for, as its own actions, accepts those of
every run. -/
theorem run_observed {β ω' : Type} {m' : Machine τ β ω'} (f : ω → List β) (R : σ → τ → Prop) {t : τ}
    (hstep : ∀ s t a s' o, R s t → m.step s a = some (s', o) → ∃ t' os, run m' t (o.flatMap f) = some (t', os) ∧ R s' t')
    (hR : R s t) (h : run m s as = some (s', out)) : ∃ t' os, run m' t (out.flatMap f) = some (t', os) ∧ R s' t' := by
  refine run_induction (fun _ s' out => ∃ t' os, run m' t (out.flatMap f) = some (t', os) ∧ R s' t')
    ⟨t, [], rfl, hR⟩ ?_ h
  rintro _ u out a u' o - ⟨v, os, hv, hRv⟩ hu
  obtain ⟨v', os', hv', hRv'⟩ := hstep u v a u' o hRv hu
  rw [List.flatMap_append]
  exact ⟨v', os ++ os', run_append_iff.2 ⟨v, os, os', hv, hv', rfl⟩, hRv'⟩

/-- A machine every step of which is one of another machine, or none of it, runs as that machine does, if
what does not concern it is left out. -/
theorem run_projects {β ω' : Type} {m' : Machine τ β ω'} (f : σ → τ) (g : α → Option β) (k : ω → Option ω')
    (hstep : ∀ s a s' o, m.step s a = some (s', o) → run m' (f s) (g a).toList = some (f s', o.filterMap k))
    (h : run m s as = some (s', out)) : run m' (f s) (as.filterMap g) = some (f s', out.filterMap k) := by
  refine run_induction (fun as s' out => run m' (f s) (as.filterMap g) = some (f s', out.filterMap k)) rfl ?_ h
  intro as t out a t' o _ ih hst
  have hone : [a].filterMap g = (g a).toList := by cases hg : g a <;> simp [hg]
  rw [List.filterMap_append, List.filterMap_append, hone]
  exact run_append_iff.2 ⟨f t, out.filterMap k, o.filterMap k, ih, hstep t a t' o hst, rfl⟩

/-- A machine that never refuses an action has a run for every list of actions. -/
theorem run_total (hstep : ∀ s a, ∃ r, m.step s a = some r) :
    ∀ (as : List α) (s : σ), ∃ s' out, run m s as = some (s', out)
  | [], s => ⟨s, [], rfl⟩
  | a :: as, s => by
    obtain ⟨⟨t, o⟩, hs⟩ := hstep s a
    obtain ⟨s', out, hr⟩ := run_total hstep as t
    exact ⟨s', o ++ out, run_cons_iff.2 ⟨t, o, out, hs, hr, rfl⟩⟩

/-! ## Runs that come to an end -/

section Ending

variable {I : σ → Prop} {rank : σ → Nat}

/-- Where every step lowers a rank, but those in `p`, which raise it by less than `k`, the rank bounds the steps
of a run up to `k` for each of the latter. -/
theorem run_length_le_add (p : α → Bool) (k : Nat)
    (hI : ∀ s a s' o, I s → m.step s a = some (s', o) → I s' ∧ rank s' < rank s + if p a then k else 0) :
    ∀ {as : List α} {s : σ} {out : List ω}, I s → run m s as = some (s', out) →
      as.length + rank s' ≤ rank s + k * as.countP p
  | [], s, out, _, h => by
    obtain ⟨rfl, -⟩ := run_nil_iff.1 h
    simp
  | a :: as, s, out, hs, h => by
    obtain ⟨t, o, os, hst, hr, -⟩ := run_cons_iff.1 h
    obtain ⟨ht, hlt⟩ := hI s a t o hs hst
    have ih := run_length_le_add p k hI ht hr
    rw [List.length_cons, List.countP_cons]
    cases hp : p a
    · simp only [hp, Bool.false_eq_true, ↓reduceIte, Nat.add_zero] at hlt ⊢
      omega
    · simp only [hp, ↓reduceIte, Nat.mul_add, Nat.mul_one] at hlt ⊢
      omega

/-- Where every step lowers a rank, no run takes more steps than the rank it starts with. -/
theorem run_length_le (hI : ∀ s a s' o, I s → m.step s a = some (s', o) → I s' ∧ rank s' < rank s) (hs : I s)
    (h : run m s as = some (s', out)) : as.length + rank s' ≤ rank s := by
  simpa using run_length_le_add (fun _ => false) 0 (fun s a s' o hs h => by simpa using hI s a s' o hs h) hs h

/-- Where every step lowers a rank and only what is done is stuck, every state has a run to the end. -/
theorem run_completes (Done : σ → Prop)
    (hI : ∀ s a s' o, I s → m.step s a = some (s', o) → I s' ∧ rank s' < rank s)
    (hgo : ∀ s, I s → ¬ Done s → ∃ a r, m.step s a = some r) (hs : I s) :
    ∃ as s' out, run m s as = some (s', out) ∧ I s' ∧ Done s' := by
  induction hn : rank s using Nat.strongRecOn generalizing s with
  | _ n ih =>
    by_cases hd : Done s
    · exact ⟨[], s, [], rfl, hs, hd⟩
    · obtain ⟨a, ⟨t, o⟩, hst⟩ := hgo s hs hd
      obtain ⟨ht, hlt⟩ := hI s a t o hs hst
      obtain ⟨as, s', out, hr, hs', hdone⟩ := ih (rank t) (by omega) ht rfl
      exact ⟨a :: as, s', o ++ out, run_cons_iff.2 ⟨t, o, out, hst, hr, rfl⟩, hs', hdone⟩

end Ending

/-! ## Outputs that are owed before they are shown -/

/-- What the actions make due, where `next` follows the value that `due` depends on. -/
def dues (due : τ → α → List ω) (next : τ → α → τ) : τ → List α → List ω
  | _, [] => []
  | t, a :: as => due t a ++ dues due next (next t a) as

section Dues

variable {ω' : Type} {due : τ → α → List ω} {next : τ → α → τ}

theorem dues_map {due' : τ → α → List ω'} (f : ω → ω') (h : ∀ t a, due' t a = (due t a).map f) :
    ∀ (as : List α) (t : τ), dues due' next t as = (dues due next t as).map f
  | [], _ => rfl
  | a :: as, t => by rw [dues, dues, List.map_append, h, dues_map f h as]

/-- What is due has the property `P`, if it has it wherever `I` holds of the value that is followed. -/
theorem dues_all (I : τ → Prop) {P : ω → Prop} : ∀ {as : List α} {t : τ},
    (∀ a ∈ as, ∀ t, I t → I (next t a) ∧ ∀ x ∈ due t a, P x) → I t → ∀ x ∈ dues due next t as, P x
  | [], _, _, _, _, hx => absurd hx List.not_mem_nil
  | a :: as, t, h, ht, x, hx => by
    obtain ⟨hnext, hdue⟩ := h a List.mem_cons_self t ht
    rcases List.mem_append.1 hx with hx | hx
    · exact hdue x hx
    · exact dues_all I (fun b hb => h b (List.mem_cons_of_mem a hb)) hnext x hx

/-- Actions that make nothing due and change nothing can be left out. -/
theorem dues_filter (p : α → Bool) : ∀ {as : List α} (t : τ),
    (∀ a ∈ as, p a = false → ∀ t, due t a = [] ∧ next t a = t) → dues due next t (as.filter p) = dues due next t as
  | [], _, _ => rfl
  | a :: as, t, h => by
    have ih := fun t => dues_filter p t fun b hb => h b (List.mem_cons_of_mem a hb)
    cases hp : p a with
    | true => rw [List.filter_cons_of_pos hp, dues, dues, ih]
    | false =>
      obtain ⟨hdue, hnext⟩ := h a List.mem_cons_self hp t
      rw [List.filter_cons_of_neg (by simp [hp]), ih, dues, hdue, hnext, List.nil_append]

/-- A machine whose steps show what is due, as long as `I` relates its state to the value that is followed. -/
theorem run_dues (I : σ → τ → Prop)
    (hstep : ∀ s t a s' o, I s t → m.step s a = some (s', o) → o = due t a ∧ I s' (next t a)) :
    ∀ {as : List α} {s : σ} {t : τ} {out : List ω}, I s t → run m s as = some (s', out) → out = dues due next t as
  | [], s, t, out, _, h => (run_nil_iff.1 h).2
  | a :: as, s, t, out, hI, h => by
    obtain ⟨u, o, os, hs, hr, rfl⟩ := run_cons_iff.1 h
    obtain ⟨ho, hu⟩ := hstep s t a u o hI hs
    rw [ho, run_dues I hstep hu hr, dues]

end Dues

/-- If every step pays from what is owed or due, so does every run: what was shown and what is still
owed are what was owed at first and what the actions made due, in this order. -/
theorem run_ledger (owed : σ → List ω) (env : σ → τ) (due : τ → α → List ω) (next : τ → α → τ)
    (hstep : ∀ s a s' o, m.step s a = some (s', o) →
      o ++ owed s' = owed s ++ due (env s) a ∧ env s' = next (env s) a) :
    ∀ {as : List α} {s : σ} {out : List ω}, run m s as = some (s', out) →
      out ++ owed s' = owed s ++ dues due next (env s) as
  | [], s, out, h => by
    obtain ⟨rfl, rfl⟩ := run_nil_iff.1 h
    simp [dues]
  | a :: as, s, out, h => by
    obtain ⟨t, o, os, hs, hr, rfl⟩ := run_cons_iff.1 h
    obtain ⟨hpay, henv⟩ := hstep s a t o hs
    have ih := run_ledger owed env due next hstep hr
    calc (o ++ os) ++ owed s' = o ++ (owed t ++ dues due next (env t) as) := by rw [List.append_assoc, ih]
      _ = owed s ++ (due (env s) a ++ dues due next (env t) as) := by
        rw [← List.append_assoc, hpay, List.append_assoc]
      _ = owed s ++ dues due next (env s) (a :: as) := by rw [henv]; rfl

/-! ## Accounts up to a relation -/

section Accounts

variable {β : Type} {R : List β → List β → Prop}

/-- Lists related by `R` may stand for each other inside longer lists: a rearrangement, a part, or the
same members. -/
structure KeepsAccounts (R : List β → List β → Prop) : Prop where
  refl : ∀ xs, R xs xs
  trans : ∀ {xs ys zs}, R xs ys → R ys zs → R xs zs
  append_left : ∀ {xs ys} zs, R xs ys → R (zs ++ xs) (zs ++ ys)
  append_right : ∀ {xs ys} zs, R xs ys → R (xs ++ zs) (ys ++ zs)

theorem keepsAccounts_perm : KeepsAccounts (@List.Perm β) where
  refl := .refl
  trans := .trans
  append_left zs h := h.append_left zs
  append_right zs h := h.append_right zs

theorem keepsAccounts_sublist : KeepsAccounts (@List.Sublist β) where
  refl := .refl
  trans := .trans
  append_left zs h := h.append_left zs
  append_right zs h := h.append_right zs

theorem keepsAccounts_subset : KeepsAccounts fun xs ys : List β => xs ⊆ ys where
  refl := List.Subset.refl
  trans := List.Subset.trans
  append_left zs h := List.append_subset.2
    ⟨List.subset_append_left zs _, List.subset_append_of_subset_right zs h⟩
  append_right zs h := List.append_subset.2
    ⟨List.subset_append_of_subset_left zs h, List.subset_append_right _ zs⟩

/-- If every step relates what it pays and what is owed after it to what was owed and what it makes
due, so does every run from a state that owes nothing. -/
theorem run_account (hR : KeepsAccounts R) (owed : σ → List β) (paid due : List ω → List β) (hs : owed s = [])
    (hpaid : paid [] = [] ∧ ∀ x y, paid (x ++ y) = paid x ++ paid y)
    (hdue : due [] = [] ∧ ∀ x y, due (x ++ y) = due x ++ due y)
    (hstep : ∀ as t out a t' o, run m s as = some (t, out) → m.step t a = some (t', o) →
      R (paid o ++ owed t') (owed t ++ due o)) (h : run m s as = some (s', out)) :
    R (paid out ++ owed s') (due out) := by
  refine run_induction (fun _ t out => R (paid out ++ owed t) (due out)) ?_ ?_ h
  · rw [hpaid.1, hdue.1, hs]
    exact hR.refl []
  · intro as t out a t' o hrun hacc hst
    rw [hpaid.2, hdue.2, List.append_assoc]
    apply hR.trans (hR.append_left (paid out) (hstep as t out a t' o hrun hst))
    rw [← List.append_assoc]
    exact hR.append_right (due o) hacc

end Accounts

/-! ## Components over something they share -/

section Shared

variable {ι ω' : Type} [DecidableEq ι] {e : Machine τ ω ω'} {i : ι}

structure Shared (ι σ τ : Type) where
  part : ι → σ
  env : τ

/-- Components of one kind side by side: a step is one of a component, and what it shows are actions of
the machine `e` that all of them share, which can refuse them. -/
def shared (m : Machine σ α ω) (e : Machine τ ω ω') : Machine (Shared ι σ τ) (ι × α) (ι × ω) where
  step s a := do
    let (x, o) ← m.step (s.part a.1) a.2
    let (env, _) ← run e s.env o
    return (⟨Function.update s.part a.1 x, env⟩, o.map (a.1, ·))

/-- What belongs to the component `i`. -/
def ofPart {β : Type} (i : ι) (xs : List (ι × β)) : List β := xs.filterMap fun x => if x.1 = i then some x.2 else none

theorem ofPart_map {β : Type} (i j : ι) (xs : List β) : ofPart i (xs.map (j, ·)) = if j = i then xs else [] := by
  unfold ofPart
  by_cases h : j = i
  · subst h
    rw [if_pos rfl, List.filterMap_map]
    change xs.filterMap (fun x => if j = j then some x else none) = xs
    simp
  · simp [List.filterMap_map, h]

theorem shared_step {s s' : Shared ι σ τ} {a : ι × α} {o : List (ι × ω)} (h : (shared m e).step s a = some (s', o)) :
    ∃ x calls env os, m.step (s.part a.1) a.2 = some (x, calls) ∧ run e s.env calls = some (env, os) ∧
      s' = ⟨Function.update s.part a.1 x, env⟩ ∧ o = calls.map (a.1, ·) := by
  obtain ⟨⟨x, calls⟩, hx, h⟩ := Option.bind_eq_some_iff.1 h
  obtain ⟨⟨env, os⟩, he, h⟩ := Option.bind_eq_some_iff.1 h
  cases h
  exact ⟨x, calls, env, os, hx, he, rfl, rfl⟩

theorem step_among {s : Shared ι σ τ} {a : α} {x : σ} {o : List ω} {env : τ} {os : List ω'}
    (h : m.step (s.part i) a = some (x, o)) (he : run e s.env o = some (env, os)) :
    (shared m e).step s (i, a) = some (⟨Function.update s.part i x, env⟩, o.map (i, ·)) := by
  simp [shared, h, he]

/-- Every component of a run runs on its own. -/
theorem run_part {s s' : Shared ι σ τ} {as : List (ι × α)} {out : List (ι × ω)} (i : ι)
    (h : run (shared m e) s as = some (s', out)) : run m (s.part i) (ofPart i as) = some (s'.part i, ofPart i out) := by
  refine run_projects (fun s => s.part i) _ _ ?_ h
  rintro t ⟨j, a⟩ t' o hstep
  obtain ⟨x, calls, env, os, hx, -, rfl, rfl⟩ := shared_step hstep
  change run m (t.part i) _ = some (_, ofPart i _)
  rw [ofPart_map]
  by_cases hj : j = i
  · subst hj
    simpa using run_one_iff.2 hx
  · simp [hj, Function.update_of_ne (Ne.symm hj)]

theorem mem_ofPart {β : Type} {i : ι} {x : β} {xs : List (ι × β)} : x ∈ ofPart i xs ↔ (i, x) ∈ xs := by
  simp only [ofPart, List.mem_filterMap, Option.ite_none_right_eq_some, Option.some.injEq]
  constructor
  · rintro ⟨⟨_, _⟩, hmem, rfl, rfl⟩
    exact hmem
  · exact fun hmem => ⟨_, hmem, rfl, rfl⟩

/-- What is shared has accepted all that was shown. -/
theorem run_env {s s' : Shared ι σ τ} {as : List (ι × α)} {out : List (ι × ω)}
    (h : run (shared m e) s as = some (s', out)) : ∃ os, run e s.env (out.map (·.2)) = some (s'.env, os) := by
  refine run_induction (fun _ s' out => ∃ os, run e s.env (out.map (·.2)) = some (s'.env, os)) ⟨[], rfl⟩ ?_ h
  rintro _ t out a t' o - ⟨os, hos⟩ hstep
  obtain ⟨x, calls, env, os', -, he, rfl, rfl⟩ := shared_step hstep
  refine ⟨os ++ os', ?_⟩
  rw [List.map_append, List.map_map]
  exact run_append_iff.2 ⟨t.env, os, os', hos, by simpa [Function.comp_def] using he, rfl⟩

/-- A component that runs on its own runs among the others, if what is shared accepts all that it shows. -/
theorem run_among {s : Shared ι σ τ} : ∀ {as : List α} {x : σ} {out : List ω} {env : τ} {os : List ω'},
    run m (s.part i) as = some (x, out) → run e s.env out = some (env, os) →
      run (shared m e) s (as.map (i, ·)) = some (⟨Function.update s.part i x, env⟩, out.map (i, ·)) := by
  intro as
  induction as using List.reverseRecOn with
  | nil =>
    intro x out env os h he
    obtain ⟨rfl, rfl⟩ := run_nil_iff.1 h
    obtain ⟨rfl, -⟩ := run_nil_iff.1 he
    simp [run]
  | append_singleton as a ih =>
    intro x out env os h he
    obtain ⟨y, o, o', hy, hx, rfl⟩ := run_append_iff.1 h
    obtain ⟨env', os₁, os₂, he₁, he₂, rfl⟩ := run_append_iff.1 he
    rw [run_one_iff] at hx
    have hstep := step_among (s := ⟨Function.update s.part i y, env'⟩) (i := i) (by simpa using hx) he₂
    rw [List.map_append, List.map_append]
    refine run_append_iff.2 ⟨_, _, _, ih hy he₁, run_one_iff.2 ?_, rfl⟩
    simpa using hstep

end Shared

/-! ## Restricted machines -/

theorem guard_step {ok : σ → α → Bool} :
    (guard m ok).step s a = some (s', o) ↔ ok s a = true ∧ m.step s a = some (s', o) := by
  simp [guard]

theorem run_guard {ok : σ → α → Bool} : ∀ {as : List α} {s : σ} {out : List ω},
    run (guard m ok) s as = some (s', out) → run m s as = some (s', out)
  | [], s, out, h => run_nil_iff.2 (run_nil_iff.1 h)
  | a :: as, s, out, h => by
    obtain ⟨t, o, os, hs, hr, rfl⟩ := run_cons_iff.1 h
    exact run_cons_iff.2 ⟨t, o, os, (guard_step.1 hs).2, run_guard hr, rfl⟩

/-- A run whose actions are allowed everywhere is a run of the restricted machine. -/
theorem run_guard_of {ok : σ → α → Bool} : ∀ {as : List α} {s : σ} {out : List ω}, (∀ a ∈ as, ∀ s, ok s a = true) →
    run m s as = some (s', out) → run (guard m ok) s as = some (s', out)
  | [], s, out, _, h => run_nil_iff.2 (run_nil_iff.1 h)
  | a :: as, s, out, hok, h => by
    obtain ⟨t, o, os, hs, hr, rfl⟩ := run_cons_iff.1 h
    have hrest := run_guard_of (fun b hb => hok b (List.mem_cons_of_mem a hb)) hr
    exact run_cons_iff.2 ⟨t, o, os, guard_step.2 ⟨hok a List.mem_cons_self s, hs⟩, hrest, rfl⟩

end Lts

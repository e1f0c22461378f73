import CalcChatter.Lib.Machine

/-!
# Parties on a network that loses, copies and reorders

A party shows outputs to its user, puts messages on the network and takes messages from it; any party may
make the network lose or copy one. The network (`network`) is a machine of its own, which the parties
share: it keeps the messages in flight and refuses to hand over one that is not there. It makes nothing up
(`run_sent`), so whatever a party takes was sent by some party (`taken_sent`), before it was taken.
-/

namespace Lts

variable {ι σ α δ ω : Type}

inductive Traffic (δ ω : Type) where
  | output (x : ω)
  | send (d : δ)
  | take (i : Nat) (d : δ)
  | lose (i : Nat)
  | duplicate (i : Nat)
deriving DecidableEq

/-- The messages in flight, and what is done to them. -/
def network [DecidableEq δ] : Machine (List δ) (Traffic δ ω) Empty where
  step flight
    | .output _ => some (flight, [])
    | .send d => some (flight ++ [d], [])
    | .take i d => if flight[i]? = some d then some (flight.eraseIdx i, []) else none
    | .lose i => if i < flight.length then some (flight.eraseIdx i, []) else none
    | .duplicate i => flight[i]?.map fun d => (flight ++ [d], [])

variable [DecidableEq δ]

/-- A message in flight after a step was there before, or has just been sent; one that is taken was there. -/
theorem network_step {flight flight' : List δ} {a : Traffic δ ω} {o : List Empty}
    (h : network.step flight a = some (flight', o)) :
    (∀ d ∈ flight', d ∈ flight ∨ a = .send d) ∧ ∀ i d, a = .take i d → d ∈ flight := by
  cases a with
  | output x =>
    cases h
    exact ⟨fun d hd => .inl hd, by simp⟩
  | send d =>
    cases h
    refine ⟨?_, by simp⟩
    intro e he
    rcases List.mem_append.1 he with he | he
    · exact .inl he
    · obtain rfl := List.mem_singleton.1 he
      exact .inr rfl
  | take i d =>
    obtain ⟨hi, he⟩ := Option.ite_none_right_eq_some.1 h
    cases he
    refine ⟨fun e he => .inl (List.mem_of_mem_eraseIdx he), ?_⟩
    rintro _ _ ⟨⟩
    exact List.mem_of_getElem? hi
  | lose i =>
    obtain ⟨hi, he⟩ := Option.ite_none_right_eq_some.1 h
    cases he
    exact ⟨fun e he => .inl (List.mem_of_mem_eraseIdx he), by simp⟩
  | duplicate i =>
    obtain ⟨d, hi, he⟩ := Option.map_eq_some_iff.1 h
    cases he
    refine ⟨?_, by simp⟩
    intro e he
    rcases List.mem_append.1 he with he | he
    · exact .inl he
    · obtain rfl := List.mem_singleton.1 he
      exact .inl (List.mem_of_getElem? hi)

/-- Nothing is in flight or taken that was not sent. -/
theorem run_sent {acts : List (Traffic δ ω)} {flight : List δ} {os : List Empty}
    (h : run network [] acts = some (flight, os)) :
    (∀ d ∈ flight, .send d ∈ acts) ∧ ∀ i d, .take i d ∈ acts → .send d ∈ acts := by
  refine run_induction (fun acts flight _ => (∀ d ∈ flight, .send d ∈ acts) ∧ ∀ i d, .take i d ∈ acts → .send d ∈ acts)
    (by simp) ?_ h
  rintro acts flight _ a flight' _ - ⟨hflight, htaken⟩ hstep
  obtain ⟨hnew, htake⟩ := network_step hstep
  constructor
  · intro d hd
    rcases hnew d hd with hd | rfl
    · exact List.mem_append_left _ (hflight d hd)
    · simp
  · intro i d hd
    apply List.mem_append_left
    rcases List.mem_append.1 hd with hd | hd
    · exact htaken i d hd
    · exact hflight d (htake i d (List.mem_singleton.1 hd).symm)

/-- The network does not mind what users are shown. -/
theorem run_outputs (flight : List δ) : ∀ {acts : List (Traffic δ ω)}, (∀ a ∈ acts, ∃ x, a = .output x) →
    run network flight acts = some (flight, [])
  | [], _ => rfl
  | a :: acts, h => by
    obtain ⟨x, rfl⟩ := h a List.mem_cons_self
    exact run_cons_iff.2 ⟨flight, [], [], rfl, run_outputs flight fun b hb => h b (List.mem_cons_of_mem _ hb), rfl⟩

/-- What a party takes was sent by some party. -/
theorem taken_sent [DecidableEq ι] {m : Machine σ α (Traffic δ ω)} {part : ι → σ} {as : List (ι × α)}
    {s : Shared ι σ (List δ)} {out : List (ι × Traffic δ ω)} (h : run (shared m network) ⟨part, []⟩ as = some (s, out))
    {b : ι} {i : Nat} {d : δ} (hd : (b, .take i d) ∈ out) : ∃ c, (c, .send d) ∈ out := by
  obtain ⟨os, hrun⟩ := run_env h
  have hsent := (run_sent hrun).2 i d (List.mem_map.2 ⟨_, hd, rfl⟩)
  obtain ⟨⟨c, _⟩, hc, rfl⟩ := List.mem_map.1 hsent
  exact ⟨c, hc⟩

end Lts

import CalcChatter.Calc.Scalc

/-!
# The calls of a session

`traced ui` is the user interface `ui` with a record of the calls it gets. The trace of a session
depends on the inputs only, and of these only on those up to the first one that ends it: an empty
input, after which `scalc` returns, or a rejected one, whose exception nothing catches on its way
through the loop of `Add`, `scalc` and `main` (kata:245).

`trace_from` is the law, by induction on the inputs that get a result; `scalc_trace` says it for every
script, and `results_shown` what it means for scripts with rejected inputs.
-/

namespace CalcChatter.Calc

open Cxx Fuel Fuel.Comp

variable {σ τ : Type}

/-- A call of a member function of the user interface. -/
inductive Event where
  | getInput
  | display (msg : Bytes)
  | nextInput
deriving DecidableEq

def traced (ui : Ui σ) : Ui (σ × List Event) where
  getInput st := ((ui.getInput st.1).1, (ui.getInput st.1).2, st.2 ++ [.getInput])
  display msg st := (ui.display msg st.1, st.2 ++ [.display msg])
  nextInput st := (ui.nextInput st.1, st.2 ++ [.nextInput])

/-- The successive `GetInput` calls of a session that starts in `st` return `inputs`. -/
def Inputs (ui : Ui σ) : List Bytes → σ → Prop
  | [], _ => True
  | i :: is, st => (ui.getInput st).1 = i ∧
      ∀ n, Halts (add i) (.ok n) → Inputs ui is (afterPass ui n (ui.getInput st).2)

/-- How a session ends, and the calls it makes. -/
def observed : Except (Exn × σ × List Event) (σ × List Event) → Except Exn Unit × List Event
  | .ok (_, trace) => (.ok (), trace)
  | .error (e, _, trace) => (.error e, trace)

/-- The session ends with the outcome `o` after the calls `trace`. -/
def Session (ui : Ui σ) (st : σ) (o : Except Exn Unit) (trace : List Event) : Prop :=
  ∃ r, Halts (scalc (traced ui) (st, [])) r ∧ observed r = (o, trace)

theorem Session.unique {ui : Ui σ} {st : σ} {o o' : Except Exn Unit} {trace trace' : List Event}
    (h : Session ui st o trace) (h' : Session ui st o' trace') : o = o' ∧ trace = trace' := by
  obtain ⟨r, hr, ho⟩ := h
  obtain ⟨r', hr', ho'⟩ := h'
  rw [hr.unique hr', ho'] at ho
  exact ⟨(Prod.mk.inj ho).1.symm, (Prod.mk.inj ho).2.symm⟩

/-- The calls of one pass, with the `GetInput` that came before it. -/
def passEvents (n : Int) : List Event :=
  [.getInput, .display (resultMessage n), .display (lit "another input please"), .nextInput]

/-- A pass for each result, then the `GetInput` of the input that ends the session. -/
def sessionTrace (ns : List Int) : List Event := ns.flatMap passEvents ++ [.getInput]

/-- Inputs that get a pass each, and their results. -/
def Results (inputs : List Bytes) (ns : List Int) : Prop :=
  List.Forall₂ (fun i n => i ≠ [] ∧ Halts (add i) (.ok n)) inputs ns

/-! ## The trace -/

theorem afterPass_traced (ui : Ui σ) {i : Bytes} {n : Int} (hn : Halts (add i) (.ok n)) (st : σ × List Event) :
    afterPass (traced ui) n ((traced ui).getInput st).2 = (afterPass ui n (ui.getInput st.1).2, st.2 ++ passEvents n) := by
  simp [afterPass, traced, passEvents, ← resultMessage_eq hn]

theorem sessionTrace_cons (n : Int) (ns : List Int) : sessionTrace (n :: ns) = passEvents n ++ sessionTrace ns := by
  simp [sessionTrace]

/-- The session from any state on, with the calls made before it: the induction is on the inputs that
get a result. -/
theorem trace_from {ui : Ui σ} {i : Bytes} {rest : List Bytes} :
    ∀ {before : List Bytes} {ns : List Int} {st : σ} {trace : List Event}, Inputs ui (before ++ i :: rest) st →
      Results before ns →
      (i = [] → ∃ st', Halts (scalc (traced ui) (st, trace)) (.ok (st', trace ++ sessionTrace ns))) ∧
      (Throws i → ∃ st', Halts (scalc (traced ui) (st, trace)) (.error (negatives, st', trace ++ sessionTrace ns)))
  | [], ns, st, trace, hin, hres => by
    obtain rfl : ns = [] := by simpa [Results] using hres
    have hget : ((traced ui).getInput (st, trace)).1 = i := hin.1
    constructor
    · rintro rfl
      refine ⟨(ui.getInput st).2, ?_⟩
      rw [scalc_empty hget, halts_pure]
      rfl
    · intro hi
      have hne : i ≠ [] := by
        rintro rfl
        exact absurd (hi.unique ⟨9, rfl⟩) (by simp)
      exact ⟨(ui.getInput st).2, scalc_throws (hget ▸ hne) (hget ▸ hi)⟩
  | x :: before, ns, st, trace, hin, hres => by
    obtain ⟨n, ns, ⟨hne, hn⟩, hrest, rfl⟩ := List.forall₂_cons_left_iff.1 hres
    have hget : ((traced ui).getInput (st, trace)).1 = x := hin.1
    have hn' : Halts (add ((traced ui).getInput (st, trace)).1) (.ok n) := hget ▸ hn
    have hunroll := scalc_unroll (hget ▸ hne) hn'
    have ih := @trace_from ui i rest before ns _ (trace ++ passEvents n) (hin.2 n hn) hrest
    simp only [hunroll, afterPass_traced ui hn, sessionTrace_cons, ← List.append_assoc]
    exact ih

/-! ## What the trace is for a script -/

/-- An input that ends the session. -/
def ends (i : Bytes) : Bool := i == [] || rejected i

/-- The inputs that get a result. -/
def answered (inputs : List Bytes) : List Bytes := inputs.takeWhile (!ends ·)

/-- `scalc` returns at an empty input, and the exception leaves it at a rejected one. -/
def ending (inputs : List Bytes) : Except Exn Unit :=
  if inputs.find? ends = some [] then .ok () else .error negatives

theorem results_exist : ∀ {inputs : List Bytes}, (∀ i ∈ inputs, Fits i) → (∀ i ∈ inputs, ends i = false) →
    ∃ ns, Results inputs ns
  | [], _, _ => ⟨[], .nil⟩
  | i :: is, hfit, hends => by
    have hi := hends i List.mem_cons_self
    simp only [ends, Bool.or_eq_false_iff, beq_eq_false_iff_ne] at hi
    obtain ⟨n, hn⟩ := not_throws (hfit i List.mem_cons_self) (by
      rw [← rejected_iff (hfit i List.mem_cons_self), hi.2]
      exact Bool.false_ne_true)
    obtain ⟨ns, hns⟩ := results_exist (fun j hj => hfit j (List.mem_cons_of_mem i hj))
      fun j hj => hends j (List.mem_cons_of_mem i hj)
    exact ⟨n :: ns, .cons ⟨hi.1, hn⟩ hns⟩

theorem results_answered {inputs : List Bytes} (hfit : ∀ i ∈ inputs, Fits i) : ∃ ns, Results (answered inputs) ns := by
  apply results_exist
  · exact fun i hi => hfit i ((List.takeWhile_prefix _).subset hi)
  · intro i hi
    simpa using List.mem_takeWhile_imp hi

/-- The inputs that get a result, and the first one that ends the session. -/
theorem script_split {inputs : List Bytes} (h : ∃ i ∈ inputs, ends i = true) :
    ∃ i rest, inputs = answered inputs ++ i :: rest ∧ ends i = true ∧ inputs.find? ends = some i := by
  induction inputs with
  | nil => simp at h
  | cons x xs ih =>
    by_cases hx : ends x = true
    · exact ⟨x, xs, by simp [answered, hx], hx, by simp [hx]⟩
    · obtain ⟨i, rest, hxs, hi, hfind⟩ := ih (by simpa [hx] using h)
      refine ⟨i, rest, ?_, hi, by simp [hx, hfind]⟩
      rw [answered, List.takeWhile_cons_of_pos (by simpa using hx), List.cons_append]
      exact congrArg _ hxs

theorem ends_iff {i : Bytes} (hi : Fits i) : ends i = true ↔ i = [] ∨ Throws i := by
  simp [ends, rejected_iff hi]

/-- The session of a script, up to the input `i` that ends it. -/
theorem session_of_split {ui : Ui σ} {st : σ} {before rest : List Bytes} {i : Bytes} {ns : List Int}
    (hin : Inputs ui (before ++ i :: rest) st) (hres : Results before ns) (hi : i = [] ∨ Throws i) :
    Session ui st (if i = [] then .ok () else .error negatives) (sessionTrace ns) := by
  obtain ⟨hempty, hthrows⟩ := @trace_from _ ui i rest before ns st [] hin hres
  by_cases h : i = []
  · obtain ⟨st', hst'⟩ := hempty h
    exact ⟨_, hst', by simp [observed, h]⟩
  · obtain ⟨st', hst'⟩ := hthrows (hi.resolve_left h)
    exact ⟨_, hst', by simp [observed, h]⟩

theorem session_of_script {ui : Ui σ} {st : σ} {inputs : List Bytes} (hin : Inputs ui inputs st)
    (hfit : ∀ i ∈ inputs, Fits i) (hends : ∃ i ∈ inputs, ends i = true) {ns : List Int}
    (hns : Results (answered inputs) ns) : Session ui st (ending inputs) (sessionTrace ns) := by
  obtain ⟨i, rest, hsplit, hi, hfind⟩ := script_split hends
  have hfiti : Fits i := hfit i (by rw [hsplit]; simp)
  rw [hsplit] at hin
  have h := session_of_split hin hns ((ends_iff hfiti).1 hi)
  simpa [ending, hfind] using h

theorem Session.iff_of {ui : Ui σ} {st : σ} {o : Except Exn Unit} {trace : List Event} (h : Session ui st o trace)
    (o' : Except Exn Unit) (trace' : List Event) : Session ui st o' trace' ↔ o' = o ∧ trace' = trace := by
  constructor
  · exact fun h' => h'.unique h
  · rintro ⟨rfl, rfl⟩
    exact h

/-- What comes after an input that ends the session does not matter. -/
theorem session_agree {ui : Ui σ} {ui' : Ui τ} {st : σ} {st' : τ} {before rest rest' : List Bytes} {i : Bytes}
    (hfit : ∀ j ∈ before ++ [i], Fits j) (hi : ends i = true) (hin : Inputs ui (before ++ i :: rest) st)
    (hin' : Inputs ui' (before ++ i :: rest') st') (o : Except Exn Unit) (trace : List Event) :
    Session ui st o trace ↔ Session ui' st' o trace := by
  obtain ⟨j, r, hsplit, hj, -⟩ := @script_split (before ++ [i]) ⟨i, by simp, hi⟩
  obtain ⟨ns, hns⟩ := results_answered hfit
  have hfitj : Fits j := hfit j (by rw [hsplit]; simp)
  have hcut : ∀ x : List Bytes, before ++ i :: x = answered (before ++ [i]) ++ j :: (r ++ x) := by
    intro x
    calc before ++ i :: x = (before ++ [i]) ++ x := by simp
      _ = answered (before ++ [i]) ++ j :: (r ++ x) := by conv => lhs; rw [hsplit]; simp
  rw [hcut] at hin hin'
  rw [(session_of_split hin hns ((ends_iff hfitj).1 hj)).iff_of,
    (session_of_split hin' hns ((ends_iff hfitj).1 hj)).iff_of]

/-- **The trace of a session.** For every user interface and every script with an empty input: one
`GetInput`, the result, the question for another input and one `NextInput` for each input before the
first one that is empty or rejected, then the `GetInput` of that one. The session returns if it is
empty, and otherwise ends with the exception. Whatever the user interface, only the inputs up to
there matter. -/
theorem scalc_trace {ui : Ui σ} {st : σ} {inputs : List Bytes} (hin : Inputs ui inputs st)
    (hfit : ∀ i ∈ inputs, Fits i) (hmem : [] ∈ inputs) :
    (∃ ns, List.Forall₂ (fun i n => i ≠ [] ∧ Halts (add i) (.ok n)) (answered inputs) ns ∧
      ∀ o trace, Session ui st o trace ↔ o = ending inputs ∧ trace = sessionTrace ns) ∧
    ∀ (τ : Type) (ui' : Ui τ) (st' : τ) (before : List Bytes) (i : Bytes) (rest rest' : List Bytes),
      inputs = before ++ i :: rest → i = [] ∨ Throws i → Inputs ui' (before ++ i :: rest') st' →
        ∀ o trace, Session ui st o trace ↔ Session ui' st' o trace := by
  obtain ⟨ns, hns⟩ := results_answered hfit
  constructor
  · exact ⟨ns, hns, (session_of_script hin hfit ⟨[], hmem, rfl⟩ hns).iff_of⟩
  · rintro τ ui' st' before i rest rest' rfl hi hin'
    have hends : ends i = true := (ends_iff (hfit i (by simp))).2 hi
    apply session_agree _ hends hin hin'
    intro j hj
    apply hfit
    simp only [List.mem_append, List.mem_cons] at hj ⊢
    tauto

/-- A user interface that returns the inputs it was given. -/
def scripted : Ui (List Bytes) where
  getInput is := (is.headD [], is)
  display _ is := is
  nextInput is := is.tail

theorem inputs_scripted : ∀ is : List Bytes, Inputs scripted is is
  | [] => trivial
  | _ :: is => ⟨rfl, fun _ _ => inputs_scripted is⟩

/-- Two inputs with results, and one that is rejected before the empty one. -/
def threeInputs : List Bytes := [lit "1,2", lit "3,4", lit "5,-6", []]

theorem scalc_trace_three_inputs : Session scripted threeInputs (.error negatives)
    (passEvents 3 ++ passEvents 7 ++ [.getInput]) := by
  have hfit : ∀ i ∈ threeInputs, Fits i := by decide
  obtain ⟨ns, hns, hiff⟩ := (scalc_trace (inputs_scripted threeInputs) hfit (by decide)).1
  have hans : answered threeInputs = [lit "1,2", lit "3,4"] := rfl
  rw [hans] at hns
  obtain ⟨n, _, ⟨-, hn⟩, hrest, rfl⟩ := List.forall₂_cons_left_iff.1 hns
  obtain ⟨n', _, ⟨-, hn'⟩, hnil, rfl⟩ := List.forall₂_cons_left_iff.1 hrest
  obtain rfl := List.forall₂_nil_left_iff.1 hnil
  obtain rfl : n = 3 := Except.ok.inj (hn.unique ⟨9, rfl⟩)
  obtain rfl : n' = 7 := Except.ok.inj (hn'.unique ⟨9, rfl⟩)
  exact (hiff _ _).2 ⟨rfl, rfl⟩

/-! ## Scripts with rejected inputs -/

/-- The results among what was displayed. -/
def resultsShown (trace : List Event) : List Bytes :=
  trace.filterMap fun
    | .display msg => if msg = lit "another input please" then none else some msg
    | _ => none

theorem resultMessage_ne (n : Int) : resultMessage n ≠ lit "another input please" := by
  intro h
  have hhead : some (ch 'T') = some (ch 'a') := congrArg List.head? h
  exact absurd hhead (by decide)

theorem resultsShown_passEvents (n : Int) (trace : List Event) :
    resultsShown (passEvents n ++ trace) = resultMessage n :: resultsShown trace := by
  simp [resultsShown, passEvents, resultMessage_ne]

theorem resultsShown_sessionTrace : ∀ ns : List Int, resultsShown (sessionTrace ns) = ns.map resultMessage
  | [] => rfl
  | n :: ns => by
    rw [sessionTrace_cons, resultsShown_passEvents, resultsShown_sessionTrace ns, List.map_cons]

theorem Results.unique {inputs : List Bytes} {ns ns' : List Int} (h : Results inputs ns) (h' : Results inputs ns') :
    ns = ns' := by
  induction h generalizing ns' with
  | nil => cases h'; rfl
  | cons hn _ ih =>
    cases h' with
    | cons hn' hrest' => rw [Except.ok.inj (hn.2.unique hn'.2), ih hrest']

/-- The inputs before the first empty one. -/
def beforeEmpty (inputs : List Bytes) : List Bytes := inputs.takeWhile (· != [])

theorem answered_eq (inputs : List Bytes) : answered inputs = (beforeEmpty inputs).takeWhile (!rejected ·) := by
  rw [answered, beforeEmpty, List.takeWhile_takeWhile]
  congr 1
  funext i
  cases i <;> simp [ends]

theorem beforeEmpty_cons {x : Bytes} (hx : x ≠ []) (xs : List Bytes) :
    beforeEmpty (x :: xs) = x :: beforeEmpty xs := List.takeWhile_cons_of_pos (by simpa using hx)

/-- Without its rejected inputs a script has the same inputs before the first empty one, less those. -/
theorem answered_accepted (inputs : List Bytes) :
    answered (inputs.filter (!rejected ·)) = (beforeEmpty inputs).filter (!rejected ·) := by
  induction inputs with
  | nil => rfl
  | cons x xs ih =>
    by_cases hx : x = []
    · subst hx; rfl
    · rw [beforeEmpty_cons hx]
      by_cases hrej : rejected x = true
      · rw [List.filter_cons_of_neg (by simp [hrej]), List.filter_cons_of_neg (by simp [hrej]), ih]
      · rw [List.filter_cons_of_pos (by simp [hrej]), List.filter_cons_of_pos (by simp [hrej]), ← ih]
        exact List.takeWhile_cons_of_pos (by simp [ends, hx, hrej])

/-- `scalc` returns if and only if no rejected input comes before the first empty one. -/
theorem ending_ok_iff {inputs : List Bytes} (hmem : [] ∈ inputs) :
    ending inputs = .ok () ↔ ∀ i ∈ beforeEmpty inputs, rejected i = false := by
  induction inputs with
  | nil => simp at hmem
  | cons x xs ih =>
    by_cases hx : x = []
    · subst hx
      simp [ending, ends, beforeEmpty]
    · have ih := ih ((List.mem_cons.1 hmem).resolve_left (Ne.symm hx))
      rw [beforeEmpty_cons hx, List.forall_mem_cons, ← ih]
      by_cases hrej : rejected x = true
      · simp [ending, ends, hrej, hx]
      · simp [ending, ends, hrej, hx]

/-- The results of an initial part are all results only if nothing after it has one. -/
theorem results_takeWhile_iff {inputs : List Bytes} {p : Bytes → Bool} {ns ns' : List Int}
    (h : Results (inputs.takeWhile p) ns) (h' : Results (inputs.filter p) ns') :
    ns.map resultMessage = ns'.map resultMessage ↔ ∀ i ∈ inputs.dropWhile p, p i = false := by
  have hsplit : inputs.filter p = inputs.takeWhile p ++ (inputs.dropWhile p).filter p := by
    conv => lhs; rw [← List.takeWhile_append_dropWhile (p := p) (l := inputs), List.filter_append]
    rw [List.filter_eq_self.2 fun i hi => List.mem_takeWhile_imp hi]
  constructor
  · intro heq
    have hlen := congrArg List.length heq
    have hlen' := congrArg List.length hsplit
    simp only [List.length_map, ← List.Forall₂.length_eq h, ← List.Forall₂.length_eq h', List.length_append] at hlen hlen'
    have hnil : (inputs.dropWhile p).filter p = [] := List.length_eq_zero_iff.1 (by omega)
    intro i hi
    simpa using List.filter_eq_nil_iff.1 hnil i hi
  · intro hrest
    have hnil : (inputs.dropWhile p).filter p = [] := by simpa [List.filter_eq_nil_iff] using hrest
    rw [hsplit, hnil, List.append_nil] at h'
    rw [h.unique h']

/-- **The results a script shows.** For every user interface and every script with an empty input:
the results shown are those of the inputs before the first one that is empty or rejected; `scalc`
returns if no rejected input comes before the first empty one, and otherwise ends with the exception.
The same script without its rejected inputs always returns, and shows the same results if and only if
all inputs from the first rejected one to the first empty one are rejected. -/
theorem results_shown {ui : Ui σ} {st : σ} {inputs : List Bytes} (hin : Inputs ui inputs st)
    (hfit : ∀ i ∈ inputs, Fits i) (hmem : [] ∈ inputs) :
    ∃ o trace ns, Session ui st o trace ∧ resultsShown trace = ns.map resultMessage ∧
      List.Forall₂ (fun i n => i ≠ [] ∧ Halts (add i) (.ok n)) ((beforeEmpty inputs).takeWhile (!rejected ·)) ns ∧
      (o = .ok () ∨ o = .error negatives) ∧ (o = .ok () ↔ ∀ i ∈ beforeEmpty inputs, rejected i = false) ∧
      ∀ (τ : Type) (ui' : Ui τ) (st' : τ), Inputs ui' (inputs.filter (!rejected ·)) st' →
        ∃ trace', Session ui' st' (.ok ()) trace' ∧ (resultsShown trace = resultsShown trace' ↔
          ∀ i ∈ (beforeEmpty inputs).dropWhile (!rejected ·), rejected i = true) := by
  obtain ⟨ns, hns⟩ := results_answered hfit
  have hsession := session_of_script hin hfit ⟨[], hmem, rfl⟩ hns
  rw [answered_eq] at hns
  refine ⟨_, _, ns, hsession, resultsShown_sessionTrace ns, hns, ?_, ending_ok_iff hmem, ?_⟩
  · unfold ending
    split
    · exact .inl rfl
    · exact .inr rfl
  · intro τ ui' st' hin'
    have hfit' : ∀ i ∈ inputs.filter (!rejected ·), Fits i := fun i hi => hfit i (List.mem_of_mem_filter hi)
    have hmem' : [] ∈ inputs.filter (!rejected ·) := List.mem_filter.2 ⟨hmem, rfl⟩
    obtain ⟨ns', hns'⟩ := results_answered hfit'
    have hsession' := session_of_script hin' hfit' ⟨[], hmem', rfl⟩ hns'
    have hok : ending (inputs.filter (!rejected ·)) = .ok () := by
      rw [ending_ok_iff hmem']
      intro i hi
      simpa using (List.mem_filter.1 ((List.takeWhile_prefix _).subset hi)).2
    rw [hok] at hsession'
    rw [answered_accepted] at hns'
    refine ⟨_, hsession', ?_⟩
    rw [resultsShown_sessionTrace, resultsShown_sessionTrace, results_takeWhile_iff hns hns']
    simp

/-- A rejected input between two others, before the empty one. -/
def rejectedSecond : List Bytes := [lit "1", lit "-1", lit "2", []]

theorem results_shown_rejected_second : ∃ trace, Session scripted rejectedSecond (.error negatives) trace ∧
    ∃ trace', Session scripted [lit "1", lit "2", []] (.ok ()) trace' ∧ resultsShown trace ≠ resultsShown trace' := by
  obtain ⟨o, trace, ns, hsession, -, -, ho, hok, hsame⟩ :=
    results_shown (inputs_scripted rejectedSecond) (by decide) (by decide)
  have hbefore : beforeEmpty rejectedSecond = [lit "1", lit "-1", lit "2"] := rfl
  rw [hbefore] at hok hsame
  have herr : o = .error negatives := ho.resolve_left fun h => absurd (hok.1 h) (by decide)
  subst herr
  obtain ⟨trace', hsession', hiff⟩ := hsame _ scripted [lit "1", lit "2", []] (inputs_scripted _)
  refine ⟨trace, hsession, trace', hsession', ?_⟩
  rw [ne_eq, hiff]
  decide

/-- `-1` as the first input: the exception leaves `scalc`, and the result of the next input, which the
session without the first one shows, is never shown. -/
theorem rejected_input_ends_session : Session scripted [lit "-1", lit "1", []] (.error negatives) [.getInput] ∧
    (∀ trace, ¬ Session scripted [lit "-1", lit "1", []] (.ok ()) trace) ∧
    ∃ trace', Session scripted [lit "1", []] (.ok ()) trace' ∧ resultsShown [.getInput] = [] ∧
      resultsShown trace' = [lit "The result is 1"] := by
  have hrejected : Session scripted [lit "-1", lit "1", []] (.error negatives) [.getInput] := ⟨_, ⟨9, rfl⟩, rfl⟩
  refine ⟨hrejected, ?_, ?_⟩
  · intro trace h
    cases (h.unique hrejected).1
  · exact ⟨passEvents 1 ++ [.getInput], ⟨_, ⟨9, rfl⟩, rfl⟩, rfl, rfl⟩

end CalcChatter.Calc

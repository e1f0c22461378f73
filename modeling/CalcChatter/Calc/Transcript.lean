import CalcChatter.Calc.Console
import CalcChatter.Calc.Script

/-!
# What the calculator prints (string_calculator_kata.cc:96-130, :245-255)

`feed` is the calculator's user interface as a user sees it: a list of inputs, of which the last one is
given again and again, and the text printed so far. `related_console` says that the console is one: its
inputs are the start argument and the lines of the standard input. Since `scalc` does nothing with a user
interface but call it, a session on the console is one on `feed` (`scalc_related`), and
`console_transcript` reads off what is printed for every start argument and every standard input.
-/

namespace CalcChatter.Calc

open Cxx Fuel Fuel.Comp

variable {σ τ : Type}

/-! ## Sessions on related user interfaces -/

/-- Two user interfaces that give the same inputs, and stay so whatever is called. -/
structure Related (R : σ → τ → Prop) (ui : Ui σ) (ui' : Ui τ) : Prop where
  getInput : ∀ s t, R s t → (ui.getInput s).1 = (ui'.getInput t).1 ∧ R (ui.getInput s).2 (ui'.getInput t).2
  display : ∀ msg s t, R s t → R (ui.display msg s) (ui'.display msg t)
  nextInput : ∀ s t, R s t → R (ui.nextInput s) (ui'.nextInput t)

/-- The inputs of a pass, and the states. -/
def SameInput (R : σ → τ → Prop) (s : Bytes × σ) (t : Bytes × τ) : Prop := s.1 = t.1 ∧ R s.2 t.2

theorem related_afterResult {R : σ → τ → Prop} {ui : Ui σ} {ui' : Ui τ} (h : Related R ui ui') (n : Int) {s : σ} {t : τ}
    (hR : R s t) : SameInput R (afterResult ui n s) (afterResult ui' n t) :=
  h.getInput _ _ (h.nextInput _ _ (h.display _ _ _ (h.display _ _ _ hR)))

/-- All that a pass can come to. -/
theorem scalcPass_cases {ui : Ui σ} {st : Bytes × σ} {r : Except (Exn × σ) ((Bytes × σ) ⊕ σ)}
    (h : Halts (scalcPass ui st) r) :
    (∃ e, Halts (add st.1) (.error e) ∧ r = .error (e, st.2)) ∨
    ∃ n, Halts (add st.1) (.ok n) ∧ r = .ok (if (afterResult ui n st.2).1 = [] then .inr (afterResult ui n st.2).2
      else .inl (afterResult ui n st.2)) := by
  obtain ⟨input, st⟩ := st
  have hadd : ∃ r, Halts (add input) r := by
    rcases halts_bind_iff.1 h with ⟨e, he, -⟩ | ⟨n, hn, -⟩
    · exact he.of_mapError
    · exact hn.of_mapError
  obtain ⟨r', hr'⟩ := hadd
  cases r' with
  | error e => exact .inl ⟨e, hr', h.unique (scalcPass_error ui st hr')⟩
  | ok n => exact .inr ⟨n, hr', h.unique (scalcPass_ok ui st hr')⟩

theorem pass_related {R : σ → τ → Prop} {ui : Ui σ} {ui' : Ui τ} (h : Related R ui ui') (s : Bytes × σ) (t : Bytes × τ)
    (hR : SameInput R s t) (r : Except (Exn × σ) ((Bytes × σ) ⊕ σ)) (hr : Halts (scalcPass ui s) r) :
    ∃ r', Halts (scalcPass ui' t) r' ∧ EndAlike (fun e e' => e.1 = e'.1 ∧ R e.2 e'.2) (Sum.LiftRel (SameInput R) R) r r' := by
  obtain ⟨input, s⟩ := s
  obtain ⟨_, t⟩ := t
  obtain ⟨rfl, hR⟩ := hR
  rcases scalcPass_cases hr with ⟨e, he, rfl⟩ | ⟨n, hn, rfl⟩
  · exact ⟨_, scalcPass_error ui' t he, .error ⟨rfl, hR⟩⟩
  · refine ⟨_, scalcPass_ok ui' t hn, .ok ?_⟩
    obtain ⟨hi, hR'⟩ := related_afterResult h n hR
    rw [← hi]
    split
    · exact .inr hR'
    · exact .inl ⟨hi, hR'⟩

/-- `scalc` only calls its user interface. -/
theorem scalc_related {R : σ → τ → Prop} {ui : Ui σ} {ui' : Ui τ} (h : Related R ui ui') {s : σ} {t : τ} (hR : R s t)
    {r : Except (Exn × σ) σ} (hr : Halts (scalc ui s) r) :
    ∃ r', Halts (scalc ui' t) r' ∧ EndAlike (fun e e' => e.1 = e'.1 ∧ R e.2 e'.2) R r r' := by
  obtain ⟨hi, hR'⟩ := h.getInput s t hR
  by_cases hempty : (ui.getInput s).1 = []
  · rw [scalc_empty hempty, halts_pure] at hr
    subst hr
    exact ⟨_, by rw [scalc_empty (hi ▸ hempty)]; exact halts_pure.2 rfl, .ok hR'⟩
  · rw [scalc_nonempty hempty] at hr
    rw [scalc_nonempty (hi ▸ hempty)]
    exact iter_related (pass_related h) ⟨hi, hR'⟩ hr

theorem Related.symm {R : σ → τ → Prop} {ui : Ui σ} {ui' : Ui τ} (h : Related R ui ui') :
    Related (fun t s => R s t) ui' ui where
  getInput t s hR := ⟨(h.getInput s t hR).1.symm, (h.getInput s t hR).2⟩
  display msg t s := h.display msg s t
  nextInput t s := h.nextInput s t

/-! ## The console as a feed of inputs -/

/-- The next input; the last one stays. -/
def advance : List Bytes → List Bytes
  | _ :: i :: is => i :: is
  | is => is

/-- The inputs to come, and what was printed. -/
def feed : Ui (List Bytes × Bytes) where
  getInput st := (st.1.headD [], st)
  display msg st := (st.1, st.2 ++ msg ++ [ch '\n'])
  nextInput st := (advance st.1, st.2)

/-- What the console has printed, and its inputs: the one it holds, then the lines it has not read, unless
the stream is at its end. -/
def Reads (ui : ConsoleUi) (st : List Bytes × Bytes) : Prop :=
  ui.cout = st.2 ∧ ∃ rest, st.1 = ui.input :: rest ∧
    ((rest = [] ∧ ui.cin.eofbit = true) ∨ ∃ c, ui.cin = ⟨c, false, false⟩ ∧ rest = lines c)

theorem related_console : Related Reads consoleUi feed where
  getInput := by
    rintro ui ⟨is, out⟩ ⟨hout, rest, hi, hrest⟩
    obtain rfl : is = ui.input :: rest := hi
    exact ⟨rfl, hout, rest, rfl, hrest⟩
  display := by
    rintro msg ui ⟨is, out⟩ ⟨hout, hrest⟩
    obtain rfl : ui.cout = out := hout
    exact ⟨rfl, hrest⟩
  nextInput := by
    rintro ⟨input, cin, cout⟩ ⟨is, out⟩ ⟨hout, rest, hi, hrest⟩
    obtain rfl : is = input :: rest := hi
    refine ⟨hout, ?_⟩
    rcases hrest with ⟨rfl, heof⟩ | ⟨c, hc, rfl⟩
    · refine ⟨[], by simp [feed, advance, consoleUi, getline_eof heof], .inl ⟨rfl, ?_⟩⟩
      simpa [consoleUi, getline_eof heof] using heof
    · obtain rfl : cin = ⟨c, false, false⟩ := hc
      rcases lines_cases c with ⟨hnl, hl⟩ | ⟨l, c', hnl, rfl, hl⟩
      · exact ⟨[], by simp [feed, advance, consoleUi, getline_last hnl, hl],
          .inl ⟨rfl, by simp [consoleUi, getline_last hnl]⟩⟩
      · exact ⟨lines c', by simp [feed, advance, consoleUi, getline_newline hnl, hl],
          .inr ⟨c', by simp [consoleUi, getline_newline hnl], rfl⟩⟩

/-! ## Sessions on a feed -/

/-- The inputs that `k` passes have left, with the last one staying. -/
def left (inputs : List Bytes) (k : Nat) : List Bytes := inputs.drop (min k (inputs.length - 1))

/-- The input of pass `k`. -/
def inputAt (inputs : List Bytes) (k : Nat) : Bytes := (left inputs k).headD []

theorem left_cons {inputs : List Bytes} (h : inputs ≠ []) (k : Nat) :
    ∃ rest, left inputs k = inputAt inputs k :: rest ∧ inputAt inputs k ∈ inputs := by
  have hlen := List.length_pos_iff.2 h
  have hlt : min k (inputs.length - 1) < inputs.length := by omega
  have hleft := List.drop_eq_getElem_cons hlt
  have hat : inputAt inputs k = inputs[min k (inputs.length - 1)] := by
    rw [inputAt, left, hleft]
    rfl
  exact ⟨_, by rw [hat]; exact hleft, by rw [hat]; exact List.getElem_mem hlt⟩

theorem advance_left {inputs : List Bytes} (h : inputs ≠ []) (k : Nat) :
    advance (left inputs k) = left inputs (k + 1) := by
  have hlen := List.length_pos_iff.2 h
  by_cases hk : k + 1 < inputs.length
  · -- another input is left behind this one
    have h1 : min k (inputs.length - 1) = k := by omega
    have h2 : min (k + 1) (inputs.length - 1) = k + 1 := by omega
    rw [left, left, h1, h2, List.drop_eq_getElem_cons (by omega : k < inputs.length), List.drop_eq_getElem_cons hk]
    rfl
  · have h1 : min k (inputs.length - 1) = inputs.length - 1 := by omega
    have h2 : min (k + 1) (inputs.length - 1) = inputs.length - 1 := by omega
    rw [left, left, h1, h2, List.drop_length_sub_one h]
    rfl

theorem afterPass_feed {i : Bytes} {n : Int} (hn : Halts (add i) (.ok n)) (inputs : List Bytes) (out : Bytes) :
    afterPass feed n (inputs, out) = (advance inputs, out ++ block n) := by
  simp [afterPass, feed, block, ← resultMessage_eq hn]

/-- The session up to the input `i` that ends it. -/
theorem feed_ends {i : Bytes} {rest : List Bytes} : ∀ {before : List Bytes} {ns : List Int} {out : Bytes},
    Results before ns → (i = [] ∨ Throws i) → Halts (scalc feed (before ++ i :: rest, out))
      (if i = [] then .ok (i :: rest, out ++ ns.flatMap block)
        else .error (negatives, i :: rest, out ++ ns.flatMap block))
  | [], ns, out, hres, hi => by
    obtain rfl : ns = [] := by simpa [Results] using hres
    by_cases h : i = []
    · rw [if_pos h, List.nil_append, scalc_empty (by simpa [feed] using h), halts_pure]
      simp [feed]
    · have hthrow := @scalc_throws _ feed (i :: rest, out) _ h (hi.resolve_left h)
      simpa [h, feed] using hthrow
  | x :: before, ns, out, hres, hi => by
    obtain ⟨n, ns, ⟨hne, hn⟩, hrest, rfl⟩ := List.forall₂_cons_left_iff.1 hres
    have hunroll := @scalc_unroll _ feed (x :: (before ++ i :: rest), out) n hne hn
    have hnext : afterPass feed n (feed.getInput (x :: (before ++ i :: rest), out)).2 = _ := afterPass_feed hn _ _
    have hadv : advance (x :: (before ++ i :: rest)) = before ++ i :: rest := by cases before <;> rfl
    rw [List.cons_append, hunroll, hnext, hadv]
    have ih := @feed_ends i rest before ns (out ++ block n) hrest hi
    simpa using ih

theorem ne_nil_of_ends {i : Bytes} (h : ends i = false) : i ≠ [] := by
  simp only [ends, Bool.or_eq_false_iff, beq_eq_false_iff_ne] at h
  exact h.1

/-- Without an input that ends the session, pass after pass is made. -/
theorem feed_goes_on {inputs : List Bytes} (hne : inputs ≠ []) (hfit : ∀ i ∈ inputs, Fits i)
    (hends : ∀ i ∈ inputs, ends i = false) (k : Nat) : ∃ ns,
      After (scalcPass feed) (inputAt inputs 0, inputs, []) k (inputAt inputs k, left inputs k, ns.flatMap block) ∧
      List.Forall₂ (fun i n => Halts (add i) (.ok n)) ((List.range k).map (inputAt inputs)) ns := by
  induction k with
  | zero => exact ⟨[], by simpa [left] using After.zero, .nil⟩
  | succ k ih =>
    obtain ⟨ns, hafter, hns⟩ := ih
    obtain ⟨rest, hleft, hmem⟩ := left_cons hne k
    obtain ⟨rest', hleft', hmem'⟩ := left_cons hne (k + 1)
    obtain ⟨ns₁, hres⟩ := @results_exist [inputAt inputs k] (by simpa using hfit _ hmem) (by simpa using hends _ hmem)
    obtain ⟨n, _, ⟨-, hn⟩, -, -⟩ := List.forall₂_cons_left_iff.1 hres
    have hnext : inputAt inputs (k + 1) ≠ [] := ne_nil_of_ends (hends _ hmem')
    have hpass := scalcPass_ok feed (left inputs k, ns.flatMap block) hn
    have hstate : afterResult feed n (left inputs k, ns.flatMap block) =
        (inputAt inputs (k + 1), left inputs (k + 1), (ns ++ [n]).flatMap block) := by
      unfold afterResult
      rw [afterPass_feed hn, advance_left hne]
      simp [feed, inputAt]
    rw [hstate, if_neg hnext] at hpass
    refine ⟨ns ++ [n], hafter.pass hpass, ?_⟩
    rw [List.range_succ, List.map_append]
    exact List.rel_append hns (.cons hn .nil)

/-! ## What is printed -/

/-- The inputs of a session on the console; the last one is given again and again. -/
def consoleInputs (arg stdin : Bytes) : List Bytes := cStr arg :: lines stdin

theorem reads_new (arg stdin : Bytes) : Reads (ConsoleUi.new arg stdin) (consoleInputs arg stdin, []) :=
  ⟨rfl, lines stdin, rfl, .inr ⟨stdin, rfl, rfl⟩⟩

section Console

variable {arg stdin : Bytes} {inputs : List Bytes}

theorem console_ends_at (hreads : Reads (ConsoleUi.new arg stdin) (inputs, [])) (hfit : ∀ i ∈ inputs, Fits i) {i : Bytes}
    (hfind : inputs.find? ends = some i) : ∃ ns ui, Results (answered inputs) ns ∧
      Halts (scalc consoleUi (.new arg stdin)) (if i = [] then .ok ui else .error (negatives, ui)) ∧
      ui.cout = ns.flatMap block := by
  obtain ⟨j, rest, hsplit, hj, hfind'⟩ := script_split ⟨i, List.mem_of_find?_eq_some hfind, List.find?_some hfind⟩
  obtain rfl : i = j := Option.some.inj (hfind.symm.trans hfind')
  obtain ⟨ns, hns⟩ := results_answered hfit
  have hfeed := @feed_ends _ rest _ _ [] hns ((ends_iff (hfit i (by rw [hsplit]; simp))).1 hj)
  rw [← hsplit] at hfeed
  obtain ⟨r, hr, halike⟩ := scalc_related related_console.symm hreads hfeed
  by_cases h : i = []
  · rw [if_pos h] at halike
    cases halike with
    | @ok _ ui hui => exact ⟨ns, ui, hns, by rwa [if_pos h], by simpa using hui.1⟩
  · rw [if_neg h] at halike
    cases halike with
    | @error _ e' he =>
      obtain ⟨e, ui⟩ := e'
      obtain ⟨rfl, hui⟩ := he
      exact ⟨ns, ui, hns, by rwa [if_neg h], by simpa using hui.1⟩

theorem console_goes_on (hreads : Reads (ConsoleUi.new arg stdin) (inputs, [])) (hfit : ∀ i ∈ inputs, Fits i)
    (hne : inputs ≠ []) (hends : ∀ i ∈ inputs, ends i = false) (k : Nat) : ∃ ns ui,
    After (scalcPass consoleUi) (inputAt inputs 0, .new arg stdin) k (inputAt inputs k, ui) ∧
      List.Forall₂ (fun i n => Halts (add i) (.ok n)) ((List.range k).map (inputAt inputs)) ns ∧
      ui.cout = ns.flatMap block := by
  obtain ⟨ns, hafter, hns⟩ := feed_goes_on hne hfit hends k
  obtain ⟨⟨_, ui⟩, hui, hin, hcout, -⟩ := after_related (pass_related related_console.symm)
    (t := (inputAt inputs 0, ConsoleUi.new arg stdin)) ⟨rfl, hreads⟩ hafter
  obtain rfl := hin
  exact ⟨ns, ui, hui, hns, hcout⟩

end Console

/-- **What the calculator prints.** For every start argument and every standard input, whatever their
lines: take the start argument and the lines, of which the last one is what stands behind the last newline.
If one of them is empty or has a negative number, the session ends at the first such one, by a return or by
the exception, and has printed exactly the results of the inputs before it, in order. Otherwise it never
ends: for every number of passes it has printed the results of that many inputs, in order, of which the
last one comes again and again. -/
theorem console_transcript {arg stdin : Bytes} (hfit : ∀ i ∈ consoleInputs arg stdin, Fits i) :
    (∀ i, (consoleInputs arg stdin).find? ends = some i → ∃ ns ui, Results (answered (consoleInputs arg stdin)) ns ∧
      Halts (scalc consoleUi (.new arg stdin)) (if i = [] then .ok ui else .error (negatives, ui)) ∧
      ui.cout = ns.flatMap block) ∧
    ((consoleInputs arg stdin).find? ends = none → (∀ r, ¬ Halts (scalc consoleUi (.new arg stdin)) r) ∧
      ∀ k, ∃ ns ui, After (scalcPass consoleUi) (cStr arg, .new arg stdin) k (inputAt (consoleInputs arg stdin) k, ui) ∧
        List.Forall₂ (fun i n => Halts (add i) (.ok n)) ((List.range k).map (inputAt (consoleInputs arg stdin))) ns ∧
        ui.cout = ns.flatMap block) := by
  have hreads := reads_new arg stdin
  have hne : consoleInputs arg stdin ≠ [] := by simp [consoleInputs]
  refine ⟨fun i hfind => console_ends_at hreads hfit hfind, ?_⟩
  intro hnone
  have hends : ∀ i ∈ consoleInputs arg stdin, ends i = false := by simpa using hnone
  have hpasses := console_goes_on hreads hfit hne hends
  refine ⟨?_, hpasses⟩
  have hloop : scalc consoleUi (ConsoleUi.new arg stdin) = iter (scalcPass consoleUi) (cStr arg, ConsoleUi.new arg stdin) :=
    scalc_nonempty (ne_nil_of_ends (hends _ List.mem_cons_self))
  rw [hloop]
  apply not_halts_of_after
  intro k
  obtain ⟨-, ui, hafter, -⟩ := hpasses k
  exact ⟨_, hafter⟩

theorem console_transcript_rejected_line : ∃ ui,
    Halts (scalc consoleUi (.new (lit "1,2") (lit "4\n-5\n6"))) (.error (negatives, ui)) ∧ ui.cout = block 3 ++ block 4 := by
  have hin : consoleInputs (lit "1,2") (lit "4\n-5\n6") = [lit "1,2", lit "4", lit "-5", lit "6"] := rfl
  obtain ⟨ns, ui, hns, hend, hout⟩ := (@console_transcript (lit "1,2") (lit "4\n-5\n6") (by rw [hin]; decide)).1
    (lit "-5") (by rw [hin]; decide)
  have hans : answered (consoleInputs (lit "1,2") (lit "4\n-5\n6")) = [lit "1,2", lit "4"] := rfl
  rw [hans] at hns
  obtain ⟨n, _, ⟨-, hn⟩, hrest, rfl⟩ := List.forall₂_cons_left_iff.1 hns
  obtain ⟨n', _, ⟨-, hn'⟩, hnil, rfl⟩ := List.forall₂_cons_left_iff.1 hrest
  obtain rfl := List.forall₂_nil_left_iff.1 hnil
  obtain rfl : n = 3 := Except.ok.inj (hn.unique ⟨9, rfl⟩)
  obtain rfl : n' = 4 := Except.ok.inj (hn'.unique ⟨9, rfl⟩)
  rw [if_neg (by decide)] at hend
  exact ⟨ui, hend, by simpa using hout⟩

end CalcChatter.Calc

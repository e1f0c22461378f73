import CalcChatter.Calc.Scalc

/-!
# The console session and the end of the input

`scalc` stops at an empty input, and `NextInput` never looks at the stream. A line that ends in a
newline is followed by a read that leaves the string empty, so the session ends. A last line without
a newline sets `eofbit` when it is read; from then on `getline` fails without touching the string,
and the session shows the result of that line again and again.

`session_ends` and `session_runs_on` are the two cases; `console_ends_iff` is the exact condition.
-/

namespace CalcChatter.Calc

open Cxx Fuel Fuel.Comp

/-- The lines of the standard input; the last one is what stands behind the last newline. -/
def lines (stdin : Bytes) : List Bytes := stdin.splitOn (ch '\n')

/-- What a pass writes to `cout`. -/
def block (n : Int) : Bytes := resultMessage n ++ [ch '\n'] ++ (lit "another input please" ++ [ch '\n'])

theorem getline_newline {l rest : Bytes} (hl : ch '\n' ∉ l) (str : Bytes) :
    getline ⟨l ++ ch '\n' :: rest, false, false⟩ str = (⟨rest, false, false⟩, l) := by
  have hne := bne_of_not_mem hl
  simp [getline, List.takeWhile_append_of_pos hne, List.dropWhile_append_of_pos hne]

theorem getline_last {l : Bytes} (hl : ch '\n' ∉ l) (str : Bytes) :
    getline ⟨l, false, false⟩ str = (⟨[], true, l.isEmpty⟩, l) := by
  have hne := bne_of_not_mem hl
  simp [getline, List.takeWhile_eq_self_iff.2 hne, List.dropWhile_eq_nil_iff.2 hne]

/-- `eofbit` stays, and the string with it. -/
theorem getline_eof {is : Stream} (h : is.eofbit = true) (str : Bytes) :
    getline is str = ({ is with failbit := true }, str) := by simp [getline, h]

theorem afterResult_console {i : Bytes} {n : Int} (hn : Halts (add i) (.ok n)) (ui : ConsoleUi) :
    afterResult consoleUi n ui =
      ((getline ui.cin ui.input).2, ⟨(getline ui.cin ui.input).2, (getline ui.cin ui.input).1, ui.cout ++ block n⟩) := by
  simp [afterResult, afterPass, consoleUi, block, ← resultMessage_eq hn]

theorem lines_cases (c : Bytes) : (ch '\n' ∉ c ∧ lines c = [c]) ∨
    ∃ l c', ch '\n' ∉ l ∧ c = l ++ ch '\n' :: c' ∧ lines c = l :: lines c' := by
  by_cases h : ch '\n' ∈ c
  · obtain ⟨l, c', rfl, hl⟩ := List.eq_append_cons_of_mem h
    exact .inr ⟨l, c', hl, rfl, List.splitOn_append_cons_self_of_not_mem hl c'⟩
  · exact .inl ⟨h, List.splitOn_eq_singleton h⟩

/-- The lines that get a result: those before the first empty one. -/
def shown (stdin : Bytes) : List Bytes := (lines stdin).takeWhile (· != [])

/-- The session from the head of the loop, when an empty line is still to come. The induction is on
what is left to read: every pass takes one line off it. -/
theorem session_ends : ∀ (c input out : Bytes), [] ∈ lines c → Accepted input → (∀ l ∈ shown c, Accepted l) →
    ∃ ui ns, Halts (iter (scalcPass consoleUi) (input, ⟨input, ⟨c, false, false⟩, out⟩)) (.ok ui) ∧
      List.Forall₂ (fun l n => Halts (add l) (.ok n)) (input :: shown c) ns ∧ ui.cout = out ++ ns.flatMap block := by
  intro c
  induction hlen : c.length using Nat.strong_induction_on generalizing c with
  | _ len ih =>
    intro input out hmem ⟨n, hn⟩ hacc
    have hpass := scalcPass_ok consoleUi ⟨input, ⟨c, false, false⟩, out⟩ hn
    rw [afterResult_console hn] at hpass
    rcases lines_cases c with ⟨hc, hl⟩ | ⟨l, c', hl, rfl, hls⟩
    · -- nothing is left to read
      obtain rfl : c = [] := by rw [hl] at hmem; simpa [eq_comm] using hmem
      rw [getline_last hc] at hpass
      exact ⟨_, [n], halts_iter_done hpass, by simp [shown, hl, hn], by simp⟩
    · simp only [getline_newline hl] at hpass
      by_cases hempty : l = []
      · subst hempty
        exact ⟨_, [n], halts_iter_done hpass, by rw [shown, hls]; simp [hn], by simp⟩
      · rw [if_neg hempty] at hpass
        have hshown : shown (l ++ ch '\n' :: c') = l :: shown c' := by simp [shown, hls, hempty]
        rw [hshown] at hacc ⊢
        obtain ⟨ui, ns, hui, hns, hout⟩ := ih c'.length (by rw [← hlen]; simp; omega) c' rfl l (out ++ block n)
          (by rw [hls] at hmem; simpa [Ne.symm hempty] using hmem) (hacc l (by simp))
          fun x hx => hacc x (by simp [hx])
        exact ⟨ui, n :: ns, (halts_iter_next hpass).2 hui, .cons hn hns, by simp [hout]⟩

/-- What holds at the head of the loop when no empty line is to come: the input is not empty, and
either the last line is still to be read or the stream is at its end. -/
def RunsOn (st : Bytes × ConsoleUi) : Prop :=
  st.1 ≠ [] ∧ st.2.input = st.1 ∧ Accepted st.1 ∧
    (st.2.cin.eofbit = true ∨
      ∃ c, st.2.cin = ⟨c, false, false⟩ ∧ [] ∉ lines c ∧ ∀ l ∈ lines c, Accepted l)

theorem runsOn_pass (st : Bytes × ConsoleUi) (h : RunsOn st) :
    ∃ st', RunsOn st' ∧ Halts (scalcPass consoleUi st) (.ok (.inl st')) := by
  obtain ⟨input, ui⟩ := st
  obtain ⟨hne, hin, ⟨n, hn⟩, hcin⟩ := h
  have hpass := scalcPass_ok consoleUi ui hn
  rw [afterResult_console hn] at hpass
  obtain rfl : ui.input = input := hin
  rcases hcin with heof | ⟨c, hc, hmem, hacc⟩
  · rw [getline_eof heof, if_neg hne] at hpass
    exact ⟨(ui.input, ⟨ui.input, { ui.cin with failbit := true }, ui.cout ++ block n⟩),
      ⟨hne, rfl, ⟨n, hn⟩, .inl heof⟩, hpass⟩
  · rw [hc] at hpass
    rcases lines_cases c with ⟨hnl, hl⟩ | ⟨l, c', hl, rfl, hls⟩
    · -- the last line, without a newline
      rw [hl] at hmem hacc
      have hcne : c ≠ [] := fun h => hmem (by simp [h])
      rw [getline_last hnl, if_neg hcne] at hpass
      exact ⟨(c, _), ⟨hcne, rfl, hacc c (by simp), .inl rfl⟩, hpass⟩
    · rw [hls] at hmem hacc
      have hlne : l ≠ [] := fun h => hmem (by simp [h])
      rw [getline_newline hl, if_neg hlne] at hpass
      exact ⟨(l, _), ⟨hlne, rfl, hacc l (by simp), .inr ⟨c', rfl, fun h => hmem (by simp [h]),
        fun x hx => hacc x (by simp [hx])⟩⟩, hpass⟩

/-- With no empty line to come the session never ends. -/
theorem session_runs_on {arg stdin : Bytes} (harg : cStr arg ≠ []) (hacc : Accepted (cStr arg))
    (hlines : ∀ l ∈ lines stdin, Accepted l) (hmem : [] ∉ lines stdin) (r : Except (Exn × ConsoleUi) ConsoleUi) :
    ¬ Halts (scalc consoleUi (ConsoleUi.new arg stdin)) r := by
  have hloop : scalc consoleUi (ConsoleUi.new arg stdin) =
      iter (scalcPass consoleUi) (cStr arg, ConsoleUi.new arg stdin) := scalc_nonempty harg
  rw [hloop]
  exact not_halts_iter RunsOn runsOn_pass ⟨harg, rfl, hacc, .inr ⟨stdin, rfl, hmem, hlines⟩⟩ r

/-- The session ends as it should: nothing is shown for an empty start argument, and otherwise one
result for the start argument and one for each line before the first empty one, in order. -/
def EndsAtInputEnd (arg stdin : Bytes) : Prop :=
  ∃ ui, Halts (scalc consoleUi (ConsoleUi.new arg stdin)) (.ok ui) ∧
    (cStr arg = [] → ui.cout = []) ∧
    (cStr arg ≠ [] → ∃ ns, List.Forall₂ (fun l n => Halts (add l) (.ok n)) (cStr arg :: shown stdin) ns ∧
      ui.cout = ns.flatMap block)

/-- **When the console session ends.** No line makes `Add` throw. The session ends, with exactly the
results it should show, if and only if the start argument is empty, or `Add` accepts it and the
standard input is empty, ends in a newline or has an empty line. -/
theorem console_ends_iff {arg stdin : Bytes} (hlines : ∀ l ∈ lines stdin, Accepted l) :
    EndsAtInputEnd arg stdin ↔ cStr arg = [] ∨ (Accepted (cStr arg) ∧ [] ∈ lines stdin) := by
  by_cases harg : cStr arg = []
  · have hdone : scalc consoleUi (ConsoleUi.new arg stdin) = pure (ConsoleUi.new arg stdin) := scalc_empty harg
    simp only [harg, true_or, iff_true]
    exact ⟨ConsoleUi.new arg stdin, by rw [hdone]; simp, fun _ => rfl, fun h => absurd harg h⟩
  · have hloop : scalc consoleUi (ConsoleUi.new arg stdin) =
        iter (scalcPass consoleUi) (cStr arg, ConsoleUi.new arg stdin) := scalc_nonempty harg
    simp only [harg, false_or]
    constructor
    · rintro ⟨ui, hui, -, hshow⟩
      obtain ⟨ns, hns, -⟩ := hshow harg
      obtain ⟨n, _, hn, -⟩ := List.forall₂_cons_left_iff.1 hns
      refine ⟨⟨n, hn⟩, ?_⟩
      by_contra hmem
      exact session_runs_on harg ⟨n, hn⟩ hlines hmem _ hui
    · rintro ⟨hacc, hmem⟩
      have hshown : ∀ l ∈ shown stdin, Accepted l := fun l hl => hlines l ((List.takeWhile_prefix _).subset hl)
      obtain ⟨ui, ns, hui, hns, hout⟩ := session_ends stdin (cStr arg) [] hmem hacc hshown
      exact ⟨ui, hloop ▸ hui, fun h => absurd h harg, fun _ => ⟨ns, hns, by simpa using hout⟩⟩

theorem console_ends_iff_two_lines : EndsAtInputEnd (lit "1,2") (lit "3\n4\n") := by
  have hlines : ∀ l ∈ lines (lit "3\n4\n"), Accepted l := by
    have h : lines (lit "3\n4\n") = [lit "3", lit "4", lit ""] := rfl
    rw [h]
    simp only [List.forall_mem_cons, List.not_mem_nil, false_imp_iff, implies_true, and_true]
    exact ⟨⟨3, 9, rfl⟩, ⟨4, 9, rfl⟩, ⟨0, 9, rfl⟩⟩
  exact (console_ends_iff hlines).2 (.inr ⟨⟨3, 9, rfl⟩, by decide⟩)

/-- Start argument `1` and the input `2` without a newline: `2` is shown for ever. -/
theorem unterminated_line_never_ends : (∀ l ∈ lines (lit "2"), Accepted l) ∧
    ∀ r, ¬ Halts (scalc consoleUi (ConsoleUi.new (lit "1") (lit "2"))) r := by
  have hlines : ∀ l ∈ lines (lit "2"), Accepted l := by
    have h : lines (lit "2") = [lit "2"] := rfl
    rw [h]
    simp only [List.forall_mem_cons, List.not_mem_nil, false_imp_iff, implies_true, and_true]
    exact ⟨2, 9, rfl⟩
  exact ⟨hlines, session_runs_on (by decide) ⟨1, 9, rfl⟩ hlines (by decide)⟩

end CalcChatter.Calc

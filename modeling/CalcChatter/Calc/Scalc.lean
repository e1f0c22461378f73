import CalcChatter.Calc.Add

/-!
# `scalc` and the console (string_calculator_kata.cc:89-130)

| here | there |
| --- | --- |
| `Ui`         | `StringCalculatorUi` (kata:89); `σ` is the state of the user interface |
| `scalc`      | `scalc` (kata:111); an exception carries the state it leaves behind |
| `Stream`     | `cin`: what is still to be read, `eofbit`, `failbit` |
| `getline`    | `std::getline`; fails without touching the string unless the stream is good |
| `consoleUi`  | `StringCalculatorConsoleUi` (kata:96); its state also holds `cin` and what `cout` got |
-/

namespace CalcChatter.Calc

open Cxx Fuel Fuel.Comp

structure Ui (σ : Type) where
  getInput : σ → Bytes × σ
  display : Bytes → σ → σ
  nextInput : σ → σ

variable {σ : Type}

/-- One pass of the `while (true)` loop (kata:117-129), left by `return`. -/
def scalcPass (ui : Ui σ) : Bytes × σ → Comp (Exn × σ) ((Bytes × σ) ⊕ σ)
  | (input, st) => do
    let result ← (add input).mapError (·, st)
    let msg := lit "The result is " ++ intToString result
    let st := ui.display msg st
    let st := ui.display (lit "another input please") st
    let st := ui.nextInput st
    let (input, st) := ui.getInput st
    if input = [] then return .inr st else return .inl (input, st)

def scalc (ui : Ui σ) (st : σ) : Comp (Exn × σ) σ :=
  let (input, st) := ui.getInput st
  if input = [] then pure st else iter (scalcPass ui) (input, st)

structure Stream where
  rest : Bytes
  eofbit : Bool
  failbit : Bool

def getline (is : Stream) (str : Bytes) : Stream × Bytes :=
  if is.eofbit || is.failbit then ({ is with failbit := true }, str)  -- the sentry fails
  else
    let line := is.rest.takeWhile (· != ch '\n')
    match is.rest.dropWhile (· != ch '\n') with
    | _ :: rest => ({ is with rest := rest }, line)  -- the newline is read and not stored
    | [] => ({ rest := [], eofbit := true, failbit := line.isEmpty }, line)

structure ConsoleUi where
  input : Bytes
  cin : Stream
  cout : Bytes

/-- `StringCalculatorConsoleUi ui(argv[1])`, nothing read and nothing written. -/
def ConsoleUi.new (arg stdin : Bytes) : ConsoleUi := ⟨cStr arg, ⟨stdin, false, false⟩, []⟩

def consoleUi : Ui ConsoleUi where
  getInput ui := (ui.input, ui)
  display msg ui := { ui with cout := ui.cout ++ msg ++ [ch '\n'] }
  nextInput ui :=
    let (cin, input) := getline ui.cin ui.input
    { ui with cin := cin, input := input }

/-! ## One pass -/

/-- The input has a result. -/
def Accepted (l : Bytes) : Prop := ∃ n, Halts (add l) (.ok n)

/-- The state after a pass that showed the result `n`. -/
def afterPass (ui : Ui σ) (n : Int) (st : σ) : σ :=
  ui.nextInput (ui.display (lit "another input please") (ui.display (lit "The result is " ++ intToString n) st))

/-- The state after a pass that showed the result `n`, with the next input read. -/
def afterResult (ui : Ui σ) (n : Int) (st : σ) : Bytes × σ :=
  ui.getInput (afterPass ui n st)

/-- The message for a result, which is never negative. -/
def resultMessage (n : Int) : Bytes := lit "The result is " ++ decimal n.toNat

theorem resultMessage_eq {input : Bytes} {n : Int} (hn : Halts (add input) (.ok n)) :
    lit "The result is " ++ intToString n = resultMessage n := by
  rw [intToString_of_nonneg (add_nonneg hn), resultMessage]

theorem scalcPass_ok (ui : Ui σ) (st : σ) {input : Bytes} {n : Int} (hn : Halts (add input) (.ok n)) :
    Halts (scalcPass ui (input, st)) (.ok (if (afterResult ui n st).1 = [] then .inr (afterResult ui n st).2
      else .inl (afterResult ui n st))) := by
  refine (halts_bind_ok (halts_mapError hn)).2 ?_
  change Halts (if (afterResult ui n st).1 = [] then _ else _) _
  split <;> simp [afterResult, afterPass]

theorem scalcPass_error (ui : Ui σ) (st : σ) {input : Bytes} {e : Exn} (he : Halts (add input) (.error e)) :
    Halts (scalcPass ui (input, st)) (.error (e, st)) := halts_bind_error (halts_mapError he)

/-! ## The session -/

section Session

variable {ui : Ui σ} {st : σ}

theorem scalc_empty (h : (ui.getInput st).1 = []) : scalc ui st = pure (ui.getInput st).2 := if_pos h

theorem scalc_nonempty (h : (ui.getInput st).1 ≠ []) : scalc ui st = iter (scalcPass ui) (ui.getInput st) := if_neg h

/-- The read before the loop and the one at its end are the same: a session whose input has a result
goes on like a session that starts after the pass. -/
theorem scalc_unroll {n : Int} (hne : (ui.getInput st).1 ≠ []) (hn : Halts (add (ui.getInput st).1) (.ok n))
    (r : Except (Exn × σ) σ) : Halts (scalc ui st) r ↔ Halts (scalc ui (afterPass ui n (ui.getInput st).2)) r := by
  have hpass := scalcPass_ok ui (ui.getInput st).2 hn
  unfold afterResult at hpass
  rw [scalc_nonempty hne]
  by_cases hlast : (ui.getInput (afterPass ui n (ui.getInput st).2)).1 = []
  · rw [if_pos hlast] at hpass
    rw [scalc_empty hlast, (halts_iter_done hpass).iff_eq, halts_pure]
  · rw [if_neg hlast] at hpass
    rw [scalc_nonempty hlast]
    exact halts_iter_next hpass

theorem scalc_throws {e : Exn} (hne : (ui.getInput st).1 ≠ []) (he : Halts (add (ui.getInput st).1) (.error e)) :
    Halts (scalc ui st) (.error (e, (ui.getInput st).2)) := by
  rw [scalc_nonempty hne]
  exact halts_iter_error (scalcPass_error ui _ he)

end Session

end CalcChatter.Calc

import CalcChatter.Lib.Machine

/-!
# Resources with one owner at a time

A resource is acquired by an owner, used by it, and released by it; a longer use is entered and left,
and ends before the release. `discipline` is the machine that accepts the events of such a life and no
others. `run_balance` counts them: a resource that nobody owns at the end was released as often as it was
acquired.
-/

namespace Ownership

open Lts

variable {κ ρ : Type} [DecidableEq ρ]

inductive Event (ρ : Type) where
  | acquire (r : ρ)
  | use (r : ρ)
  | enter (r : ρ)
  | leave (r : ρ)
  | release (r : ρ)
deriving DecidableEq

/-- Who owns a resource, and whether its owner is inside a longer use. -/
structure Ledger (κ ρ : Type) where
  owner : ρ → Option κ
  busy : ρ → Bool

namespace Ledger

def empty : Ledger κ ρ := ⟨fun _ => none, fun _ => false⟩

def setOwner (l : Ledger κ ρ) (r : ρ) (k : Option κ) : Ledger κ ρ := { l with owner := Function.update l.owner r k }

def setBusy (l : Ledger κ ρ) (r : ρ) (b : Bool) : Ledger κ ρ := { l with busy := Function.update l.busy r b }

/-- 1 where the resource has an owner. -/
def held (l : Ledger κ ρ) (r : ρ) : Nat := if (l.owner r).isSome then 1 else 0

@[simp] theorem held_setBusy (l : Ledger κ ρ) (q r : ρ) (b : Bool) : held (l.setBusy q b) r = held l r := rfl

theorem held_setOwner (l : Ledger κ ρ) (q r : ρ) (k : Option κ) :
    held (l.setOwner q k) r = if r = q then (if k.isSome then 1 else 0) else held l r := by
  by_cases hr : r = q
  · subst hr
    simp [held, setOwner]
  · simp [held, setOwner, hr]

variable [DecidableEq κ]

/-- What may happen to a resource next. -/
def step (l : Ledger κ ρ) (e : κ × Event ρ) : Option (Ledger κ ρ × List Empty) :=
  match e.2 with
  | .acquire r => if l.owner r = none then some (l.setOwner r (some e.1), []) else none
  | .use r => if l.owner r = some e.1 then some (l, []) else none
  | .enter r => if l.owner r = some e.1 ∧ l.busy r = false then some (l.setBusy r true, []) else none
  | .leave r => if l.owner r = some e.1 ∧ l.busy r = true then some (l.setBusy r false, []) else none
  | .release r => if l.owner r = some e.1 ∧ l.busy r = false then some (l.setOwner r none, []) else none

end Ledger

def discipline [DecidableEq κ] : Machine (Ledger κ ρ) (κ × Event ρ) Empty := ⟨Ledger.step⟩

variable [DecidableEq κ] {l l' : Ledger κ ρ} {es : List (κ × Event ρ)} {k : κ} {r : ρ}

theorem accept_acquire (h : l.owner r = none) : run discipline l [(k, .acquire r)] = some (l.setOwner r (some k), []) :=
  run_one_iff.2 (by simp [discipline, Ledger.step, h])

theorem accept_use (h : l.owner r = some k) : run discipline l [(k, .use r)] = some (l, []) :=
  run_one_iff.2 (by simp [discipline, Ledger.step, h])

theorem accept_enter (h : l.owner r = some k) (hb : l.busy r = false) :
    run discipline l [(k, .enter r)] = some (l.setBusy r true, []) := run_one_iff.2 (by simp [discipline, Ledger.step, h, hb])

theorem accept_leave (h : l.owner r = some k) (hb : l.busy r = true) :
    run discipline l [(k, .leave r)] = some (l.setBusy r false, []) := run_one_iff.2 (by simp [discipline, Ledger.step, h, hb])

theorem accept_release (h : l.owner r = some k) (hb : l.busy r = false) :
    run discipline l [(k, .release r)] = some (l.setOwner r none, []) := run_one_iff.2 (by simp [discipline, Ledger.step, h, hb])

/-- Is this event the acquisition of `r`, by whomever? -/
def acquires (r : ρ) (e : κ × Event ρ) : Bool := e.2 = .acquire r

def releases (r : ρ) (e : κ × Event ρ) : Bool := e.2 = .release r

/-- A resource is acquired as often as it is released, and once more if it has an owner. -/
theorem run_balance {os : List Empty} (h : run discipline l es = some (l', os)) (r : ρ) :
    l.held r + es.countP (acquires r) = es.countP (releases r) + l'.held r := by
  refine run_induction (fun es l' _ => l.held r + es.countP (acquires r) = es.countP (releases r) + l'.held r)
    (by simp) ?_ h
  rintro es t os ⟨k, e⟩ t' o - ih hstep
  rw [List.countP_append, List.countP_append]
  suffices h : t.held r + [(k, e)].countP (acquires r) = [(k, e)].countP (releases r) + t'.held r by omega
  cases e with
  | acquire q =>
    obtain ⟨hq, he⟩ := Option.ite_none_right_eq_some.1 hstep
    cases he
    have hfree : t.held q = 0 := by simp [Ledger.held, hq]
    by_cases hr : r = q
    · subst hr
      simp [Ledger.held_setOwner, acquires, releases, hfree]
    · simp [Ledger.held_setOwner, acquires, releases, hr, Ne.symm hr]
  | release q =>
    obtain ⟨⟨hq, -⟩, he⟩ := Option.ite_none_right_eq_some.1 hstep
    cases he
    have hheld : t.held q = 1 := by simp [Ledger.held, hq]
    by_cases hr : r = q
    · subst hr
      simp [Ledger.held_setOwner, acquires, releases, hheld]
    · simp [Ledger.held_setOwner, acquires, releases, hr, Ne.symm hr]
  | use q | enter q | leave q =>
    obtain ⟨-, he⟩ := Option.ite_none_right_eq_some.1 hstep
    cases he
    simp [acquires, releases]

end Ownership

import CalcChatter.Chat.Receive

/-!
# What `ReceivedMessageCount` says about the handler (Chatter.h:97, :154-169)

The tests wait for a count that is not zero, and then check and destroy the handler (main.cpp:94,
:215). But the loop increments before it calls the handler, so a read between the two counts a message
that is not handled yet.

| here | there |
| --- | --- |
| `loop a`     | a statement of `ReceiveLoop`, or what another thread does to the channel |
| `read`       | `ReceivedMessageCount()` (:97), from another thread |
| `returned m` | a call of `OnMessageReceived(m)` has returned |
| `count k`    | a read has returned `k` |

`counted_handled_iff` is the law over all runs: the reads that count unhandled messages are those
between the increment and the call.
-/

namespace CalcChatter.Chat

open Cxx Lts UdpChatChannel

variable {H : Type}

inductive WatchAct (H : Type) where
  | loop (a : Act H)
  | read
deriving DecidableEq

inductive Seen where
  | returned (message : Bytes)
  | count (k : SizeT)
deriving DecidableEq

def watched : Machine (Loop H) (WatchAct H) Seen where
  step l
    | .loop a => (l.step a).map fun (l', calls) => (l', calls.map fun call => .returned call.2)
    | .read => some (l, [.count l.channel.receivedMessageCount])

/-- The messages the handler has returned for. -/
def returned (out : List Seen) : List Bytes :=
  out.filterMap fun
    | .returned message => some message
    | .count _ => none

/-- The messages that arrive. -/
def arrived (acts : List (WatchAct H)) : List Bytes :=
  acts.filterMap fun
    | .loop (.recv a) => message a
    | _ => none

namespace Loop

/-- A message was received, and the handler has not returned. -/
def unhandled (l : Loop H) : List Bytes := if l.pc = .count ∨ l.pc = .call then [l.buffer] else []

/-- A handler is set when a message arrives, and stays until it has returned: so it is if one is set
before the first datagram and never taken away. -/
def handlerSet (l : Loop H) : WatchAct H → Bool
  | .loop (.recv a) => (message a).isNone || l.channel.callbackHandler.isSome
  | .loop (.setCallbackHandler h) => h.isSome || l.unhandled.isEmpty
  | _ => true

end Loop

/-! ## The accounts of the messages -/

section Accounts

variable {l l' : Loop H} {a : WatchAct H} {o out : List Seen} {acts : List (WatchAct H)}

@[simp] theorem returned_append (out out' : List Seen) : returned (out ++ out') = returned out ++ returned out' :=
  List.filterMap_append

@[simp] theorem arrived_append (acts acts' : List (WatchAct H)) :
    arrived (acts ++ acts') = arrived acts ++ arrived acts' := List.filterMap_append

theorem returned_calls (calls : List (H × Bytes)) :
    returned (calls.map fun call => .returned call.2) = calls.map (·.2) := by
  simp [returned, List.filterMap_map]

/-- There is a handler for the message that is not handled yet. -/
def Attended (l : Loop H) : Prop := l.unhandled ≠ [] → l.channel.callbackHandler.isSome = true

/-- What a statement of the loop hands over and what is unhandled after it was unhandled before, or has
just arrived. -/
theorem loop_attended {l l' : Loop H} {a : Act H} {calls : List (H × Bytes)} (hl : Attended l)
    (hset : l.handlerSet (.loop a) = true) (h : l.step a = some (l', calls)) :
    Attended l' ∧ calls.map (·.2) ++ l'.unhandled = l.unhandled ++ arrived [.loop a] := by
  cases Loop.step_cases h with
  | @recv a hpc =>
    cases hm : message a with
    | none => simp [Attended, Loop.unhandled, hpc, arrived, hm]
    | some m =>
      have hh : l.channel.callbackHandler.isSome = true := by simpa [Loop.handlerSet, hm] using hset
      exact ⟨fun _ => hh, by simp [Loop.unhandled, hpc, arrived, hm]⟩
  | setCallbackHandler =>
    refine ⟨?_, by simp [Loop.unhandled, arrived]⟩
    intro hne
    rcases Bool.or_eq_true_iff.1 hset with hh | hnil
    · exact hh
    · exact absurd (List.isEmpty_iff.1 hnil) hne
  | stop => exact ⟨hl, by simp [Loop.unhandled, arrived]⟩
  | call hpc =>
    obtain ⟨h', hh⟩ := Option.isSome_iff_exists.1 (hl (by simp [Loop.unhandled, hpc]))
    exact ⟨by simp [Attended, Loop.unhandled], by simp [Loop.unhandled, hpc, hh, arrived]⟩
  | count hpc =>
    have hh := hl (by simp [Loop.unhandled, hpc])
    exact ⟨fun _ => hh, by simp [Loop.unhandled, hpc, arrived]⟩
  | test hpc => cases l.channel.stopWorker <;> simp [Attended, Loop.unhandled, hpc, arrived]
  | sleep hpc => simp [Attended, Loop.unhandled, hpc, arrived]

theorem step_attended (hl : Attended l) (hset : l.handlerSet a = true) (h : watched.step l a = some (l', o)) :
    Attended l' ∧ returned o ++ l'.unhandled = l.unhandled ++ arrived [a] := by
  cases a with
  | read => cases h; exact ⟨hl, by simp [returned, arrived]⟩
  | loop a =>
    obtain ⟨⟨l', calls⟩, hs, he⟩ := Option.map_eq_some_iff.1 h
    cases he
    rw [returned_calls]
    exact loop_attended hl hset hs

/-- Only a read shows a count, and it shows nothing else. -/
theorem step_shows_count {o₁ o₂ : List Seen} {k : SizeT} (h : watched.step l a = some (l', o₁ ++ .count k :: o₂)) :
    a = .read ∧ o₁ = [] ∧ k = l.channel.receivedMessageCount := by
  cases a with
  | loop a =>
    obtain ⟨⟨l', calls⟩, -, he⟩ := Option.map_eq_some_iff.1 h
    have hmem : Seen.count k ∈ calls.map fun call => Seen.returned call.2 := by
      rw [(Prod.mk.inj he).2]
      simp
    simp at hmem
  | read =>
    obtain ⟨-, ho⟩ := Prod.mk.inj (Option.some.inj h)
    cases o₁ with
    | nil => exact ⟨rfl, rfl, by simpa using (List.cons.inj ho).1.symm⟩
    | cons x o₁ => simp at ho

theorem step_counted (h : watched.step l a = some (l', o)) :
    l'.counted = l.counted + .ofNat (arrived [a]).length := by
  cases a with
  | read => cases h; simp [arrived]
  | loop a =>
    obtain ⟨⟨l', calls⟩, hs, he⟩ := Option.map_eq_some_iff.1 h
    cases he
    rw [Loop.step_count hs]
    cases a with
    | recv a => cases hm : message a <;> simp [isMessage, arrived, hm]
    | _ => simp [isMessage, arrived]

end Accounts

/-! ## Whole runs -/

section Runs

variable {c : UdpChatChannel H} {l : Loop H} {acts : List (WatchAct H)} {out : List Seen}

/-- Every message that has arrived was handled in its turn or is the one unhandled now, and is counted
or is the one the worker is about to count. -/
theorem run_attended (hc : c.receivedMessageCount = 0)
    (h : run (guard watched Loop.handlerSet) (.start c) acts = some (l, out)) :
    returned out ++ l.unhandled = arrived acts ∧ l.counted = .ofNat (arrived acts).length := by
  have key : Attended l ∧ returned out ++ l.unhandled = arrived acts ∧ l.counted = .ofNat (arrived acts).length := by
    refine run_induction (fun acts l out => Attended l ∧ returned out ++ l.unhandled = arrived acts ∧
      l.counted = .ofNat (arrived acts).length) ⟨?_, rfl, ?_⟩ ?_ h
    · simp [Attended, Loop.unhandled, Loop.start]
    · simp [Loop.counted, Loop.start, hc, arrived]
    · rintro acts l out a l' o - ⟨hl, hacc, hcount⟩ hstep
      obtain ⟨hset, hstep⟩ := guard_step.1 hstep
      obtain ⟨hl', hacc'⟩ := step_attended hl hset hstep
      refine ⟨hl', ?_, ?_⟩
      · rw [returned_append, arrived_append, List.append_assoc, hacc', ← hacc, List.append_assoc]
      · rw [step_counted hstep, hcount, arrived_append, List.length_append, UInt64.ofNat_add]
  exact key.2

/-- A read counts handled messages only, except between the increment and the call. -/
theorem count_le_iff (hc : c.receivedMessageCount = 0)
    (h : run (guard watched Loop.handlerSet) (.start c) acts = some (l, out)) :
    l.channel.receivedMessageCount.toNat ≤ (returned out).length ↔ l.pc ≠ .call ∨ 2 ^ 64 ≤ (arrived acts).length := by
  obtain ⟨hacc, hcount⟩ := run_attended hc h
  have hlen := congrArg List.length hacc
  rw [List.length_append] at hlen
  have hmod : ∀ n : Nat, (UInt64.ofNat n).toNat = n % 2 ^ 64 := fun n => UInt64.toNat_ofNat'
  by_cases hcall : l.pc = .call
  · -- counted, and not handled yet
    have hone : l.unhandled.length = 1 := by simp [Loop.unhandled, hcall]
    have hval : l.channel.receivedMessageCount = .ofNat (arrived acts).length := by
      simpa [Loop.counted, hcall] using hcount
    rw [hval, hmod]
    simp only [hcall, ne_eq, not_true_eq_false, false_or]
    omega
  · simp only [ne_eq, hcall, not_false_eq_true, true_or, iff_true]
    by_cases hpc : l.pc = .count
    · -- neither counted nor handled
      have hone : l.unhandled.length = 1 := by simp [Loop.unhandled, hpc]
      have hval : l.channel.receivedMessageCount = .ofNat (returned out).length := by
        rw [← hlen, hone, UInt64.ofNat_add] at hcount
        simpa [Loop.counted, hpc] using hcount
      rw [hval, hmod]
      omega
    · have hnone : l.unhandled.length = 0 := by simp [Loop.unhandled, hcall, hpc]
      have hval : l.channel.receivedMessageCount = .ofNat (arrived acts).length := by
        simpa [Loop.counted, hpc] using hcount
      rw [hval, hmod]
      omega

end Runs

/-- **A message counted is a message handled, but for one step.** For every run of the loop beside
another thread that reads the count, with a handler that is set when a message arrives and stays until
it has returned: every read that returns `k` comes after the handler has returned for the first `k`
messages, if and only if no read is made between an increment and the call that follows it (once 2^64
messages have arrived the count has wrapped, and such a read is too small anyway). -/
theorem counted_handled_iff {c : UdpChatChannel H} (hc : c.receivedMessageCount = 0) {acts : List (WatchAct H)}
    {l : Loop H} {out : List Seen} (hrun : run (guard watched Loop.handlerSet) (.start c) acts = some (l, out)) :
    (∀ pre k post, out = pre ++ .count k :: post →
      k.toNat ≤ (returned pre).length ∧ returned pre <+: arrived acts) ↔
    ∀ before after l' out', acts = before ++ .read :: after →
      run (guard watched Loop.handlerSet) (.start c) before = some (l', out') →
        l'.pc ≠ .call ∨ 2 ^ 64 ≤ (arrived before).length := by
  constructor
  · rintro hreads before after l' out' rfl hbefore
    obtain ⟨l₁, pre, rest, hpre, hrest, rfl⟩ := run_append_iff.1 hrun
    obtain ⟨rfl, rfl⟩ := run_unique hbefore hpre
    obtain ⟨l₂, o, post, hread, -, rfl⟩ := run_cons_iff.1 hrest
    obtain ⟨-, hread⟩ := guard_step.1 hread
    cases hread
    exact (count_le_iff hc hbefore).1 (hreads out' _ post rfl).1
  · rintro hquiet pre k post rfl
    obtain ⟨before, a, after, l₁, l₂, o, o₁, o₂, rfl, hbefore, hstep, rfl⟩ := run_shown hrun
    obtain ⟨-, hstep⟩ := guard_step.1 hstep
    obtain ⟨rfl, rfl, rfl⟩ := step_shows_count hstep
    rw [List.append_nil]
    refine ⟨(count_le_iff hc hbefore).2 (hquiet before after l₁ o rfl hbefore), ?_⟩
    rw [arrived_append, ← (run_attended hc hbefore).1, List.append_assoc]
    exact List.prefix_append _ _

/-- The count is read once the handler has returned. -/
def readAfter : List (WatchAct Nat) :=
  [.loop .test, .loop (.recv (datagram "hi")), .loop .count, .loop .call, .read]

set_option maxRecDepth 4000 in
theorem counted_handled_iff_one_message : ∃ l,
    run (guard watched Loop.handlerSet) (.start (receiver (some 7))) readAfter =
      some (l, [.returned (lit "hi"), .count 1]) ∧
    (1 : SizeT).toNat ≤ (returned [.returned (lit "hi")]).length := by
  obtain ⟨l, hrun⟩ : ∃ l, run (guard watched Loop.handlerSet) (.start (receiver (some 7))) readAfter =
      some (l, [.returned (lit "hi"), .count 1]) := ⟨_, rfl⟩
  obtain ⟨l₀, o₀, hquiet, hpc⟩ : ∃ l o, run (guard watched Loop.handlerSet) (.start (receiver (some 7)))
      [.loop .test, .loop (.recv (datagram "hi")), .loop .count, .loop .call] = some (l, o) ∧
      l.pc = .sleep := ⟨_, _, rfl, rfl⟩
  refine ⟨l, hrun, ((counted_handled_iff rfl hrun).2 ?_ [.returned (lit "hi")] 1 [] rfl).1⟩
  intro before after l' out' hsplit hbefore
  obtain ⟨rfl, rfl⟩ : before = [.loop .test, .loop (.recv (datagram "hi")), .loop .count, .loop .call] ∧
      after = [] := by
    simpa [readAfter, List.cons_eq_append_iff] using hsplit
  obtain ⟨rfl, -⟩ := run_unique hquiet hbefore
  exact .inl (by rw [hpc]; decide)

set_option maxRecDepth 4000 in
/-- The count is read before the call: it counts a message, and no call has returned. -/
theorem counted_before_handled : ∃ l,
    run (guard watched Loop.handlerSet) (.start (receiver (some 7)))
      [.loop .test, .loop (.recv (datagram "hi")), .loop .count, .read] = some (l, [.count 1]) ∧
    ¬ (1 : SizeT).toNat ≤ (returned []).length := ⟨_, rfl, by decide⟩

end CalcChatter.Chat

import CalcChatter.Lib.Machine
import CalcChatter.Chat.Channel

/-!
# `ReceiveLoop` (Chatter.h:154-169)

The worker runs beside other threads, so one step is one statement of the loop; the other threads
can set the callback handler and the stop flag between any two of them.

| here | there |
| --- | --- |
| `test`                 | `while (!stopWorker_)` |
| `recv a`               | `if (ReceiveMessage(buffer))`, with what `recvfrom` finds |
| `count`                | `received_message_count_++` |
| `call`                 | `if (callbackHandler_) callbackHandler_->OnMessageReceived(buffer)` |
| `sleep`                | `sleep_for(1ms)` |
| `setCallbackHandler h` | `SetCallbackHandler` (:38), from another thread |
| `stop`                 | `stopWorker_ = true` (:86), from another thread |

A step shows the calls of `OnMessageReceived` it makes. A message that was received and not yet
handed over is owed; from `step_cases`, which lists all that a step can do, `step_calls` and `step_count`
say that every step keeps the accounts, and `receive_loop_calls` is the law over all runs.
`delivered_iff` joins the loop to the sender.
-/

namespace CalcChatter.Chat

open Cxx Lts UdpChatChannel

inductive Pc where
  | head | receive | count | call | sleep | exited
deriving DecidableEq

inductive Act (H : Type) where
  | test
  | recv (a : Arrival)
  | count
  | call
  | sleep
  | setCallbackHandler (h : Option H)
  | stop
deriving DecidableEq

/-- The channel, the worker's local `buffer` and where the worker stands. -/
structure Loop (H : Type) where
  channel : UdpChatChannel H
  buffer : Bytes
  pc : Pc
deriving DecidableEq

variable {H : Type}

namespace Loop

/-- The worker has just been started. -/
def start (c : UdpChatChannel H) : Loop H := ⟨c, [], .head⟩

/-- The step of an action; a call is shown with the handler it goes to. -/
def step (l : Loop H) : Act H → Option (Loop H × List (H × Bytes))
  | .test =>
    if l.pc = .head then some ({ l with pc := if l.channel.stopWorker then .exited else .receive }, []) else none
  | .recv a =>
    if l.pc = .receive then
      (l.channel.receiveMessage l.buffer a).map fun (got, buffer) =>
        ({ l with buffer, pc := if got then .count else .sleep }, [])
    else none
  | .count =>
    if l.pc = .count then
      some ({ l with channel.receivedMessageCount := l.channel.receivedMessageCount + 1, pc := .call }, [])
    else none
  | .call =>
    if l.pc = .call then
      some ({ l with pc := .sleep }, (l.channel.callbackHandler.map fun h => (h, l.buffer)).toList)
    else none
  | .sleep => if l.pc = .sleep then some ({ l with pc := .head }, []) else none
  | .setCallbackHandler h => some ({ l with channel := l.channel.setCallbackHandler h }, [])
  | .stop => some ({ l with channel.stopWorker := true }, [])

/-- The worker is not inside an iteration. -/
def betweenIterations (l : Loop H) : Bool := l.pc = .head || l.pc = .exited

/-- `SetCallbackHandler` is called between iterations only. -/
def handlerBetween (l : Loop H) : Act H → Bool
  | .setCallbackHandler _ => l.betweenIterations
  | _ => true

end Loop

def receiveLoop : Machine (Loop H) (Act H) (H × Bytes) := ⟨Loop.step⟩

/-! ## The accounts of the worker -/

/-- The calls an action makes due when `h` is set. -/
def callsDue (h : Option H) : Act H → List (H × Bytes)
  | .recv a => (h.bind fun h => (message a).map fun m => (h, m)).toList
  | _ => []

def handlerAfter (h : Option H) : Act H → Option H
  | .setCallbackHandler h' => h'
  | _ => h

/-- The calls that the messages arriving in a run should lead to, with handler `h` at first: each
message once and in order, to the handler set when it arrives. -/
def callsExpected : Option H → List (Act H) → List (H × Bytes) := dues callsDue handlerAfter

def isMessage : Act H → Bool
  | .recv a => (message a).isSome
  | _ => false

/-- The datagrams that are not empty among those that arrive. -/
def messageCount (acts : List (Act H)) : Nat := acts.countP isMessage

theorem handlerAfter_of_ne {a : Act H} (ha : ∀ h', a ≠ .setCallbackHandler h') (h : Option H) :
    handlerAfter h a = h := by
  cases a with
  | setCallbackHandler h' => exact absurd rfl (ha h')
  | _ => rfl

namespace Loop

theorem handlerBetween_of_ne {a : Act H} (ha : ∀ h', a ≠ .setCallbackHandler h') (l : Loop H) :
    l.handlerBetween a = true := by
  cases a with
  | setCallbackHandler h' => exact absurd rfl (ha h')
  | _ => rfl

/-- A message was received and the handler was not called yet. -/
def callOwed (l : Loop H) : List (H × Bytes) :=
  if l.pc = .count ∨ l.pc = .call then (l.channel.callbackHandler.map fun h => (h, l.buffer)).toList else []

/-- The count, with the message that was received and not counted yet. -/
def counted (l : Loop H) : SizeT := l.channel.receivedMessageCount + if l.pc = .count then 1 else 0

/-- All that a step can do. -/
inductive Stepped (l : Loop H) : Act H → Loop H → List (H × Bytes) → Prop where
  | test (hpc : l.pc = .head) :
    Stepped l .test { l with pc := if l.channel.stopWorker then .exited else .receive } []
  | recv {a} (hpc : l.pc = .receive) :
    Stepped l (.recv a)
      { l with buffer := (message a).getD l.buffer, pc := if (message a).isSome then .count else .sleep } []
  | count (hpc : l.pc = .count) :
    Stepped l .count { l with channel.receivedMessageCount := l.channel.receivedMessageCount + 1, pc := .call } []
  | call (hpc : l.pc = .call) :
    Stepped l .call { l with pc := .sleep } (l.channel.callbackHandler.map fun h => (h, l.buffer)).toList
  | sleep (hpc : l.pc = .sleep) : Stepped l .sleep { l with pc := .head } []
  | setCallbackHandler {h} : Stepped l (.setCallbackHandler h) { l with channel := l.channel.setCallbackHandler h } []
  | stop : Stepped l .stop { l with channel.stopWorker := true } []

theorem step_cases {l l' : Loop H} {a : Act H} {o : List (H × Bytes)} (h : l.step a = some (l', o)) :
    Stepped l a l' o := by
  cases a with
  | test =>
    obtain ⟨hpc, he⟩ := Option.ite_none_right_eq_some.1 h
    cases he
    exact .test hpc
  | recv a =>
    obtain ⟨hpc, h⟩ := Option.ite_none_right_eq_some.1 h
    obtain ⟨⟨got, buffer⟩, hr, he⟩ := Option.map_eq_some_iff.1 h
    obtain ⟨s, hs, -⟩ := Option.bind_eq_some_iff.1 hr
    rw [receiveMessage_eq hs] at hr
    cases hr
    cases he
    exact .recv hpc
  | count =>
    obtain ⟨hpc, he⟩ := Option.ite_none_right_eq_some.1 h
    cases he
    exact .count hpc
  | call =>
    obtain ⟨hpc, he⟩ := Option.ite_none_right_eq_some.1 h
    cases he
    exact .call hpc
  | sleep =>
    obtain ⟨hpc, he⟩ := Option.ite_none_right_eq_some.1 h
    cases he
    exact .sleep hpc
  | setCallbackHandler h' => cases h; exact .setCallbackHandler
  | stop => cases h; exact .stop

/-- The calls that were made and the one still owed are what was owed before and what became due. -/
theorem step_calls {l l' : Loop H} {a : Act H} {o : List (H × Bytes)} (hset : l.handlerBetween a = true)
    (h : l.step a = some (l', o)) : o ++ l'.callOwed = l.callOwed ++ callsDue l.channel.callbackHandler a ∧
      l'.channel.callbackHandler = handlerAfter l.channel.callbackHandler a := by
  cases step_cases h with
  | @recv a hpc =>
    cases hm : message a <;> cases hh : l.channel.callbackHandler <;>
      simp [callOwed, callsDue, handlerAfter, hpc, hm, hh]
  | setCallbackHandler =>
    -- between iterations nothing is owed, to the old handler or the new one
    have hpc : l.pc ≠ .count ∧ l.pc ≠ .call := by
      simp only [handlerBetween, betweenIterations, Bool.or_eq_true, decide_eq_true_eq] at hset
      rcases hset with hpc | hpc <;> simp [hpc]
    simp [callOwed, callsDue, handlerAfter, setCallbackHandler, hpc]
  | stop => simp [callOwed, callsDue, handlerAfter]
  | test hpc => cases l.channel.stopWorker <;> simp [callOwed, callsDue, handlerAfter, hpc]
  | count hpc | call hpc | sleep hpc => simp [callOwed, callsDue, handlerAfter, hpc]

theorem step_count {l l' : Loop H} {a : Act H} {o : List (H × Bytes)} (h : l.step a = some (l', o)) :
    l'.counted = l.counted + if isMessage a then 1 else 0 := by
  cases step_cases h with
  | @recv a hpc => cases hm : message a <;> simp [counted, isMessage, hpc, hm]
  | setCallbackHandler => simp [counted, isMessage, setCallbackHandler]
  | stop => simp [counted, isMessage]
  | test hpc => cases l.channel.stopWorker <;> simp [counted, isMessage, hpc]
  | count hpc | call hpc | sleep hpc => simp [counted, isMessage, hpc]

/-- A step changes no more of the channel than the handler, the count and the stop flag. -/
theorem step_channel {l l' : Loop H} {a : Act H} {o : List (H × Bytes)} (h : l.step a = some (l', o)) :
    ∃ n stop, l'.channel = { l.channel with
      callbackHandler := handlerAfter l.channel.callbackHandler a, receivedMessageCount := n, stopWorker := stop } := by
  cases step_cases h with
  | setCallbackHandler | stop | test _ | recv _ | count _ | call _ | sleep _ => exact ⟨_, _, rfl⟩

/-- Only another thread stops the worker. -/
theorem step_stopWorker {l l' : Loop H} {a : Act H} {o : List (H × Bytes)} (ha : a ≠ .stop)
    (h : l.step a = some (l', o)) : l'.channel.stopWorker = l.channel.stopWorker := by
  cases step_cases h with
  | stop => exact absurd rfl ha
  | setCallbackHandler | test _ | recv _ | count _ | call _ | sleep _ => rfl

theorem callOwed_between {l : Loop H} (h : l.betweenIterations = true) : l.callOwed = [] := by
  simp only [betweenIterations, Bool.or_eq_true, decide_eq_true_eq] at h
  rcases h with h | h <;> simp [callOwed, h]

theorem pc_of_callOwed {l : Loop H} (h : l.callOwed ≠ []) : l.pc = .count ∨ l.pc = .call := by
  by_contra hpc
  simp [callOwed, hpc] at h

theorem counted_between {l : Loop H} (h : l.betweenIterations = true) :
    l.counted = l.channel.receivedMessageCount := by
  simp only [betweenIterations, Bool.or_eq_true, decide_eq_true_eq] at h
  rcases h with h | h <;> simp [counted, h]

end Loop

/-! ## Whole runs -/

theorem foldl_count : ∀ (acts : List (Act H)) (n : SizeT),
    acts.foldl (fun n a => n + if isMessage a then 1 else 0) n = n + .ofNat (messageCount acts)
  | [], n => by simp [messageCount]
  | a :: acts, n => by
    rw [List.foldl_cons, foldl_count acts, messageCount, messageCount, List.countP_cons, UInt64.ofNat_add]
    cases isMessage a <;> simp [UInt64.add_assoc, UInt64.add_comm]

/-- A message that arrives is handed over, whatever other threads do, unless they set the handler. -/
theorem run_calls {l l' : Loop H} {acts : List (Act H)} {out : List (H × Bytes)}
    (h : run (guard receiveLoop Loop.handlerBetween) l acts = some (l', out)) :
    out ++ l'.callOwed = l.callOwed ++ callsExpected l.channel.callbackHandler acts :=
  run_ledger Loop.callOwed (fun l => l.channel.callbackHandler) callsDue handlerAfter
    (fun _ _ _ _ hs => Loop.step_calls (guard_step.1 hs).1 (guard_step.1 hs).2) h

theorem run_count {l l' : Loop H} {acts : List (Act H)} {out : List (H × Bytes)}
    (h : run receiveLoop l acts = some (l', out)) : l'.counted = l.counted + .ofNat (messageCount acts) := by
  rw [← foldl_count]
  exact run_track Loop.counted (fun n a => n + if isMessage a then 1 else 0) (fun _ _ _ _ => Loop.step_count) h

/-- **The calls and the count of the receive loop.** For every run of the loop in which the handler
is set between iterations only: the calls made so far are a prefix of the calls expected, and at
every loop head, and after the loop, they are exactly these and `received_message_count_` is the
number of datagrams that were not empty (as a `size_t`, so the number itself below 2^64). -/
theorem receive_loop_calls {c : UdpChatChannel H} (hc : c.receivedMessageCount = 0) {acts : List (Act H)}
    {l : Loop H} {out : List (H × Bytes)}
    (hrun : run (guard receiveLoop Loop.handlerBetween) (.start c) acts = some (l, out)) :
    out <+: callsExpected c.callbackHandler acts ∧
    (l.betweenIterations = true → out = callsExpected c.callbackHandler acts ∧
      l.channel.receivedMessageCount = .ofNat (messageCount acts) ∧
      (messageCount acts < 2 ^ 64 → l.channel.receivedMessageCount.toNat = messageCount acts)) := by
  have hcalls : out ++ l.callOwed = callsExpected c.callbackHandler acts := run_calls hrun
  constructor
  · exact ⟨_, hcalls⟩
  · intro hl
    rw [Loop.callOwed_between hl, List.append_nil] at hcalls
    have hcount := run_count (run_guard hrun)
    rw [Loop.counted_between hl, Loop.counted_between (by rfl : (Loop.start c).betweenIterations = true)] at hcount
    simp only [Loop.start, hc, UInt64.zero_add] at hcount
    refine ⟨hcalls, hcount, ?_⟩
    intro hlt
    rw [hcount, UInt64.toNat_ofNat', Nat.mod_eq_of_lt hlt]

/-- A channel with a bound socket and nothing else, for the examples of runs. -/
def receiver (h : Option Nat) : UdpChatChannel Nat :=
  ⟨h, lit "127.0.0.1", 2001, lit "127.0.0.1", 2000, none, some ⟨⟨0x0100007f, 2001⟩, 4⟩, some 1, 0, false⟩

def datagram (text : String) : Arrival := .datagram ⟨⟨0x0100007f, 4000⟩, ⟨0x0100007f, 2001⟩, lit text⟩

/-- One message before a handler is set, one after, then an error and an empty datagram. -/
def fourArrivals : List (Act Nat) :=
  [.test, .recv (datagram "hi"), .count, .call, .sleep, .setCallbackHandler (some 7),
    .test, .recv (datagram "yo"), .count, .call, .sleep, .test, .recv .error, .sleep,
    .test, .recv (datagram ""), .stop, .sleep, .test]

set_option maxRecDepth 4000 in
theorem receive_loop_calls_four_arrivals : ∃ l out,
    run (guard receiveLoop Loop.handlerBetween) (.start (receiver none)) fourArrivals = some (l, out) ∧
      l.pc = .exited ∧ out = [(7, lit "yo")] ∧ l.channel.receivedMessageCount = 2 := by
  have hrun : ∃ l out, run (guard receiveLoop Loop.handlerBetween) (.start (receiver none)) fourArrivals =
      some (l, out) ∧ l.pc = .exited := ⟨_, _, rfl, rfl⟩
  obtain ⟨l, out, hrun, hpc⟩ := hrun
  have hlaw := (receive_loop_calls rfl hrun).2 (by simp [Loop.betweenIterations, hpc])
  exact ⟨l, out, hrun, hpc, hlaw.1, hlaw.2.1⟩

/-! ## From the sender to the handler -/

/-- The datagrams that arrive in a run. -/
def arrivals : List (Act H) → List Datagram :=
  List.filterMap fun | .recv (.datagram d) => some d | _ => none

/-- The text of a datagram that is not empty, as far as the buffer takes it. -/
def text (d : Datagram) : Option Bytes := message (.datagram d)

/-- With one handler all the time, every text goes to it. -/
theorem callsExpected_const {h : H} : ∀ {acts : List (Act H)}, (∀ h', .setCallbackHandler h' ∉ acts) →
    callsExpected (some h) acts = ((arrivals acts).filterMap text).map fun m => (h, m)
  | [], _ => rfl
  | a :: acts, hacts => by
    have ih := @callsExpected_const h acts fun h' hm => hacts h' (List.mem_cons_of_mem a hm)
    have hdues : callsExpected (some h) (a :: acts) =
        callsDue (some h) a ++ callsExpected (handlerAfter (some h) a) acts := rfl
    rw [hdues]
    cases a with
    | setCallbackHandler h' => exact absurd List.mem_cons_self (hacts h')
    | recv a =>
      cases a with
      | error => exact ih
      | datagram d =>
        have hsplit : arrivals (Act.recv (.datagram d) :: acts) = d :: arrivals acts := rfl
        rw [hsplit, List.filterMap_cons]
        cases ht : message (.datagram d) <;> simp [callsDue, handlerAfter, ih, text, ht]
    | test | count | call | sleep | stop => exact ih

/-- An iteration of the loop in which a message arrives. -/
def messageIteration (d : Datagram) : List (Act H) := [.test, .recv (.datagram d), .count, .call, .sleep]

theorem run_messageIteration {l : Loop H} (hpc : l.pc = .head) (hstop : l.channel.stopWorker = false)
    {s : UdpSocket} (hs : l.channel.recvSocket = some s) {h : H} (hh : l.channel.callbackHandler = some h)
    {d : Datagram} (hd : d.payload ≠ []) : run receiveLoop l (messageIteration d) =
      some ({ l with channel.receivedMessageCount := l.channel.receivedMessageCount + 1,
                     buffer := d.payload.take 150 }, [(h, d.payload.take 150)]) := by
  have ht : message (.datagram d) = some (d.payload.take 150) := by simp [message, hd]
  simp [messageIteration, run, receiveLoop, Loop.step, hpc, hstop, receiveMessage_eq hs, ht, hh]

/-- A run under one handler hands over exactly the texts that arrive. -/
theorem run_calls_const {l l' : Loop H} (hl : l.betweenIterations = true) {h : H}
    (hh : l.channel.callbackHandler = some h) {acts : List (Act H)} {out : List (H × Bytes)}
    (hrun : run receiveLoop l acts = some (l', out)) (hl' : l'.betweenIterations = true)
    (hset : ∀ h', .setCallbackHandler h' ∉ acts) : out = ((arrivals acts).filterMap text).map fun m => (h, m) := by
  have hguard : ∀ a ∈ acts, ∀ t : Loop H, t.handlerBetween a = true := by
    intro a ha
    apply Loop.handlerBetween_of_ne
    rintro h' rfl
    exact hset h' ha
  have hcalls := run_calls (run_guard_of hguard hrun)
  rwa [Loop.callOwed_between hl, Loop.callOwed_between hl', hh, callsExpected_const hset, List.append_nil,
    List.nil_append] at hcalls

/-- **When a message arrives as it was sent.** The datagram that `SendMessage(m)` sends off is
delivered to the peer's loop, which has a handler. The loop can take the iteration that receives it;
and in every run in which it is the only datagram, however long the loop waits for it and whenever it
is stopped, the handler gets exactly `m` if and only if `m` has at most 150 bytes. -/
theorem delivered_iff {G : Type} {inetAddr : Bytes → UInt32} {sender : UdpChatChannel G} {m : Bytes} {r : Sent}
    {d : Datagram} (hsend : sender.sendMessage inetAddr m r = some (some d)) (hm : m ≠ [])
    {l : Loop H} (hl : l.betweenIterations = true) {h : H} (hh : l.channel.callbackHandler = some h) :
    (l.pc = .head → l.channel.stopWorker = false → l.channel.recvSocket.isSome = true →
      ∃ l' out, run receiveLoop l (messageIteration d) = some (l', out) ∧ l'.pc = .head) ∧
    ∀ acts l' out, run receiveLoop l acts = some (l', out) → l'.betweenIterations = true →
      (∀ h', .setCallbackHandler h' ∉ acts) → arrivals acts = [d] → (out = [(h, m)] ↔ m.length ≤ 150) := by
  obtain ⟨rfl, -, -⟩ := sendMessage_datagram hsend
  constructor
  · intro hpc hstop hsock
    obtain ⟨s, hs⟩ := Option.isSome_iff_exists.1 hsock
    exact ⟨_, _, run_messageIteration hpc hstop hs hh hm, hpc⟩
  · intro acts l' out hrun hl' hset harr
    have hout := run_calls_const hl hh hrun hl' hset
    rw [harr] at hout
    simp [hout, text, message, hm, List.take_eq_self_iff]

/-- A channel on the loopback address that sends to the one in `receiver`. -/
def sender : UdpChatChannel Nat :=
  ⟨none, lit "127.0.0.1", 2000, lit "127.0.0.1", 2001, some ⟨⟨0x0100007f, 2001⟩, 3⟩, none, some 1, 0, false⟩

theorem delivered_iff_hi : ∃ d l' out,
    sender.sendMessage loopback (lit "hi") (.success ⟨0x0100007f, 4000⟩) = some (some d) ∧
      run receiveLoop (.start (receiver (some 7))) (messageIteration d) = some (l', out) ∧ out = [(7, lit "hi")] := by
  have hsend : ∃ d, sender.sendMessage loopback (lit "hi") (.success ⟨0x0100007f, 4000⟩) = some (some d) := ⟨_, rfl⟩
  obtain ⟨d, hd⟩ := hsend
  obtain ⟨hiter, hexact⟩ := @delivered_iff Nat Nat loopback sender (lit "hi") _ _ hd (by decide)
    (.start (receiver (some 7))) rfl 7 rfl
  obtain ⟨l', out, hrun, hpc⟩ := hiter rfl rfl rfl
  exact ⟨d, l', out, hd, hrun,
    (hexact _ l' out hrun (by simp [Loop.betweenIterations, hpc]) (by simp [messageIteration]) rfl).2 (by decide)⟩

/-- 151 bytes leave in one datagram, and the handler gets the first 150 of them. -/
theorem long_message_cut : ∃ d l',
    sender.sendMessage loopback (List.replicate 151 97) (.success ⟨0x0100007f, 4000⟩) = some (some d) ∧
      d.payload = List.replicate 151 97 ∧
      run receiveLoop (.start (receiver (some 7))) (messageIteration d) = some (l', [(7, List.replicate 150 97)]) := by
  have hrun := @run_messageIteration Nat (.start (receiver (some 7))) rfl rfl _ rfl 7 rfl
    ⟨⟨0x0100007f, 4000⟩, ⟨0x0100007f, 2001⟩, List.replicate 151 97⟩ (by simp)
  rw [List.take_replicate] at hrun
  refine ⟨_, _, ?_, rfl, hrun⟩
  simp [sendMessage, sender, UdpSocket.sendTo, UdpSocket.sendToAddr, sendto, maxPayload, invalidSocket, loopback]

end CalcChatter.Chat

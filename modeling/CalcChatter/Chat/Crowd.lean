import CalcChatter.Lib.Network
import CalcChatter.Chat.Settling

/-!
# Any number of windows (Chatter.h:134-169, :202-226)

A channel sends to one endpoint, and receives what arrives at its own from anyone. So any number of windows
can be on a network: several may send to the same one, one may send to itself, and one may send to where
nobody listens. A datagram is delivered to the socket that is bound to its destination; so it is where the
windows are `Placed`, but not for sockets bound to `INADDR_ANY`.

| here | there |
| --- | --- |
| `Side.step`  | a window and its worker: what a `Session` lets one of its two sides do |
| `crowd`      | the windows, and the datagrams in flight |
| `Routed`     | what the one sends goes to where the other one receives |
| `Placed`     | every window has an endpoint of its own, without wildcards |

`Honest` is the invariant of one window, whatever arrives; that the network makes nothing up does the rest:
what is shown as received was said by a window that sends there (`heard_said`).
-/

namespace CalcChatter.Chat

open Cxx Lts UdpChatChannel
open Session (owedLines)

/-- A string appended to a history, by `OnSendCommand` (`own`) or by `OnMessageReceived`. -/
structure Entry where
  own : Bool
  text : Bytes
deriving DecidableEq

inductive SideAct where
  | type (message : Bytes)
  | beginSend
  | endSend (r : Sent)
  | worker (a : Act Unit)
  | deliver (i : Nat) (d : Datagram)   -- the worker receives `d`, the datagram at `i`
  | lose (i : Nat)
  | duplicate (i : Nat)

variable {inetAddr : Bytes → UInt32}

namespace Side

/-- An empty view, and the worker just started. -/
def start (channel : UdpChatChannel Unit) : Side := ⟨⟨[], []⟩, none, .start channel⟩

def bound (x : Side) : Option SockAddr := x.loop.channel.recvSocket.map (·.endpoint)

/-- What calls of `OnMessageReceived` append. -/
def entries (calls : List (Unit × Bytes)) : List (Traffic Datagram Entry) :=
  calls.map fun call => .output ⟨false, call.2 ++ [ch '\n']⟩

/-- The worker, its handler being the presenter. -/
def workerStep (x : Side) (a : Act Unit) : Option (Side × List (Traffic Datagram Entry)) :=
  (x.loop.step a).map fun (loop, calls) =>
    ({ x with loop, view := handOver x.view calls }, entries calls)

def step (inetAddr : Bytes → UInt32) (x : Side) : SideAct → Option (Side × List (Traffic Datagram Entry))
  | .type message => if x.sending = none then some ({ x with view := x.view.setMessage message }, []) else none
  | .beginSend =>
    if x.sending = none then
      let (msg, view) := Chat.beginSend x.view
      some ({ x with view, sending := some msg }, [.output ⟨true, msg⟩])
    else none
  | .endSend r => do
    let msg ← x.sending
    let (view, sent) ← Chat.endSend inetAddr x.loop.channel msg x.view r
    return ({ x with view, sending := none }, sent.toList.map .send)
  | .worker a => if Session.onItsOwn a then x.workerStep a else none
  | .deliver i d =>
    if x.bound = some d.dst then
      (x.workerStep (.recv (.datagram d))).map fun (x, o) => (x, .take i d :: o)
    else none
  | .lose i => some (x, [.lose i])
  | .duplicate i => some (x, [.duplicate i])

end Side

def side (inetAddr : Bytes → UInt32) : Machine Side SideAct (Traffic Datagram Entry) := ⟨Side.step inetAddr⟩

def crowd {ι : Type} [DecidableEq ι] (inetAddr : Bytes → UInt32) :
    Machine (Shared ι Side (List Datagram)) (ι × SideAct) (ι × Traffic Datagram Entry) :=
  shared (side inetAddr) network

/-- Windows that were just opened, with nothing in flight. -/
def crowdStart {ι : Type} (channel : ι → UdpChatChannel Unit) : Shared ι Side (List Datagram) :=
  ⟨fun i => .start (channel i), []⟩

/-- Where a channel sends to. -/
def target (inetAddr : Bytes → UInt32) (c : UdpChatChannel Unit) : Option SockAddr :=
  c.sendSocket.map fun s => ⟨inetAddr (cStr c.peerIp), s.endpoint.port⟩

/-- What `c` sends goes to where `c'` receives. -/
def Routed (inetAddr : Bytes → UInt32) (c c' : UdpChatChannel Unit) : Prop :=
  ∃ e, target inetAddr c = some e ∧ c'.recvSocket.map (·.endpoint) = some e

/-- Windows that send to endpoints of one host each and are bound to such, no two to the same. -/
structure Placed {ι : Type} (inetAddr : Bytes → UInt32) (channel : ι → UdpChatChannel Unit) : Prop where
  target : ∀ c e, target inetAddr (channel c) = some e → e.Concrete
  own : ∀ b s, (channel b).recvSocket = some s → s.endpoint.Concrete
  apart : ∀ b b' s s', (channel b).recvSocket = some s → (channel b').recvSocket = some s' →
    s.endpoint = s'.endpoint → b = b'

/-- What a window sends is for one window only. -/
theorem Placed.routed_iff {ι : Type} {channel : ι → UdpChatChannel Unit} (h : Placed inetAddr channel) {b c : ι}
    (hroute : Routed inetAddr (channel c) (channel b)) (b' : ι) :
    Routed inetAddr (channel c) (channel b') ↔ b' = b := by
  constructor
  · rintro ⟨e', htarget', hbound'⟩
    obtain ⟨e, htarget, hbound⟩ := hroute
    obtain ⟨s, hs, he⟩ := Option.map_eq_some_iff.1 hbound
    obtain ⟨s', hs', he'⟩ := Option.map_eq_some_iff.1 hbound'
    exact h.apart b' b s' s hs' hs (by rw [he, he', Option.some.inj (htarget'.symm.trans htarget)])
  · rintro rfl
    exact hroute

/-! ## What a step can do -/

namespace Side

variable {x x' : Side} {a : SideAct} {o : List (Traffic Datagram Entry)}

inductive Stepped (inetAddr : Bytes → UInt32) (x : Side) : SideAct → Side → List (Traffic Datagram Entry) → Prop where
  | type {message} : Stepped inetAddr x (.type message) { x with view := x.view.setMessage message } []
  | beginSend : Stepped inetAddr x .beginSend
      { x with view := (Chat.beginSend x.view).2, sending := some (Chat.beginSend x.view).1 }
      [.output ⟨true, (Chat.beginSend x.view).1⟩]
  | endSend {r msg sent} (hm : x.sending = some msg) (hs : x.loop.channel.sendMessage inetAddr msg r = some sent) :
    Stepped inetAddr x (.endSend r) { x with view := x.view.setMessage [], sending := none } (sent.toList.map .send)
  | worker {act loop calls} (ha : Session.onItsOwn act = true) (hs : x.loop.step act = some (loop, calls)) :
    Stepped inetAddr x (.worker act) { x with loop, view := handOver x.view calls } (entries calls)
  | deliver {i d loop calls} (hb : x.bound = some d.dst) (hs : x.loop.step (.recv (.datagram d)) = some (loop, calls)) :
    Stepped inetAddr x (.deliver i d) { x with loop, view := handOver x.view calls } (.take i d :: entries calls)
  | lose {i} : Stepped inetAddr x (.lose i) x [.lose i]
  | duplicate {i} : Stepped inetAddr x (.duplicate i) x [.duplicate i]

theorem step_cases (h : x.step inetAddr a = some (x', o)) : Stepped inetAddr x a x' o := by
  cases a with
  | type message =>
    obtain ⟨-, he⟩ := Option.ite_none_right_eq_some.1 h
    cases he
    exact .type
  | beginSend =>
    obtain ⟨-, he⟩ := Option.ite_none_right_eq_some.1 h
    cases he
    exact .beginSend
  | endSend r =>
    obtain ⟨msg, hm, h⟩ := Option.bind_eq_some_iff.1 h
    obtain ⟨⟨view, sent⟩, hv, he⟩ := Option.bind_eq_some_iff.1 h
    obtain ⟨sent', hs, hv⟩ := Option.bind_eq_some_iff.1 hv
    cases he
    cases hv
    exact .endSend hm hs
  | worker act =>
    obtain ⟨ha, h⟩ := Option.ite_none_right_eq_some.1 h
    obtain ⟨⟨loop, calls⟩, hs, he⟩ := Option.map_eq_some_iff.1 h
    cases he
    exact .worker ha hs
  | deliver i d =>
    obtain ⟨hb, h⟩ := Option.ite_none_right_eq_some.1 h
    obtain ⟨_, hw, he⟩ := Option.map_eq_some_iff.1 h
    obtain ⟨⟨loop, calls⟩, hs, hw⟩ := Option.map_eq_some_iff.1 hw
    cases hw
    cases he
    exact .deliver hb hs
  | lose i =>
    cases h
    exact .lose
  | duplicate i =>
    cases h
    exact .duplicate

/-- No step changes where a window sends to and where it receives. -/
theorem step_channel (h : x.step inetAddr a = some (x', o)) : Session.SameEnds x.loop.channel x'.loop.channel := by
  have hloop : ∀ {act : Act Unit} {loop : Loop Unit} {calls : List (Unit × Bytes)},
      (∀ h, act ≠ .setCallbackHandler h) → x.loop.step act = some (loop, calls) →
      Session.SameEnds x.loop.channel loop.channel := by
    intro act loop calls ha hs
    obtain ⟨n, stop, hch⟩ := Loop.step_channel hs
    rw [handlerAfter_of_ne ha] at hch
    exact ⟨n, stop, hch⟩
  cases step_cases h with
  | type | beginSend | endSend _ _ | lose | duplicate => exact Session.sameEnds_refl _
  | worker ha hs => exact hloop (Session.onItsOwn_ne ha) hs
  | deliver _ hs => exact hloop (by simp) hs

/-- Nothing that a window does stops its worker. -/
theorem running_step (hx : x.loop.channel.stopWorker = false ∧ x.loop.pc ≠ .exited)
    (h : x.step inetAddr a = some (x', o)) : x'.loop.channel.stopWorker = false ∧ x'.loop.pc ≠ .exited := by
  cases step_cases h with
  | type | beginSend | endSend _ _ | lose | duplicate => exact hx
  | worker ha hs => exact Session.running_step (by rintro rfl; cases ha) hx hs
  | deliver _ hs => exact Session.running_step (by simp) hx hs

end Side

/-! ## One window -/

theorem target_sameEnds (inetAddr : Bytes → UInt32) {c c' : UdpChatChannel Unit} (h : Session.SameEnds c c') :
    target inetAddr c' = target inetAddr c ∧ c'.recvSocket = c.recvSocket := by
  obtain ⟨n, stop, rfl⟩ := h
  exact ⟨rfl, rfl⟩

/-- A call that becomes due hands over what has just been received. -/
theorem of_mem_callsDue {h : Option Unit} {act : Act Unit} {call : Unit × Bytes} (hcall : call ∈ callsDue h act) :
    ∃ d, act = .recv (.datagram d) ∧ call.2 = d.payload.take 150 := by
  cases act with
  | recv a =>
    obtain ⟨u, -, hu⟩ := Option.bind_eq_some_iff.1 (Option.mem_toList.1 hcall)
    obtain ⟨m, hm, he⟩ := Option.map_eq_some_iff.1 hu
    cases he
    cases a with
    | error => cases hm
    | datagram d =>
      obtain ⟨-, he⟩ := Option.ite_none_left_eq_some.1 hm
      cases he
      exact ⟨d, rfl, rfl⟩
  | _ => cases hcall

theorem sameEnds_trans {c c' c'' : UdpChatChannel Unit} (h : Session.SameEnds c c') (h' : Session.SameEnds c' c'') :
    Session.SameEnds c c'' := by
  obtain ⟨_, _, rfl⟩ := h
  obtain ⟨n, stop, rfl⟩ := h'
  exact ⟨n, stop, rfl⟩

/-- What is owed after a step of the worker was owed before, or is what has just been received. -/
theorem owed_step {l l' : Loop Unit} {act : Act Unit} {calls : List (Unit × Bytes)}
    (ha : ∀ h, act ≠ .setCallbackHandler h) (hs : l.step act = some (l', calls)) {t : Bytes} (ht : t ∈ owedLines l') :
    t ∈ owedLines l ∨ ∃ d, act = .recv (.datagram d) ∧ t = shown d.payload := by
  obtain ⟨call, hcall, rfl⟩ := List.mem_map.1 ht
  have hmem : call ∈ l.callOwed ++ callsDue l.channel.callbackHandler act := by
    rw [← (Loop.step_calls (Loop.handlerBetween_of_ne ha l) hs).1]
    exact List.mem_append_right _ hcall
  rcases List.mem_append.1 hmem with howed | hdue
  · exact .inl (List.mem_map.2 ⟨call, howed, rfl⟩)
  · obtain ⟨d, hact, htext⟩ := of_mem_callsDue hdue
    exact .inr ⟨d, hact, by rw [htext, shown]⟩

/-- What holds of a window after it has shown `out`: it sends what it has appended, to where it is told to,
takes what is for its own endpoint, and owes what it has taken. -/
structure Honest (inetAddr : Bytes → UInt32) (channel : UdpChatChannel Unit) (x : Side)
    (out : List (Traffic Datagram Entry)) : Prop where
  ends : Session.SameEnds channel x.loop.channel
  sending : ∀ m, x.sending = some m → .output ⟨true, m⟩ ∈ out
  sent : ∀ d, .send d ∈ out → target inetAddr channel = some d.dst ∧ .output ⟨true, d.payload⟩ ∈ out
  taken : ∀ i d, .take i d ∈ out → channel.recvSocket.map (·.endpoint) = some d.dst
  owed : ∀ t ∈ owedLines x.loop, ∃ i d, .take i d ∈ out ∧ t = shown d.payload

namespace Honest

variable {channel : UdpChatChannel Unit} {x x' : Side} {a : SideAct} {out o : List (Traffic Datagram Entry)}

theorem start (inetAddr : Bytes → UInt32) (channel : UdpChatChannel Unit) : Honest inetAddr channel (.start channel) [] where
  ends := Session.sameEnds_refl channel
  sending m hm := by cases hm
  sent d hd := by cases hd
  taken i d hd := by cases hd
  owed t ht := by simp [owedLines, Loop.callOwed, Side.start, Loop.start] at ht

/-- A step of the window keeps what it is bound to by what was shown before. -/
theorem step (hx : Honest inetAddr channel x out) (h : x.step inetAddr a = some (x', o)) :
    Honest inetAddr channel x' (out ++ o) := by
  have hends := sameEnds_trans hx.ends (Side.step_channel h)
  obtain ⟨htarget, hrecv⟩ := target_sameEnds inetAddr hx.ends
  have hold : ∀ {t}, (∃ i d, .take i d ∈ out ∧ t = shown d.payload) → ∃ i d, .take i d ∈ out ++ o ∧ t = shown d.payload :=
    fun ⟨i, d, hd, ht⟩ => ⟨i, d, List.mem_append_left o hd, ht⟩
  -- a step that neither sends nor takes keeps all but what the user has started to send
  have hkeep : (∀ d, .send d ∉ o) → (∀ i d, .take i d ∉ o) → (∀ m, x'.sending = some m → .output ⟨true, m⟩ ∈ out ++ o) →
      (∀ t ∈ owedLines x'.loop, t ∈ owedLines x.loop) → Honest inetAddr channel x' (out ++ o) := by
    intro hsend htake hsending howed
    refine ⟨hends, hsending, ?_, ?_, fun t ht => hold (hx.owed t (howed t ht))⟩
    · intro d hd
      obtain ⟨hd, hout⟩ := hx.sent d ((List.mem_append.1 hd).resolve_right (hsend d))
      exact ⟨hd, List.mem_append_left o hout⟩
    · exact fun i d hd => hx.taken i d ((List.mem_append.1 hd).resolve_right (htake i d))
  have hsame : ∀ m, x.sending = some m → .output ⟨true, m⟩ ∈ out ++ o :=
    fun m hm => List.mem_append_left o (hx.sending m hm)
  cases Side.step_cases h with
  | type => exact hkeep (by simp) (by simp) hsame fun _ => id
  | beginSend => exact hkeep (by simp) (by simp) (fun m hm => by cases hm; simp) fun _ => id
  | @endSend r msg sent hm hs =>
    refine ⟨hends, (fun m hm => by cases hm), ?_, ?_, fun t ht => hold (hx.owed t ht)⟩
    · intro d hd
      rcases List.mem_append.1 hd with hd | hd
      · obtain ⟨hd, hout⟩ := hx.sent d hd
        exact ⟨hd, List.mem_append_left _ hout⟩
      · obtain rfl : sent = some d := by simpa using hd
        obtain ⟨hpayload, -, s, hsock, hdst⟩ := sendMessage_datagram hs
        refine ⟨?_, List.mem_append_left _ (by rw [hpayload]; exact hx.sending msg hm)⟩
        rw [← htarget, target, hsock, hdst, Option.map_some]
    · intro i d hd
      exact hx.taken i d ((List.mem_append.1 hd).resolve_right (by simp))
  | worker ha hs =>
    refine hkeep (by simp [Side.entries]) (by simp [Side.entries]) hsame ?_
    intro t ht
    refine (owed_step (Session.onItsOwn_ne ha) hs ht).resolve_right ?_
    rintro ⟨d, rfl, -⟩
    cases ha
  | @deliver i d loop calls hb hs =>
    refine ⟨hends, hsame, ?_, ?_, ?_⟩
    · intro e he
      obtain ⟨he, hout⟩ := hx.sent e ((List.mem_append.1 he).resolve_right (by simp [Side.entries]))
      exact ⟨he, List.mem_append_left _ hout⟩
    · intro j e he
      rcases List.mem_append.1 he with he | he
      · exact hx.taken j e he
      · obtain ⟨rfl, rfl⟩ : j = i ∧ e = d := by simpa [Side.entries] using he
        rw [← hb, Side.bound, hrecv]
    · intro t ht
      rcases owed_step (by simp) hs ht with ht | ⟨e, he, rfl⟩
      · exact hold (hx.owed t ht)
      · cases he
        exact ⟨i, d, by simp, rfl⟩
  | lose | duplicate => exact hkeep (by simp) (by simp) hsame fun _ => id

end Honest

/-! ## Nobody hears but who is spoken to -/

theorem calls_owed {l l' : Loop Unit} {act : Act Unit} {calls : List (Unit × Bytes)} (hs : l.step act = some (l', calls)) :
    calls ⊆ l.callOwed := by
  cases Loop.step_cases hs with
  | call hpc => simp [Loop.callOwed, hpc]
  | test _ | recv _ | count _ | sleep _ | setCallbackHandler | stop => simp

/-- What is shown as received was owed by the worker. -/
theorem received_owed {x x' : Side} {a : SideAct} {o : List (Traffic Datagram Entry)}
    (h : x.step inetAddr a = some (x', o)) {t : Bytes} (ht : .output ⟨false, t⟩ ∈ o) : t ∈ owedLines x.loop := by
  have hentries : ∀ {calls : List (Unit × Bytes)}, calls ⊆ x.loop.callOwed → .output ⟨false, t⟩ ∈ Side.entries calls →
      t ∈ owedLines x.loop := by
    intro calls hsub hmem
    obtain ⟨call, hcall, he⟩ := List.mem_map.1 hmem
    cases he
    exact List.mem_map.2 ⟨call, hsub hcall, rfl⟩
  cases Side.step_cases h with
  | worker _ hs => exact hentries (calls_owed hs) ht
  | deliver _ hs => exact hentries (calls_owed hs) (by simpa using ht)
  | type | lose | duplicate => simp at ht
  | beginSend => simp at ht
  | endSend _ _ => simp at ht

section Crowd

variable {ι : Type} [DecidableEq ι] {channel : ι → UdpChatChannel Unit} {acts : List (ι × SideAct)}
  {s : Shared ι Side (List Datagram)} {out : List (ι × Traffic Datagram Entry)}

theorem run_honest (h : run (crowd inetAddr) (crowdStart channel) acts = some (s, out)) (i : ι) :
    Honest inetAddr (channel i) (s.part i) (ofPart i out) :=
  run_induction (fun _ x out => Honest inetAddr (channel i) x out) (Honest.start inetAddr (channel i))
    (fun _ _ _ _ _ _ _ hx hstep => hx.step hstep) (run_part i h)

/-- What a worker owes to its view was appended by a window that sends to it. -/
theorem owed_said (h : run (crowd inetAddr) (crowdStart channel) acts = some (s, out)) {b : ι} {t : Bytes}
    (ht : t ∈ owedLines (s.part b).loop) :
    ∃ c m, Routed inetAddr (channel c) (channel b) ∧ (c, .output ⟨true, m⟩) ∈ out ∧ t = shown m := by
  obtain ⟨i, d, hd, rfl⟩ := (run_honest h b).owed t ht
  obtain ⟨c, hc⟩ := taken_sent h (mem_ofPart.1 hd)
  obtain ⟨htarget, hown⟩ := (run_honest h c).sent d (mem_ofPart.2 hc)
  exact ⟨c, d.payload, ⟨d.dst, htarget, (run_honest h b).taken i d hd⟩, mem_ofPart.1 hown, rfl⟩

theorem heard_said (h : run (crowd inetAddr) (crowdStart channel) acts = some (s, out))
    {pre post : List (ι × Traffic Datagram Entry)} {b : ι} {t : Bytes} (hout : out = pre ++ (b, .output ⟨false, t⟩) :: post) :
    ∃ c m, Routed inetAddr (channel c) (channel b) ∧ (c, .output ⟨true, m⟩) ∈ pre ∧ t = shown m := by
  subst hout
  obtain ⟨before, ⟨i, a⟩, after, u, u', o, o₁, o₂, rfl, hrun, hstep, rfl⟩ := run_shown h
  obtain ⟨x, calls, env, os, hx, -, -, ho⟩ := shared_step hstep
  have hmem : (b, .output ⟨false, t⟩) ∈ calls.map (i, ·) := by
    rw [← ho]
    exact List.mem_append_right _ List.mem_cons_self
  obtain ⟨_, hcall, he⟩ := List.mem_map.1 hmem
  cases he
  obtain ⟨c, m, hroute, hm, rfl⟩ := owed_said hrun (received_owed hx hcall)
  exact ⟨c, m, hroute, List.mem_append_left _ hm, rfl⟩

end Crowd

end CalcChatter.Chat

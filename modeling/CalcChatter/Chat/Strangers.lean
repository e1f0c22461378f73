import CalcChatter.Chat.Presenter

/-!
# Who a message comes from (Chatter.h:140-169; transport.h:172-197)

`RecvFrom` returns the source address with the data, and `ReceiveMessage` looks at the data only: the
line that would read the address is a comment (:143). So the worker hands over what arrives at the
port, whoever sent it. The handler is read at the call (:163), after the datagram was received:
`handedOver` lists, from the actions of a run alone, the datagrams that a set handler is called for,
with that handler, and `calls_of_any_source` is the law over all runs. The configured peer alone
decides the calls only where nobody else sends anything that is not empty.
-/

namespace CalcChatter.Chat

open Cxx Lts UdpChatChannel

variable {H : Type} {inetAddr : Bytes → UInt32}

/-- The datagram comes from the address of the configured peer. -/
def fromPeer (inetAddr : Bytes → UInt32) (c : UdpChatChannel H) (d : Datagram) : Bool :=
  d.src.addr == inetAddr (cStr c.peerIp)

/-- What the worker hands over at a call: the datagram it received, if a handler is set by then. -/
def handedDue (t : Option H × Option Datagram) : Act H → List (H × Datagram)
  | .call => (t.1.bind fun h => t.2.map fun d => (h, d)).toList
  | _ => []

/-- The handler that is set, and the datagram that was received and not handed over yet. -/
def handedNext (t : Option H × Option Datagram) : Act H → Option H × Option Datagram
  | .recv (.datagram d) => if d.payload = [] then t else (t.1, some d)
  | .call => (t.1, none)
  | .setCallbackHandler h => (h, t.2)
  | _ => t

/-- The datagrams that are not empty and for which a handler is set when the worker comes to the call,
in order. -/
def handedOver (h : Option H) : List (Act H) → List (H × Datagram) := dues handedDue handedNext (h, none)

/-- The call a datagram leads to. -/
def callOf (x : H × Datagram) : H × Bytes := (x.1, x.2.payload.take 150)

/-- What a run gets from the peer and from the handler's owner. -/
def peerView (inetAddr : Bytes → UInt32) (c : UdpChatChannel H) (acts : List (Act H)) : List (Act H) :=
  acts.filter fun
    | .recv (.datagram d) => fromPeer inetAddr c d
    | .setCallbackHandler _ => true
    | _ => false

/-- Nobody but the peer sends anything that is not empty. -/
def StrangersSilent (inetAddr : Bytes → UInt32) (c : UdpChatChannel H) (acts : List (Act H)) : Prop :=
  ∀ d ∈ arrivals acts, fromPeer inetAddr c d = false → d.payload = []

/-- The handler and the datagram that `handedNext` follows are those of the worker. -/
structure Follows (l : Loop H) (t : Option H × Option Datagram) : Prop where
  handler : t.1 = l.channel.callbackHandler
  pending : l.pc = .count ∨ l.pc = .call → ∃ d, t.2 = some d ∧ l.buffer = d.payload.take 150

theorem handedNext_handler (t : Option H × Option Datagram) (a : Act H) :
    (handedNext t a).1 = handlerAfter t.1 a := by
  cases a with
  | recv a =>
    cases a with
    | error => rfl
    | datagram d => by_cases hd : d.payload = [] <;> simp [handedNext, handlerAfter, hd]
  | _ => rfl

theorem follows_step {l l' : Loop H} {t : Option H × Option Datagram} {a : Act H} {o : List (H × Bytes)}
    (ht : Follows l t) (h : receiveLoop.step l a = some (l', o)) :
    o = (handedDue t a).map callOf ∧ Follows l' (handedNext t a) := by
  obtain ⟨hhandler, hpending⟩ := ht
  have hhandler' : (handedNext t a).1 = l'.channel.callbackHandler := by
    obtain ⟨n, stop, hc⟩ := Loop.step_channel h
    rw [handedNext_handler, hc, hhandler]
  cases Loop.step_cases h with
  | test hpc => exact ⟨rfl, hhandler', by cases l.channel.stopWorker <;> simp⟩
  | @recv a hpc =>
    refine ⟨rfl, hhandler', ?_⟩
    cases a with
    | error => simp [message]
    | datagram d => by_cases hd : d.payload = [] <;> simp [message, handedNext, hd]
  | count hpc => exact ⟨rfl, hhandler', fun _ => hpending (.inl hpc)⟩
  | call hpc =>
    obtain ⟨d, hd, hbuffer⟩ := hpending (.inr hpc)
    refine ⟨?_, hhandler', by simp⟩
    rw [← hhandler, hbuffer]
    cases hh : t.1 <;> simp [handedDue, hh, hd, callOf]
  | sleep hpc => exact ⟨rfl, hhandler', by simp⟩
  | setCallbackHandler | stop => exact ⟨rfl, hhandler', hpending⟩

/-- The calls of a run are those of the datagrams handed over. -/
theorem run_handedOver {c : UdpChatChannel H} {acts : List (Act H)} {l : Loop H} {out : List (H × Bytes)}
    (hrun : run receiveLoop (.start c) acts = some (l, out)) :
    out = (handedOver c.callbackHandler acts).map callOf := by
  have hstart : Follows (.start c) (c.callbackHandler, none) := ⟨rfl, by simp [Loop.start]⟩
  rw [run_dues Follows (fun _ _ _ _ _ ht hs => follows_step ht hs) hstart hrun]
  exact dues_map callOf (fun _ _ => rfl) acts _

/-- A datagram that is handed over has arrived. -/
theorem mem_handedOver {acts : List (Act H)} {h : Option H} : ∀ x ∈ handedOver h acts, x.2 ∈ arrivals acts := by
  refine dues_all (fun t => ∀ d ∈ t.2, d ∈ arrivals acts) ?_ (by simp)
  intro a ha t ht
  cases a with
  | recv a =>
    refine ⟨?_, by simp [handedDue]⟩
    cases a with
    | error => exact ht
    | datagram d =>
      have harr : d ∈ arrivals acts := List.mem_filterMap.2 ⟨_, ha, rfl⟩
      by_cases hd : d.payload = []
      · simpa [handedNext, hd] using ht
      · simp [handedNext, hd, harr]
  | call =>
    refine ⟨by simp [handedNext], ?_⟩
    intro x hx
    obtain ⟨h', -, hx⟩ := Option.bind_eq_some_iff.1 (Option.mem_toList.1 hx)
    obtain ⟨d, hd, rfl⟩ := Option.map_eq_some_iff.1 hx
    exact ht d hd
  | _ => exact ⟨ht, by simp [handedDue]⟩

/-- Where nobody else sends anything, the peer's datagrams lead to all calls. -/
theorem callsExpected_peerView {c : UdpChatChannel H} {acts : List (Act H)} (h : Option H)
    (hsilent : StrangersSilent inetAddr c acts) :
    callsExpected h (peerView inetAddr c acts) = callsExpected h acts := by
  apply dues_filter
  intro a ha hp h
  cases a with
  | setCallbackHandler h' => cases hp
  | recv a =>
    cases a with
    | error => exact ⟨by cases h <;> rfl, rfl⟩
    | datagram d =>
      have hd : d.payload = [] := hsilent d (List.mem_filterMap.2 ⟨_, ha, rfl⟩) hp
      exact ⟨by cases h <;> simp [callsDue, message, hd], rfl⟩
  | _ => exact ⟨rfl, rfl⟩

/-- A datagram from another host to the channel in `receiver`. -/
def stranger (text : String) : Datagram := ⟨⟨0x0900000a, 4000⟩, ⟨0x0100007f, 2001⟩, lit text⟩

def peerDatagram (text : String) : Datagram := ⟨⟨0x0100007f, 4000⟩, ⟨0x0100007f, 2001⟩, lit text⟩

end CalcChatter.Chat

import CalcChatter.Chat.Receive

/-!
# `ChatterPresenter` and two of them in a chat (Chatter.h:58-66, :187-232)

| here | there |
| --- | --- |
| `ChatterView`       | `ChatterView` (:58): the message box, and the strings appended to the history |
| `beginSend`         | `OnSendCommand` (:202) up to `AppendToChatHistory` |
| `endSend`           | the rest of it: `SendMessage`, then `SetMessage("")` |
| `onMessageReceived` | `OnMessageReceived` (:223) |
| `Side`              | a user's program: the thread of the window, and the worker of the channel |
| `Session`            | two of them and the datagrams in flight |

Between the two halves of `OnSendCommand` the workers can take steps. The network is a list of
datagrams: it may deliver any of them to the socket bound to its destination, lose it or copy it. A
step of the session shows the strings it appends to a view, with the side and which of the two
functions appended them. `Stepped` lists what a step can do.
-/

namespace CalcChatter.Chat

open Cxx Lts UdpChatChannel

structure ChatterView where
  message : Bytes
  chatHistory : List Bytes
deriving DecidableEq

namespace ChatterView

def getMessage (v : ChatterView) : Bytes := v.message

def setMessage (v : ChatterView) (message : Bytes) : ChatterView := { v with message }

def appendToChatHistory (v : ChatterView) (message : Bytes) : ChatterView :=
  { v with chatHistory := v.chatHistory ++ [message] }

end ChatterView

/-! ## The presenter -/

section Presenter

variable {H : Type} (inetAddr : Bytes → UInt32)

def beginSend (view : ChatterView) : Bytes × ChatterView :=
  let msg := view.getMessage ++ [ch '\n']
  (msg, view.appendToChatHistory msg)

def endSend (channel : UdpChatChannel H) (msg : Bytes) (view : ChatterView) (r : Sent) :
    Option (ChatterView × Option Datagram) := do
  let sent ← channel.sendMessage inetAddr msg r
  return (view.setMessage [], sent)

/-- `OnSendCommand` (:202), with the datagram that leaves. -/
def onSendCommand (channel : UdpChatChannel H) (view : ChatterView) (r : Sent) :
    Option (ChatterView × Option Datagram) :=
  let (msg, view) := beginSend view
  endSend inetAddr channel msg view r

def onMessageReceived (view : ChatterView) (message : Bytes) : ChatterView :=
  view.appendToChatHistory (message ++ [ch '\n'])

/-- Calls of `OnMessageReceived` one after another. -/
def handOver (view : ChatterView) (calls : List (H × Bytes)) : ChatterView :=
  calls.foldl (fun view call => onMessageReceived view call.2) view

theorem chatHistory_handOver : ∀ (calls : List (H × Bytes)) (view : ChatterView),
    (handOver view calls).chatHistory = view.chatHistory ++ calls.map (·.2 ++ [ch '\n'])
  | [], view => by simp [handOver]
  | call :: calls, view => by
    rw [handOver, List.foldl_cons]
    exact (chatHistory_handOver calls _).trans (by simp [onMessageReceived, ChatterView.appendToChatHistory])

end Presenter

/-! ## Two presenters -/

/-- The handler of the channel is the presenter, so `()` stands for it. -/
structure Side where
  view : ChatterView
  sending : Option Bytes   -- what `OnSendCommand` has appended and not sent yet
  loop : Loop Unit

structure Session where
  side : Bool → Side
  flight : List Datagram

/-- A string appended to the view of `side`, by `OnSendCommand` or by `OnMessageReceived`. -/
structure Line where
  side : Bool
  own : Bool
  text : Bytes
deriving DecidableEq

inductive ChatAct where
  | type (b : Bool) (message : Bytes)   -- the user writes into the message box
  | beginSend (b : Bool)
  | endSend (b : Bool) (r : Sent)
  | worker (b : Bool) (a : Act Unit)
  | deliver (b : Bool) (i : Nat)        -- the worker receives the datagram at `i`
  | lose (i : Nat)
  | duplicate (i : Nat)

namespace Session

/-- The statements of the loop that the worker takes on its own; `recvfrom` times out. -/
def onItsOwn : Act Unit → Bool
  | .recv .error | .test | .count | .call | .sleep => true
  | _ => false

def set (s : Session) (b : Bool) (x : Side) : Session := { s with side := fun c => if c = b then x else s.side c }

/-- Where the receiving socket of a side is bound. -/
def boundTo (s : Session) (b : Bool) : Option SockAddr := (s.side b).loop.channel.recvSocket.map (·.endpoint)

/-- A step of a worker; its handler is the presenter, which appends to the view. -/
def workerStep (s : Session) (b : Bool) (a : Act Unit) : Option (Session × List Line) :=
  ((s.side b).loop.step a).map fun (loop, calls) =>
    (s.set b { s.side b with loop, view := handOver (s.side b).view calls },
      calls.map fun call => ⟨b, false, call.2 ++ [ch '\n']⟩)

def step (inetAddr : Bytes → UInt32) (s : Session) : ChatAct → Option (Session × List Line)
  | .type b message =>
    if (s.side b).sending = none then
      some (s.set b { s.side b with view := (s.side b).view.setMessage message }, [])
    else none
  | .beginSend b =>
    if (s.side b).sending = none then
      let (msg, view) := Chat.beginSend (s.side b).view
      some (s.set b { s.side b with view, sending := some msg }, [⟨b, true, msg⟩])
    else none
  | .endSend b r => do
    let msg ← (s.side b).sending
    let (view, sent) ← Chat.endSend inetAddr (s.side b).loop.channel msg (s.side b).view r
    return ({ s.set b { s.side b with view, sending := none } with flight := s.flight ++ sent.toList }, [])
  | .worker b a => if onItsOwn a then s.workerStep b a else none
  | .deliver b i =>
    match s.flight[i]? with
    | none => none
    | some d =>
      if s.boundTo b = some d.dst then
        { s with flight := s.flight.eraseIdx i }.workerStep b (.recv (.datagram d))
      else none
  | .lose i => if i < s.flight.length then some ({ s with flight := s.flight.eraseIdx i }, []) else none
  | .duplicate i => s.flight[i]?.map fun d => ({ s with flight := s.flight ++ [d] }, [])

/-- Empty views, and both workers just started. -/
def start (channel : Bool → UdpChatChannel Unit) : Session := ⟨fun b => ⟨⟨[], []⟩, none, .start (channel b)⟩, []⟩

end Session

def chat (inetAddr : Bytes → UInt32) : Machine Session ChatAct Line := ⟨Session.step inetAddr⟩

/-- The two channels are each other's peers: each has its presenter as its handler and sends to where
the other one is bound, and the two are bound to different endpoints. -/
structure Joined (inetAddr : Bytes → UInt32) (channel : Bool → UdpChatChannel Unit) : Prop where
  handler : ∀ b, (channel b).callbackHandler = some ()
  route : ∀ b, ∃ send recv, (channel b).sendSocket = some send ∧ (channel !b).recvSocket = some recv ∧
    recv.endpoint = ⟨inetAddr (cStr (channel b).peerIp), send.endpoint.port⟩
  distinct : (channel true).recvSocket.map (·.endpoint) ≠ (channel false).recvSocket.map (·.endpoint)

/-! ## What a step can do -/

namespace Session

variable {inetAddr : Bytes → UInt32} {s s' : Session} {a : ChatAct} {o : List Line}

def channel (s : Session) (b : Bool) : UdpChatChannel Unit := (s.side b).loop.channel

@[simp] theorem side_set (b c : Bool) (x : Side) : (s.set b x).side c = if c = b then x else s.side c := rfl

@[simp] theorem flight_set (b : Bool) (x : Side) : (s.set b x).flight = s.flight := rfl

/-- Side `b` after a step of its worker. -/
def worked (s : Session) (b : Bool) (loop : Loop Unit) (calls : List (Unit × Bytes)) : Session :=
  s.set b { s.side b with loop, view := handOver (s.side b).view calls }

@[simp] theorem flight_worked (b : Bool) (loop : Loop Unit) (calls : List (Unit × Bytes)) :
    (s.worked b loop calls).flight = s.flight := rfl

@[simp] theorem sending_worked (b c : Bool) (loop : Loop Unit) (calls : List (Unit × Bytes)) :
    ((s.worked b loop calls).side c).sending = (s.side c).sending := by
  by_cases hc : c = b
  · subst hc; simp [worked]
  · simp [worked, hc]

/-- The lines that calls of `OnMessageReceived` append. -/
def callLines (b : Bool) (calls : List (Unit × Bytes)) : List Line :=
  calls.map fun call => ⟨b, false, call.2 ++ [ch '\n']⟩

inductive Stepped (inetAddr : Bytes → UInt32) (s : Session) : ChatAct → Session → List Line → Prop where
  | type {b message} (hs : (s.side b).sending = none) :
    Stepped inetAddr s (.type b message) (s.set b { s.side b with view := (s.side b).view.setMessage message }) []
  | beginSend {b} (hs : (s.side b).sending = none) :
    Stepped inetAddr s (.beginSend b)
      (s.set b { s.side b with
        view := (Chat.beginSend (s.side b).view).2, sending := some (Chat.beginSend (s.side b).view).1 })
      [⟨b, true, (Chat.beginSend (s.side b).view).1⟩]
  | endSend {b r msg sent} (hm : (s.side b).sending = some msg)
      (hs : (s.channel b).sendMessage inetAddr msg r = some sent) :
    Stepped inetAddr s (.endSend b r)
      { s.set b { s.side b with view := (s.side b).view.setMessage [], sending := none } with
        flight := s.flight ++ sent.toList } []
  | worker {b act loop calls} (ha : onItsOwn act = true) (hs : (s.side b).loop.step act = some (loop, calls)) :
    Stepped inetAddr s (.worker b act) (s.worked b loop calls) (callLines b calls)
  | deliver {b i d loop calls} (hi : s.flight[i]? = some d) (hb : s.boundTo b = some d.dst)
      (hs : (s.side b).loop.step (.recv (.datagram d)) = some (loop, calls)) :
    Stepped inetAddr s (.deliver b i) { s.worked b loop calls with flight := s.flight.eraseIdx i } (callLines b calls)
  | lose {i} : Stepped inetAddr s (.lose i) { s with flight := s.flight.eraseIdx i } []
  | duplicate {i d} (hi : s.flight[i]? = some d) :
    Stepped inetAddr s (.duplicate i) { s with flight := s.flight ++ [d] } []

theorem step_cases (h : s.step inetAddr a = some (s', o)) : Stepped inetAddr s a s' o := by
  cases a with
  | type b message =>
    simp only [step] at h
    split at h
    · next hs => cases h; exact .type hs
    · cases h
  | beginSend b =>
    simp only [step] at h
    split at h
    · next hs => cases h; exact .beginSend hs
    · cases h
  | endSend b r =>
    obtain ⟨msg, hm, h⟩ := Option.bind_eq_some_iff.1 h
    obtain ⟨⟨view, sent⟩, hv, he⟩ := Option.bind_eq_some_iff.1 h
    obtain ⟨sent', hs, hv⟩ := Option.bind_eq_some_iff.1 hv
    cases he
    cases hv
    exact .endSend hm hs
  | worker b act =>
    simp only [step] at h
    split at h
    · next ha =>
      obtain ⟨⟨loop, calls⟩, hs, he⟩ := Option.map_eq_some_iff.1 h
      cases he
      exact .worker ha hs
    · cases h
  | deliver b i =>
    simp only [step] at h
    split at h
    · cases h
    · next d hi =>
      split at h
      · next hb =>
        obtain ⟨⟨loop, calls⟩, hs, he⟩ := Option.map_eq_some_iff.1 h
        cases he
        exact .deliver hi hb hs
      · cases h
  | lose i =>
    simp only [step] at h
    split at h <;> cases h
    exact .lose
  | duplicate i =>
    obtain ⟨d, hi, he⟩ := Option.map_eq_some_iff.1 h
    cases he
    exact .duplicate hi

/-- The same channel, but for the count and the stop flag. -/
def SameEnds (c c' : UdpChatChannel Unit) : Prop :=
  ∃ n stop, c' = { c with receivedMessageCount := n, stopWorker := stop }

theorem sameEnds_refl (c : UdpChatChannel Unit) : SameEnds c c := ⟨_, _, rfl⟩

theorem onItsOwn_ne {act : Act Unit} (ha : onItsOwn act = true) (h : Option Unit) : act ≠ .setCallbackHandler h := by
  rintro rfl
  cases ha

theorem sameEnds_worked {b : Bool} {act : Act Unit} {loop : Loop Unit} {calls : List (Unit × Bytes)}
    (ha : ∀ h, act ≠ .setCallbackHandler h) (hs : (s.side b).loop.step act = some (loop, calls)) (c : Bool) :
    SameEnds (s.channel c) ((s.worked b loop calls).channel c) := by
  obtain ⟨n, stop, hch⟩ := Loop.step_channel hs
  rw [handlerAfter_of_ne ha] at hch
  by_cases hc : c = b
  · subst hc; exact ⟨n, stop, by simp [channel, worked, hch]⟩
  · simpa [channel, worked, hc] using sameEnds_refl (s.channel c)

/-- No step changes who the channels belong to and whom they talk to. -/
theorem step_channel (h : s.step inetAddr a = some (s', o)) (c : Bool) : SameEnds (s.channel c) (s'.channel c) := by
  have hset : ∀ (b : Bool) (x : Side), x.loop = (s.side b).loop → SameEnds (s.channel c) ((s.set b x).channel c) := by
    intro b x hx
    by_cases hc : c = b
    · subst hc; simpa [channel, hx] using sameEnds_refl (s.channel c)
    · simpa [channel, hc] using sameEnds_refl (s.channel c)
  cases step_cases h with
  | type _ | beginSend _ | endSend _ _ => exact hset _ _ rfl
  | worker ha hs => exact sameEnds_worked (onItsOwn_ne ha) hs c
  | deliver _ _ hs => exact sameEnds_worked (by simp) hs c
  | lose | duplicate _ => exact sameEnds_refl _

end Session

theorem Joined.of_sameEnds {inetAddr : Bytes → UInt32} {c c' : Bool → UdpChatChannel Unit} (h : Joined inetAddr c)
    (hc : ∀ b, Session.SameEnds (c b) (c' b)) : Joined inetAddr c' := by
  have hends : ∀ b, (c' b).callbackHandler = (c b).callbackHandler ∧ (c' b).sendSocket = (c b).sendSocket ∧
      (c' b).recvSocket = (c b).recvSocket ∧ (c' b).peerIp = (c b).peerIp := by
    intro b
    obtain ⟨n, stop, he⟩ := hc b
    simp [he]
  refine ⟨fun b => (hends b).1.trans (h.handler b), ?_, ?_⟩
  · intro b
    obtain ⟨send, recv, hs, hr, he⟩ := h.route b
    exact ⟨send, recv, (hends b).2.1.trans hs, (hends !b).2.2.1.trans hr, by rw [he, (hends b).2.2.2]⟩
  · rw [(hends true).2.2.1, (hends false).2.2.1]
    exact h.distinct

/-- The endpoint a channel asks `Bind` for. -/
def asked {H : Type} (inetAddr : Bytes → UInt32) (c : UdpChatChannel H) : SockAddr := ⟨inetAddr (cStr c.myIp), c.myPort⟩

/-- The endpoint a channel is told to send to. -/
def peerEndpoint {H : Type} (inetAddr : Bytes → UInt32) (c : UdpChatChannel H) : SockAddr :=
  ⟨inetAddr (cStr c.peerIp), c.peerPort⟩

/-- Two channels that were given each other's endpoints are joined once they have their sockets, if
these are bound to the endpoints asked for and the two are different. -/
theorem joined_started {inetAddr : Bytes → UInt32} {endpoint : Bool → Bytes} {c₀ : Bool → UdpChatChannel Unit}
    {env : Bool → InitEnv} {socket : Bool → UdpSocket} (hnew : ∀ b, new (endpoint b) (endpoint !b) = .ok (c₀ b))
    (hbound : ∀ b, (socket b).endpoint = asked inetAddr (c₀ b))
    (hne : asked inetAddr (c₀ true) ≠ asked inetAddr (c₀ false)) :
    Joined inetAddr fun b => started inetAddr ((c₀ b).setCallbackHandler (some ())) (env b) (socket b) := by
  have hpeer : ∀ b, (c₀ b).peerIp = (c₀ !b).myIp ∧ (c₀ b).peerPort = (c₀ !b).myPort := by
    intro b
    -- both are what `ExtractIpAndPort` makes of the endpoint of the other side
    have he := (new_spec (hnew b)).1.2.symm.trans (new_spec (hnew !b)).1.1
    simpa only [Except.ok.injEq, Prod.mk.injEq] using he
  refine ⟨fun _ => rfl, ?_, ?_⟩
  · intro b
    refine ⟨UdpSocket.new inetAddr (c₀ b).peerPort (some (c₀ b).peerIp) (env b).sendFd, socket !b, rfl, rfl, ?_⟩
    have hip : (started inetAddr ((c₀ b).setCallbackHandler (some ())) (env b) (socket b)).peerIp = (c₀ b).peerIp := rfl
    rw [hbound, hip, (hpeer b).1]
    exact congrArg _ (hpeer b).2.symm
  · intro h
    rw [← hbound, ← hbound] at hne
    exact hne (Option.some.inj h)

end CalcChatter.Chat

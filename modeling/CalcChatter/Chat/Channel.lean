import CalcChatter.Cxx.Atoi
import CalcChatter.Tokeniser
import CalcChatter.Chat.Transport

/-!
# `UdpChatChannel` (Chatter/Chatter.h:19-150)

| here | there |
| --- | --- |
| `H`           | what a `ChannelCallbackHandler*` can point to; `none` is `nullptr` |
| `Thread`      | the thread object `worker_` owns; it stays joinable until the destructor joins it |
| `InitEnv`     | what the system calls of one `Initialise` come back with |
| `Abort`       | the end of the process: assigning to `worker_` destroys a joinable thread |

`initialise_cases` says what a call of `Initialise` can come back with; `initialise_sound` is the
law over all runs of calls.
-/

namespace CalcChatter.Chat

open Cxx Fuel Fuel.Comp

/-- `port = atoi(..)` for an `unsigned short` port. -/
def toUShort (n : Int) : UInt16 := .ofNat (n % 65536).toNat

/-- `ExtractIpAndPort` (:19); the two references are passed in and given back. -/
def extractIpAndPort (endpoint ip : Bytes) (port : UInt16) : Except Exn (Bytes × UInt16) := do
  let tokeniser := Tokeniser.new endpoint [ch ':']
  let (ip, tokeniser) ← if tokeniser.hasNext then Chat.nextToken tokeniser else .ok (ip, tokeniser)
  if tokeniser.hasNext then
    let (token, _) ← Chat.nextToken tokeniser
    return (ip, toUShort (atoi (cStr token)))
  else return (ip, port)

abbrev Thread := Nat

structure UdpChatChannel (H : Type) where
  callbackHandler : Option H
  myIp : Bytes
  myPort : UInt16
  peerIp : Bytes
  peerPort : UInt16
  sendSocket : Option UdpSocket
  recvSocket : Option UdpSocket
  worker : Option Thread
  receivedMessageCount : SizeT
  stopWorker : Bool
deriving DecidableEq

structure InitEnv where
  sendFd : Int           -- `socket()` for `send_socket_`
  recvFd : Int           -- `socket()` for `recv_socket_`
  bound : Nat → Bound    -- the attempts of `Bind`, one after another
  thread : Thread

inductive Abort where
  | terminate
deriving DecidableEq

/-- `while (!recv_socket_->Bind()) sleep_for(500ms);` from attempt `k` on. -/
def bindLoop (bound : Nat → Bound) (k : Nat) (s : UdpSocket) : Comp Abort UdpSocket :=
  iter (fun (k, s) =>
    let (ok, s) := UdpSocket.bind s (bound k)
    pure (if ok then .inr s else .inl (k + 1, s))) (k, s)

namespace UdpChatChannel

variable {H : Type} (inetAddr : Bytes → UInt32)

/-- The constructor (:71). -/
def new (myEndpoint peerEndpoint : Bytes) : Except Exn (UdpChatChannel H) := do
  let (myIp, myPort) ← extractIpAndPort myEndpoint [] 0
  let (peerIp, peerPort) ← extractIpAndPort peerEndpoint [] 0
  return ⟨none, myIp, myPort, peerIp, peerPort, none, none, none, 0, false⟩

/-- `ToString` (:100). -/
def toString (c : UdpChatChannel H) : Bytes :=
  c.myIp ++ [ch ':'] ++ intToString c.myPort.toNat ++ lit " <---> " ++ c.peerIp ++ [ch ':'] ++
    intToString c.peerPort.toNat

/-- `SetCallbackHandler` (:38). -/
def setCallbackHandler (c : UdpChatChannel H) (h : Option H) : UdpChatChannel H := { c with callbackHandler := h }

/-- `IsOpen` (:127). -/
def isOpen (c : UdpChatChannel H) : Bool :=
  match c.sendSocket, c.recvSocket with
  | some send, some recv => send.isOpen && recv.isOpen && c.worker.isSome
  | _, _ => false

/-- `Initialise` (:107). -/
def initialise (c : UdpChatChannel H) (env : InitEnv) : Comp Abort (Bool × UdpChatChannel H) :=
  if c.isOpen then pure (false, c)
  else do
    let c := { c with sendSocket := some (.new inetAddr c.peerPort (some c.peerIp) env.sendFd) }
    let s ← bindLoop env.bound 0 (.new inetAddr c.myPort (some c.myIp) env.recvFd)
    let c := { c with recvSocket := some s }
    if c.worker.isSome then ofExcept (.error .terminate)
    else pure (true, { c with worker := some env.thread })

/-- `SendMessage` (:134); `none` where `send_socket_` is null, otherwise the datagram that leaves. -/
def sendMessage (c : UdpChatChannel H) (message : Bytes) (r : Sent) : Option (Option Datagram) := do
  let s ← c.sendSocket
  return (s.sendTo inetAddr c.peerIp message r).2

/-- `ReceiveMessage` (:140): the result and `message` afterwards; `none` where `recv_socket_` is
null. The source address in `request.first` is not looked at. -/
def receiveMessage (c : UdpChatChannel H) (message : Bytes) (a : Arrival) : Option (Bool × Bytes) := do
  let s ← c.recvSocket
  let request := s.recvFrom 150 a
  if request.2.length ≠ 0 then return (true, request.2) else return (false, message)

/-! ## What the member functions do -/

variable {inetAddr} {c c' : UdpChatChannel H}

theorem new_spec {myEndpoint peerEndpoint : Bytes} (h : new myEndpoint peerEndpoint = .ok c) :
    (extractIpAndPort myEndpoint [] 0 = .ok (c.myIp, c.myPort) ∧
      extractIpAndPort peerEndpoint [] 0 = .ok (c.peerIp, c.peerPort)) ∧
    c.callbackHandler = none ∧ c.sendSocket = none ∧ c.recvSocket = none ∧ c.worker = none ∧
      c.receivedMessageCount = 0 ∧ c.stopWorker = false := by
  unfold new at h
  cases hm : extractIpAndPort myEndpoint [] 0 with
  | error e => simp [hm, bind, Except.bind] at h
  | ok my =>
    cases hp : extractIpAndPort peerEndpoint [] 0 with
    | error e => simp [hm, hp, bind, Except.bind] at h
    | ok peer =>
      simp only [hm, hp, bind, Except.bind, pure, Except.pure, Except.ok.injEq] at h
      subst h
      simp

theorem sendMessage_datagram {m : Bytes} {r : Sent} {d : Datagram} (h : c.sendMessage inetAddr m r = some (some d)) :
    d.payload = m ∧ m.length ≤ maxPayload ∧
      ∃ s, c.sendSocket = some s ∧ d.dst = ⟨inetAddr (cStr c.peerIp), s.endpoint.port⟩ := by
  obtain ⟨s, hs, hd⟩ := Option.bind_eq_some_iff.1 h
  obtain ⟨hp, hdst, hlen⟩ := UdpSocket.sendTo_datagram inetAddr (Option.some.inj hd)
  exact ⟨hp, hlen, s, hs, hdst⟩

/-- What `ReceiveMessage` takes for a message: the first 150 bytes of a datagram that is not empty. -/
def message : Arrival → Option Bytes
  | .error => none
  | .datagram d => if d.payload = [] then none else some (d.payload.take 150)

theorem receiveMessage_eq {s : UdpSocket} (hs : c.recvSocket = some s) (buffer : Bytes) (a : Arrival) :
    c.receiveMessage buffer a = some ((message a).isSome, (message a).getD buffer) := by
  cases a with
  | error => simp [receiveMessage, hs, message]
  | datagram d => by_cases hd : d.payload = [] <;> simp [receiveMessage, hs, message, hd]

/-! ## `Initialise` -/

/-- The loop around `Bind` ends only with an open socket. -/
theorem bindLoop_open {bound : Nat → Bound} {k : Nat} {s : UdpSocket} {r : Except Abort UdpSocket}
    (h : Halts (bindLoop bound k s) r) : ∃ s', r = .ok s' ∧ s'.isOpen = true ∧ s'.sockfd = s.sockfd := by
  refine iter_invariant (fun st => st.2.sockfd = s.sockfd)
    (fun r => ∃ s', r = .ok s' ∧ s'.isOpen = true ∧ s'.sockfd = s.sockfd) rfl ?_ ?_ ?_ h
  · rintro ⟨k, t⟩ x (ht : t.sockfd = s.sockfd) hx
    have hfd := (UdpSocket.bind_sockfd t (bound k)).trans ht
    cases hok : (t.bind (bound k)).1 <;> simp [hok] at hx
    subst hx; exact hfd
  · rintro ⟨k, t⟩ x (ht : t.sockfd = s.sockfd) hx
    have hfd := (UdpSocket.bind_sockfd t (bound k)).trans ht
    cases hok : (t.bind (bound k)).1 <;> simp [hok] at hx
    subst hx
    have hopen := UdpSocket.isOpen_of_bind hok
    exact ⟨_, rfl, by simpa only [UdpSocket.isOpen, hfd, ← ht] using hopen, hfd⟩
  · rintro ⟨k, t⟩ e - hx
    simp at hx

/-- The channel with a new sending socket, the bound socket `s` and a worker. -/
def started (inetAddr : Bytes → UInt32) (c : UdpChatChannel H) (env : InitEnv) (s : UdpSocket) : UdpChatChannel H :=
  { c with
    sendSocket := some (.new inetAddr c.peerPort (some c.peerIp) env.sendFd), recvSocket := some s
    worker := some env.thread }

/-- The loop around `Bind` ends once an attempt succeeds. -/
theorem bindLoop_halts {bound : Nat → Bound} {s : UdpSocket} (hs : s.isOpen = true) :
    ∀ (n k : Nat), (∃ e, bound (k + n) = .named e) → ∃ s', Halts (bindLoop bound k s) (.ok s') := by
  intro n
  induction n with
  | zero =>
    rintro k ⟨e, he⟩
    rw [Nat.add_zero] at he
    exact ⟨{ s with endpoint := e }, halts_iter_done (by simp [he, UdpSocket.bind_named hs])⟩
  | succ n ih =>
    rintro k ⟨e, he⟩
    cases hok : (s.bind (bound k)).1 with
    | true => exact ⟨_, halts_iter_done (a := (s.bind (bound k)).2) (by simp [hok])⟩
    | false =>
      obtain ⟨s', hs'⟩ := ih (k + 1) ⟨e, by rwa [Nat.add_right_comm]⟩
      exact ⟨s', (halts_iter_next (by simp [hok, UdpSocket.bind_refused hok])).2 hs'⟩

/-- All that a call of `Initialise` can come back with. -/
theorem initialise_cases {env : InitEnv} {r : Except Abort (Bool × UdpChatChannel H)}
    (h : Halts (c.initialise inetAddr env) r) :
    (c.isOpen = true ∧ r = .ok (false, c)) ∨
    (c.isOpen = false ∧ c.worker.isSome = true ∧ r = .error .terminate) ∨
    (c.isOpen = false ∧ c.worker = none ∧ ∃ s, s.isOpen = true ∧ r = .ok (true, c.started inetAddr env s)) := by
  unfold initialise at h
  cases hopen : c.isOpen with
  | true =>
    simp only [hopen, ↓reduceIte, halts_pure] at h
    exact .inl ⟨rfl, h⟩
  | false =>
    simp only [hopen, Bool.false_eq_true, ↓reduceIte] at h
    rcases halts_bind_iff.1 h with ⟨e, he, -⟩ | ⟨s, hs, hrest⟩
    · obtain ⟨s', hs', -⟩ := bindLoop_open he
      cases hs'
    · obtain ⟨s', hs', hso, -⟩ := bindLoop_open hs
      cases hs'
      cases hw : c.worker with
      | none => exact .inr (.inr ⟨rfl, rfl, s, hso, by simpa [hw, started] using hrest⟩)
      | some w => exact .inr (.inl ⟨rfl, rfl, by simpa [hw] using hrest⟩)

/-- A call on a channel that is not open comes back once it has a receiving socket and `Bind`
succeeds, unless the process ends. -/
theorem initialise_halts (hopen : c.isOpen = false) (env : InitEnv) (hfd : env.recvFd ≠ invalidSocket)
    (hnamed : ∃ k e, env.bound k = .named e) : ∃ s, s.isOpen = true ∧ Halts (c.initialise inetAddr env)
      (if c.worker.isSome then .error .terminate else .ok (true, c.started inetAddr env s)) := by
  obtain ⟨k, e, he⟩ := hnamed
  have hrecv : (UdpSocket.new inetAddr c.myPort (some c.myIp) env.recvFd).isOpen = true := by simpa using hfd
  have hbound : ∃ e, env.bound (0 + k) = .named e := ⟨e, by rw [Nat.zero_add, he]⟩
  obtain ⟨s, hs⟩ := bindLoop_halts hrecv k 0 hbound
  obtain ⟨s', hs', hso, -⟩ := bindLoop_open hs
  cases hs'
  refine ⟨s, hso, ?_⟩
  unfold initialise
  simp only [hopen, Bool.false_eq_true, ↓reduceIte]
  rw [halts_bind_ok hs]
  cases c.worker <;> simp [started]

theorem bind_ok {s : UdpSocket} {r : Bound} (h : (s.bind r).1 = true) :
    ∃ endpoint, r = .named endpoint ∧ (s.bind r).2 = { s with endpoint } := by
  have hs := UdpSocket.isOpen_of_bind h
  have hfd : s.sockfd ≠ invalidSocket := by simpa [UdpSocket.isOpen] using hs
  unfold UdpSocket.bind at h ⊢
  rw [if_neg hfd] at h ⊢
  cases r with
  | refused | unnamed => cases h
  | named endpoint => exact ⟨endpoint, rfl, rfl⟩

/-- The socket that the loop around `Bind` ends with has an endpoint that an attempt reported. -/
theorem bindLoop_named {bound : Nat → Bound} {k : Nat} {s s' : UdpSocket} (h : Halts (bindLoop bound k s) (.ok s')) :
    ∃ n endpoint, bound n = .named endpoint ∧ s' = ⟨endpoint, s.sockfd⟩ := by
  refine iter_invariant (fun st => st.2.sockfd = s.sockfd)
    (fun r => ∀ s', r = .ok s' → ∃ n endpoint, bound n = .named endpoint ∧ s' = ⟨endpoint, s.sockfd⟩) rfl ?_ ?_ ?_ h s' rfl
  · rintro ⟨k, t⟩ x (ht : t.sockfd = s.sockfd) hx
    have hfd := (UdpSocket.bind_sockfd t (bound k)).trans ht
    cases hok : (t.bind (bound k)).1 <;> simp [hok] at hx
    subst hx; exact hfd
  · rintro ⟨k, t⟩ x (ht : t.sockfd = s.sockfd) hx s' hs'
    cases hok : (t.bind (bound k)).1 <;> simp [hok] at hx
    subst hx
    cases hs'
    obtain ⟨endpoint, hk, he⟩ := bind_ok hok
    exact ⟨k, endpoint, hk, by rw [he, ← ht]⟩
  · rintro ⟨k, t⟩ e - hx
    simp at hx

/-- The loop around `Bind` ends with the first attempt that succeeds. -/
theorem bindLoop_iff {bound : Nat → Bound} {s s' : UdpSocket} : Halts (bindLoop bound 0 s) (.ok s') ↔
    ∃ m, (∀ k < m, (s.bind (bound k)).1 = false) ∧ s.bind (bound m) = (true, s') := by
  constructor
  · intro h
    refine iter_invariant (fun st => st.2 = s ∧ ∀ k < st.1, (s.bind (bound k)).1 = false)
      (fun r => ∀ s', r = .ok s' → ∃ m, (∀ k < m, (s.bind (bound k)).1 = false) ∧ s.bind (bound m) = (true, s'))
      (s := (0, s)) ⟨rfl, by simp⟩ ?_ ?_ (by simp) h s' rfl
    · rintro ⟨k, t⟩ x ⟨ht, hfail⟩ hx
      obtain rfl : t = s := ht
      cases hok : (t.bind (bound k)).1 <;> simp [hok] at hx
      subst hx
      refine ⟨UdpSocket.bind_refused hok, fun j hj => ?_⟩
      rcases Nat.lt_succ_iff_lt_or_eq.1 hj with hj | rfl
      · exact hfail j hj
      · exact hok
    · rintro ⟨k, t⟩ x ⟨ht, hfail⟩ hx s' hs'
      obtain rfl : t = s := ht
      cases hok : (t.bind (bound k)).1 <;> simp [hok] at hx
      subst hx
      cases hs'
      exact ⟨k, hfail, Prod.ext hok rfl⟩
  · rintro ⟨m, hfail, hok⟩
    -- from attempt `k` on, the induction is on the attempts that still fail
    have key : ∀ n k, k + n = m → Halts (bindLoop bound k s) (.ok s') := by
      intro n
      induction n with
      | zero =>
        intro k hk
        obtain rfl : k = m := hk
        exact halts_iter_done (by simp [hok])
      | succ n ih =>
        intro k hk
        have hk' := hfail k (by omega)
        exact (halts_iter_next (by simp [hk', UdpSocket.bind_refused hk'])).2 (ih (k + 1) (by omega))
    exact key m 0 (by omega)

/-- A call that makes the sockets has the receiving one bound where an attempt of `Bind` reported. -/
theorem initialise_named {env : InitEnv} {c' : UdpChatChannel H} (hopen : c.isOpen = false) {b : Bool}
    (h : Halts (c.initialise inetAddr env) (.ok (b, c'))) :
    ∃ n endpoint, env.bound n = .named endpoint ∧ b = true ∧ c' = c.started inetAddr env ⟨endpoint, env.recvFd⟩ := by
  unfold initialise at h
  simp only [hopen, Bool.false_eq_true, ↓reduceIte] at h
  obtain ⟨s, hs, hrest⟩ := (halts_bind_iff.1 h).resolve_left (by simp)
  obtain ⟨n, endpoint, hn, rfl⟩ := bindLoop_named hs
  refine ⟨n, endpoint, hn, ?_⟩
  cases hw : c.worker with
  | none => simpa [hw, started, UdpSocket.new] using hrest
  | some w => simp [hw] at hrest

theorem isOpen_started {s : UdpSocket} (hs : s.isOpen = true) (env : InitEnv) :
    (c.started inetAddr env s).isOpen = (env.sendFd != invalidSocket) := by simp [started, isOpen, hs]

/-- A worker exists exactly when the channel is open. -/
def Sound (c : UdpChatChannel H) : Prop := c.worker.isSome = true ↔ c.isOpen = true

/-- The condition on a call: it makes no sending socket, or it gets one. -/
def GetsSendSocket (call : UdpChatChannel H × InitEnv) : Prop :=
  call.1.isOpen = true ∨ call.2.sendFd ≠ invalidSocket

/-- Calls of `Initialise` one after another, each with the channel it was made on; the last argument
is the channel after the last one. -/
inductive InitRun (inetAddr : Bytes → UInt32) (c : UdpChatChannel H) :
    List (UdpChatChannel H × InitEnv) → UdpChatChannel H → Prop where
  | start : InitRun inetAddr c [] c
  | call {calls c' c'' env b} : InitRun inetAddr c calls c' → Halts (c'.initialise inetAddr env) (.ok (b, c'')) →
      InitRun inetAddr c (calls ++ [(c', env)]) c''

/-- One call on a sound channel leaves it sound if and only if it meets the condition. -/
theorem sound_call {env : InitEnv} {b : Bool} (hc : c.Sound) (h : Halts (c.initialise inetAddr env) (.ok (b, c'))) :
    c'.Sound ↔ GetsSendSocket (c, env) := by
  rcases initialise_cases h with ⟨hopen, hr⟩ | ⟨-, -, hr⟩ | ⟨hopen, -, s, hs, hr⟩ <;> cases hr
  · exact ⟨fun _ => .inl hopen, fun _ => hc⟩
  · have hsound : (c.started inetAddr env s).Sound ↔ (c.started inetAddr env s).isOpen = true := by
      simp [Sound, started]
    rw [hsound, isOpen_started hs]
    simp [GetsSendSocket, hopen]

/-- **When a worker exists exactly if the channel is open.** In every run of calls on a new channel,
whatever the system calls come back with: all channels reached are sound if and only if every call
that makes a sending socket gets one. If all calls so far did and the next one does too, that one
returns true only with the channel open, returns false only if it was open and nothing changed, and
never touches the sockets or the thread of a worker. -/
theorem initialise_sound {myEndpoint peerEndpoint : Bytes} {c₀ : UdpChatChannel H}
    (hnew : new myEndpoint peerEndpoint = .ok c₀) {calls : List (UdpChatChannel H × InitEnv)}
    (hrun : InitRun inetAddr c₀ calls c) :
    ((∀ d ∈ c :: calls.map (·.1), d.Sound) ↔ ∀ call ∈ calls, GetsSendSocket call) ∧
    ((∀ call ∈ calls, GetsSendSocket call) → ∀ (env : InitEnv) (r : Except Abort (Bool × UdpChatChannel H)),
      GetsSendSocket (c, env) → Halts (c.initialise inetAddr env) r →
        (∀ c', r = .ok (true, c') → c'.isOpen = true) ∧ (∀ c', r = .ok (false, c') → c.isOpen = true ∧ c' = c) ∧
        (c.worker.isSome = true → r = .ok (false, c))) := by
  have hsound : (∀ d ∈ c :: calls.map (·.1), d.Sound) ↔ ∀ call ∈ calls, GetsSendSocket call := by
    induction hrun with
    | start =>
      obtain ⟨-, -, hs, -, hw, -⟩ := new_spec hnew
      simp [Sound, isOpen, hs, hw]
    | @call calls c' c'' env b hrun hcall ih =>
      simp only [List.map_append, List.map_cons, List.map_nil, List.mem_cons, List.mem_append, List.not_mem_nil,
        or_false, or_imp, forall_and, forall_eq] at ih ⊢
      rw [← ih]
      constructor
      · rintro ⟨hc'', hcalls, hc'⟩
        exact ⟨⟨hc', hcalls⟩, (sound_call hc' hcall).1 hc''⟩
      · rintro ⟨⟨hc', hcalls⟩, henv⟩
        exact ⟨(sound_call hc' hcall).2 henv, hcalls, hc'⟩
  refine ⟨hsound, ?_⟩
  intro hcalls env r henv hr
  have hc : c.Sound := hsound.2 hcalls c (by simp)
  rcases initialise_cases hr with ⟨hopen, rfl⟩ | ⟨hopen, hw, -⟩ | ⟨hopen, hw, s, hs, rfl⟩
  · exact ⟨by simp, fun c' h => ⟨hopen, by cases h; rfl⟩, fun _ => rfl⟩
  · exact absurd (hc.1 hw) (by simp [hopen])
  · refine ⟨?_, by simp, by simp [hw]⟩
    intro c' h
    cases h
    rw [isOpen_started hs]
    simpa [GetsSendSocket, hopen] using henv

/-- `inet_addr("127.0.0.1")`. -/
def loopback : Bytes → UInt32 := fun _ => 0x0100007f

/-- Both sockets are made, and the third attempt of `Bind` succeeds. -/
def twoSockets : InitEnv where
  sendFd := 3
  recvFd := 4
  bound k := if k < 2 then .refused else .named ⟨0x0100007f, 2000⟩
  thread := 1

/-- Only the receiving socket is made. -/
def noSendSocket : InitEnv := ⟨invalidSocket, 3, fun _ => .named ⟨0x0100007f, 2000⟩, 1⟩

theorem new_loopback : ∃ c : UdpChatChannel Unit, new (lit "127.0.0.1:2000") (lit "127.0.0.1:2001") = .ok c ∧
    c.isOpen = false ∧ c.worker = none := ⟨_, rfl, rfl, rfl⟩

theorem initialise_sound_second_call : ∃ c₀ c₁ : UdpChatChannel Unit,
    new (lit "127.0.0.1:2000") (lit "127.0.0.1:2001") = .ok c₀ ∧ InitRun loopback c₀ [(c₀, twoSockets)] c₁ ∧
      c₁.Sound ∧ ∀ r, Halts (c₁.initialise loopback twoSockets) r → ∀ c', r = .ok (true, c') → c'.isOpen = true := by
  obtain ⟨c₀, hnew, hopen, hw⟩ := new_loopback
  obtain ⟨s, hs, hcall⟩ := initialise_halts hopen twoSockets (by decide) ⟨2, _, rfl⟩
  rw [hw] at hcall
  have hrun : InitRun loopback c₀ [(c₀, twoSockets)] _ := InitRun.call .start hcall
  have hget : ∀ d : UdpChatChannel Unit, GetsSendSocket (d, twoSockets) := by
    intro d
    simp [GetsSendSocket, twoSockets, invalidSocket]
  obtain ⟨hsound, hnext⟩ := initialise_sound hnew hrun
  exact ⟨c₀, _, hnew, hrun, hsound.2 (by simpa using hget c₀) _ (by simp), fun r hr =>
    (hnext (by simpa using hget c₀) twoSockets r (hget _) hr).1⟩

/-- `socket()` fails for the sending socket only: `Initialise` returns true, a worker runs and the
channel is not open. The next call destroys the thread object of the running worker. -/
theorem worker_without_send_socket : ∃ c₀ c₁ : UdpChatChannel Unit,
    new (lit "127.0.0.1:2000") (lit "127.0.0.1:2001") = .ok c₀ ∧
      Halts (c₀.initialise loopback noSendSocket) (.ok (true, c₁)) ∧
      c₁.worker.isSome = true ∧ c₁.isOpen = false ∧
      Halts (c₁.initialise loopback twoSockets) (.error .terminate) := by
  obtain ⟨c₀, hnew, hopen, hw⟩ := new_loopback
  obtain ⟨s, hs, hcall⟩ := initialise_halts hopen noSendSocket (by decide) ⟨0, _, rfl⟩
  rw [hw] at hcall
  have hclosed : (c₀.started loopback noSendSocket s).isOpen = false := isOpen_started hs noSendSocket
  obtain ⟨s', -, hnext⟩ := initialise_halts hclosed twoSockets (by decide) ⟨2, _, rfl⟩
  exact ⟨c₀, _, hnew, hcall, rfl, hclosed, hnext⟩

end UdpChatChannel

end CalcChatter.Chat

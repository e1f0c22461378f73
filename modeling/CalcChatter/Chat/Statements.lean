import CalcChatter.Lib.Machine
import CalcChatter.Chat.Receive

/-!
# The statements of a channel (transport.h:77-204; Chatter.h:71-165)

Any number of channels in one process, as in ChatterTests/main.cpp, each with its worker. A step is one
statement, so the members run beside the workers and beside each other; what a step shows are its system
calls. The table of open descriptors belongs to the process, and `socket` returns none that is open.

| here | there |
| --- | --- |
| `construct`                                   | the constructor of `UdpChatChannel` (:71) |
| `refuse`                                      | `Initialise` of a channel that is open (:109) |
| `makeSend`, `makeRecv`, `bind`, `startWorker` | `Initialise`, statement by statement (:115-121) |
| `sendMessage`, `setCallbackHandler`           | :134, :38 |
| `worker`, `enter`, `leave`                    | `ReceiveLoop` (:154); `recvfrom` takes time, so it is entered and left |
| `stop`, `join`, `closeRecv`, `closeSend`      | `~UdpChatChannel` (:84), then its members in reverse order, with `~UdpSocket` (transport.h:195) |

`step_cases` lists all that a step can do. `initialise_in_steps` says that the statements of `Initialise`,
in any process, do what `initialise` does.
-/

namespace CalcChatter.Chat

open Cxx Lts UdpChatChannel

/-- The statement that the thread using a channel executes next. -/
inductive Point where
  | ready                            -- no member function runs
  | makeRecv | bind | startWorker    -- in `Initialise`
  | join | closeRecv | closeSend     -- in the destructor
deriving DecidableEq

structure Object where
  point : Point
  loop : Loop Unit
  receiving : Option Int   -- the worker is in `recvfrom`, on this descriptor

inductive Op where
  | construct (myEndpoint peerEndpoint : Bytes)
  | refuse
  | makeSend (fd : Int)
  | makeRecv (fd : Int)
  | bind (r : Bound)
  | startWorker (t : Thread)
  | sendMessage (message : Bytes) (r : Sent)
  | setCallbackHandler (h : Option Unit)
  | worker (a : Act Unit)
  | enter
  | leave (a : Arrival)
  | stop
  | join
  | closeRecv
  | closeSend

/-- A system call, with its descriptor; `socket` with the one it returns. -/
inductive Call where
  | socket (fd : Int)
  | bind (fd : Int)
  | sendto (fd : Int)
  | recvfrom (fd : Int)
  | received (fd : Int)   -- `recvfrom` returns
  | close (fd : Int)
deriving DecidableEq

namespace Object

/-- The statements of the loop around `ReceiveMessage`. -/
def aroundReceive : Act Unit → Bool
  | .test | .count | .call | .sleep => true
  | _ => false

/-- `~UdpSocket` of a socket that a `unique_ptr` owned, if it did. -/
def destroyed (s : Option UdpSocket) : List Call := s.toList.map fun s => .close s.sockfd

/-- A statement; there is no step where a null pointer is followed, and none where a joinable thread is
assigned to. -/
def step (inetAddr : Bytes → UInt32) : Option Object → Op → Option (Option Object × List Call)
  | none, .construct myEndpoint peerEndpoint =>
    match UdpChatChannel.new myEndpoint peerEndpoint with
    | .ok c => some (some ⟨.ready, .start c, none⟩, [])
    | .error _ => none
  | none, _ => none
  | some _, .construct _ _ => none
  | some o, .refuse => if o.point = .ready ∧ o.loop.channel.isOpen = true then some (some o, []) else none
  | some o, .makeSend fd =>
    let c := o.loop.channel
    if o.point = .ready ∧ c.isOpen = false then
      some (some { o with
        point := .makeRecv, loop.channel.sendSocket := some (.new inetAddr c.peerPort (some c.peerIp) fd) },
        .socket fd :: destroyed c.sendSocket)
    else none
  | some o, .makeRecv fd =>
    let c := o.loop.channel
    if o.point = .makeRecv then
      some (some { o with point := .bind, loop.channel.recvSocket := some (.new inetAddr c.myPort (some c.myIp) fd) },
        .socket fd :: destroyed c.recvSocket)
    else none
  | some o, .bind r =>
    if o.point = .bind then
      o.loop.channel.recvSocket.map fun s =>
        let (ok, s') := s.bind r
        (some { o with point := if ok then .startWorker else .bind, loop.channel.recvSocket := some s' },
          [.bind s.sockfd])
    else none
  | some o, .startWorker t =>
    if o.point = .startWorker ∧ o.loop.channel.worker = none then
      some (some { o with point := .ready, loop := .start { o.loop.channel with worker := some t } }, [])
    else none
  | some o, .sendMessage message r =>
    if o.point = .ready then do
      let s ← o.loop.channel.sendSocket
      let _ ← o.loop.channel.sendMessage inetAddr message r
      return (some o, [.sendto s.sockfd])
    else none
  | some o, .setCallbackHandler h =>
    if o.point = .ready then
      some (some { o with loop.channel := o.loop.channel.setCallbackHandler h }, [])
    else none
  | some o, .worker a =>
    if o.loop.channel.worker.isSome = true ∧ aroundReceive a = true then
      (o.loop.step a).map fun (loop, _) => (some { o with loop }, [])
    else none
  | some o, .enter =>
    if o.loop.channel.worker.isSome = true ∧ o.loop.pc = .receive ∧ o.receiving = none then
      o.loop.channel.recvSocket.map fun s => (some { o with receiving := some s.sockfd }, [.recvfrom s.sockfd])
    else none
  | some o, .leave a => do
    let fd ← o.receiving
    let (loop, _) ← o.loop.step (.recv a)
    return (some { o with loop, receiving := none }, [.received fd])
  | some o, .stop =>
    if o.point = .ready then some (some { o with point := .join, loop.channel.stopWorker := true }, []) else none
  | some o, .join =>
    if o.point = .join ∧ (o.loop.channel.worker = none ∨ o.loop.pc = .exited) then
      some (some { o with point := .closeRecv }, [])
    else none
  | some o, .closeRecv =>
    if o.point = .closeRecv then
      some (some { o with point := .closeSend, loop.channel.recvSocket := none }, destroyed o.loop.channel.recvSocket)
    else none
  | some o, .closeSend =>
    if o.point = .closeSend then some (none, destroyed o.loop.channel.sendSocket) else none

end Object

/-- Which descriptors of the process are open. -/
def descriptorStep (isOpen : Int → Bool) : Call → Option ((Int → Bool) × List Empty)
  | .socket fd =>
    if fd = invalidSocket then some (isOpen, [])
    else if isOpen fd then none
    else some (Function.update isOpen fd true, [])
  | .close fd => some (Function.update isOpen fd false, [])
  | _ => some (isOpen, [])

def object (inetAddr : Bytes → UInt32) : Machine (Option Object) Op Call := ⟨Object.step inetAddr⟩

def descriptors : Machine (Int → Bool) Call Empty := ⟨descriptorStep⟩

/-- A process with a channel for every `ι`, none of them made yet. -/
def process {ι : Type} [DecidableEq ι] (inetAddr : Bytes → UInt32) :
    Machine (Shared ι (Option Object) (Int → Bool)) (ι × Op) (ι × Call) := shared (object inetAddr) descriptors

def noChannels {ι : Type} (isOpen : Int → Bool) : Shared ι (Option Object) (Int → Bool) := ⟨fun _ => none, isOpen⟩

/-- Standard input, output and error. -/
def standard (fd : Int) : Bool := 0 ≤ fd && fd < 3

namespace Object

variable {inetAddr : Bytes → UInt32} {x x' : Option Object} {op : Op} {calls : List Call}

/-- All that a step can do. -/
inductive Stepped (inetAddr : Bytes → UInt32) : Option Object → Op → Option Object → List Call → Prop where
  | construct {my peer c} (hc : UdpChatChannel.new my peer = .ok c) :
    Stepped inetAddr none (.construct my peer) (some ⟨.ready, .start c, none⟩) []
  | refuse {o} : Stepped inetAddr (some o) .refuse (some o) []
  | makeSend {o fd} (hp : o.point = .ready) :
    Stepped inetAddr (some o) (.makeSend fd)
      (some { o with
        point := .makeRecv
        loop.channel.sendSocket := some (.new inetAddr o.loop.channel.peerPort (some o.loop.channel.peerIp) fd) })
      (.socket fd :: destroyed o.loop.channel.sendSocket)
  | makeRecv {o fd} (hp : o.point = .makeRecv) :
    Stepped inetAddr (some o) (.makeRecv fd)
      (some { o with
        point := .bind
        loop.channel.recvSocket := some (.new inetAddr o.loop.channel.myPort (some o.loop.channel.myIp) fd) })
      (.socket fd :: destroyed o.loop.channel.recvSocket)
  | bind {o r s} (hp : o.point = .bind) (hs : o.loop.channel.recvSocket = some s) :
    Stepped inetAddr (some o) (.bind r)
      (some { o with
        point := if (s.bind r).1 then .startWorker else .bind, loop.channel.recvSocket := some (s.bind r).2 })
      [.bind s.sockfd]
  | startWorker {o t} (hp : o.point = .startWorker) :
    Stepped inetAddr (some o) (.startWorker t)
      (some { o with point := .ready, loop := .start { o.loop.channel with worker := some t } }) []
  | sendMessage {o message r s} (hs : o.loop.channel.sendSocket = some s) :
    Stepped inetAddr (some o) (.sendMessage message r) (some o) [.sendto s.sockfd]
  | setCallbackHandler {o h} :
    Stepped inetAddr (some o) (.setCallbackHandler h)
      (some { o with loop.channel := o.loop.channel.setCallbackHandler h }) []
  | worker {o a loop calls} (hw : o.loop.channel.worker.isSome = true) (ha : aroundReceive a = true)
      (hl : o.loop.step a = some (loop, calls)) :
    Stepped inetAddr (some o) (.worker a) (some { o with loop }) []
  | enter {o s} (hw : o.loop.channel.worker.isSome = true) (hpc : o.loop.pc = .receive) (hn : o.receiving = none)
      (hs : o.loop.channel.recvSocket = some s) :
    Stepped inetAddr (some o) .enter (some { o with receiving := some s.sockfd }) [.recvfrom s.sockfd]
  | leave {o a fd loop calls} (hfd : o.receiving = some fd) (hl : o.loop.step (.recv a) = some (loop, calls)) :
    Stepped inetAddr (some o) (.leave a) (some { o with loop, receiving := none }) [.received fd]
  | stop {o} (hp : o.point = .ready) :
    Stepped inetAddr (some o) .stop (some { o with point := .join, loop.channel.stopWorker := true }) []
  | join {o} (hw : o.loop.channel.worker = none ∨ o.loop.pc = .exited) :
    Stepped inetAddr (some o) .join (some { o with point := .closeRecv }) []
  | closeRecv {o} (hp : o.point = .closeRecv) :
    Stepped inetAddr (some o) .closeRecv (some { o with point := .closeSend, loop.channel.recvSocket := none })
      (destroyed o.loop.channel.recvSocket)
  | closeSend {o} (hp : o.point = .closeSend) :
    Stepped inetAddr (some o) .closeSend none (destroyed o.loop.channel.sendSocket)

theorem step_cases (h : step inetAddr x op = some (x', calls)) : Stepped inetAddr x op x' calls := by
  cases x with
  | none =>
    cases op with
    | construct my peer =>
      simp only [step] at h
      split at h
      · next c hc => cases h; exact .construct hc
      · cases h
    | refuse | makeSend _ | makeRecv _ | bind _ | startWorker _ | sendMessage _ _ | setCallbackHandler _ | worker _
    | enter | leave _ | stop | join | closeRecv | closeSend => cases h
  | some o =>
    cases op with
    | construct my peer => cases h
    | refuse =>
      obtain ⟨-, he⟩ := Option.ite_none_right_eq_some.1 h
      cases he
      exact .refuse
    | makeSend fd =>
      obtain ⟨⟨hp, -⟩, he⟩ := Option.ite_none_right_eq_some.1 h
      cases he
      exact .makeSend hp
    | makeRecv fd =>
      obtain ⟨hp, he⟩ := Option.ite_none_right_eq_some.1 h
      cases he
      exact .makeRecv hp
    | bind r =>
      obtain ⟨hp, h⟩ := Option.ite_none_right_eq_some.1 h
      obtain ⟨s, hs, he⟩ := Option.map_eq_some_iff.1 h
      cases he
      exact .bind hp hs
    | startWorker t =>
      obtain ⟨⟨hp, -⟩, he⟩ := Option.ite_none_right_eq_some.1 h
      cases he
      exact .startWorker hp
    | sendMessage message r =>
      obtain ⟨-, h⟩ := Option.ite_none_right_eq_some.1 h
      obtain ⟨s, hs, h⟩ := Option.bind_eq_some_iff.1 h
      obtain ⟨-, -, he⟩ := Option.bind_eq_some_iff.1 h
      cases he
      exact .sendMessage hs
    | setCallbackHandler h' =>
      obtain ⟨-, he⟩ := Option.ite_none_right_eq_some.1 h
      cases he
      exact .setCallbackHandler
    | worker a =>
      obtain ⟨⟨hw, ha⟩, h⟩ := Option.ite_none_right_eq_some.1 h
      obtain ⟨⟨loop, calls⟩, hl, he⟩ := Option.map_eq_some_iff.1 h
      cases he
      exact .worker hw ha hl
    | enter =>
      obtain ⟨⟨hw, hpc, hn⟩, h⟩ := Option.ite_none_right_eq_some.1 h
      obtain ⟨s, hs, he⟩ := Option.map_eq_some_iff.1 h
      cases he
      exact .enter hw hpc hn hs
    | leave a =>
      obtain ⟨fd, hfd, h⟩ := Option.bind_eq_some_iff.1 h
      obtain ⟨⟨loop, calls⟩, hl, he⟩ := Option.bind_eq_some_iff.1 h
      cases he
      exact .leave hfd hl
    | stop =>
      obtain ⟨hp, he⟩ := Option.ite_none_right_eq_some.1 h
      cases he
      exact .stop hp
    | join =>
      obtain ⟨⟨-, hw⟩, he⟩ := Option.ite_none_right_eq_some.1 h
      cases he
      exact .join hw
    | closeRecv =>
      obtain ⟨hp, he⟩ := Option.ite_none_right_eq_some.1 h
      cases he
      exact .closeRecv hp
    | closeSend =>
      obtain ⟨hp, he⟩ := Option.ite_none_right_eq_some.1 h
      cases he
      exact .closeSend hp

end Object

/-! ## `Initialise`, statement by statement -/

section Initialise

open Object

variable {inetAddr : Bytes → UInt32} {bound : Nat → Bound} {s : UdpSocket} {o : Object} {env : InitEnv} {n : Nat}

/-- The first `n` attempts of `Bind`. -/
def attempts (bound : Nat → Bound) (n : Nat) : List Op := (List.range n).map fun k => .bind (bound k)

theorem attempts_succ (bound : Nat → Bound) (n : Nat) : attempts bound (n + 1) = attempts bound n ++ [.bind (bound n)] := by
  simp [attempts, List.range_succ]

/-- The statements of `Initialise` where the attempt `n` of `Bind` is the last one. -/
def script (env : InitEnv) (n : Nat) : List Op :=
  [.makeSend env.sendFd, .makeRecv env.recvFd] ++ attempts env.bound (n + 1) ++ [.startWorker env.thread]

/-- The socket that `Bind` is called on. -/
def recvSocketOf (inetAddr : Bytes → UInt32) (c : UdpChatChannel Unit) (env : InitEnv) : UdpSocket :=
  .new inetAddr c.myPort (some c.myIp) env.recvFd

/-- A channel with a new sending socket and the receiving socket `s`, inside `Initialise`. -/
def withSockets (inetAddr : Bytes → UInt32) (o : Object) (env : InitEnv) (s : UdpSocket) (p : Point) : Object :=
  { o with
    point := p
    loop.channel.sendSocket := some (.new inetAddr o.loop.channel.peerPort (some o.loop.channel.peerIp) env.sendFd)
    loop.channel.recvSocket := some s }

theorem step_bind {p : Point} (hp : p = .bind) (r : Bound) :
    (object inetAddr).step (some (withSockets inetAddr o env s p)) (.bind r) =
      some (some (withSockets inetAddr o env (s.bind r).2 (if (s.bind r).1 then .startWorker else .bind)),
        [.bind s.sockfd]) := by
  subst hp
  simp [object, step, withSockets]

/-- Attempts one after another: all of them fail, and nothing is different, or the last one succeeds. -/
theorem run_attempts : ∀ {n : Nat} {x : Option Object} {calls : List Call},
    run (object inetAddr) (some (withSockets inetAddr o env s .bind)) (attempts bound n) = some (x, calls) →
      (x = some (withSockets inetAddr o env s .bind) ∧ ∀ k < n, (s.bind (bound k)).1 = false) ∨
      ∃ m, n = m + 1 ∧ (∀ k < m, (s.bind (bound k)).1 = false) ∧ (s.bind (bound m)).1 = true ∧
        x = some (withSockets inetAddr o env (s.bind (bound m)).2 .startWorker) := by
  intro n
  induction n with
  | zero =>
    intro x calls h
    obtain ⟨rfl, -⟩ := run_nil_iff.1 h
    exact .inl ⟨rfl, by simp⟩
  | succ n ih =>
    intro x calls h
    rw [attempts_succ] at h
    obtain ⟨y, _, _, hy, hstep, -⟩ := run_append_iff.1 h
    have hstep := run_one_iff.1 hstep
    rcases ih hy with ⟨rfl, hfail⟩ | ⟨m, rfl, hfail, hok, rfl⟩
    · rw [step_bind rfl] at hstep
      cases hstep
      cases hok : (s.bind (bound n)).1 with
      | true => exact .inr ⟨n, rfl, hfail, hok, rfl⟩
      | false =>
        refine .inl ⟨by simp [UdpSocket.bind_refused hok], fun k hk => ?_⟩
        rcases Nat.lt_succ_iff_lt_or_eq.1 hk with hk | rfl
        · exact hfail k hk
        · exact hok
    · -- behind an attempt that succeeds there is no further one
      simp [object, step, withSockets] at hstep

/-- Attempts that fail can be made, one after another. -/
theorem run_failing : ∀ {n : Nat}, (∀ k < n, (s.bind (bound k)).1 = false) → ∃ calls,
    run (object inetAddr) (some (withSockets inetAddr o env s .bind)) (attempts bound n) =
      some (some (withSockets inetAddr o env s .bind), calls) := by
  intro n
  induction n with
  | zero => exact fun _ => ⟨[], rfl⟩
  | succ n ih =>
    intro hfail
    obtain ⟨calls, hrun⟩ := ih fun k hk => hfail k (Nat.lt_succ_of_lt hk)
    have hn := hfail n (Nat.lt_succ_self n)
    refine ⟨calls ++ [.bind s.sockfd], ?_⟩
    rw [attempts_succ]
    refine run_append_iff.2 ⟨_, calls, _, hrun, run_one_iff.2 ?_, rfl⟩
    rw [step_bind rfl, UdpSocket.bind_refused hn, hn]
    rfl

theorem run_sockets (hp : o.point = .ready) (hopen : o.loop.channel.isOpen = false) (env : InitEnv) : ∃ calls,
    run (object inetAddr) (some o) [.makeSend env.sendFd, .makeRecv env.recvFd] =
      some (some (withSockets inetAddr o env (recvSocketOf inetAddr o.loop.channel env) .bind), calls) :=
  ⟨_, by simp [run, object, step, hp, hopen, withSockets, recvSocketOf]; rfl⟩

theorem step_startWorker (hw : o.loop.channel.worker = none) (s : UdpSocket) :
    (object inetAddr).step (some (withSockets inetAddr o env s .startWorker)) (.startWorker env.thread) =
      some (some ⟨.ready, .start (o.loop.channel.started inetAddr env s), o.receiving⟩, []) := by
  simp [object, step, withSockets, hw, started]

/-- What the statements of `Initialise` leave, and on which outcomes of `Bind` they are all made. -/
theorem run_script_iff (hp : o.point = .ready) (hopen : o.loop.channel.isOpen = false)
    (hw : o.loop.channel.worker = none) {x : Option Object} :
    (∃ calls, run (object inetAddr) (some o) (script env n) = some (x, calls)) ↔ ∃ s,
      (∀ k < n, ((recvSocketOf inetAddr o.loop.channel env).bind (env.bound k)).1 = false) ∧
      (recvSocketOf inetAddr o.loop.channel env).bind (env.bound n) = (true, s) ∧
      x = some ⟨.ready, .start (o.loop.channel.started inetAddr env s), o.receiving⟩ := by
  obtain ⟨calls₁, hsockets⟩ := run_sockets hp hopen env
  constructor
  · rintro ⟨calls, h⟩
    obtain ⟨y, _, _, h, hlast, -⟩ := run_append_iff.1 h
    obtain ⟨z, _, _, h, hbinds, -⟩ := run_append_iff.1 h
    obtain ⟨rfl, -⟩ := run_unique h hsockets
    have hlast := run_one_iff.1 hlast
    rcases run_attempts hbinds with ⟨rfl, -⟩ | ⟨m, hm, hfail, hok, rfl⟩
    · -- the last attempt failed, so the next statement is `Bind` again
      simp [object, step, withSockets] at hlast
    · obtain rfl : n = m := by omega
      rw [step_startWorker hw] at hlast
      cases hlast
      exact ⟨_, hfail, Prod.ext hok rfl, rfl⟩
  · rintro ⟨s, hfail, hok, rfl⟩
    obtain ⟨calls₂, hfailing⟩ := @run_failing inetAddr env.bound _ o env n hfail
    have hbinds : run (object inetAddr) (some (withSockets inetAddr o env (recvSocketOf inetAddr o.loop.channel env) .bind))
        (attempts env.bound (n + 1)) = some (some (withSockets inetAddr o env s .startWorker),
          calls₂ ++ [.bind (recvSocketOf inetAddr o.loop.channel env).sockfd]) := by
      rw [attempts_succ]
      refine run_append_iff.2 ⟨_, _, _, hfailing, run_one_iff.2 ?_, rfl⟩
      rw [step_bind rfl, hok]
      rfl
    exact ⟨_, run_append_iff.2 ⟨_, _, _, run_append_iff.2 ⟨_, _, _, hsockets, hbinds, rfl⟩,
      run_one_iff.2 (step_startWorker hw s), rfl⟩⟩

theorem initialise_iff (hopen : o.loop.channel.isOpen = false) (hw : o.loop.channel.worker = none)
    {c' : UdpChatChannel Unit} : Fuel.Comp.Halts (o.loop.channel.initialise inetAddr env) (.ok (true, c')) ↔
      ∃ s, Fuel.Comp.Halts (bindLoop env.bound 0 (recvSocketOf inetAddr o.loop.channel env)) (.ok s) ∧
        c' = o.loop.channel.started inetAddr env s := by
  unfold initialise
  rw [if_neg (by simp [hopen]), Fuel.Comp.halts_bind_iff]
  constructor
  · rintro (⟨e, -, he⟩ | ⟨s, hs, hrest⟩)
    · cases he
    · exact ⟨s, hs, by simpa [hw, started] using hrest⟩
  · rintro ⟨s, hs, rfl⟩
    exact .inr ⟨s, hs, by simp [hw, started]⟩

/-- **`Initialise`, statement by statement.** Take a channel without a worker. Where its thread makes the
statements of `Initialise`, up to an attempt `n` of `Bind`, in any process and interleaved in any order
with what is done to other channels: the channel is then the one that `Initialise` as a whole comes back
with. And where `Initialise` comes back, some attempt is the last one, and its statements can be made. -/
theorem initialise_in_steps {ι : Type} [DecidableEq ι] (hp : o.point = .ready) (hopen : o.loop.channel.isOpen = false)
    (hw : o.loop.channel.worker = none) (env : InitEnv) :
    (∀ (s s' : Shared ι (Option Object) (Int → Bool)) as out i n, s.part i = some o →
      run (process inetAddr) s as = some (s', out) → ofPart i as = script env n →
        ∃ o', s'.part i = some o' ∧ o'.point = .ready ∧
          Fuel.Comp.Halts (o.loop.channel.initialise inetAddr env) (.ok (true, o'.loop.channel))) ∧
    (∀ c', Fuel.Comp.Halts (o.loop.channel.initialise inetAddr env) (.ok (true, c')) → ∃ n o' calls,
      run (object inetAddr) (some o) (script env n) = some (some o', calls) ∧ o'.point = .ready ∧ o'.loop.channel = c') := by
  constructor
  · intro s s' as out i n hi hrun has
    have hpart := run_part i hrun
    rw [hi, has] at hpart
    obtain ⟨r, hfail, hok, hx⟩ := (run_script_iff hp hopen hw).1 ⟨_, hpart⟩
    exact ⟨_, hx, rfl, (initialise_iff hopen hw).2 ⟨r, bindLoop_iff.2 ⟨n, hfail, hok⟩, rfl⟩⟩
  · intro c' h
    obtain ⟨r, hr, rfl⟩ := (initialise_iff hopen hw).1 h
    obtain ⟨n, hfail, hok⟩ := bindLoop_iff.1 hr
    obtain ⟨calls, hrun⟩ := (run_script_iff hp hopen hw).2 ⟨r, hfail, hok, rfl⟩
    exact ⟨n, _, calls, hrun, rfl, rfl⟩

end Initialise

/-- The statements of `Initialise` on one channel, while another one is made and destroyed. -/
def interleaved : List (Bool × Op) :=
  [(true, .makeSend 3), (false, .construct (lit "127.0.0.1:2001") (lit "127.0.0.1:2000")), (true, .makeRecv 4),
    (true, .bind .refused), (false, .stop), (true, .bind .refused), (true, .bind (.named ⟨0x0100007f, 2000⟩)),
    (false, .join), (true, .startWorker 1)]

set_option maxRecDepth 8000 in
theorem initialise_in_steps_interleaved : ∃ (c : UdpChatChannel Unit) (s' : Shared Bool (Option Object) (Int → Bool)), ∃ out,
    new (lit "127.0.0.1:2000") (lit "127.0.0.1:2001") = .ok c ∧
    run (process loopback) ⟨fun b => if b then some ⟨.ready, .start c, none⟩ else none, standard⟩ interleaved =
      some (s', out) ∧
    ∃ o', s'.part true = some o' ∧ Fuel.Comp.Halts (c.initialise loopback twoSockets) (.ok (true, o'.loop.channel)) := by
  have hrun : ∃ (c : UdpChatChannel Unit) (s' : Shared Bool (Option Object) (Int → Bool)), ∃ out,
      new (lit "127.0.0.1:2000") (lit "127.0.0.1:2001") = .ok c ∧ c.isOpen = false ∧ c.worker = none ∧
      run (process loopback) ⟨fun b => if b then some ⟨.ready, .start c, none⟩ else none, standard⟩ interleaved =
        some (s', out) := ⟨_, _, _, rfl, rfl, rfl, rfl⟩
  obtain ⟨c, s', out, hnew, hopen, hw, hrun⟩ := hrun
  obtain ⟨o', ho', -, hhalts⟩ := (initialise_in_steps (o := ⟨.ready, .start c, none⟩) rfl hopen hw twoSockets).1
    _ _ _ _ true 2 rfl hrun rfl
  exact ⟨c, s', out, hnew, hrun, o', ho', hhalts⟩

end CalcChatter.Chat

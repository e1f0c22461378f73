import CalcChatter.Lib.Ownership
import CalcChatter.Chat.Statements

/-!
# Channels and their descriptors (transport.h:77-204; Chatter.h:84-125)

A socket owns its descriptor from `socket` to `close`, and a channel owns its sockets. `Moved` lists what a
step does to the descriptors of one channel, and `Accounted` keeps those of the process; `descriptors_owned`
is the law over all runs.

It needs `startsOnce`. A channel that got no sending socket is not open though it has a worker, and where
`Initialise` is called on it again, the receiving socket is replaced under that worker
(`closed_while_receiving`).
-/

namespace CalcChatter.Chat

open Cxx Lts Ownership UdpChatChannel

/-- `Initialise` goes on only for a channel that has no worker. -/
def startsOnce {ι : Type} (s : Shared ι (Option Object) (Int → Bool)) : ι × Op → Bool
  | (i, .makeSend _) => (s.part i).all fun o => o.loop.channel.worker.isNone
  | _ => true

namespace Object

variable {inetAddr : Bytes → UInt32} {x x' : Option Object} {op : Op} {calls : List Call}

/-! ## The descriptors of one channel -/

def sockets (c : UdpChatChannel Unit) : List UdpSocket := c.sendSocket.toList ++ c.recvSocket.toList

/-- The descriptors that the sockets of a channel own. -/
def Holds (x : Option Object) (fd : Int) : Prop :=
  fd ≠ invalidSocket ∧ ∃ o, x = some o ∧ fd ∈ (sockets o.loop.channel).map (·.sockfd)

def receivingOn (x : Option Object) : Option Int := x.bind (·.receiving)

structure Sane (o : Object) : Prop where
  unstarted : o.loop.channel.worker = none → (o.point = .ready → sockets o.loop.channel = []) ∧
    (o.point = .makeRecv → o.loop.channel.recvSocket = none)
  starting : o.point = .makeRecv ∨ o.point = .bind ∨ o.point = .startWorker → o.loop.channel.worker = none
  receiving : ∀ fd, o.receiving = some fd → o.loop.channel.worker.isSome = true ∧ o.loop.pc = .receive ∧
    ∃ s, o.loop.channel.recvSocket = some s ∧ s.sockfd = fd
  ended : o.point = .closeRecv ∨ o.point = .closeSend → o.loop.channel.worker = none ∨ o.loop.pc = .exited
  closed : o.point = .closeSend → o.loop.channel.recvSocket = none
  distinct : ∀ s r, o.loop.channel.sendSocket = some s → o.loop.channel.recvSocket = some r →
    s.sockfd = r.sockfd → s.sockfd = invalidSocket

/-- Nothing about the descriptors is different. -/
def SameSockets (o o' : Object) : Prop :=
  o'.loop.channel.sendSocket = o.loop.channel.sendSocket ∧ o'.loop.channel.recvSocket = o.loop.channel.recvSocket ∧
    o'.loop.channel.worker = o.loop.channel.worker

/-- What a step does to the descriptors: the calls, what is held afterwards, and where the worker waits. -/
inductive Moved (x x' : Option Object) : List Call → Prop where
  | still (hh : ∀ fd, Holds x' fd ↔ Holds x fd) (hr : receivingOn x' = receivingOn x) : Moved x x' []
  | opened {fd} (hh : ∀ q, Holds x' q ↔ Holds x q ∨ (q = fd ∧ fd ≠ invalidSocket))
      (hr : receivingOn x' = receivingOn x) : Moved x x' [.socket fd]
  | used {fd c} (hc : c = .bind fd ∨ c = .sendto fd) (hfd : fd = invalidSocket ∨ Holds x fd)
      (hh : ∀ q, Holds x' q ↔ Holds x q) (hr : receivingOn x' = receivingOn x) : Moved x x' [c]
  | entered {fd} (hfd : fd = invalidSocket ∨ Holds x fd) (hh : ∀ q, Holds x' q ↔ Holds x q)
      (hr : receivingOn x = none ∧ receivingOn x' = some fd) : Moved x x' [.recvfrom fd]
  | left {fd} (hfd : fd = invalidSocket ∨ Holds x fd) (hh : ∀ q, Holds x' q ↔ Holds x q)
      (hr : receivingOn x = some fd ∧ receivingOn x' = none) : Moved x x' [.received fd]
  | closed {fd} (hfd : fd = invalidSocket ∨ Holds x fd) (hh : ∀ q, Holds x' q ↔ Holds x q ∧ q ≠ fd)
      (hr : receivingOn x = none ∧ receivingOn x' = none) : Moved x x' [.close fd]

theorem holds_same {o o' : Object} (h : SameSockets o o') (fd : Int) : Holds (some o') fd ↔ Holds (some o) fd := by
  obtain ⟨hs, hr, -⟩ := h
  simp [Holds, sockets, hs, hr]

theorem sameSockets_step {o : Object} {a : Act Unit} {loop : Loop Unit} {calls : List (Unit × Bytes)}
    (h : o.loop.step a = some (loop, calls)) (y : Option Int) (p : Point) : SameSockets o ⟨p, loop, y⟩ := by
  obtain ⟨n, stop, hc⟩ := Loop.step_channel h
  simp [SameSockets, hc]

/-- The statements around `ReceiveMessage` start neither where the worker waits nor behind the loop. -/
theorem pc_aroundReceive {l l' : Loop Unit} {a : Act Unit} {calls : List (Unit × Bytes)} (ha : aroundReceive a = true)
    (h : l.step a = some (l', calls)) : l.pc ≠ .receive ∧ l.pc ≠ .exited := by
  cases Loop.step_cases h with
  | recv _ | setCallbackHandler | stop => cases ha
  | test hpc | count hpc | call hpc | sleep hpc => simp [hpc]

theorem Sane.not_receiving {o : Object} (ho : Sane o) (hw : o.loop.channel.worker = none) (fd : Int) :
    o.receiving ≠ some fd := by
  intro hfd
  obtain ⟨hsome, -⟩ := ho.receiving fd hfd
  simp [hw] at hsome

/-- While the worker is in its loop, the sockets are not being closed. -/
theorem Sane.open_of_running {o : Object} (ho : Sane o) (hw : o.loop.channel.worker.isSome = true)
    (hpc : o.loop.pc ≠ .exited) : ¬ (o.point = .closeRecv ∨ o.point = .closeSend) := by
  intro hp
  rcases ho.ended hp with hnone | hex
  · simp [hnone] at hw
  · exact hpc hex

theorem Sane.open_of_receiving {o : Object} (ho : Sane o) {fd : Int} (hfd : o.receiving = some fd) :
    ¬ (o.point = .closeRecv ∨ o.point = .closeSend) := by
  obtain ⟨hw, hpc, -⟩ := ho.receiving fd hfd
  exact ho.open_of_running hw (by simp [hpc])

theorem sane_step (hs : ∀ o, x = some o → Sane o) (hfresh : ∀ fd, .socket fd ∈ calls → ¬ Holds x fd)
    (honce : ∀ fd o, op = .makeSend fd → x = some o → o.loop.channel.worker = none)
    (h : step inetAddr x op = some (x', calls)) : ∀ o', x' = some o' → Sane o' := by
  rintro o' rfl
  cases step_cases h with
  | @construct my peer c hc =>
    obtain ⟨-, -, hsend, hrecv, hw, -⟩ := new_spec hc
    exact ⟨by simp [sockets, Loop.start, hsend, hrecv], by simp, by simp, by simp, by simp, by simp [Loop.start, hsend]⟩
  | refuse => exact hs _ rfl
  | @makeSend o fd hp =>
    have ho := hs _ rfl
    have hw := honce fd o rfl rfl
    have hnone := (ho.unstarted hw).1 hp
    have hrecv : o.loop.channel.recvSocket = none := by simpa [sockets] using (List.append_eq_nil_iff.1 hnone).2
    refine ⟨fun _ => ⟨by simp, fun _ => hrecv⟩, fun _ => hw, ?_, by simp, by simp, by simp [hrecv]⟩
    exact fun fd' hfd' => absurd hfd' (ho.not_receiving hw fd')
  | @makeRecv o fd hp =>
    have ho := hs _ rfl
    have hw := ho.starting (.inl hp)
    refine ⟨by simp, fun _ => hw, ?_, by simp, by simp, ?_⟩
    · exact fun fd' hfd' => absurd hfd' (ho.not_receiving hw fd')
    · rintro s r hsend hr he
      cases hr
      by_contra hne
      refine hfresh fd (by simp) ⟨fun hfd => hne (he.trans hfd), o, rfl, ?_⟩
      have hsock : s ∈ sockets o.loop.channel := by simp [sockets, show o.loop.channel.sendSocket = some s from hsend]
      exact List.mem_map.2 ⟨s, hsock, he⟩
  | @bind o r s hp hrecv =>
    have ho := hs _ rfl
    have hw := ho.starting (.inr (.inl hp))
    refine ⟨by cases (s.bind r).1 <;> simp, fun _ => hw, ?_, by cases (s.bind r).1 <;> simp,
      by cases (s.bind r).1 <;> simp, ?_⟩
    · exact fun fd' hfd' => absurd hfd' (ho.not_receiving hw fd')
    · rintro s' r' hsend hr' he
      cases hr'
      rw [UdpSocket.bind_sockfd] at he
      exact ho.distinct s' s hsend hrecv he
  | @startWorker o t hp =>
    have ho := hs _ rfl
    have hw := ho.starting (.inr (.inr hp))
    refine ⟨by simp [Loop.start], by simp, ?_, by simp, by simp, ho.distinct⟩
    exact fun fd' hfd' => absurd hfd' (ho.not_receiving hw fd')
  | sendMessage _ => exact hs _ rfl
  | @setCallbackHandler o h' =>
    have ho := hs _ rfl
    exact ⟨ho.unstarted, ho.starting, ho.receiving, ho.ended, ho.closed, ho.distinct⟩
  | @worker o a loop calls hw ha hl =>
    have ho := hs _ rfl
    obtain ⟨hsend, hrecv, hworker⟩ := sameSockets_step hl o.receiving o.point
    obtain ⟨hpc, hpc'⟩ := pc_aroundReceive ha hl
    simp only at hsend hrecv hworker
    refine ⟨?_, by simpa [hworker] using ho.starting, ?_, fun hp => absurd hp (ho.open_of_running hw hpc'),
      by simpa [hrecv] using ho.closed, by simpa [hsend, hrecv] using ho.distinct⟩
    · simpa [sockets, hsend, hrecv, hworker] using ho.unstarted
    · intro fd hfd
      exact absurd (ho.receiving fd hfd).2.1 hpc
  | @enter o s hw hpc hn hrecv =>
    have ho := hs _ rfl
    refine ⟨ho.unstarted, ho.starting, ?_, fun hp => absurd hp (ho.open_of_running hw (by simp [hpc])), ho.closed,
      ho.distinct⟩
    rintro fd hfd
    cases hfd
    exact ⟨hw, hpc, s, hrecv, rfl⟩
  | @leave o a fd loop calls hfd hl =>
    have ho := hs _ rfl
    obtain ⟨hsend, hrecv, hw⟩ := sameSockets_step hl none o.point
    simp only at hsend hrecv hw
    refine ⟨?_, by simpa [hw] using ho.starting, by simp, fun hp => absurd hp (ho.open_of_receiving hfd),
      by simpa [hrecv] using ho.closed, by simpa [hsend, hrecv] using ho.distinct⟩
    simpa [sockets, hsend, hrecv, hw] using ho.unstarted
  | @stop o hp =>
    have ho := hs _ rfl
    exact ⟨by simp, by simp, ho.receiving, by simp, by simp, ho.distinct⟩
  | @join o hw =>
    have ho := hs _ rfl
    exact ⟨by simp, by simp, ho.receiving, fun _ => hw, by simp, ho.distinct⟩
  | @closeRecv o hp =>
    have ho := hs _ rfl
    refine ⟨by simp, by simp, ?_, fun _ => ho.ended (.inl hp), fun _ => rfl, by simp⟩
    intro fd hfd
    exact absurd (.inl hp) (ho.open_of_receiving hfd)

theorem holds_some {o : Object} {fd : Int} : Holds (some o) fd ↔ fd ≠ invalidSocket ∧
    ((∃ s, o.loop.channel.sendSocket = some s ∧ s.sockfd = fd) ∨ ∃ s, o.loop.channel.recvSocket = some s ∧ s.sockfd = fd) := by
  simp [Holds, sockets]

/-- The receiving socket of a channel is open or was not made. -/
theorem holds_recv {o : Object} {s : UdpSocket} (h : o.loop.channel.recvSocket = some s) :
    s.sockfd = invalidSocket ∨ Holds (some o) s.sockfd := by
  by_cases hfd : s.sockfd = invalidSocket
  · exact .inl hfd
  · exact .inr (holds_some.2 ⟨hfd, .inr ⟨s, h, rfl⟩⟩)

theorem holds_send {o : Object} {s : UdpSocket} (h : o.loop.channel.sendSocket = some s) :
    s.sockfd = invalidSocket ∨ Holds (some o) s.sockfd := by
  by_cases hfd : s.sockfd = invalidSocket
  · exact .inl hfd
  · exact .inr (holds_some.2 ⟨hfd, .inl ⟨s, h, rfl⟩⟩)

theorem moved_step (hs : ∀ o, x = some o → Sane o)
    (honce : ∀ fd o, op = .makeSend fd → x = some o → o.loop.channel.worker = none)
    (h : step inetAddr x op = some (x', calls)) : Moved x x' calls := by
  cases step_cases h with
  | @construct my peer c hc =>
    obtain ⟨-, -, hsend, hrecv, -⟩ := new_spec hc
    exact .still (by simp [Holds, sockets, Loop.start, hsend, hrecv]) rfl
  | refuse => exact .still (fun _ => Iff.rfl) rfl
  | @makeSend o fd hp =>
    have hnone := ((hs _ rfl).unstarted (honce fd o rfl rfl)).1 hp
    have hsend : o.loop.channel.sendSocket = none := by simpa [sockets] using (List.append_eq_nil_iff.1 hnone).1
    rw [hsend]
    refine .opened ?_ rfl
    intro q
    simp only [holds_some, hsend, reduceCtorEq, false_and, exists_false, false_or, Option.some.injEq, exists_eq_left']
    constructor
    · rintro ⟨hq, rfl | hq'⟩
      · exact .inr ⟨rfl, hq⟩
      · exact .inl ⟨hq, hq'⟩
    · rintro (⟨hq, hq'⟩ | ⟨rfl, hq⟩)
      · exact ⟨hq, .inr hq'⟩
      · exact ⟨hq, .inl rfl⟩
  | @makeRecv o fd hp =>
    have ho := hs _ rfl
    have hrecv := (ho.unstarted (ho.starting (.inl hp))).2 hp
    rw [hrecv]
    refine .opened ?_ rfl
    intro q
    simp only [holds_some, hrecv, reduceCtorEq, false_and, exists_false, or_false, Option.some.injEq, exists_eq_left']
    constructor
    · rintro ⟨hq, hq' | rfl⟩
      · exact .inl ⟨hq, hq'⟩
      · exact .inr ⟨rfl, hq⟩
    · rintro (⟨hq, hq'⟩ | ⟨rfl, hq⟩)
      · exact ⟨hq, .inl hq'⟩
      · exact ⟨hq, .inr rfl⟩
  | @bind o r s hp hrecv =>
    refine .used (.inl rfl) (holds_recv hrecv) ?_ rfl
    intro q
    simp only [holds_some, hrecv, Option.some.injEq, exists_eq_left', UdpSocket.bind_sockfd]
  | startWorker _ => exact .still (fun _ => by simp [holds_some, Loop.start]) rfl
  | sendMessage hsend => exact .used (.inr rfl) (holds_send hsend) (fun _ => Iff.rfl) rfl
  | setCallbackHandler => exact .still (fun _ => by simp [holds_some, setCallbackHandler]) rfl
  | @worker o a loop calls _ _ hl => exact .still (holds_same (sameSockets_step hl o.receiving o.point)) rfl
  | @enter o s _ _ hn hrecv => exact .entered (holds_recv hrecv) (fun _ => by simp [holds_some]) ⟨hn, rfl⟩
  | @leave o a fd loop calls hfd hl =>
    obtain ⟨-, -, s, hrecv, rfl⟩ := (hs _ rfl).receiving fd hfd
    exact .left (holds_recv hrecv) (holds_same (sameSockets_step hl none o.point)) ⟨hfd, rfl⟩
  | stop _ => exact .still (fun _ => by simp [holds_some]) rfl
  | join _ => exact .still (fun _ => by simp [holds_some]) rfl
  | @closeRecv o hp =>
    have ho := hs _ rfl
    have hnone : o.receiving = none := Option.eq_none_iff_forall_ne_some.2 fun fd hfd => ho.open_of_receiving hfd (.inl hp)
    cases hrecv : o.loop.channel.recvSocket with
    | none => exact .still (fun _ => by simp [holds_some, hrecv]) rfl
    | some s =>
      refine .closed (holds_recv hrecv) ?_ ⟨hnone, hnone⟩
      intro q
      simp only [holds_some, hrecv, reduceCtorEq, false_and, exists_false, or_false, Option.some.injEq, exists_eq_left']
      constructor
      · rintro ⟨hq, r, hr, rfl⟩
        exact ⟨⟨hq, .inl ⟨r, hr, rfl⟩⟩, fun he => hq (ho.distinct r s hr hrecv he)⟩
      · rintro ⟨⟨hq, hr | he⟩, hne⟩
        · exact ⟨hq, hr⟩
        · exact absurd he.symm hne
  | @closeSend o hp =>
    have ho := hs _ rfl
    have hnone : o.receiving = none := Option.eq_none_iff_forall_ne_some.2 fun fd hfd => ho.open_of_receiving hfd (.inr hp)
    have hrecv := ho.closed hp
    cases hsend : o.loop.channel.sendSocket with
    | none => exact .still (fun _ => by simp [Holds, sockets, hsend, hrecv]) (by simp [receivingOn, hnone])
    | some s =>
      refine .closed (holds_send hsend) ?_ ⟨hnone, rfl⟩
      intro q
      have hnot : ¬ Holds none q := fun hq => by obtain ⟨-, o, ho, -⟩ := hq; cases ho
      simp only [hnot, holds_some, hsend, hrecv, reduceCtorEq, false_and, exists_false, or_false, Option.some.injEq,
        exists_eq_left', false_iff]
      rintro ⟨⟨-, he⟩, hne⟩
      exact hne he.symm

end Object

/-! ## The descriptors of the process -/

section Process

open Object

variable {ι : Type} {inetAddr : Bytes → UInt32} {isOpen : Int → Bool}
  {s s' : Shared ι (Option Object) (Int → Bool)} {l : Ledger ι Int} {a : ι × Op} {o : List (ι × Call)} {i : ι}

/-- What a system call is in the life of its descriptor. Calls on -1, which the code makes where `socket` has
failed, are on no descriptor. -/
def Call.events : Call → List (Event Int)
  | .socket fd => if fd = invalidSocket then [] else [.acquire fd]
  | .bind fd => if fd = invalidSocket then [] else [.use fd]
  | .sendto fd => if fd = invalidSocket then [] else [.use fd]
  | .recvfrom fd => if fd = invalidSocket then [] else [.enter fd]
  | .received fd => if fd = invalidSocket then [] else [.leave fd]
  | .close fd => if fd = invalidSocket then [] else [.release fd]

def events (c : ι × Call) : List (ι × Event Int) := c.2.events.map (c.1, ·)

/-- The descriptors have the channels' sockets as their owners, and `isOpen` are those of others. -/
structure Accounted (isOpen : Int → Bool) (s : Shared ι (Option Object) (Int → Bool)) (l : Ledger ι Int) : Prop where
  sane : ∀ i o, s.part i = some o → Sane o
  owner : ∀ fd i, l.owner fd = some i ↔ Holds (s.part i) fd
  busy : ∀ fd, fd ≠ invalidSocket → (l.busy fd = true ↔ ∃ i, receivingOn (s.part i) = some fd)
  table : ∀ fd, fd ≠ invalidSocket → (s.env fd = true ↔ isOpen fd = true ∨ (l.owner fd).isSome = true)
  others : ∀ fd i, l.owner fd = some i → isOpen fd = false

theorem accounted_start (isOpen : Int → Bool) :
    Accounted isOpen (noChannels isOpen : Shared ι (Option Object) (Int → Bool)) .empty := by
  refine ⟨by simp [noChannels], ?_, by simp [noChannels, receivingOn, Ledger.empty], by simp [noChannels, Ledger.empty],
    by simp [Ledger.empty]⟩
  intro fd i
  simp [noChannels, Ledger.empty, Holds]

namespace Accounted

/-- A worker waits on a descriptor of its own channel. -/
theorem waits (h : Accounted isOpen s l) {fd : Int} (hne : fd ≠ invalidSocket)
    (hr : receivingOn (s.part i) = some fd) : l.owner fd = some i := by
  obtain ⟨x, hx, hfd⟩ := Option.bind_eq_some_iff.1 hr
  obtain ⟨-, -, r, hrecv, rfl⟩ := (h.sane i x hx).receiving fd hfd
  rw [h.owner, hx]
  exact (holds_recv hrecv).resolve_left hne

/-- Only the worker of the channel can wait on a descriptor of the channel. -/
theorem idle (h : Accounted isOpen s l) {fd : Int} (hne : fd ≠ invalidSocket) (hfd : Holds (s.part i) fd)
    (hr : receivingOn (s.part i) ≠ some fd) : l.busy fd = false := by
  rw [← Bool.not_eq_true, h.busy fd hne]
  rintro ⟨j, hj⟩
  have hij := ((h.owner fd i).2 hfd).symm.trans (h.waits hne hj)
  cases hij
  exact hr hj

/-- Where the worker waits as before, so it does in the accounts. -/
theorem busy_same (h : Accounted isOpen s l) {x : Option Object}
    (hr : ∀ fd, fd ≠ invalidSocket → (receivingOn x = some fd ↔ receivingOn (s.part i) = some fd)) (fd : Int)
    (hne : fd ≠ invalidSocket) :
    l.busy fd = true ↔ receivingOn x = some fd ∨ (l.busy fd = true ∧ receivingOn (s.part i) ≠ some fd) := by
  rw [hr fd hne]
  constructor
  · exact fun hb => (em _).imp id fun hi => ⟨hb, hi⟩
  · rintro (hi | ⟨hb, -⟩)
    · exact (h.busy fd hne).2 ⟨i, hi⟩
    · exact hb

/-- What `socket` returns is no descriptor of the channel. -/
theorem fresh (h : Accounted isOpen s l) {x : Option Object} {calls : List Call} {env : Int → Bool} {os : List Empty}
    (hm : Moved (s.part i) x calls) (henv : run descriptors s.env calls = some (env, os)) {fd : Int}
    (hfd : .socket fd ∈ calls) : ¬ Holds (s.part i) fd := by
  intro hheld
  cases hm with
  | still _ _ | entered _ _ _ | left _ _ _ | closed _ _ _ => simp at hfd
  | used hc _ _ _ => rcases hc with rfl | rfl <;> simp at hfd
  | opened _ _ =>
    obtain rfl : fd = _ := by simpa using hfd
    have hopen : s.env fd = true := (h.table fd hheld.1).2 (.inr (by simp [(h.owner fd i).2 hheld]))
    have hstep := run_one_iff.1 henv
    simp [descriptors, descriptorStep, hheld.1, hopen] at hstep

variable [DecidableEq ι]

/-- The state after a step of channel `i`, from what is different about its descriptors. -/
theorem change (h : Accounted isOpen s l) {x : Option Object} {env : Int → Bool} {l' : Ledger ι Int}
    (hsane : ∀ o, x = some o → Sane o) (howner : ∀ fd, l'.owner fd = some i ↔ Holds x fd)
    (hothers : ∀ fd j, j ≠ i → (l'.owner fd = some j ↔ l.owner fd = some j))
    (hbusy : ∀ fd, fd ≠ invalidSocket → (l'.busy fd = true ↔ receivingOn x = some fd ∨
      (l.busy fd = true ∧ receivingOn (s.part i) ≠ some fd)))
    (htable : ∀ fd, fd ≠ invalidSocket → (env fd = true ↔ isOpen fd = true ∨ (l'.owner fd).isSome = true))
    (hfree : ∀ fd, Holds x fd → isOpen fd = false) : Accounted isOpen ⟨Function.update s.part i x, env⟩ l' := by
  refine ⟨?_, ?_, ?_, htable, ?_⟩
  · intro j o hj
    by_cases hji : j = i
    · subst hji; exact hsane o (by simpa using hj)
    · exact h.sane j o (by simpa [hji] using hj)
  · intro fd j
    by_cases hji : j = i
    · subst hji; simpa using howner fd
    · simpa [hji, hothers fd j hji] using h.owner fd j
  · intro fd hne
    rw [hbusy fd hne, h.busy fd hne]
    constructor
    · rintro (hx | ⟨⟨j, hj⟩, hi⟩)
      · exact ⟨i, by simpa using hx⟩
      · have hji : j ≠ i := by rintro rfl; exact hi hj
        exact ⟨j, by simpa [hji] using hj⟩
    · rintro ⟨j, hj⟩
      by_cases hji : j = i
      · subst hji; exact .inl (by simpa using hj)
      · have hj : receivingOn (s.part j) = some fd := by simpa [hji] using hj
        refine .inr ⟨⟨j, hj⟩, ?_⟩
        intro hi
        have he := (h.waits hne hi).symm.trans (h.waits hne hj)
        cases he
        exact hji rfl
  · intro fd j hj
    by_cases hji : j = i
    · subst hji; exact hfree fd ((howner fd).1 hj)
    · exact h.others fd j ((hothers fd j hji).1 hj)

/-- A step that opens and closes nothing, and enters and leaves no call. -/
theorem keep (h : Accounted isOpen s l) {x : Option Object} {env : Int → Bool} (hsane : ∀ o, x = some o → Sane o)
    (hh : ∀ fd, fd ≠ invalidSocket → (Holds x fd ↔ Holds (s.part i) fd))
    (hr : ∀ fd, fd ≠ invalidSocket → (receivingOn x = some fd ↔ receivingOn (s.part i) = some fd))
    (henv : ∀ fd, fd ≠ invalidSocket → env fd = s.env fd) : Accounted isOpen ⟨Function.update s.part i x, env⟩ l := by
  have hheld : ∀ fd, Holds x fd ↔ Holds (s.part i) fd := fun fd =>
    ⟨fun hfd => (hh fd hfd.1).1 hfd, fun hfd => (hh fd hfd.1).2 hfd⟩
  refine h.change hsane (fun fd => (h.owner fd i).trans (hheld fd).symm) (fun _ _ _ => Iff.rfl) (h.busy_same hr) ?_
    fun fd hfd => h.others fd i ((h.owner fd i).2 ((hheld fd).1 hfd))
  intro fd hne
  rw [henv fd hne]
  exact h.table fd hne

/-- The worker enters `recvfrom` or comes back from it. -/
theorem turn (h : Accounted isOpen s l) {x : Option Object} {fd : Int} {b : Bool} (hsane : ∀ o, x = some o → Sane o)
    (hh : ∀ q, Holds x q ↔ Holds (s.part i) q) (hne : fd ≠ invalidSocket)
    (hr : receivingOn (s.part i) = (if b then none else some fd) ∧ receivingOn x = if b then some fd else none) :
    Accounted isOpen ⟨Function.update s.part i x, s.env⟩ (l.setBusy fd b) := by
  refine h.change hsane (fun q => (h.owner q i).trans (hh q).symm) (fun _ _ _ => Iff.rfl) ?_ h.table
    fun q hq => h.others q i ((h.owner q i).2 ((hh q).1 hq))
  intro q hq
  obtain ⟨hr, hr'⟩ := hr
  rw [hr, hr']
  by_cases hqfd : q = fd
  · subst hqfd
    cases b <;> simp [Ledger.setBusy]
  · cases b <;> simp [Ledger.setBusy, hqfd, Ne.symm hqfd]

/-- `socket` returns a descriptor that nobody had. -/
theorem opened (h : Accounted isOpen s l) {x : Option Object} {fd : Int} (hsane : ∀ o, x = some o → Sane o)
    (hh : ∀ q, Holds x q ↔ Holds (s.part i) q ∨ (q = fd ∧ fd ≠ invalidSocket))
    (hr : receivingOn x = receivingOn (s.part i)) (hne : fd ≠ invalidSocket) (hfree : s.env fd = false) :
    l.owner fd = none ∧
      Accounted isOpen ⟨Function.update s.part i x, Function.update s.env fd true⟩ (l.setOwner fd (some i)) := by
  have htable := (not_congr (h.table fd hne)).1 (by simp [hfree])
  have hnone : l.owner fd = none := by simpa using fun ho => htable (.inr ho)
  have hnot : ¬ Holds (s.part i) fd := fun hfd => by simp [(h.owner fd i).2 hfd] at hnone
  refine ⟨hnone, h.change hsane ?_ ?_ (h.busy_same fun _ _ => by rw [hr]) ?_ ?_⟩
  · intro q
    by_cases hq : q = fd
    · subst hq; simp [Ledger.setOwner, hh, hne]
    · simp [Ledger.setOwner, hh, hq, h.owner]
  · intro q j hj
    by_cases hq : q = fd
    · subst hq; simp [Ledger.setOwner, hnone, Ne.symm hj]
    · simp [Ledger.setOwner, hq]
  · intro q hq
    by_cases hqfd : q = fd
    · subst hqfd; simp [Ledger.setOwner]
    · simpa [Ledger.setOwner, hqfd] using h.table q hq
  · intro q hq
    rcases (hh q).1 hq with hq | ⟨rfl, -⟩
    · exact h.others q i ((h.owner q i).2 hq)
    · exact Bool.eq_false_iff.2 fun ho => htable (.inl ho)

theorem closed (h : Accounted isOpen s l) {x : Option Object} {fd : Int} (hsane : ∀ o, x = some o → Sane o)
    (hfd : Holds (s.part i) fd) (hh : ∀ q, Holds x q ↔ Holds (s.part i) q ∧ q ≠ fd)
    (hr : receivingOn x = receivingOn (s.part i)) :
    Accounted isOpen ⟨Function.update s.part i x, Function.update s.env fd false⟩ (l.setOwner fd none) := by
  have hown := (h.owner fd i).2 hfd
  refine h.change hsane ?_ ?_ (h.busy_same fun _ _ => by rw [hr]) ?_ ?_
  · intro q
    by_cases hq : q = fd
    · subst hq; simp [Ledger.setOwner, hh]
    · simp [Ledger.setOwner, hh, hq, h.owner]
  · intro q j hj
    by_cases hq : q = fd
    · subst hq; simp [Ledger.setOwner, hown, Ne.symm hj]
    · simp [Ledger.setOwner, hq]
  · intro q hq
    by_cases hqfd : q = fd
    · subst hqfd; simp [Ledger.setOwner, h.others q i hown]
    · simpa [Ledger.setOwner, hqfd] using h.table q hq
  · exact fun q hq => h.others q i ((h.owner q i).2 ((hh q).1 hq).1)

/-- The system calls of a step are accepted, and leave the accounts in order. -/
theorem accept (h : Accounted isOpen s l) {x : Option Object} {calls : List Call} {env : Int → Bool} {os : List Empty}
    (hsane : ∀ o, x = some o → Sane o) (hm : Moved (s.part i) x calls)
    (henv : run descriptors s.env calls = some (env, os)) :
    ∃ l' os, run discipline l ((calls.map (i, ·)).flatMap events) = some (l', os) ∧
      Accounted isOpen ⟨Function.update s.part i x, env⟩ l' := by
  cases hm with
  | still hh hr =>
    obtain ⟨rfl, -⟩ := run_nil_iff.1 henv
    exact ⟨l, [], rfl, h.keep hsane (fun q _ => hh q) (fun _ _ => by rw [hr]) fun _ _ => rfl⟩
  | @opened fd hh hr =>
    have hstep := run_one_iff.1 henv
    by_cases hne : fd = invalidSocket
    · simp only [descriptors, descriptorStep, hne, ↓reduceIte] at hstep
      cases hstep
      exact ⟨l, [], by simp [events, Call.events, hne],
        h.keep hsane (fun q _ => by simpa [hne] using hh q) (fun _ _ => by rw [hr]) fun _ _ => rfl⟩
    · simp only [descriptors, descriptorStep, hne, ↓reduceIte, Option.ite_none_left_eq_some] at hstep
      obtain ⟨hfree, he⟩ := hstep
      cases he
      obtain ⟨hnone, hacc⟩ := h.opened hsane hh hr hne (by simpa using hfree)
      exact ⟨_, [], by simpa [events, Call.events, hne] using accept_acquire hnone, hacc⟩
  | @used fd c hc hfd hh hr =>
    have hcall : env = s.env ∧ events (i, c) = if fd = invalidSocket then [] else [(i, .use fd)] := by
      have hstep := run_one_iff.1 henv
      rcases hc with rfl | rfl <;> cases hstep <;> by_cases hne : fd = invalidSocket <;> simp [events, Call.events, hne]
    obtain ⟨rfl, hev⟩ := hcall
    have hacc := h.keep hsane (fun q _ => hh q) (fun _ _ => by rw [hr]) fun _ _ => rfl
    by_cases hne : fd = invalidSocket
    · exact ⟨l, [], by simp [hev, hne], hacc⟩
    · exact ⟨l, [], by simpa [hev, hne] using accept_use ((h.owner fd i).2 (hfd.resolve_left hne)), hacc⟩
  | @entered fd hfd hh hr =>
    cases run_one_iff.1 henv
    by_cases hne : fd = invalidSocket
    · exact ⟨l, [], by simp [events, Call.events, hne],
        h.keep hsane (fun q _ => hh q) (fun q hq => by simp [hr, hne, Ne.symm hq]) fun _ _ => rfl⟩
    · have hfd := hfd.resolve_left hne
      have henter := accept_enter ((h.owner fd i).2 hfd) (h.idle hne hfd (by simp [hr.1]))
      exact ⟨_, [], by simpa [events, Call.events, hne] using henter, h.turn (b := true) hsane hh hne hr⟩
  | @left fd hfd hh hr =>
    cases run_one_iff.1 henv
    by_cases hne : fd = invalidSocket
    · exact ⟨l, [], by simp [events, Call.events, hne],
        h.keep hsane (fun q _ => hh q) (fun q hq => by simp [hr, hne, Ne.symm hq]) fun _ _ => rfl⟩
    · have hleave := accept_leave ((h.owner fd i).2 (hfd.resolve_left hne)) ((h.busy fd hne).2 ⟨i, hr.1⟩)
      exact ⟨_, [], by simpa [events, Call.events, hne] using hleave, h.turn (b := false) hsane hh hne hr⟩
  | @closed fd hfd hh hr =>
    cases run_one_iff.1 henv
    by_cases hne : fd = invalidSocket
    · exact ⟨l, [], by simp [events, Call.events, hne], h.keep hsane (fun q hq => by simp [hh, hne, hq])
        (fun q _ => by simp [hr]) fun q hq => Function.update_of_ne (hne ▸ hq) _ _⟩
    · have hfd := hfd.resolve_left hne
      have hrelease := accept_release ((h.owner fd i).2 hfd) (h.idle hne hfd (by simp [hr.1]))
      exact ⟨_, [], by simpa [events, Call.events, hne] using hrelease,
        h.closed hsane hfd hh (hr.2.trans hr.1.symm)⟩

theorem step (h : Accounted isOpen s l) (hstep : (guard (process inetAddr) startsOnce).step s a = some (s', o)) :
    ∃ l' os, run discipline l (o.flatMap events) = some (l', os) ∧ Accounted isOpen s' l' := by
  obtain ⟨honce, hstep⟩ := guard_step.1 hstep
  obtain ⟨x, calls, env, os, hx, henv, rfl, rfl⟩ := shared_step hstep
  have honce : ∀ fd o, a.2 = .makeSend fd → s.part a.1 = some o → o.loop.channel.worker = none := by
    intro fd o ha ho
    obtain ⟨i, op⟩ := a
    cases ha
    simpa [startsOnce, ho] using honce
  have hm := moved_step (fun o => h.sane a.1 o) honce hx
  exact h.accept (sane_step (fun o => h.sane a.1 o) (fun fd hfd => h.fresh hm henv hfd) honce hx) hm henv

end Accounted

/-- The calls that return or close `fd` are its acquisitions and releases. -/
theorem count_events {fd : Int} (hne : fd ≠ invalidSocket) (out : List (ι × Call)) :
    (out.flatMap events).countP (acquires fd) = out.countP (fun c => c.2 = .socket fd) ∧
    (out.flatMap events).countP (releases fd) = out.countP (fun c => c.2 = .close fd) := by
  induction out with
  | nil => simp
  | cons c out ih =>
    obtain ⟨i, c⟩ := c
    rw [List.flatMap_cons, List.countP_append, List.countP_append, ih.1, ih.2, List.countP_cons, List.countP_cons]
    cases c with
    | socket q | close q =>
      by_cases hq : q = invalidSocket
      · simp [events, Call.events, hq, Ne.symm hne]
      · by_cases hqfd : q = fd
        · subst hqfd
          simp [events, Call.events, hq, acquires, releases, Nat.add_comm]
        · simp [events, Call.events, hq, hqfd, acquires, releases]
    | bind q | sendto q | recvfrom q | received q =>
      by_cases hq : q = invalidSocket <;> simp [events, Call.events, hq, acquires, releases]

/-- **Every descriptor has one owner and is closed once.** In every interleaving of any number of channels
and their workers, whatever the system calls come back with, if no channel with a worker is initialised
again: every system call, except those on -1 where `socket` has failed, is on a descriptor that `socket` gave
to a socket of the same channel and that was not closed since, and none is closed while a worker waits in `recvfrom` on it. What a channel holds is
open and is held by no other one; and once all channels are destroyed the process has the descriptors that
it had before, and has closed each one as often as `socket` returned it. -/
theorem descriptors_owned [DecidableEq ι] {as : List (ι × Op)} {out : List (ι × Call)}
    (hrun : run (guard (process inetAddr) startsOnce) (noChannels isOpen) as = some (s, out)) :
    (∃ l os, run discipline .empty (out.flatMap events) = some (l, os)) ∧
    (∀ i fd, Holds (s.part i) fd → s.env fd = true ∧ isOpen fd = false ∧ ∀ j, Holds (s.part j) fd → j = i) ∧
    ((∀ i, s.part i = none) → ∀ fd, fd ≠ invalidSocket → s.env fd = isOpen fd ∧
      out.countP (fun c => c.2 = .socket fd) = out.countP (fun c => c.2 = .close fd)) := by
  obtain ⟨l, os, hl, hacc⟩ := run_observed events (Accounted isOpen) (fun _ _ _ _ _ h hstep => h.step hstep)
    (accounted_start isOpen) hrun
  refine ⟨⟨l, os, hl⟩, ?_, ?_⟩
  · intro i fd hfd
    have hown := (hacc.owner fd i).2 hfd
    refine ⟨(hacc.table fd hfd.1).2 (.inr (by simp [hown])), hacc.others fd i hown, ?_⟩
    intro j hj
    simpa [hown] using ((hacc.owner fd j).2 hj).symm
  · intro hgone fd hne
    have hnone : l.owner fd = none := by
      refine Option.eq_none_iff_forall_ne_some.2 fun i hi => ?_
      obtain ⟨-, o, ho, -⟩ := (hacc.owner fd i).1 hi
      rw [hgone i] at ho
      cases ho
    constructor
    · exact Bool.eq_iff_iff.2 (by simpa [hnone] using hacc.table fd hne)
    · obtain ⟨hacq, hrel⟩ := count_events hne out
      have hbal := run_balance hl fd
      rw [hacq, hrel] at hbal
      simpa [Ledger.held, Ledger.empty, hnone] using hbal

/-- `socket` fails for the sending socket, and the channel is initialised again while its worker waits in
`recvfrom`. -/
def reinitialised : List (Unit × Op) :=
  [.construct (lit "127.0.0.1:2000") (lit "127.0.0.1:2001"), .makeSend invalidSocket, .makeRecv 3,
    .bind (.named ⟨0x0100007f, 2000⟩), .startWorker 1, .worker .test, .enter, .makeSend 4, .makeRecv 5].map ((), ·)

set_option maxRecDepth 8000 in
/-- Without the condition, a descriptor is closed while the worker waits on it. -/
theorem closed_while_receiving : ∃ s out, run (process loopback) (noChannels standard) reinitialised = some (s, out) ∧
    out.getLast? = some ((), .close 3) ∧ run discipline .empty (out.flatMap events) = none := ⟨_, _, rfl, rfl, rfl⟩

/-- The lives of two channels, interleaved; the second one is never initialised. -/
def life : List (Bool × Op) :=
  [(true, .construct (lit "127.0.0.1:2000") (lit "127.0.0.1:2001")), (true, .makeSend 3),
    (false, .construct (lit "127.0.0.1:2001") (lit "127.0.0.1:2000")), (true, .makeRecv 4), (true, .bind .refused),
    (false, .stop), (true, .bind (.named ⟨0x0100007f, 2000⟩)), (true, .startWorker 1), (true, .worker .test),
    (true, .enter), (true, .sendMessage (lit "hi") .error), (true, .stop), (false, .join), (false, .closeRecv),
    (true, .leave .error), (true, .worker .sleep), (false, .closeSend), (true, .worker .test), (true, .join),
    (true, .closeRecv), (true, .closeSend)]

set_option maxRecDepth 8000 in
theorem descriptors_owned_life : ∃ s out,
    run (guard (process loopback) startsOnce) (noChannels standard) life = some (s, out) ∧
    ∀ fd, fd ≠ invalidSocket → s.env fd = standard fd ∧
      out.countP (fun c => c.2 = .socket fd) = out.countP (fun c => c.2 = .close fd) := by
  have hrun : ∃ s out, run (guard (process loopback) startsOnce) (noChannels standard) life = some (s, out) ∧
      ∀ i, s.part i = none := ⟨_, _, rfl, fun i => by cases i <;> rfl⟩
  obtain ⟨s, out, hrun, hgone⟩ := hrun
  exact ⟨s, out, hrun, (descriptors_owned hrun).2.2 hgone⟩

end Process

end CalcChatter.Chat

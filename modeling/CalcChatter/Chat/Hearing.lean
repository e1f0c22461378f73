import CalcChatter.Chat.Applications
import CalcChatter.Chat.Crowd

/-!
# Who hears whom (Chatter.h:134-169; wxChatterApp.cpp:115-151)

Users see texts of those that send to them, and of nobody else (`heard_said`). Here is the converse: from every
state a user whose worker runs can be made to see a text of anyone who sends there. `crowd_hears` is the law for
any number of windows.

A session is a crowd of two (`session_step`), so the law holds for two applications as well, whether they were
given each other's endpoints or not: `applications_hear`.
-/

namespace CalcChatter.Chat

open Cxx Lts UdpChatChannel

variable {inetAddr : Bytes → UInt32}

/-! ## Whoever is spoken to can hear -/

/-- The statements that the worker takes up to the next `ReceiveMessage`. -/
def catchingUp (_ : Side) : SideAct → Bool
  | .worker (.recv _) => false
  | .worker _ => true
  | _ => false

/-- The same window, with its worker still running. -/
structure CaughtUp (x y : Side) : Prop where
  running : y.loop.channel.stopWorker = false ∧ y.loop.pc ≠ .exited
  ends : Session.SameEnds x.loop.channel y.loop.channel

section Windows

variable {x y : Side}

theorem entries_outputs (calls : List (Unit × Bytes)) : ∀ e ∈ Side.entries calls, ∃ entry, e = .output entry := by
  intro e he
  obtain ⟨call, -, rfl⟩ := List.mem_map.1 he
  exact ⟨_, rfl⟩

theorem catching_step {y' : Side} {a : SideAct} {o : List (Traffic Datagram Entry)} (hy : CaughtUp x y)
    (h : (guard (side inetAddr) catchingUp).step y a = some (y', o)) :
    CaughtUp x y' ∧ Session.toReceive y'.loop.pc < Session.toReceive y.loop.pc := by
  obtain ⟨hcatch, hstep⟩ : catchingUp y a = true ∧ y.step inetAddr a = some (y', o) := guard_step.1 h
  have hends := sameEnds_trans hy.ends (Side.step_channel hstep)
  cases Side.step_cases hstep with
  | @worker act loop calls ha hs =>
    have hrecv : ∀ a, act ≠ .recv a := by
      rintro a rfl
      cases hcatch
    exact ⟨⟨Side.running_step hy.running hstep, hends⟩, Session.nearer_step hy.running.1 ha hrecv hs⟩
  | type | beginSend | endSend _ _ | deliver _ _ | lose | duplicate => cases hcatch

theorem catching_goes_on (hy : CaughtUp x y) (hpc : y.loop.pc ≠ .receive) :
    ∃ a r, (guard (side inetAddr) catchingUp).step y a = some r := by
  have hgo : ∀ (act : Act Unit), Session.onItsOwn act = true → catchingUp y (.worker act) = true →
      (∃ r, y.loop.step act = some r) → ∃ a r, (guard (side inetAddr) catchingUp).step y a = some r := by
    rintro act ha hcatch ⟨r, hr⟩
    exact ⟨.worker act, _, guard_step.2 ⟨hcatch, by simp [side, Side.step, ha, Side.workerStep, hr]; exact ⟨rfl, rfl⟩⟩⟩
  cases hp : y.loop.pc with
  | head => exact hgo .test rfl rfl ⟨_, if_pos hp⟩
  | receive => exact absurd hp hpc
  | count => exact hgo .count rfl rfl ⟨_, if_pos hp⟩
  | call => exact hgo .call rfl rfl ⟨_, if_pos hp⟩
  | sleep => exact hgo .sleep rfl rfl ⟨_, if_pos hp⟩
  | exited => exact absurd hp hy.running.2

/-- Meanwhile the window has nothing to do with the network. -/
theorem catching_outputs {acts : List SideAct} {es : List (Traffic Datagram Entry)}
    (h : run (guard (side inetAddr) catchingUp) x acts = some (y, es)) : ∀ e ∈ es, ∃ entry, e = .output entry := by
  refine run_induction (fun _ _ es => ∀ e ∈ es, ∃ entry, e = .output entry) (by simp) ?_ h
  intro _ t es a t' o _ hes hstep e he
  rcases List.mem_append.1 he with he | he
  · exact hes e he
  · obtain ⟨hcatch, hstep⟩ := guard_step.1 hstep
    cases Side.step_cases hstep with
    | worker _ _ => exact entries_outputs _ e he
    | type | beginSend | endSend _ _ | deliver _ _ | lose | duplicate => cases hcatch

/-- A worker that runs comes to its next `ReceiveMessage`. -/
theorem catch_up (inetAddr : Bytes → UInt32) (hx : x.loop.channel.stopWorker = false ∧ x.loop.pc ≠ .exited) :
    ∃ acts y es, run (side inetAddr) x acts = some (y, es) ∧ (∀ e ∈ es, ∃ entry, e = .output entry) ∧
      CaughtUp x y ∧ y.loop.pc = .receive := by
  obtain ⟨acts, y, es, hrun, hy, hpc⟩ := run_completes (m := guard (side inetAddr) catchingUp)
    (fun y => y.loop.pc = .receive) (fun _ _ _ _ => catching_step) (fun _ => catching_goes_on)
    ⟨hx, Session.sameEnds_refl _⟩
  exact ⟨acts, y, es, run_guard hrun, catching_outputs hrun, hy, hpc⟩

/-- What a channel needs to send: an open socket. -/
def Talks (c : UdpChatChannel Unit) : Prop := ∃ s, c.sendSocket = some s ∧ s.isOpen = true

/-- Whatever is being sent, `OnSendCommand` comes to its end. -/
theorem finish_sending (inetAddr : Bytes → UInt32) {sock : UdpSocket} (hs : x.loop.channel.sendSocket = some sock) :
    ∃ acts y, run (side inetAddr) x acts = some (y, []) ∧ y.sending = none ∧ y.loop = x.loop := by
  cases hsending : x.sending with
  | none => exact ⟨[], x, rfl, hsending, rfl⟩
  | some msg =>
    have hsent : x.loop.channel.sendMessage inetAddr msg .error = some none := by
      simp [sendMessage, hs, UdpSocket.sendTo, UdpSocket.sendToAddr, sendto]
    refine ⟨[.endSend .error], { x with view := x.view.setMessage [], sending := none }, run_one_iff.2 ?_, rfl, rfl⟩
    simp [side, Side.step, hsending, endSend, hsent]

/-- A user can write a text and send it. -/
theorem say (inetAddr : Bytes → UInt32) {c : UdpChatChannel Unit} (hc : Talks c)
    (hx : Session.SameEnds c x.loop.channel) (m : Bytes) (hm : m.length + 1 ≤ maxPayload) : ∃ acts y d,
      run (side inetAddr) x acts = some (y, [.output ⟨true, m ++ [ch '\n']⟩, .send d]) ∧ y.loop = x.loop ∧
        d.payload = m ++ [ch '\n'] ∧ target inetAddr c = some d.dst := by
  obtain ⟨sock, hs, hopen⟩ := hc
  have hsock : x.loop.channel.sendSocket = some sock := by
    obtain ⟨n, stop, hn⟩ := hx
    rw [hn]
    exact hs
  obtain ⟨acts, y, hrun, hidle, hloop⟩ := finish_sending inetAddr hsock
  have hleaves : (sock.sendTo inetAddr x.loop.channel.peerIp (m ++ [ch '\n']) (.success ⟨0, 0⟩)).2 ≠ none := by
    rw [Ne, UdpSocket.sendTo_none_iff]
    rintro (h | h | h)
    · cases h
    · simp [UdpSocket.isOpen, h] at hopen
    · rw [List.length_append, List.length_singleton] at h
      omega
  obtain ⟨d, hsent⟩ := Option.ne_none_iff_exists'.1 hleaves
  have hd : y.loop.channel.sendMessage inetAddr (m ++ [ch '\n']) (.success ⟨0, 0⟩) = some (some d) := by
    simp [sendMessage, hloop, hsock, hsent]
  obtain ⟨hpayload, -, sock', hsock', hdst⟩ := sendMessage_datagram hd
  obtain ⟨z, hz, hzloop⟩ : ∃ z, run (side inetAddr) y [.type m, .beginSend, .endSend (.success ⟨0, 0⟩)] =
      some (z, [.output ⟨true, m ++ [ch '\n']⟩, .send d]) ∧ z.loop = y.loop := by
    simp [run, side, Side.step, hidle, Chat.beginSend, ChatterView.getMessage, ChatterView.setMessage, endSend, hd]
  refine ⟨_, z, d, run_append_iff.2 ⟨y, [], _, hrun, hz, rfl⟩, hzloop.trans hloop, hpayload, ?_⟩
  rw [← (target_sameEnds inetAddr hx).1, target, ← hloop, hsock', hdst, Option.map_some]

/-- What a channel needs to hear: the presenter as its handler, and a worker that nobody has stopped. -/
structure Listens (c : UdpChatChannel Unit) : Prop where
  handler : c.callbackHandler = some ()
  running : c.stopWorker = false

/-- A worker in `ReceiveMessage` receives what arrives for it and hands it over. -/
theorem hear (inetAddr : Bytes → UInt32) {c : UdpChatChannel Unit} (hc : Listens c)
    (hx : Session.SameEnds c x.loop.channel) (hpc : x.loop.pc = .receive) {d : Datagram} (hd : d.payload ≠ [])
    (hb : c.recvSocket.map (·.endpoint) = some d.dst) (i : Nat) : ∃ acts y,
      run (side inetAddr) x acts = some (y, [.take i d, .output ⟨false, shown d.payload⟩]) := by
  have hh : x.loop.channel.callbackHandler = some () := by
    obtain ⟨n, stop, hn⟩ := hx
    rw [hn]
    exact hc.handler
  rw [← (target_sameEnds inetAddr hx).2] at hb
  have hbound : x.bound = some d.dst := hb
  obtain ⟨recv, hrecv, -⟩ := Option.map_eq_some_iff.1 hb
  have hgot := receiveMessage_eq hrecv x.loop.buffer (.datagram d)
  simp only [message, hd, ↓reduceIte, Option.isSome_some, Option.getD_some] at hgot
  refine ⟨[.deliver i d, .worker .count, .worker .call], ?_⟩
  simp [run, side, Side.step, hbound, Side.workerStep, Side.entries, Loop.step, hpc, hgot, Session.onItsOwn, hh, shown]

end Windows

section Crowd

variable {ι : Type} [DecidableEq ι] {channel : ι → UdpChatChannel Unit} {acts : List (ι × SideAct)}
  {s : Shared ι Side (List Datagram)} {out : List (ι × Traffic Datagram Entry)}

theorem run_running (h : run (crowd inetAddr) (crowdStart channel) acts = some (s, out)) {b : ι}
    (hb : (channel b).stopWorker = false) :
    (s.part b).loop.channel.stopWorker = false ∧ (s.part b).loop.pc ≠ .exited :=
  run_invariant (fun x : Side => x.loop.channel.stopWorker = false ∧ x.loop.pc ≠ .exited)
    (fun _ _ _ _ hx hstep => Side.running_step hx hstep) ⟨hb, by simp [crowdStart, Side.start, Loop.start]⟩ (run_part b h)

/-- The worker of `b` comes to wait. -/
theorem crowd_waits (h : run (crowd inetAddr) (crowdStart channel) acts = some (s, out)) {b : ι}
    (hb : (channel b).stopWorker = false) :
    ∃ as t os, run (crowd inetAddr) s as = some (t, os) ∧ (t.part b).loop.pc = .receive := by
  obtain ⟨as, x, es, hrun, hes, -, hpc⟩ := catch_up inetAddr (run_running h hb)
  exact ⟨_, _, _, run_among hrun (run_outputs s.env hes), by simpa using hpc⟩

/-- The user of `c` says something; the workers are where they were. -/
theorem crowd_says (h : run (crowd inetAddr) (crowdStart channel) acts = some (s, out)) {c : ι} (hc : Talks (channel c))
    (m : Bytes) (hm : m.length + 1 ≤ maxPayload) : ∃ as t d,
      run (crowd inetAddr) s as = some (t, [(c, .output ⟨true, m ++ [ch '\n']⟩), (c, .send d)]) ∧
        t.env = s.env ++ [d] ∧ (∀ b, (t.part b).loop = (s.part b).loop) ∧ d.payload = m ++ [ch '\n'] ∧
          target inetAddr (channel c) = some d.dst := by
  obtain ⟨as, x, d, hrun, hloop, hpayload, htarget⟩ := say inetAddr hc (run_honest h c).ends m hm
  have hnet : run network s.env [.output (⟨true, m ++ [ch '\n']⟩ : Entry), .send d] = some (s.env ++ [d], []) := rfl
  refine ⟨_, _, d, run_among hrun hnet, rfl, ?_, hpayload, htarget⟩
  intro b
  by_cases hb : b = c
  · subst hb
    simpa using hloop
  · simp [hb]

/-- The worker of `b` takes the last datagram in flight. -/
theorem crowd_receives (h : run (crowd inetAddr) (crowdStart channel) acts = some (s, out)) {b : ι}
    (hb : Listens (channel b)) (hpc : (s.part b).loop.pc = .receive) {flight : List Datagram} {d : Datagram}
    (henv : s.env = flight ++ [d]) (hd : d.payload ≠ []) (hdst : (channel b).recvSocket.map (·.endpoint) = some d.dst) :
    ∃ as t os, run (crowd inetAddr) s as = some (t, os) ∧ (b, .output ⟨false, shown d.payload⟩) ∈ os := by
  obtain ⟨as, x, hrun⟩ := hear inetAddr hb (run_honest h b).ends hpc hd hdst flight.length
  have hnet : run network s.env [.take flight.length d, .output (⟨false, shown d.payload⟩ : Entry)] = some (flight, []) := by
    simp [run, network, henv, List.eraseIdx_append_of_length_le]
  exact ⟨_, _, _, run_among hrun hnet, by simp⟩

/-- From every state, a text of `c` can come to be shown to `b`. -/
theorem can_be_heard (h : run (crowd inetAddr) (crowdStart channel) acts = some (s, out)) {b c : ι}
    (hroute : Routed inetAddr (channel c) (channel b)) (hc : Talks (channel c)) (hb : Listens (channel b)) (m : Bytes)
    (hm : m.length + 1 ≤ maxPayload) : ∃ acts' s' out', run (crowd inetAddr) s acts' = some (s', out') ∧
      (c, .output ⟨true, m ++ [ch '\n']⟩) ∈ out' ∧ (b, .output ⟨false, shown (m ++ [ch '\n'])⟩) ∈ out' := by
  obtain ⟨as₁, s₁, out₁, h₁, hpc⟩ := crowd_waits h hb.running
  have hrun₁ := run_append_iff.2 ⟨s, out, out₁, h, h₁, rfl⟩
  obtain ⟨as₂, s₂, d, h₂, henv, hloop, hpayload, htarget⟩ := crowd_says hrun₁ hc m hm
  have hrun₂ := run_append_iff.2 ⟨s₁, _, _, hrun₁, h₂, rfl⟩
  obtain ⟨e, he, hbound⟩ := hroute
  obtain rfl : e = d.dst := Option.some.inj (he.symm.trans htarget)
  obtain ⟨as₃, s₃, out₃, h₃, hshown⟩ := crowd_receives hrun₂ hb (by rw [hloop b, hpc]) henv (by simp [hpayload]) hbound
  refine ⟨_, s₃, _, run_append_iff.2 ⟨s₁, _, _, h₁, run_append_iff.2 ⟨s₂, _, _, h₂, h₃, rfl⟩, rfl⟩, by simp, ?_⟩
  rw [← hpayload]
  simp [hshown]

end Crowd

/-- Two windows that send to the third one, which sends to itself. -/
def trio (i : Fin 3) : UdpChatChannel Unit where
  callbackHandler := some ()
  myIp := lit "127.0.0.1"
  myPort := 2000 + .ofNat i
  peerIp := lit "127.0.0.1"
  peerPort := 2002
  sendSocket := some ⟨⟨0x0100007f, 2002⟩, 3⟩
  recvSocket := some ⟨⟨0x0100007f, 2000 + .ofNat i⟩, 4⟩
  worker := some 1
  receivedMessageCount := 0
  stopWorker := false

theorem placed_trio : Placed loopback trio where
  target c e h := by
    cases h
    exact ⟨by decide +revert, by decide +revert, by decide +revert⟩
  own b s h := by
    cases h
    exact ⟨by decide +revert, by decide +revert, by decide +revert⟩
  apart b b' s s' h h' he := by
    cases h
    cases h'
    revert b b'
    decide

/-- The first one says `hi`. -/
def hiDatagram : Datagram := ⟨⟨0x0100007f, 4000⟩, ⟨0x0100007f, 2002⟩, lit "hi\n"⟩

def hiInTrio : List (Fin 3 × SideAct) :=
  [(0, .type (lit "hi")), (0, .beginSend), (0, .endSend (.success ⟨0x0100007f, 4000⟩)), (2, .worker .test),
    (2, .deliver 0 hiDatagram), (2, .worker .count), (2, .worker .call)]

/-- The string that is appended to a view, if one is. -/
def lineOf : Bool × Traffic Datagram Entry → Option Line
  | (b, .output e) => some ⟨b, e.own, e.text⟩
  | _ => none

theorem lines_entries (b : Bool) (calls : List (Unit × Bytes)) :
    ((Side.entries calls).map (b, ·)).filterMap lineOf = Session.callLines b calls := by
  simp [Side.entries, Session.callLines, List.filterMap_map, Function.comp_def, lineOf]

/-- What a side does, it does in the crowd, if the network lets it. -/
theorem crowd_step {s : Session} {b : Bool} {a : SideAct} {x : Side} {traffic : List (Traffic Datagram Entry)}
    {flight : List Datagram} (hstep : (s.side b).step inetAddr a = some (x, traffic))
    (hnet : run network s.flight traffic = some (flight, [])) :
    (crowd inetAddr).step ⟨s.side, s.flight⟩ (b, a) = some (⟨(s.set b x).side, flight⟩, traffic.map (b, ·)) := by
  have hfun : (s.set b x).side = Function.update s.side b x := by
    ext c : 1
    by_cases hc : c = b
    · simp [hc]
    · simp [hc]
  rw [hfun]
  exact step_among (m := side inetAddr) (e := network) (s := ⟨s.side, s.flight⟩) hstep hnet

/-- What happens on the network, some side brings about without doing anything itself. -/
theorem crowd_network {s : Session} {a : SideAct} {traffic : Traffic Datagram Entry} {flight : List Datagram}
    (hstep : (s.side true).step inetAddr a = some (s.side true, [traffic]))
    (hnet : network.step s.flight traffic = some (flight, [])) :
    (crowd inetAddr).step ⟨s.side, s.flight⟩ (true, a) = some (⟨s.side, flight⟩, [(true, traffic)]) := by
  have hset := crowd_step hstep (run_one_iff.2 hnet)
  have hself : (s.set true (s.side true)).side = s.side := by
    ext c : 1
    cases c <;> simp
  rw [hself] at hset
  exact hset

/-- The worker of a side is the worker of a window. -/
theorem worker_of_session {s s' : Session} {b : Bool} {act : Act Unit} {o : List Line}
    (h : s.workerStep b act = some (s', o)) : ∃ x calls, (s.side b).workerStep act = some (x, Side.entries calls) ∧
      s' = ⟨(s.set b x).side, s.flight⟩ ∧ o = Session.callLines b calls := by
  obtain ⟨⟨loop, calls⟩, hl, he⟩ := Option.map_eq_some_iff.1 h
  cases he
  exact ⟨_, calls, by rw [Side.workerStep, hl]; rfl, rfl, rfl⟩

theorem session_step {s s' : Session} {a : ChatAct} {o : List Line} (h : s.step inetAddr a = some (s', o)) :
    ∃ a' o', (crowd inetAddr).step ⟨s.side, s.flight⟩ a' = some (⟨s'.side, s'.flight⟩, o') ∧ o'.filterMap lineOf = o := by
  cases a with
  | type b message =>
    obtain ⟨hs, he⟩ := Option.ite_none_right_eq_some.1 h
    cases he
    exact ⟨(b, .type message), _, crowd_step (if_pos hs) rfl, rfl⟩
  | beginSend b =>
    obtain ⟨hs, he⟩ := Option.ite_none_right_eq_some.1 h
    cases he
    exact ⟨(b, .beginSend), _, crowd_step (if_pos hs) rfl, rfl⟩
  | endSend b r =>
    obtain ⟨msg, hm, h⟩ := Option.bind_eq_some_iff.1 h
    obtain ⟨⟨view, sent⟩, hv, he⟩ := Option.bind_eq_some_iff.1 h
    cases he
    have hstep : (s.side b).step inetAddr (.endSend r) =
        some ({ s.side b with view, sending := none }, sent.toList.map .send) := by simp [Side.step, hm, hv]
    cases sent with
    | none => exact ⟨_, _, crowd_step hstep (by simp), rfl⟩
    | some d => exact ⟨_, _, crowd_step hstep rfl, rfl⟩
  | worker b act =>
    obtain ⟨ha, hw⟩ := Option.ite_none_right_eq_some.1 h
    obtain ⟨x, calls, hx, rfl, rfl⟩ := worker_of_session hw
    have hstep : (s.side b).step inetAddr (.worker act) = some (x, Side.entries calls) := by rw [Side.step, if_pos ha, hx]
    exact ⟨_, _, crowd_step hstep (run_outputs _ (entries_outputs calls)), lines_entries b calls⟩
  | deliver b i =>
    simp only [Session.step] at h
    split at h
    · cases h
    · next d hi =>
      obtain ⟨hb, hw⟩ := Option.ite_none_right_eq_some.1 h
      obtain ⟨x, calls, hx, rfl, rfl⟩ := worker_of_session hw
      have hstep : (s.side b).step inetAddr (.deliver i d) = some (x, .take i d :: Side.entries calls) := by
        have hbound : (s.side b).bound = some d.dst := hb
        have hwork : (s.side b).workerStep (.recv (.datagram d)) = some (x, Side.entries calls) := hx
        simp [Side.step, hbound, hwork]
      have hnet : run network s.flight (.take i d :: Side.entries calls) = some (s.flight.eraseIdx i, []) :=
        run_cons_iff.2 ⟨_, _, _, if_pos hi, run_outputs _ (entries_outputs calls), rfl⟩
      exact ⟨_, _, crowd_step hstep hnet, lines_entries b calls⟩
  | lose i =>
    obtain ⟨hi, he⟩ := Option.ite_none_right_eq_some.1 h
    cases he
    exact ⟨(true, .lose i), _, crowd_network rfl (if_pos hi), rfl⟩
  | duplicate i =>
    obtain ⟨d, hi, he⟩ := Option.map_eq_some_iff.1 h
    cases he
    exact ⟨(true, .duplicate i), _, crowd_network rfl (by simp [network, hi]), rfl⟩

section Sessions

variable {channel : Bool → UdpChatChannel Unit} {acts : List ChatAct} {s : Session} {out : List Line}

theorem run_session_in_crowd (h : run (chat inetAddr) (Session.start channel) acts = some (s, out)) : ∃ acts' out',
    run (crowd inetAddr) (crowdStart channel) acts' = some (⟨s.side, s.flight⟩, out') ∧ out'.filterMap lineOf = out := by
  refine run_induction (fun _ s out => ∃ acts' out', run (crowd inetAddr) (crowdStart channel) acts' =
    some (⟨s.side, s.flight⟩, out') ∧ out'.filterMap lineOf = out) ⟨[], [], rfl, rfl⟩ ?_ h
  rintro _ t _ a t' o - ⟨acts', out', hrun, rfl⟩ hstep
  obtain ⟨a', o', ha', rfl⟩ := session_step hstep
  exact ⟨acts' ++ [a'], out' ++ o', run_append_iff.2 ⟨_, out', o', hrun, run_one_iff.2 ha', rfl⟩, List.filterMap_append⟩

/-- In a session of two channels, whatever their endpoints are. -/
theorem session_heard (h : run (chat inetAddr) (Session.start channel) acts = some (s, out)) {pre post : List Line}
    {x : Line} (hout : out = pre ++ x :: post) (hx : x.own = false) :
    ∃ c, Routed inetAddr (channel c) (channel x.side) ∧ ∃ m ∈ lines c true pre, x.text = shown m := by
  obtain ⟨acts', out', hrun, hlines⟩ := run_session_in_crowd h
  rw [hout] at hlines
  obtain ⟨l₁, l₂, rfl, rfl, hrest⟩ := List.filterMap_eq_append_iff.1 hlines
  obtain ⟨l₃, ⟨b, traffic⟩, l₄, rfl, hnone, hline, -⟩ := List.filterMap_eq_cons_iff.1 hrest
  obtain ⟨t, rfl, rfl⟩ : ∃ t, traffic = .output ⟨false, t⟩ ∧ x = ⟨b, false, t⟩ := by
    cases traffic with
    | output e =>
      cases hline
      exact ⟨e.text, by rw [← hx], by rw [← hx]⟩
    | send _ | take _ _ | lose _ | duplicate _ => cases hline
  obtain ⟨c, m, hroute, hmem, rfl⟩ := heard_said hrun (List.append_assoc l₁ l₃ _).symm
  refine ⟨c, hroute, m, ?_, rfl⟩
  rcases List.mem_append.1 hmem with hmem | hmem
  · exact List.mem_map.2 ⟨⟨c, true, m⟩, List.mem_filter.2 ⟨List.mem_filterMap.2 ⟨_, hmem, rfl⟩, by simp⟩, rfl⟩
  · cases hnone _ hmem

end Sessions

/-! ## Two applications -/

section Applications

variable {my peer : Bool → Bytes} {c₀ : Bool → UdpChatChannel Unit} {host : Bool → Host}

/-- Once initialised, `c` sends to where `b` receives exactly if it was given that endpoint. -/
theorem routed_ready {b c : Bool} :
    Routed inetAddr (readyChannel inetAddr c₀ host c) (readyChannel inetAddr c₀ host b) ↔
      peerEndpoint inetAddr (c₀ c) = asked inetAddr (c₀ b) := by
  constructor
  · rintro ⟨e, htarget, hbound⟩
    exact Option.some.inj (htarget.trans hbound.symm)
  · intro he
    exact ⟨_, congrArg some he, rfl⟩

/-- Whose strings an application shows is a matter of the endpoints it and the others were given. -/
theorem application_heard (h : Given inetAddr my peer c₀ host) {acts : List WorldAct} {w : World} {out : List Line}
    (hrun : run (world host) .start acts = some (w, out)) {pre post : List Line} {x : Line}
    (hout : out = pre ++ x :: post) (hx : x.own = false) :
    ∃ c, peerEndpoint inetAddr (c₀ c) = asked inetAddr (c₀ x.side) ∧
      ∃ m ∈ lines c true pre, x.text = shown m := by
  obtain ⟨acts', t, ht, -⟩ := run_refined h.inetAddr_eq h.ready hrun
  obtain ⟨c, hroute, hm⟩ := session_heard ht hout hx
  exact ⟨c, routed_ready.1 hroute, hm⟩

end Applications

/-- Two applications with the endpoint of the first one as their peer. -/
def oneEar (b : Bool) : Host := { hosts b with argv := [lit "chatter_app", endpoints b, endpoints true] }

theorem given_oneEar : Given loopback endpoints (fun _ => endpoints true)
    (fun b => { newChannels b with peerPort := 2000 }) oneEar where
  inetAddr_eq _ := rfl
  argv_eq b := ⟨lit "chatter_app", [], rfl⟩
  new_eq b := by cases b <;> rfl
  bound_eq b k e h := by cases b <;> cases h <;> rfl
  own_concrete b := by cases b <;> exact ⟨by decide, by decide, by decide⟩
  peer_concrete b := by cases b <;> exact ⟨by decide, by decide, by decide⟩

/-- The second one says `yo`. -/
def yoHeard : List WorldAct :=
  List.replicate 6 (.app true .main) ++ List.replicate 6 (.app false .main) ++
  [.app false (.type (lit "yo")), .app false .beginSend, .endSend false (.success ⟨0x0100007f, 4000⟩),
    .app true (.worker .test), .deliver true 0, .app true (.worker .count), .app true (.worker .call)]

end CalcChatter.Chat

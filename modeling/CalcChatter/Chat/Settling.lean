import CalcChatter.Chat.Exchange

/-!
# What is sent gets shown (Chatter.h:154-169, :223-226; transport.h:109-112)

Nobody sends any more, and nothing more is lost. The workers never rest: a `recvfrom` that finds no datagram
gives up after ten microseconds, and the loop goes round. So the steps are counted with the time-outs among
them: every other step lowers `toSettle`, a time-out raises it by two (`settling_step`), and where a datagram
is in flight or a worker is on its way to `ReceiveMessage` there is a step that is no time-out
(`working_goes_on`). Without time-outs the workers come to wait for a datagram that nobody sends (`Settled`).
`chat_settles` is the law: where nothing is in flight and nothing owed the views show what was owed to them
and what was on its way, however many time-outs there were.

Both workers must be running: a stop flag that is set ends the loop, and a datagram for a socket nobody
reads stays in flight.
-/

namespace CalcChatter.Chat

open Cxx Lts UdpChatChannel

variable {inetAddr : Bytes → UInt32}

namespace Session

variable {s s' : Session} {a : ChatAct} {o : List Line}

/-- Both workers run, and every datagram in flight is for one of the two. -/
structure Awake (inetAddr : Bytes → UInt32) (s : Session) : Prop where
  live : Live inetAddr s
  running : ∀ b, (s.side b).loop.channel.stopWorker = false ∧ (s.side b).loop.pc ≠ .exited
  addressed : ∀ d ∈ s.flight, ∃ b, s.boundTo b = some d.dst

theorem awake_start {channel : Bool → UdpChatChannel Unit} (hj : Joined inetAddr channel)
    (hstop : ∀ b, (channel b).stopWorker = false) : Awake inetAddr (start channel) :=
  ⟨live_start hj, fun b => ⟨hstop b, by simp [start, Loop.start]⟩, by simp [start]⟩

/-- A worker that was not stopped goes on, whatever it receives. -/
theorem running_step {l l' : Loop Unit} {act : Act Unit} {calls : List (Unit × Bytes)} (ha : act ≠ .stop)
    (hl : l.channel.stopWorker = false ∧ l.pc ≠ .exited) (h : l.step act = some (l', calls)) :
    l'.channel.stopWorker = false ∧ l'.pc ≠ .exited := by
  refine ⟨(Loop.step_stopWorker ha h).trans hl.1, ?_⟩
  cases Loop.step_cases h with
  | stop => exact absurd rfl ha
  | setCallbackHandler => exact hl.2
  | @recv a _ => cases hm : message a <;> simp
  | test _ => simp [hl.1]
  | count _ | call _ | sleep _ => simp

theorem awake_step (hs : Awake inetAddr s) (h : s.step inetAddr a = some (s', o)) : Awake inetAddr s' := by
  have hset : ∀ (c : Bool) (x : Side), x.loop.channel.stopWorker = false ∧ x.loop.pc ≠ .exited → ∀ b,
      ((s.set c x).side b).loop.channel.stopWorker = false ∧ ((s.set c x).side b).loop.pc ≠ .exited := by
    intro c x hx b
    by_cases hb : b = c
    · simpa [hb] using hx
    · simpa [hb] using hs.running b
  have hflight : ∀ d ∈ s'.flight, d ∈ s.flight ∨ ∃ b, s.boundTo b = some d.dst := by
    cases step_cases h with
    | type _ | beginSend _ | worker _ _ => exact fun d hd => .inl hd
    | @endSend b r msg sent hm hsent =>
      intro d hd
      refine (List.mem_append.1 hd).imp_right fun hd => ?_
      obtain rfl : sent = some d := by simpa using hd
      exact ⟨!b, sent_bound hs.live.joined hsent⟩
    | deliver _ _ _ | lose => exact fun d hd => .inl (List.mem_of_mem_eraseIdx hd)
    | duplicate hi =>
      intro d hd
      refine (List.mem_append.1 hd).elim .inl fun hd => .inl ?_
      obtain rfl := List.mem_singleton.1 hd
      exact List.mem_of_getElem? hi
  refine ⟨live_step hs.live h, ?_, ?_⟩
  · cases step_cases h with
    | @type b _ _ => exact hset _ _ (hs.running b)
    | @beginSend b _ => exact hset _ _ (hs.running b)
    | @endSend b _ _ _ _ _ => exact hset _ _ (hs.running b)
    | @worker b act loop _ ha hl =>
      exact hset _ _ (running_step (by rintro rfl; cases ha) (hs.running b) hl)
    | @deliver b _ _ loop _ _ _ hl => exact hset _ _ (running_step (by simp) (hs.running b) hl)
    | lose | duplicate _ => exact hs.running
  · intro d hd
    simp only [boundTo_step h]
    exact (hflight d hd).elim (hs.addressed d) id

/-! ## Settling -/

/-- The network delivers, and the workers go on. -/
def settling (_ : Session) : ChatAct → Bool
  | .worker _ _ | .deliver _ _ => true
  | _ => false

/-- `recvfrom` gives up. -/
def isTimeOut : ChatAct → Bool
  | .worker _ (.recv _) => true
  | _ => false

/-- The steps that are no time-outs. -/
def working (s : Session) (a : ChatAct) : Bool := settling s a && !isTimeOut a

/-- Nothing is in flight, and both workers wait for a datagram. -/
def Settled (s : Session) : Prop := s.flight = [] ∧ ∀ b, (s.side b).loop.pc = .receive

/-- Nothing is in flight, and no worker owes a line, wherever it is in its loop. -/
def HandedOver (s : Session) : Prop := s.flight = [] ∧ ∀ b, (s.side b).loop.callOwed = []

/-- The steps that a worker takes before it waits for a datagram again. -/
def toReceive : Pc → Nat
  | .count => 4
  | .call => 3
  | .sleep => 2
  | .head => 1
  | .receive | .exited => 0

theorem toReceive_le (pc : Pc) : toReceive pc ≤ 4 := by cases pc <;> simp [toReceive]

/-- The steps before the session is settled: a datagram is received, and then there are four more. -/
def toSettle (s : Session) : Nat :=
  5 * s.flight.length + toReceive (s.side true).loop.pc + toReceive (s.side false).loop.pc

theorem toSettle_worked (b : Bool) (loop : Loop Unit) (calls : List (Unit × Bytes)) :
    (s.worked b loop calls).toSettle + toReceive (s.side b).loop.pc = s.toSettle + toReceive loop.pc := by
  cases b
  · simp [toSettle, worked]
    omega
  · simp [toSettle, worked]
    omega

/-- A statement of the loop, other than `ReceiveMessage`, brings the worker nearer to it. -/
theorem nearer_step {l l' : Loop Unit} {act : Act Unit} {calls : List (Unit × Bytes)}
    (hl : l.channel.stopWorker = false) (ha : onItsOwn act = true) (hr : ∀ a, act ≠ .recv a)
    (h : l.step act = some (l', calls)) : toReceive l'.pc < toReceive l.pc := by
  cases Loop.step_cases h with
  | setCallbackHandler | stop => cases ha
  | recv _ => exact absurd rfl (hr _)
  | test hpc | count hpc | call hpc | sleep hpc => simp [hpc, hl, toReceive]

/-- A time-out costs the worker the way round to the next `ReceiveMessage`; all other steps bring it on. -/
theorem settling_step (hs : Awake inetAddr s) (hset : settling s a = true) (h : s.step inetAddr a = some (s', o)) :
    s'.toSettle < s.toSettle + if isTimeOut a then 3 else 0 := by
  cases step_cases h with
  | @worker b act loop calls ha hl =>
    have hrank := toSettle_worked (s := s) b loop calls
    by_cases hr : ∃ r, act = .recv r
    · obtain ⟨r, rfl⟩ := hr
      cases r with
      | datagram d => cases ha
      | error =>
        have hpc : toReceive loop.pc = 2 := by
          cases Loop.step_cases hl with
          | recv _ => rfl
        simp only [isTimeOut, ↓reduceIte]
        omega
    · rw [not_exists] at hr
      have hlt : toReceive loop.pc < toReceive (s.side b).loop.pc := nearer_step (hs.running b).1 ha hr hl
      omega
  | @deliver b i d loop calls hi hb hl =>
    have hlen : (s.flight.eraseIdx i).length + 1 = s.flight.length := by
      obtain ⟨hlt, -⟩ := List.getElem?_eq_some_iff.1 hi
      rw [List.length_eraseIdx_of_lt hlt]
      omega
    have hrank := toSettle_worked (s := s) b loop calls
    have hpc : toReceive (s.side b).loop.pc = 0 := by
      cases Loop.step_cases hl with
      | recv hpc => rw [hpc]; rfl
    have hle := toReceive_le loop.pc
    simp only [toSettle, flight_worked] at hrank ⊢
    omega
  | type _ | beginSend _ | endSend _ _ | lose | duplicate _ => cases hset

/-- Unless the session is settled, there is more to do than to wait for time-outs. -/
theorem working_goes_on (hs : Awake inetAddr s) (hne : ¬ s.Settled) :
    ∃ a r, (guard (chat inetAddr) working).step s a = some r := by
  have hgo : ∀ (b : Bool) (act : Act Unit), onItsOwn act = true → working s (.worker b act) = true →
      ∀ l calls, (s.side b).loop.step act = some (l, calls) →
        ∃ a r, (guard (chat inetAddr) working).step s a = some r := by
    intro b act ha hset l calls hl
    refine ⟨.worker b act, (s.worked b l calls, callLines b calls), guard_step.2 ⟨hset, ?_⟩⟩
    simp [chat, step, ha, workerStep, hl, worked, callLines]
  by_cases hpc : ∀ b, (s.side b).loop.pc = .receive
  · -- both workers wait, so a datagram is in flight, for one of them
    obtain ⟨d, flight, hf⟩ := List.exists_cons_of_ne_nil fun hf => hne ⟨hf, hpc⟩
    obtain ⟨b, hb⟩ := hs.addressed d (by simp [hf])
    obtain ⟨recv, hrecv⟩ : ∃ recv, (s.side b).loop.channel.recvSocket = some recv := by
      obtain ⟨recv, hrecv, -⟩ := Option.map_eq_some_iff.1 hb
      exact ⟨recv, hrecv⟩
    have hstep : ∃ r, (s.side b).loop.step (.recv (.datagram d)) = some r :=
      ⟨_, by simp [Loop.step, hpc b, receiveMessage_eq hrecv]; rfl⟩
    obtain ⟨⟨l, calls⟩, hl⟩ := hstep
    refine ⟨.deliver b 0, ({ s.worked b l calls with flight }, callLines b calls), guard_step.2 ⟨rfl, ?_⟩⟩
    simp [chat, step, hf, hb, workerStep, hl, worked, callLines, set]
  · obtain ⟨b, hb⟩ := not_forall.1 hpc
    cases hpc' : (s.side b).loop.pc with
    | receive => exact absurd hpc' hb
    | exited => exact absurd hpc' (hs.running b).2
    | head => exact hgo b .test rfl rfl _ _ (by simp [Loop.step, hpc']; exact ⟨rfl, rfl⟩)
    | count => exact hgo b .count rfl rfl _ _ (by simp [Loop.step, hpc']; exact ⟨rfl, rfl⟩)
    | call => exact hgo b .call rfl rfl _ _ (by simp [Loop.step, hpc']; exact ⟨rfl, rfl⟩)
    | sleep => exact hgo b .sleep rfl rfl _ _ (by simp [Loop.step, hpc']; exact ⟨rfl, rfl⟩)

/-! ## What a session shows while it settles -/

theorem lossless_of_settling (h : settling s a = true) : lossless inetAddr s a = true := by
  cases a with
  | worker _ _ | deliver _ _ => rfl
  | type _ _ | beginSend _ | endSend _ _ | lose _ | duplicate _ => cases h

/-- Nobody appends a line of his own, and what is about to be sent stays. -/
theorem settling_sends (hset : settling s a = true) (h : s.step inetAddr a = some (s', o)) (b : Bool) :
    lines b true o = [] ∧ (s'.side b).sending = (s.side b).sending := by
  cases step_cases h with
  | worker _ _ => simp [lines_callLines]
  | @deliver c i d loop calls _ _ _ => exact ⟨by simp [lines_callLines], sending_worked c b loop calls⟩
  | type _ | beginSend _ | endSend _ _ | lose | duplicate _ => cases hset

theorem pending_handedOver (h : s.HandedOver) (b : Bool) : s.pending b = (s.side !b).sending.toList.map shown := by
  simp [pending, towards, owedLines, h.1, h.2 b]

end Session

open Session

section Runs

variable {s t : Session} {bs : List ChatAct} {out : List Line}

theorem settling_awake (hs : Awake inetAddr s) (h : run (guard (chat inetAddr) settling) s bs = some (t, out)) :
    Awake inetAddr t :=
  run_invariant (Awake inetAddr) (fun _ _ _ _ ht hstep => awake_step ht (guard_step.1 hstep).2) hs h

theorem settling_lines (hs : Awake inetAddr s) (h : run (guard (chat inetAddr) settling) s bs = some (t, out)) (b : Bool) :
    (lines b false out ++ t.pending b).Perm (s.pending b) ∧ (t.side !b).sending = (s.side !b).sending := by
  refine run_induction (fun _ t out => (lines b false out ++ t.pending b).Perm (s.pending b) ∧
    (t.side !b).sending = (s.side !b).sending) ⟨.refl _, rfl⟩ ?_ h
  rintro as t out a t' o hrun ⟨hacc, hsend⟩ hstep
  obtain ⟨hset, hstep⟩ := guard_step.1 hstep
  obtain ⟨hown, hsend'⟩ := settling_sends hset hstep !b
  have hpay := step_conserves (settling_awake hs hrun).live (lossless_of_settling hset) hstep b
  rw [hown, List.map_nil, List.append_nil] at hpay
  refine ⟨?_, hsend'.trans hsend⟩
  rw [lines_append, List.append_assoc]
  exact (hpay.append_left _).trans hacc

/-- What was owed and what was on its way has been shown. -/
theorem handedOver_lines (hs : Awake inetAddr s) (h : run (guard (chat inetAddr) settling) s bs = some (t, out))
    (ht : t.HandedOver) (b : Bool) : (lines b false out).Perm (owedLines (s.side b).loop ++ (s.towards b).map shown) := by
  obtain ⟨hacc, hsend⟩ := settling_lines hs h b
  rw [pending_handedOver ht, hsend] at hacc
  exact (List.perm_append_right_iff _).1 hacc

theorem settling_rank : ∀ (s : Session) a s' o, Awake inetAddr s →
    (guard (chat inetAddr) settling).step s a = some (s', o) →
      Awake inetAddr s' ∧ s'.toSettle < s.toSettle + if isTimeOut a then 3 else 0 := by
  intro s a s' o hs h
  obtain ⟨hset, hstep⟩ := guard_step.1 h
  exact ⟨awake_step hs hstep, settling_step hs hset hstep⟩

theorem working_lowers : ∀ (s : Session) a s' o, Awake inetAddr s →
    (guard (chat inetAddr) working).step s a = some (s', o) → Awake inetAddr s' ∧ s'.toSettle < s.toSettle := by
  intro s a s' o hs h
  obtain ⟨hwork, hstep⟩ := guard_step.1 h
  obtain ⟨hset, htime⟩ := Bool.and_eq_true_iff.1 hwork
  have hlt := settling_step hs hset hstep
  rw [Bool.not_eq_true'] at htime
  rw [htime] at hlt
  exact ⟨awake_step hs hstep, by simpa using hlt⟩

end Runs

/-- One user has sent `hi`, and the datagram is in flight. -/
def hiSent : List ChatAct := hi.take 4

/-- `recvfrom` times out once before it finds the datagram. -/
def hiReceived : List ChatAct :=
  [.worker false (.recv .error), .worker false .sleep, .worker false .test, .deliver false 0, .worker false .count,
    .worker true .test, .worker false .call]

end CalcChatter.Chat

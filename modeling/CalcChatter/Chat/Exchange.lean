import CalcChatter.Lib.Bags
import CalcChatter.Chat.Presenter

/-!
# Two users over a lossless network

`OnSendCommand` appends the text and a newline to its own history and sends both;
`OnMessageReceived` appends what it receives and a newline of its own. So every line that is sent
arrives with one newline more than the sender shows.

`Live` is the invariant of all runs of `chat`. In a run without loss and copies `step_conserves`
accounts for every line a user sends: it is owed by the sender's window, in flight, owed by the
receiving worker, or shown. `histories_agree_iff` is the law over all such runs.
-/

namespace CalcChatter.Chat

open Cxx Lts UdpChatChannel

variable {inetAddr : Bytes → UInt32}

/-- What `OnMessageReceived` appends for the message `m`, as far as the buffer takes it. -/
def shown (m : Bytes) : Bytes := m.take 150 ++ [ch '\n']

/-- The strings appended to the view of `b`, by `OnSendCommand` (`own`) or by `OnMessageReceived`. -/
def lines (b own : Bool) (out : List Line) : List Bytes :=
  (out.filter fun x => x.side == b && x.own == own).map (·.text)

@[simp] theorem lines_nil (b own : Bool) : lines b own [] = [] := rfl

@[simp] theorem lines_append (b own : Bool) (out out' : List Line) :
    lines b own (out ++ out') = lines b own out ++ lines b own out' := by simp [lines]

namespace Session

variable {s s' : Session} {a : ChatAct} {o : List Line}

/-- What holds in every state of every run: the channels stay joined, and no empty text is sent. -/
structure Live (inetAddr : Bytes → UInt32) (s : Session) : Prop where
  joined : Joined inetAddr s.channel
  flight : ∀ d ∈ s.flight, d.payload ≠ []
  sending : ∀ b m, (s.side b).sending = some m → m ≠ []

theorem live_start {channel : Bool → UdpChatChannel Unit} (h : Joined inetAddr channel) :
    Live inetAddr (start channel) := ⟨h, by simp [start], by simp [start]⟩

theorem live_step (hs : Live inetAddr s) (h : s.step inetAddr a = some (s', o)) : Live inetAddr s' := by
  refine ⟨hs.joined.of_sameEnds (step_channel h), ?_, ?_⟩
  · cases step_cases h with
    | type _ | beginSend _ | worker _ _ => exact hs.flight
    | @endSend b r msg sent hm hsent =>
      intro d hd
      rcases List.mem_append.1 hd with hd | hd
      · exact hs.flight d hd
      · obtain rfl : sent = some d := by simpa using hd
        rw [(sendMessage_datagram hsent).1]
        exact hs.sending b msg hm
    | deliver _ _ _ | lose => exact fun d hd => hs.flight d (List.mem_of_mem_eraseIdx hd)
    | duplicate hi =>
      intro d hd
      rcases List.mem_append.1 hd with hd | hd
      · exact hs.flight d hd
      · obtain rfl := List.mem_singleton.1 hd
        exact hs.flight d (List.mem_of_getElem? hi)
  · have hset : ∀ (c : Bool) (x : Side), (∀ m, x.sending = some m → m ≠ []) →
        ∀ b m, ((s.set c x).side b).sending = some m → m ≠ [] := by
      intro c x hx b m hm
      by_cases hb : b = c
      · exact hx m (by simpa [hb] using hm)
      · exact hs.sending b m (by simpa [hb] using hm)
    cases step_cases h with
    | @type b _ _ => exact hset _ _ (hs.sending b)
    | beginSend _ => exact hset _ _ fun m hm => by cases hm; simp [Chat.beginSend]
    | endSend _ _ => exact hset _ _ fun m hm => by cases hm
    | @worker b _ _ _ _ _ => exact hset _ _ (hs.sending b)
    | @deliver b _ _ _ _ _ _ _ => exact hset _ _ (hs.sending b)
    | lose | duplicate _ => exact hs.sending

/-! ## The accounts of a lossless network -/

/-- Nothing is lost or copied, and every `sendto` puts the text on the network. -/
def lossless (inetAddr : Bytes → UInt32) (s : Session) : ChatAct → Bool
  | .lose _ | .duplicate _ => false
  | .endSend b r => ((s.side b).sending.bind fun msg => ((s.channel b).sendMessage inetAddr msg r).join).isSome
  | _ => true

/-- The lines the worker still owes to the view. -/
def owedLines (l : Loop Unit) : List Bytes := l.callOwed.map fun call => call.2 ++ [ch '\n']

/-- The texts in flight to `b`. -/
def towards (s : Session) (b : Bool) : List Bytes :=
  (s.flight.filter fun d => s.boundTo b = some d.dst).map (·.payload)

/-- The lines that `b` will show of what its peer has sent, or is about to send. -/
def pending (s : Session) (b : Bool) : List Bytes :=
  owedLines (s.side b).loop ++ (s.towards b).map shown ++ (s.side !b).sending.toList.map shown

/-- The steps of a worker keep its account, in lines. -/
theorem loop_lines {l l' : Loop Unit} {act : Act Unit} {calls : List (Unit × Bytes)}
    (hset : ∀ h, act ≠ .setCallbackHandler h) (hh : l.channel.callbackHandler = some ())
    (h : l.step act = some (l', calls)) : calls.map (·.2 ++ [ch '\n']) ++ owedLines l' =
      owedLines l ++ (callsDue (some ()) act).map (·.2 ++ [ch '\n']) := by
  have hcalls := (Loop.step_calls (Loop.handlerBetween_of_ne hset l) h).1
  rw [hh] at hcalls
  simpa [owedLines] using congrArg (List.map fun call => call.2 ++ [ch '\n']) hcalls

theorem callsDue_onItsOwn {act : Act Unit} (ha : onItsOwn act = true) (h : Option Unit) : callsDue h act = [] := by
  cases act with
  | recv a => cases a <;> cases h <;> first | rfl | cases ha
  | _ => rfl

theorem callsDue_datagram {d : Datagram} (hd : d.payload ≠ []) :
    (callsDue (some ()) (.recv (.datagram d))).map (·.2 ++ [ch '\n']) = [shown d.payload] := by
  simp [callsDue, message, hd, shown]

theorem boundTo_step (h : s.step inetAddr a = some (s', o)) (b : Bool) : s'.boundTo b = s.boundTo b := by
  obtain ⟨n, stop, hc⟩ := step_channel h b
  change (s'.channel b).recvSocket.map _ = (s.channel b).recvSocket.map _
  rw [hc]

theorem bound_ne (hj : Joined inetAddr s.channel) (b : Bool) : s.boundTo b ≠ s.boundTo !b := by
  cases b
  · exact Ne.symm hj.distinct
  · exact hj.distinct

/-- What `c` sends goes to where its peer is bound. -/
theorem sent_bound (hj : Joined inetAddr s.channel) {c : Bool} {msg : Bytes} {r : Sent} {d : Datagram}
    (h : (s.channel c).sendMessage inetAddr msg r = some (some d)) : s.boundTo (!c) = some d.dst := by
  obtain ⟨-, -, send, hsend, hdst⟩ := sendMessage_datagram h
  obtain ⟨send', recv, hs, hr, he⟩ := hj.route c
  obtain rfl : send' = send := Option.some.inj (hs.symm.trans hsend)
  change (s.channel !c).recvSocket.map _ = _
  rw [hr, Option.map_some, he, hdst]

/-- The texts in flight to one endpoint, with one datagram put aside. -/
theorem texts_erase {flight : List Datagram} {i : Nat} {d : Datagram} (hi : flight[i]? = some d) (e : Option SockAddr) :
    ((flight.filter fun d => e = some d.dst).map (·.payload)).Perm
      ((if e = some d.dst then [d.payload] else []) ++
        ((flight.eraseIdx i).filter fun d => e = some d.dst).map (·.payload)) := by
  obtain ⟨hlt, rfl⟩ := List.getElem?_eq_some_iff.1 hi
  refine (((List.getElem_cons_eraseIdx_perm hlt).filter _).map _).symm.trans (.of_eq ?_)
  by_cases he : e = some flight[i].dst <;> simp [he]

theorem lines_callLines (b c own : Bool) (calls : List (Unit × Bytes)) : lines b own (callLines c calls) =
    if c = b ∧ own = false then calls.map (·.2 ++ [ch '\n']) else [] := by
  by_cases hc : c = b <;> cases own <;> simp [lines, callLines, hc, List.filter_map, Function.comp_def]

/-- A step of the worker of `c`, seen from `b`: what it shows and what it still owes. -/
theorem worked_lines (hs : Live inetAddr s) {c : Bool} {act : Act Unit} {loop : Loop Unit}
    {calls : List (Unit × Bytes)} (hset : ∀ h, act ≠ .setCallbackHandler h)
    (hstep : (s.side c).loop.step act = some (loop, calls)) (b : Bool) :
    lines b false (callLines c calls) ++ owedLines ((s.worked c loop calls).side b).loop =
      owedLines (s.side b).loop ++ if c = b then (callsDue (some ()) act).map (·.2 ++ [ch '\n']) else [] := by
  by_cases hc : c = b
  · subst hc
    simpa [worked, lines_callLines] using loop_lines hset (hs.joined.handler c) hstep
  · simp [worked, lines_callLines, hc, Ne.symm hc]

theorem self_or_peer (b c : Bool) : c = b ∨ c = !b := by
  cases b <;> cases c <;> simp

/-- A step that takes nothing from the network, in order: the lines that `b` shows of its peer and
those still pending afterwards are those pending before and the ones its peer has just sent. -/
theorem step_account (hs : Live inetAddr s) (hless : lossless inetAddr s a = true) (hdel : ∀ c i, a ≠ .deliver c i)
    (h : s.step inetAddr a = some (s', o)) (b : Bool) :
    lines b false o ++ s'.pending b = s.pending b ++ (lines (!b) true o).map shown := by
  have hbound := boundTo_step h b
  simp only [pending, towards, hbound]
  cases step_cases h with
  | @type c message _ => rcases self_or_peer b c with rfl | rfl <;> simp
  | @beginSend c hn =>
    rcases self_or_peer b c with rfl | rfl
    · simp [lines]
    · simp [lines, hn]
  | @endSend c r msg sent hm hsend =>
    obtain ⟨d, rfl⟩ : ∃ d, sent = some d := by simpa [lossless, hm, hsend, Option.isSome_iff_exists] using hless
    have hdst := sent_bound hs.joined hsend
    rcases self_or_peer b c with rfl | rfl
    · have hother : s.boundTo c ≠ some d.dst := fun he => bound_ne hs.joined c (he.trans hdst.symm)
      simp [hother]
    · rw [Bool.not_not] at hdst
      simp [hdst, hm, (sendMessage_datagram hsend).1]
  | @worker c act loop calls ha hstep =>
    have hline := worked_lines hs (onItsOwn_ne ha) hstep b
    rw [callsDue_onItsOwn ha, List.map_nil, ite_self, List.append_nil] at hline
    rw [← List.append_assoc, ← List.append_assoc, hline]
    simp [lines_callLines]
  | @deliver c i _ _ _ _ _ _ => exact absurd rfl (hdel c i)
  | lose => cases hless
  | duplicate _ => cases hless

/-- A datagram that is delivered leaves the network, and its text is owed by the worker. -/
theorem deliver_account (hs : Live inetAddr s) {c : Bool} {i : Nat}
    (h : s.step inetAddr (.deliver c i) = some (s', o)) (b : Bool) :
    ∃ d, s.flight[i]? = some d ∧ (s.boundTo b = some d.dst ↔ c = b) ∧ (lines (!b) true o).map shown = [] ∧
      lines b false o ++ s'.pending b = owedLines (s.side b).loop ++ (if c = b then [shown d.payload] else []) ++
        (((s.flight.eraseIdx i).filter fun d => s.boundTo b = some d.dst).map (·.payload)).map shown ++
        (s.side !b).sending.toList.map shown := by
  have hbound := boundTo_step h b
  simp only [pending, towards, hbound]
  cases step_cases h with
  | @deliver _ _ d loop calls hi hb hstep =>
    have hline := worked_lines hs (by simp) hstep b
    rw [callsDue_datagram (hs.flight d (List.mem_of_getElem? hi))] at hline
    refine ⟨d, hi, ?_, by simp [lines_callLines], ?_⟩
    · rcases self_or_peer b c with rfl | rfl
      · simp [hb]
      · simpa using fun he => bound_ne hs.joined b (he.trans hb.symm)
    · rw [← List.append_assoc, ← List.append_assoc, hline]
      simp

/-- **No line is lost or invented.** In a lossless step, the lines that `b` shows of its peer and
those still pending afterwards are those pending before and the ones its peer has just sent. -/
theorem step_conserves (hs : Live inetAddr s) (hless : lossless inetAddr s a = true)
    (h : s.step inetAddr a = some (s', o)) (b : Bool) :
    (lines b false o ++ s'.pending b).Perm (s.pending b ++ (lines (!b) true o).map shown) := by
  by_cases hdel : ∃ c i, a = .deliver c i
  · obtain ⟨c, i, rfl⟩ := hdel
    obtain ⟨d, hi, hfor, hown, hacc⟩ := deliver_account hs h b
    -- the datagram leaves the network and is owed, if it is for `b`
    have htexts := (((texts_erase hi (s.boundTo b)).map shown).append_left (owedLines (s.side b).loop)).append_right
      ((s.side !b).sending.toList.map shown)
    rw [hacc, hown, List.append_nil]
    refine .trans (.of_eq ?_) htexts.symm
    by_cases hc : c = b <;> simp [hfor, hc]
  · exact .of_eq (step_account hs hless (fun c i he => hdel ⟨c, i, he⟩) h b)

/-- The history of a view is what was appended to it, in order. -/
theorem step_history (h : s.step inetAddr a = some (s', o)) (b : Bool) :
    (s'.side b).view.chatHistory = (s.side b).view.chatHistory ++ (o.filter (·.side == b)).map (·.text) := by
  have hcalls : ∀ (c : Bool) (loop : Loop Unit) (calls : List (Unit × Bytes)),
      ((s.worked c loop calls).side b).view.chatHistory =
        (s.side b).view.chatHistory ++ ((callLines c calls).filter (·.side == b)).map (·.text) := by
    intro c loop calls
    by_cases hc : b = c
    · subst hc; simp [worked, chatHistory_handOver, callLines, List.filter_map, Function.comp_def]
    · simp [worked, callLines, List.filter_map, Function.comp_def, hc, Ne.symm hc]
  cases step_cases h with
  | @type c _ _ => by_cases hc : b = c <;> simp [hc, ChatterView.setMessage]
  | @beginSend c _ =>
    by_cases hc : b = c
    · subst hc; simp [Chat.beginSend, ChatterView.appendToChatHistory]
    · simp [hc, Ne.symm hc]
  | @endSend c _ _ _ _ _ => by_cases hc : b = c <;> simp [hc, ChatterView.setMessage]
  | worker _ _ => exact hcalls _ _ _
  | deliver _ _ _ => exact hcalls _ _ _
  | lose | duplicate _ => simp

/-! ## Whole runs -/

/-- Every message has been sent, received and handed over. -/
def Delivered (s : Session) : Prop :=
  s.flight = [] ∧ ∀ b, (s.side b).sending = none ∧ (s.side b).loop.callOwed = []

theorem pending_start (channel : Bool → UdpChatChannel Unit) (b : Bool) : (start channel).pending b = [] := by
  simp [pending, towards, owedLines, Loop.callOwed, start, Loop.start]

theorem pending_delivered (h : s.Delivered) (b : Bool) : s.pending b = [] := by
  simp [pending, towards, owedLines, h.1, (h.2 b).2, (h.2 !b).1]

end Session

open Session

section Runs

variable {channel : Bool → UdpChatChannel Unit} {acts : List ChatAct} {s : Session} {out : List Line}

theorem run_live (hj : Joined inetAddr channel) (h : run (chat inetAddr) (start channel) acts = some (s, out)) :
    Live inetAddr s :=
  run_invariant (Live inetAddr) (fun _ _ _ _ => live_step) (live_start hj) h

theorem run_conserves (hj : Joined inetAddr channel)
    (h : run (guard (chat inetAddr) (lossless inetAddr)) (start channel) acts = some (s, out)) (b : Bool) :
    (lines b false out ++ s.pending b).Perm ((lines (!b) true out).map shown) := by
  refine run_account keepsAccounts_perm (fun s => s.pending b) (lines b false) (fun out => (lines (!b) true out).map shown)
    (pending_start channel b) ⟨rfl, by simp⟩ ⟨rfl, by simp⟩ ?_ h
  intro _ t out a t' o hrun hstep
  obtain ⟨hless, hstep⟩ := guard_step.1 hstep
  exact step_conserves (run_live hj (run_guard hrun)) hless hstep b

theorem run_history (h : run (chat inetAddr) (start channel) acts = some (s, out)) (b : Bool) :
    (s.side b).view.chatHistory = (out.filter (·.side == b)).map (·.text) := by
  refine run_induction (fun _ s out => (s.side b).view.chatHistory = (out.filter (·.side == b)).map (·.text)) rfl ?_ h
  intro _ t out a t' o _ ht hstep
  rw [step_history hstep b, ht, List.filter_append, List.map_append]

/-- A history is its own lines and the received ones. -/
theorem history_perm (out : List Line) (b : Bool) :
    ((out.filter (·.side == b)).map (·.text)).Perm (lines b true out ++ lines b false out) := by
  have hsplit := (List.filter_append_perm (·.own) (out.filter (·.side == b))).map (·.text)
  simp only [List.map_append, List.filter_filter] at hsplit
  refine hsplit.symm.trans (.of_eq ?_)
  simp [lines, Bool.and_comm]

end Runs

/-! ## What the two users see -/

/-- What `OnMessageReceived` appends when the line is not cut. -/
def received (m : Bytes) : Bytes := m ++ [ch '\n']

theorem map_shown {ms : List Bytes} (h : ∀ m ∈ ms, m.length ≤ 150) : ms.map shown = ms.map received :=
  List.map_congr_left fun m hm => by rw [shown, received, List.take_of_length_le (h m hm)]

theorem length_received (m : Bytes) : m.length < (received m).length := by simp [received]

/-- A run of a lossless network in which every message was handed over. -/
structure Complete (inetAddr : Bytes → UInt32) (channel : Bool → UdpChatChannel Unit) (acts : List ChatAct)
    (s : Session) (out : List Line) : Prop where
  joined : Joined inetAddr channel
  run : run (guard (chat inetAddr) (lossless inetAddr)) (start channel) acts = some (s, out)
  delivered : s.Delivered
  short : ∀ b, ∀ m ∈ lines b true out, m.length ≤ 150

/-- Every line that is sent is shown once, with one newline more. -/
theorem received_lines {channel : Bool → UdpChatChannel Unit} {acts : List ChatAct} {s : Session} {out : List Line}
    (h : Complete inetAddr channel acts s out) (b : Bool) :
    (lines b false out).Perm ((lines (!b) true out).map received) := by
  have hperm := run_conserves h.joined h.run b
  rwa [pending_delivered h.delivered, List.append_nil, map_shown (h.short !b)] at hperm

theorem history_lines {channel : Bool → UdpChatChannel Unit} {acts : List ChatAct} {s : Session} {out : List Line}
    (h : Complete inetAddr channel acts s out) (b : Bool) :
    ((s.side b).view.chatHistory).Perm (lines b true out ++ (lines (!b) true out).map received) := by
  rw [run_history (run_guard h.run) b]
  exact (history_perm out b).trans ((received_lines h b).append_left _)

/-- A single message: what the sender's history gets, and what the peer's gets. -/
theorem message_lines {H : Type} {channel : UdpChatChannel H} {view view' : ChatterView} {r : Sent} {d : Datagram}
    (hsend : onSendCommand inetAddr channel view r = some (view', some d)) (hshort : view.message.length + 1 ≤ 150)
    {l l' : Loop Unit} {acts : List (Act Unit)} {out : List (Unit × Bytes)} (hl : l.betweenIterations = true)
    (hh : l.channel.callbackHandler = some ()) (hrun : run receiveLoop l acts = some (l', out))
    (hl' : l'.betweenIterations = true) (hset : ∀ h', .setCallbackHandler h' ∉ acts) (harr : arrivals acts = [d])
    (peer : ChatterView) : view'.chatHistory = view.chatHistory ++ [view.message ++ [ch '\n']] ∧
      (handOver peer out).chatHistory = peer.chatHistory ++ [received (view.message ++ [ch '\n'])] := by
  obtain ⟨sent, hsent, he⟩ := Option.bind_eq_some_iff.1 hsend
  cases he
  have hd : d.payload = view.message ++ [ch '\n'] := (sendMessage_datagram hsent).1
  have hout := run_calls_const hl hh hrun hl' hset
  rw [harr] at hout
  refine ⟨rfl, ?_⟩
  rw [chatHistory_handOver, hout]
  have htake : (view.message ++ [ch '\n']).take 150 = view.message ++ [ch '\n'] :=
    List.take_of_length_le (by simpa using hshort)
  simp [text, message, hd, htake, received]

/-- **The two users never see the same text.** For one message of at most 149 bytes: what the peer's
history gets differs from what the sender's history got. For every run of a lossless network in which
every message was handed over, the lines a user shows of the peer are the peer's own ones with a
newline more, so they agree only when the peer sent nothing; and the two histories hold the same
strings the same number of times if and only if the two users sent the same lines that often. -/
theorem histories_agree_iff (inetAddr : Bytes → UInt32) :
    (∀ (channel : UdpChatChannel Unit) (view view' : ChatterView) (r : Sent) (d : Datagram),
      onSendCommand inetAddr channel view r = some (view', some d) → view.message.length + 1 ≤ 150 →
      ∀ (l l' : Loop Unit) (acts : List (Act Unit)) (out : List (Unit × Bytes)) (peer : ChatterView),
        l.betweenIterations = true → l.channel.callbackHandler = some () →
        run receiveLoop l acts = some (l', out) → l'.betweenIterations = true →
        (∀ h', .setCallbackHandler h' ∉ acts) → arrivals acts = [d] →
        ∃ own theirs, view'.chatHistory = view.chatHistory ++ [own] ∧
          (handOver peer out).chatHistory = peer.chatHistory ++ [theirs] ∧ theirs ≠ own) ∧
    (∀ (channel : Bool → UdpChatChannel Unit) (acts : List ChatAct) (s : Session) (out : List Line),
      Complete inetAddr channel acts s out →
        (∀ b, (lines b false out).Perm (lines (!b) true out) ↔ lines (!b) true out = []) ∧
        ((s.side true).view.chatHistory.Perm (s.side false).view.chatHistory ↔
          (lines true true out).Perm (lines false true out))) := by
  constructor
  · intro channel view view' r d hsend hshort l l' acts out peer hl hh hrun hl' hset harr
    obtain ⟨hown, htheirs⟩ := message_lines hsend hshort hl hh hrun hl' hset harr peer
    refine ⟨_, _, hown, htheirs, ?_⟩
    intro he
    exact absurd (congrArg List.length he) (length_received _).ne'
  · intro channel acts s out h
    constructor
    · intro b
      rw [(received_lines h b).congr_left, ← Multiset.coe_eq_coe, ← Multiset.map_coe,
        Bags.map_eq_self_iff length_received, Multiset.coe_eq_zero]
    · have htrue := history_lines h true
      have hfalse := history_lines h false
      rw [htrue.congr_left, hfalse.congr_right]
      simp only [← Multiset.coe_eq_coe, ← Multiset.coe_add, ← Multiset.map_coe]
      exact Bags.exchange_iff length_received

/-- Two channels on the loopback address. -/
def pair (b : Bool) : UdpChatChannel Unit where
  callbackHandler := some ()
  myIp := lit "127.0.0.1"
  myPort := if b then 2000 else 2001
  peerIp := lit "127.0.0.1"
  peerPort := if b then 2001 else 2000
  sendSocket := some ⟨⟨0x0100007f, if b then 2001 else 2000⟩, 3⟩
  recvSocket := some ⟨⟨0x0100007f, if b then 2000 else 2001⟩, 4⟩
  worker := some 1
  receivedMessageCount := 0
  stopWorker := false

theorem joined_pair : Joined loopback pair where
  handler _ := rfl
  route b := by cases b <;> exact ⟨_, _, rfl, rfl, rfl⟩
  distinct := by decide

/-- One user sends `hi`, and the other one's worker takes the iteration that receives it. -/
def hi : List ChatAct :=
  [.worker false .test, .type true (lit "hi"), .beginSend true, .endSend true (.success ⟨0x0100007f, 4000⟩),
    .deliver false 0, .worker false .count, .worker false .call, .worker false .sleep]

set_option maxRecDepth 4000 in
theorem complete_hi : ∃ s, Complete loopback pair hi s [⟨true, true, lit "hi\n"⟩, ⟨false, false, lit "hi\n\n"⟩] := by
  have hrun : ∃ s, run (guard (chat loopback) (lossless loopback)) (start pair) hi =
      some (s, [⟨true, true, lit "hi\n"⟩, ⟨false, false, lit "hi\n\n"⟩]) ∧ s.Delivered :=
    ⟨_, rfl, rfl, fun b => by cases b <;> exact ⟨rfl, rfl⟩⟩
  obtain ⟨s, hrun, hdel⟩ := hrun
  exact ⟨s, joined_pair, hrun, hdel, by decide⟩

theorem histories_agree_iff_hi : ∃ s out, Complete loopback pair hi s out ∧
    ¬ (s.side true).view.chatHistory.Perm (s.side false).view.chatHistory := by
  obtain ⟨s, h⟩ := complete_hi
  refine ⟨s, _, h, ?_⟩
  intro hperm
  have hsent := ((histories_agree_iff loopback).2 _ _ _ _ h).2.1 hperm
  exact absurd hsent (by decide)

/-- The message `hi`: one history ends up with `hi` and a newline, the other one with `hi` and two. -/
theorem newline_doubled : ∃ s out, Complete loopback pair hi s out ∧
    (s.side true).view.chatHistory = [lit "hi\n"] ∧ (s.side false).view.chatHistory = [lit "hi\n\n"] := by
  obtain ⟨s, h⟩ := complete_hi
  exact ⟨s, _, h, run_history (run_guard h.run) true, run_history (run_guard h.run) false⟩

end CalcChatter.Chat

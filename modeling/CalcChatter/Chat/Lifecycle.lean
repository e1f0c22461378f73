import CalcChatter.Chat.App
import CalcChatter.Chat.Endpoint

/-!
# From start to shutdown (wxChatterApp.cpp:115-151; Chatter.h:84-90, :216-221)

What every reachable state of an application is like, apart from the lifetimes of its objects. `Wired`
says that the pointers the code follows without a test are set when it follows them, that the worker has
its sockets, and that the status line is that of the channel; `run_wired` carries it through all runs.

| here | there |
| --- | --- |
| `pointers_set`           | `view_`, `send_socket_` and `recv_socket_` are never null where they are used |
| `status_shows_endpoints` | `SetStatus(channel_.ToString())` (Chatter.h:220) |
| `shutdown_completes`     | `stopWorker_ = true` and `join` (Chatter.h:86-88) |

`shutdown_completes` speaks of the runs whose steps are quiet: in the others the worker can come to a call
on a destroyed view, and what happens behind that call is not defined. In these runs no call is left once
the frame is closed, and once `stopWorker_` is set every step lowers `rank`.
-/

namespace CalcChatter.Chat

open Cxx Lts UdpChatChannel

/-- `c` is what `OnInit` makes of the arguments. -/
def IsNew (host : Host) (c : UdpChatChannel Unit) : Prop :=
  ∃ prog my peer rest, host.argv = prog :: my :: peer :: rest ∧ UdpChatChannel.new my peer = .ok c

/-- The endpoints are the same. -/
def SameEndpoints (c c' : UdpChatChannel Unit) : Prop :=
  c'.myIp = c.myIp ∧ c'.myPort = c.myPort ∧ c'.peerIp = c.peerIp ∧ c'.peerPort = c.peerPort

theorem SameEndpoints.toString_eq {c c' : UdpChatChannel Unit} (h : SameEndpoints c c') : c'.toString = c.toString := by
  obtain ⟨h1, h2, h3, h4⟩ := h
  simp [UdpChatChannel.toString, h1, h2, h3, h4]

theorem IsNew.unique {host : Host} {c c' : UdpChatChannel Unit} (h : IsNew host c) (h' : IsNew host c') : c = c' := by
  obtain ⟨prog, my, peer, rest, hargv, hc⟩ := h
  obtain ⟨prog', my', peer', rest', hargv', hc'⟩ := h'
  rw [hargv] at hargv'
  cases hargv'
  exact Except.ok.inj (hc.symm.trans hc')

namespace App

variable {host : Host} {s s' : App} {a : AppAct} {o uses : List Use}

/-- The status line has been set. -/
def statusSet : Stage → Bool
  | .events | .destroyPresenter | .stopWorker | .join | .finished => true
  | _ => false

/-- The channel of an application whose main thread is at `stage`. -/
structure ChannelWired (host : Host) (stage : Stage) (c : UdpChatChannel Unit) : Prop where
  endpoints : ∃ c₀, IsNew host c₀ ∧ SameEndpoints c₀ c
  sockets : c.worker.isSome = true → c.sendSocket.isSome = true ∧ c.recvSocket.isSome = true
  stopped : stage = .join → c.stopWorker = true

structure Wired (host : Host) (s : App) : Prop where
  sending : s.sending.isSome = true → s.stage = .events
  channel : ∀ l, s.loop = some l → ChannelWired host s.stage l.channel
  running : initialised s.stage = true → ∃ l, s.loop = some l ∧ l.channel.worker.isSome = true
  gone : s.stage = .finished → s.loop = none
  status : statusSet s.stage = true → ∃ c, IsNew host c ∧ s.status = c.toString

theorem ChannelWired.later {stage stage' : Stage} {c : UdpChatChannel Unit} (h : ChannelWired host stage c)
    (hne : stage' ≠ .join) : ChannelWired host stage' c := ⟨h.endpoints, h.sockets, fun hj => absurd hj hne⟩

theorem wired_start : Wired host start :=
  ⟨by simp [start], by simp [start], by simp [start, initialised], fun _ => rfl, by simp [start, statusSet]⟩

theorem isNew_of_mainStep {c : UdpChatChannel Unit} (hs : s.stage = .makeChannel)
    (h : s.mainStep host = some { s with stage := .makePresenter, loop := some (.start c) }) : IsNew host c := by
  unfold mainStep at h
  rw [hs] at h
  simp only at h
  split at h
  · next prog my peer rest hargv =>
    split at h
    · next c' hc =>
      simp only [Option.some.injEq, App.mk.injEq, Loop.start, Loop.mk.injEq, and_true, true_and] at h
      exact ⟨prog, my, peer, rest, hargv, h ▸ hc⟩
    · cases h
  · cases h

theorem wired_main (hw : Wired host s) (h : s.mainStep host = some s') : Wired host s' := by
  have hquiet : s.stage ≠ .events → s.sending.isSome = true → False := fun hne hs => hne (hw.sending hs)
  have hm := mainStep_cases h
  obtain ⟨-, hchannel, hrunning, -, hstatus⟩ := hw
  cases hm with
  | @makeChannel c hst hworker =>
    have hnew := isNew_of_mainStep hst h
    refine ⟨fun hs => (hquiet (by simp [hst]) hs).elim, ?_, by simp [initialised], by simp, by simp [statusSet]⟩
    rintro l hl
    cases hl
    exact ⟨⟨c, hnew, rfl, rfl, rfl, rfl⟩, by simp [Loop.start, hworker], by simp⟩
  | refuse hst =>
    exact ⟨fun hs => (hquiet (by simp [hst]) hs).elim, fun l hl => (hchannel l hl).later (by simp),
      by simp [initialised], by simp, by simp [statusSet]⟩
  | @makePresenter l hst hl =>
    refine ⟨fun hs => (hquiet (by simp [hst]) hs).elim, ?_, by simp [initialised], by simp, by simp [statusSet]⟩
    rintro l' hl'
    cases hl'
    obtain ⟨⟨c, hc, hends⟩, hsock, -⟩ := hchannel l hl
    exact ⟨⟨c, hc, hends⟩, hsock, by simp⟩
  | makeView hst =>
    exact ⟨fun hs => (hquiet (by simp [hst]) hs).elim, fun l hl => (hchannel l hl).later (by simp),
      by simp [initialised], by simp, by simp [statusSet]⟩
  | @initialise l socket hst hl =>
    refine ⟨fun hs => (hquiet (by simp [hst]) hs).elim, ?_, fun _ => ⟨_, rfl, rfl⟩, by simp, by simp [statusSet]⟩
    rintro l' hl'
    cases hl'
    obtain ⟨⟨c, hc, hends⟩, -, -⟩ := hchannel l hl
    exact ⟨⟨c, hc, hends⟩, fun _ => ⟨rfl, rfl⟩, by simp⟩
  | @initialiseAgain l hst hl hopen =>
    refine ⟨fun hs => (hquiet (by simp [hst]) hs).elim, ?_, fun _ => ⟨l, rfl, ?_⟩, by simp, by simp [statusSet]⟩
    · rintro l' hl'
      cases hl'
      exact (hchannel l hl).later (by simp)
    · unfold isOpen at hopen
      split at hopen
      · exact (Bool.and_eq_true_iff.1 hopen).2
      · cases hopen
  | showView hst =>
    exact ⟨fun hs => (hquiet (by simp [hst]) hs).elim, fun l hl => (hchannel l hl).later (by simp),
      fun _ => hrunning (by simp [hst, initialised]), by simp, by simp [statusSet]⟩
  | @setStatus l hst hl =>
    refine ⟨fun _ => rfl, fun l hl => (hchannel l hl).later (by simp), fun _ => hrunning (by simp [hst, initialised]),
      by simp, ?_⟩
    obtain ⟨c, hc, hends⟩ := (hchannel l hl).endpoints
    exact fun _ => ⟨c, hc, hends.toString_eq⟩
  | destroyPresenter hst =>
    exact ⟨fun hs => (hquiet (by simp [hst]) hs).elim, fun l hl => (hchannel l hl).later (by simp),
      fun _ => hrunning (by simp [hst, initialised]), by simp, fun _ => hstatus (by simp [hst, statusSet])⟩
  | @stopWorker l hst hl =>
    refine ⟨fun hs => (hquiet (by simp [hst]) hs).elim, ?_, ?_, by simp, fun _ => hstatus (by simp [hst, statusSet])⟩
    · rintro l' hl'
      cases hl'
      obtain ⟨⟨c, hc, hends⟩, hsock, -⟩ := hchannel l hl
      exact ⟨⟨c, hc, hends⟩, hsock, fun _ => rfl⟩
    · intro _
      obtain ⟨l', hl', hworker⟩ := hrunning (by simp [hst, initialised])
      obtain rfl := Option.some.inj (hl.symm.trans hl')
      exact ⟨_, rfl, hworker⟩
  | join hst =>
    exact ⟨fun hs => (hquiet (by simp [hst]) hs).elim, by simp, by simp [initialised], fun _ => rfl,
      fun _ => hstatus (by simp [hst, statusSet])⟩

theorem wired_step (hw : Wired host s) (h : s.step host a = some (s', o)) : Wired host s' := by
  cases a with
  | main =>
    obtain ⟨s', hm, he⟩ := Option.map_eq_some_iff.1 h
    cases he
    exact wired_main hw hm
  | type message =>
    obtain ⟨-, he⟩ := Option.ite_none_right_eq_some.1 h
    cases he
    exact ⟨hw.sending, hw.channel, hw.running, hw.gone, hw.status⟩
  | beginSend =>
    obtain ⟨hguard, he⟩ := Option.ite_none_right_eq_some.1 h
    cases he
    exact ⟨fun _ => hguard.1, hw.channel, hw.running, hw.gone, hw.status⟩
  | endSend r =>
    cases step_cases h with
    | endSend => exact ⟨by simp, hw.channel, hw.running, hw.gone, hw.status⟩
  | close =>
    obtain ⟨⟨hst, hs⟩, he⟩ := Option.ite_none_right_eq_some.1 h
    cases he
    exact ⟨by simp [hs], fun l hl => (hw.channel l hl).later (by simp),
      fun _ => hw.running (by simp [hst, initialised]), by simp, fun _ => hw.status (by simp [hst, statusSet])⟩
  | worker act =>
    cases step_cases h with
    | @worker _ l loop calls hl hworker ha hl' =>
      obtain ⟨n, stop, hch⟩ := Loop.step_channel hl'
      have hflag : loop.channel.stopWorker = l.channel.stopWorker :=
        Loop.step_stopWorker (by rintro rfl; cases ha) hl'
      have hworker' : loop.channel.worker.isSome = true := by rw [hch]; exact hworker
      refine ⟨hw.sending, ?_, fun _ => ⟨loop, rfl, hworker'⟩, ?_, hw.status⟩
      · rintro l' hl''
        cases hl''
        obtain ⟨⟨c, hc, hends⟩, hsock, hstop⟩ := hw.channel l hl
        exact ⟨⟨c, hc, by rw [hch]; exact hends⟩, fun _ => by rw [hch]; exact hsock hworker,
          fun hj => hflag.trans (hstop hj)⟩
      · intro hf
        rw [hw.gone hf] at hl
        cases hl

theorem run_wired {as : List AppAct} (hrun : run (app host) start as = some (s, uses)) : Wired host s :=
  run_invariant (Wired host) (fun _ _ _ _ => wired_step) wired_start hrun

/-- A call of `OnMessageReceived` finds a presenter, and `view_` set. -/
theorem worker_uses (hs : Sane s) {act : Act Unit} (h : s.step host (.worker act) = some (s', o)) :
    ∀ u ∈ o, u.presenter ≠ .unborn ∧ u.view ≠ none := by
  cases step_cases h with
  | @worker _ l loop calls hl hw ha hl' =>
    have hi := (hs.loop l hl).running hw
    have hset := (hs.viewSet_of_worker hl hw).1
    have ho := hs.objects
    have hp : s.presenter ≠ .unborn := by
      intro hp
      cases hst : s.stage <;> simp [hst, initialised] at hi
      all_goals simp [hst, hp, objectsAt] at ho
    intro u hu
    obtain ⟨call, -, rfl⟩ := List.mem_map.1 hu
    exact ⟨hp, by simp [use, hset]⟩

theorem step_uses (hs : Sane s) (h : s.step host a = some (s', o)) : ∀ u ∈ o, u.presenter ≠ .unborn ∧ u.view ≠ none := by
  cases a with
  | worker act => exact worker_uses hs h
  | main | type _ | beginSend | endSend _ | close =>
    cases step_cases h
    simp

/-- `SendMessage` finds `send_socket_` set whenever `OnSendCommand` calls it. -/
theorem endSend_enabled (hw : Wired host s) {msg : Bytes} (hs : s.sending = some msg) (r : Sent) :
    ∃ s', s.step host (.endSend r) = some (s', []) := by
  have hst := hw.sending (by simp [hs])
  obtain ⟨l, hl, hworker⟩ := hw.running (by simp [hst, initialised])
  obtain ⟨socket, hsock⟩ := Option.isSome_iff_exists.1 ((hw.channel l hl).sockets hworker).1
  exact ⟨_, by simp [step, hs, hl, endSend, sendMessage, hsock]; rfl⟩

/-- `ReceiveMessage` finds `recv_socket_` set whenever the worker calls it. -/
theorem recv_enabled (hw : Wired host s) {l : Loop Unit} (hl : s.loop = some l) (hworker : l.channel.worker.isSome = true)
    (hpc : l.pc = .receive) (a : Arrival) : ∃ s', s.step host (.worker (.recv a)) = some (s', []) := by
  obtain ⟨socket, hsock⟩ := Option.isSome_iff_exists.1 ((hw.channel l hl).sockets hworker).2
  exact ⟨_, by simp [step, workerStep, hl, hworker, byWorker, Loop.step, hpc, receiveMessage_eq hsock]; rfl⟩

/-! ## After the frame was closed -/

/-- The view is destroyed, and no message waits for its hand-over. -/
structure Closed (host : Host) (s : App) : Prop where
  sane : Sane s
  wired : Wired host s
  held : Held s
  view : s.view = .destroyed

theorem Closed.stage (hs : Closed host s) :
    s.stage = .destroyPresenter ∨ s.stage = .stopWorker ∨ s.stage = .join ∨ s.stage = .finished := by
  have ho := hs.sane.objects
  rw [hs.view] at ho
  cases hst : s.stage <;> simp [hst, objectsAt] at ho ⊢

/-- The worker has nothing to count and nobody to call. -/
theorem Closed.pc (hs : Closed host s) {l : Loop Unit} (hl : s.loop = some l)
    (hw : l.channel.worker.isSome = true) : l.pc ≠ .count ∧ l.pc ≠ .call := by
  have howed : l.callOwed = [] := by
    by_contra howed
    have hview := hs.held l hl howed
    rw [hs.view] at hview
    cases hview
  rw [← not_or]
  intro hpc
  simp [Loop.callOwed, hpc, hs.sane.handler_of_worker hl hw] at howed

/-- A closed application stays closed, and calls nothing. -/
theorem closed_step (hs : Closed host s) (h : (guard (app host) quiet).step s a = some (s', o)) :
    Closed host s' ∧ o = [] := by
  obtain ⟨hq, h⟩ := guard_step.1 h
  obtain ⟨hheld, hvalid⟩ := quiet_step hs.sane hs.held hq h
  have hsane := sane_step hs.sane h
  have hwired := wired_step hs.wired h
  cases step_cases h with
  | main hm =>
    refine ⟨⟨hsane, hwired, hheld, ?_⟩, rfl⟩
    cases hm with
    | makeView hst => simpa [hst] using hs.stage
    | makeChannel | refuse | makePresenter | initialise | initialiseAgain | showView | setStatus | destroyPresenter
    | stopWorker | join => exact hs.view
  | type | beginSend | endSend => exact ⟨⟨hsane, hwired, hheld, hs.view⟩, rfl⟩
  | close => exact ⟨⟨hsane, hwired, hheld, rfl⟩, rfl⟩
  | @worker _ l loop calls hl hw ha hl' =>
    refine ⟨⟨hsane, hwired, hheld, hs.view⟩, ?_⟩
    cases calls with
    | nil => rfl
    | cons call calls =>
      have hview := (hvalid (s.use call) (by simp)).2
      simp [use, hs.view] at hview

theorem closed_run {bs : List AppAct} (hs : Closed host s) (h : run (guard (app host) quiet) s bs = some (s', uses)) :
    Closed host s' ∧ uses = [] := by
  refine run_induction (fun _ t out => Closed host t ∧ out = []) ⟨hs, rfl⟩ ?_ h
  rintro _ t out a t' o - ⟨ht, rfl⟩ hstep
  obtain ⟨ht', rfl⟩ := closed_step ht hstep
  exact ⟨ht', rfl⟩

/-- The main thread can go on, or it waits in `join` and the worker can. -/
theorem closed_goes_on (hs : Closed host s) (hne : s.stage ≠ .finished) :
    ∃ a r, (guard (app host) quiet).step s a = some r := by
  have hgo : ∃ a r, s.quiet a = true ∧ s.step host a = some r := by
    rcases hs.stage with hst | hst | hst | hst
    · exact ⟨.main, _, rfl, by simp [step, mainStep, hst]; rfl⟩
    · obtain ⟨l, hl, -⟩ := hs.wired.running (by simp [hst, initialised])
      exact ⟨.main, _, rfl, by simp [step, mainStep, hst, hl]; rfl⟩
    · obtain ⟨l, hl, hw⟩ := hs.wired.running (by simp [hst, initialised])
      obtain ⟨hcount, hcall⟩ := hs.pc hl hw
      cases hpc : l.pc with
      | exited => exact ⟨.main, _, rfl, by simp [step, mainStep, hst, hl, hpc]; rfl⟩
      | receive =>
        -- a time-out; a message would not be quiet
        obtain ⟨s', hs'⟩ := recv_enabled hs.wired hl hw hpc .error
        exact ⟨.worker (.recv .error), _, by simp [quiet, message], hs'⟩
      | head => exact ⟨.worker .test, _, rfl, by simp [step, workerStep, hl, hw, byWorker, Loop.step, hpc]; rfl⟩
      | sleep => exact ⟨.worker .sleep, _, rfl, by simp [step, workerStep, hl, hw, byWorker, Loop.step, hpc]; rfl⟩
      | count => exact absurd hpc hcount
      | call => exact absurd hpc hcall
    · exact absurd hst hne
  obtain ⟨a, r, hq, hr⟩ := hgo
  exact ⟨a, r, guard_step.2 ⟨hq, hr⟩⟩

/-- From the moment the frame is closed the main thread goes on to `join`. -/
theorem closed_joins (hs : Closed host s) (hne : s.stage ≠ .finished) :
    ∃ bs t uses', run (guard (app host) quiet) s bs = some (t, uses') ∧ t.stage = .join := by
  have hrun : ∃ bs t uses', run (app host) s bs = some (t, uses') ∧ t.stage = .join ∧ ∀ a ∈ bs, a = .main := by
    rcases hs.stage with hst | hst | hst | hst
    · obtain ⟨l, hl, -⟩ := hs.wired.running (by simp [hst, initialised])
      exact ⟨[.main, .main], _, [], by simp [run, app, step, mainStep, hst, hl]; rfl, rfl, by simp⟩
    · obtain ⟨l, hl, -⟩ := hs.wired.running (by simp [hst, initialised])
      exact ⟨[.main], _, [], by simp [run, app, step, mainStep, hst, hl]; rfl, rfl, by simp⟩
    · exact ⟨[], s, [], rfl, hst, by simp⟩
    · exact absurd hst hne
  obtain ⟨bs, t, uses', ht, hjoin, hmain⟩ := hrun
  exact ⟨bs, t, uses', run_guard_of (fun a ha u => by rw [hmain a ha]; rfl) ht, hjoin⟩

/-! ## The end of the worker -/

/-- The steps a worker that was stopped still has to take, if it has nothing to hand over. -/
def stepsLeft : Pc → Nat
  | .receive => 3
  | .sleep => 2
  | .head => 1
  | .count | .call | .exited => 0

/-- The steps before the end of the program, once the main thread waits in `join`. -/
def rank (s : App) : Nat := if s.stage = .join then 1 + s.loop.elim 0 fun l => stepsLeft l.pc else 0

theorem rank_le (s : App) : rank s ≤ 4 := by
  unfold rank
  cases s.loop with
  | none => simp; split <;> omega
  | some l => cases hpc : l.pc <;> simp [hpc, stepsLeft] <;> split <;> omega

/-- The worker has been told to stop, and the main thread waits for it or is done. -/
structure Stopping (host : Host) (s : App) : Prop extends Closed host s where
  joining : s.stage = .join ∨ s.stage = .finished

theorem Stopping.not_events (hs : Stopping host s) : s.stage ≠ .events := by
  rcases hs.joining with hst | hst <;> simp [hst]

theorem stopped_step {l l' : Loop Unit} {act : Act Unit} {calls : List (Unit × Bytes)} (hstop : l.channel.stopWorker = true)
    (hpc : l.pc ≠ .count ∧ l.pc ≠ .call) (ha : byWorker act = true) (hm : ∀ a, act = .recv a → message a = none)
    (h : l.step act = some (l', calls)) : stepsLeft l'.pc < stepsLeft l.pc := by
  cases Loop.step_cases h with
  | setCallbackHandler | stop => cases ha
  | @recv a hp => simp [hp, hm a rfl, stepsLeft]
  | test hp | sleep hp => simp [hp, hstop, stepsLeft]
  | count hp => exact absurd hp hpc.1
  | call hp => exact absurd hp hpc.2

theorem stopping_step (hs : Stopping host s) (h : (guard (app host) quiet).step s a = some (s', o)) :
    Stopping host s' ∧ rank s' < rank s := by
  obtain ⟨hclosed, -⟩ := closed_step hs.toClosed h
  obtain ⟨hq, (h : s.step host a = some (s', o))⟩ := guard_step.1 h
  cases a with
  | main =>
    obtain ⟨s', hm, he⟩ := Option.map_eq_some_iff.1 h
    cases he
    have hstage := hs.joining
    cases mainStep_cases hm with
    | join hst => exact ⟨⟨hclosed, .inr rfl⟩, by simp [rank, hst]⟩
    | makeChannel hst _ | refuse hst | makePresenter hst _ | makeView hst | initialise hst _ | initialiseAgain hst _ _
    | showView hst | setStatus hst _ | destroyPresenter hst | stopWorker hst _ => simp [hst] at hstage
  | type message => exact absurd (Option.ite_none_right_eq_some.1 h).1.1 hs.not_events
  | beginSend => exact absurd (Option.ite_none_right_eq_some.1 h).1.1 hs.not_events
  | endSend r =>
    obtain ⟨msg, hmsg, -⟩ := Option.bind_eq_some_iff.1 h
    exact absurd (hs.wired.sending (by simp [hmsg])) hs.not_events
  | close => exact absurd (Option.ite_none_right_eq_some.1 h).1.1 hs.not_events
  | worker act =>
    cases step_cases h with
    | @worker _ l loop calls hl hw ha hl' =>
      have hst : s.stage = .join := by
        refine hs.joining.resolve_right fun hf => ?_
        rw [hs.wired.gone hf] at hl
        cases hl
      have hm : ∀ a, act = .recv a → message a = none := by
        rintro a rfl
        simpa [quiet, hs.view] using hq
      have hlt := stopped_step ((hs.wired.channel l hl).stopped hst) (hs.pc hl hw) ha hm hl'
      exact ⟨⟨hclosed, .inl hst⟩, by simpa [rank, hst, hl] using hlt⟩

theorem run_closed {as : List AppAct} (hrun : run (guard (app host) quiet) start as = some (s, uses))
    (hview : s.view = .destroyed) : Closed host s := by
  obtain ⟨hsane, hheld, -⟩ := run_quiet hrun
  exact ⟨hsane, run_wired (run_guard hrun), hheld, hview⟩

end App

/-! ## The laws -/

/-- **No null pointer is followed.** In every interleaving of the application's life: `SendMessage` finds
`send_socket_` set whenever `OnSendCommand` is about to call it, and `ReceiveMessage` finds
`recv_socket_` set whenever the worker is; every call of `OnMessageReceived` finds a presenter and
`view_` set; and while `Initialise` uses the view, and events are handled, presenter and view exist. -/
theorem pointers_set {host : Host} {as : List AppAct} {s : App} {uses : List Use}
    (hrun : run (app host) .start as = some (s, uses)) :
    (∀ msg, s.sending = some msg → ∀ r, ∃ s', s.step host (.endSend r) = some (s', [])) ∧
    (∀ l, s.loop = some l → l.channel.worker.isSome = true → l.pc = .receive →
      ∀ a, ∃ s', s.step host (.worker (.recv a)) = some (s', [])) ∧
    (∀ u ∈ uses, u.presenter ≠ .unborn ∧ u.view ≠ none) ∧
    (s.stage = .showView ∨ s.stage = .setStatus ∨ s.stage = .events →
      s.presenter = .alive ∧ s.viewSet = true ∧ s.view = .alive) := by
  have hw := App.run_wired hrun
  refine ⟨fun _ => App.endSend_enabled hw, fun _ => App.recv_enabled hw, ?_, ?_⟩
  · have key : App.Sane s ∧ ∀ u ∈ uses, u.presenter ≠ .unborn ∧ u.view ≠ none := by
      refine run_induction (fun _ t out => App.Sane t ∧ ∀ u ∈ out, u.presenter ≠ .unborn ∧ u.view ≠ none)
        ⟨App.sane_start, by simp⟩ ?_ hrun
      rintro _ t out a t' o - ⟨ht, hout⟩ hstep
      refine ⟨App.sane_step ht hstep, ?_⟩
      intro u hu
      exact (List.mem_append.1 hu).elim (hout u) (App.step_uses ht hstep u)
    exact key.2
  · have ho := (App.run_sane hrun).objects
    rintro (hst | hst | hst) <;> simpa [hst, App.objectsAt] using ho

/-- Up to the `recvfrom` of the worker's first iteration, with a message about to be sent. -/
def busy : List AppAct := startUp ++ [.worker .test, .type (lit "hi"), .beginSend]

set_option maxRecDepth 8000 in
theorem pointers_set_busy : ∃ s uses, run (app host) .start busy = some (s, uses) ∧
    (∃ s', s.step host (.endSend .error) = some (s', [])) ∧ ∃ s', s.step host (.worker (.recv .error)) = some (s', []) := by
  have hrun : ∃ s uses, run (app host) .start busy = some (s, uses) ∧ s.sending = some (lit "hi\n") ∧
      ∃ l, s.loop = some l ∧ l.channel.worker.isSome = true ∧ l.pc = .receive := ⟨_, _, rfl, rfl, _, rfl, rfl, rfl⟩
  obtain ⟨s, uses, hrun, hs, l, hl, hw, hpc⟩ := hrun
  obtain ⟨hsend, hrecv, -⟩ := pointers_set hrun
  exact ⟨s, uses, hrun, hsend _ hs _, hrecv l hl hw hpc _⟩

/-- **The status line is the channel's.** In every state of the application's life from `SetStatus` on:
the status line is what `ToString` prints of the channel, and so it stays; it names the address and the
port that `ExtractIpAndPort` stored of each of the two arguments. -/
theorem status_shows_endpoints {host : Host} {as : List AppAct} {s : App} {uses : List Use}
    (hrun : run (app host) .start as = some (s, uses)) (hst : App.statusSet s.stage = true)
    (hfit : ∀ arg ∈ host.argv, Fits arg) :
    (∀ l, s.loop = some l → s.status = l.channel.toString) ∧
    ∃ prog my peer rest myIp myPort peerIp peerPort, host.argv = prog :: my :: peer :: rest ∧
      Stored my myIp myPort ∧ Stored peer peerIp peerPort ∧
      s.status = endpointText myIp myPort ++ lit " <---> " ++ endpointText peerIp peerPort := by
  have hw := App.run_wired hrun
  obtain ⟨c, hc, hstatus⟩ := hw.status hst
  constructor
  · intro l hl
    obtain ⟨c', hc', hends⟩ := (hw.channel l hl).endpoints
    rw [hstatus, hends.toString_eq, hc.unique hc']
  · obtain ⟨prog, my, peer, rest, hargv, hnew⟩ := hc
    rw [hargv] at hfit
    obtain ⟨myIp, myPort, hm, hmstored, -⟩ := extractIpAndPort_stored (hfit my (by simp))
    obtain ⟨peerIp, peerPort, hp, hpstored, -⟩ := extractIpAndPort_stored (hfit peer (by simp))
    obtain rfl : c = _ := Except.ok.inj (hnew.symm.trans (new_eq hm hp))
    exact ⟨prog, my, peer, rest, myIp, myPort, peerIp, peerPort, hargv, hmstored, hpstored,
      hstatus.trans (toString_eq _)⟩

set_option maxRecDepth 8000 in
theorem status_shows_endpoints_loopback : ∃ s uses, run (app host) .start startUp = some (s, uses) ∧
    s.status = lit "127.0.0.1:2000 <---> 127.0.0.1:2001" ∧ ∃ l, s.loop = some l ∧ s.status = l.channel.toString := by
  have hrun : ∃ s uses, run (app host) .start startUp = some (s, uses) ∧ s.stage = .events ∧
      s.status = lit "127.0.0.1:2000 <---> 127.0.0.1:2001" ∧ s.loop.isSome = true := ⟨_, _, rfl, rfl, rfl, rfl⟩
  obtain ⟨s, uses, hrun, hst, hstatus, hl⟩ := hrun
  obtain ⟨l, hl⟩ := Option.isSome_iff_exists.1 hl
  obtain ⟨hshown, -⟩ := status_shows_endpoints hrun (by simp [hst, App.statusSet]) (by decide)
  exact ⟨s, uses, hrun, hstatus, l, hl, hshown l hl⟩

/-- **Shutdown completes.** In every run in which no message is received once the view is destroyed, and
the frame is not closed between the receipt of a message and its hand-over: once the frame is closed no
call of `OnMessageReceived` is made any more, the main thread can go on to the end of the program, and a
run that can go no further has come to it. Once the main thread has set `stopWorker_` and waits in `join`,
every run takes at most four more steps. -/
theorem shutdown_completes {host : Host} {as : List AppAct} {s : App} {uses : List Use}
    (hrun : run (guard (app host) App.quiet) .start as = some (s, uses)) (hview : s.view = .destroyed) :
    (∃ bs t, run (guard (app host) App.quiet) s bs = some (t, []) ∧ t.stage = .finished) ∧
    ∀ bs t uses', run (guard (app host) App.quiet) s bs = some (t, uses') →
      uses' = [] ∧ ((∀ a, (guard (app host) App.quiet).step t a = none) → t.stage = .finished) ∧
      (s.stage = .join → bs.length ≤ 4) := by
  have hs := App.run_closed hrun hview
  constructor
  · by_cases hfin : s.stage = .finished
    · exact ⟨[], s, rfl, hfin⟩
    · obtain ⟨bs, t, uses', ht, hjoin⟩ := App.closed_joins hs hfin
      obtain ⟨htclosed, rfl⟩ := App.closed_run hs ht
      obtain ⟨cs, u, uses'', hu, -, hdone⟩ :=
        run_completes (m := guard (app host) App.quiet) (fun u => u.stage = .finished)
          (fun _ _ _ _ hu hstep => App.stopping_step hu hstep)
          (fun _ hu hne => App.closed_goes_on hu.toClosed hne) (⟨htclosed, .inl hjoin⟩ : App.Stopping host t)
      obtain ⟨-, rfl⟩ := App.closed_run htclosed hu
      exact ⟨bs ++ cs, u, run_append_iff.2 ⟨t, [], [], ht, hu, rfl⟩, hdone⟩
  · intro bs t uses' ht
    obtain ⟨htclosed, rfl⟩ := App.closed_run hs ht
    refine ⟨rfl, ?_, ?_⟩
    · intro hstuck
      by_contra hne
      obtain ⟨a, r, hr⟩ := App.closed_goes_on htclosed hne
      rw [hstuck a] at hr
      cases hr
    · intro hjoin
      have hlen := run_length_le (fun _ _ _ _ hu hstep => App.stopping_step hu hstep)
        (⟨hs, .inl hjoin⟩ : App.Stopping host s) ht
      have hrank := App.rank_le s
      omega

set_option maxRecDepth 8000 in
theorem shutdown_completes_time_out : ∃ s uses,
    run (guard (app host) App.quiet) .start (startUp ++ iteration "hi" ++ [.worker .test, .close, .main, .main]) =
      some (s, uses) ∧
    ∃ t uses', run (guard (app host) App.quiet) s [.worker (.recv .error), .worker .sleep, .worker .test, .main] =
      some (t, uses') ∧ t.stage = .finished ∧ uses' = [] := by
  have hrun : ∃ s uses, run (guard (app host) App.quiet) .start
      (startUp ++ iteration "hi" ++ [.worker .test, .close, .main, .main]) = some (s, uses) ∧ s.view = .destroyed ∧
      ∃ t uses', run (guard (app host) App.quiet) s [.worker (.recv .error), .worker .sleep, .worker .test, .main] =
        some (t, uses') ∧ t.stage = .finished :=
    ⟨_, _, rfl, rfl, _, _, rfl, rfl⟩
  obtain ⟨s, uses, hrun, hview, t, uses', ht, hfin⟩ := hrun
  exact ⟨s, uses, hrun, t, uses', ht, hfin, ((shutdown_completes hrun hview).2 _ _ _ ht).1⟩

end CalcChatter.Chat
